import Mathlib.Data.List.Basic

/-!
# Two processes and the messages between them

Two sequential processes write and read messages over one queue in each direction.  A read
waits for a message; of one that is longer than what is asked for, the rest stays.  What a
process does depends only on what it has been sent, so a move of one side and a move of the
other commute (`Net.Step.diamond`), and when some run comes to a halt every run does, in the
same state and after as many steps (`Steps.unique`).
-/

namespace CimArm.Duplex

open List

/-- A process that writes and reads messages, with the answer of each write and read:
whether it was written, and what was read if anything was. -/
inductive Proc (B A : Type) : Type
  | done (result : A)
  | write (message : List B) (next : Bool → Proc B A)
  | read (qty : Nat) (next : Option (List B) → Proc B A)

variable {B A A' : Type}

/-- A move of a process over channels that neither lose nor fail: the process after it,
what is left to read and what is written. -/
def Proc.move : Proc B A → List (List B) → Option (Proc B A × List (List B) × List (List B))
  | .done _, _ => none
  | .write message next, inbox => some (next true, inbox, [message])
  | .read _ _, [] => none
  | .read qty next, message :: inbox =>
    some (next (some (message.take qty)),
      if message.length ≤ qty then inbox else message.drop qty :: inbox, [])

theorem Proc.move_append {p p' : Proc B A} {inbox inbox' out : List (List B)}
    (moves : p.move inbox = some (p', inbox', out)) (more : List (List B)) :
    p.move (inbox ++ more) = some (p', inbox' ++ more, out) := by
  cases p with
  | done => cases moves
  | write message next =>
    obtain ⟨rfl, rfl, rfl⟩ : next true = p' ∧ inbox = inbox' ∧ [message] = out := by
      simpa [move] using moves
    rfl
  | read qty next =>
    cases inbox with
    | nil => cases moves
    | cons message inbox =>
      rw [move, Option.some.injEq, Prod.mk.injEq, Prod.mk.injEq] at moves
      obtain ⟨rfl, rfl, rfl⟩ := moves
      rw [cons_append, move]
      split_ifs <;> rfl

/-- The result of a process that has had just these answers to its writes and reads. -/
def Proc.feed : Proc B A → List Bool → List (Option (List B)) → Option A
  | .done result, [], [] => some result
  | .done _, _, _ => none
  | .write _ next, written :: writes, reads => (next written).feed writes reads
  | .write _ _, [], _ => none
  | .read _ next, writes, answer :: reads => (next answer).feed writes reads
  | .read _ _, _, [] => none

/-! ## Both sides -/

/-- The two sides and the messages on their way. -/
structure Net (B A A' : Type) : Type where
  left : Proc B A
  right : Proc B A'
  toRight : List (List B)
  toLeft : List (List B)

namespace Net

/-- One of the sides moves. -/
inductive Step : Net B A A' → Net B A A' → Prop
  | left {s : Net B A A'} {p : Proc B A} {inbox out : List (List B)}
      (moves : s.left.move s.toLeft = some (p, inbox, out)) :
      Step s { s with left := p, toLeft := inbox, toRight := s.toRight ++ out }
  | right {s : Net B A A'} {p : Proc B A'} {inbox out : List (List B)}
      (moves : s.right.move s.toRight = some (p, inbox, out)) :
      Step s { s with right := p, toRight := inbox, toLeft := s.toLeft ++ out }

/-- Neither side can move. -/
def Halted (s : Net B A A') : Prop := ∀ s', ¬ s.Step s'

theorem Step.diamond {s a b : Net B A A'} (first : s.Step a) (second : s.Step b) :
    a = b ∨ ∃ c, a.Step c ∧ b.Step c := by
  cases first with
  | left moves =>
    cases second with
    | left moves' =>
      cases moves.symm.trans moves'
      exact .inl rfl
    | right moves' =>
      exact .inr ⟨_, .right (Proc.move_append moves' _), .left (Proc.move_append moves _)⟩
  | right moves =>
    cases second with
    | left moves' =>
      exact .inr ⟨_, .left (Proc.move_append moves' _), .right (Proc.move_append moves _)⟩
    | right moves' =>
      cases moves.symm.trans moves'
      exact .inl rfl

/-- A run of so many moves. -/
inductive Steps : Nat → Net B A A' → Net B A A' → Prop
  | refl (s : Net B A A') : Steps 0 s s
  | step {n : Nat} {s s' t : Net B A A'} (first : s.Step s') (rest : Steps n s' t) :
      Steps (n + 1) s t

namespace Steps

variable {n k : Nat} {s t u : Net B A A'}

theorem trans (first : Steps n s t) (rest : Steps k t u) : Steps (k + n) s u := by
  induction first with
  | refl => exact rest
  | step move _ ih => exact .step move (ih rest)

theorem after_step (run : Steps n s t) (halted : t.Halted) (move : s.Step u) :
    ∃ m, n = m + 1 ∧ Steps m u t := by
  induction run generalizing u with
  | refl => exact absurd move (halted u)
  | step first rest ih =>
    rcases first.diamond move with rfl | ⟨c, other, same⟩
    · exact ⟨_, rfl, rest⟩
    · obtain ⟨m, rfl, onward⟩ := ih halted other
      exact ⟨m + 1, rfl, .step same onward⟩

theorem unique (run : Steps n s t) (halted : t.Halted) (other : Steps k s u) :
    ∃ m, m + k = n ∧ Steps m u t := by
  induction other generalizing n with
  | refl => exact ⟨n, rfl, run⟩
  | step move _ ih =>
    obtain ⟨m, rfl, rest⟩ := run.after_step halted move
    obtain ⟨j, length, last⟩ := ih rest
    exact ⟨j, by omega, last⟩

theorem eq_of_halted (run : Steps k s u) (halted : s.Halted) : u = s := by
  cases run with
  | refl => rfl
  | step move => exact absurd move (halted _)

end Steps

/-- Every run ends, in a state with a property. -/
structure Ends (P : Net B A A' → Prop) (s : Net B A A') : Prop where
  ends : ∃ n, ∀ k u, Steps k s u → k ≤ n
  holds : ∀ k u, Steps k s u → u.Halted → P u

theorem ends_iff {P : Net B A A' → Prop} {n : Nat} {s t : Net B A A'} (run : Steps n s t)
    (halted : t.Halted) : Ends P s ↔ P t := by
  refine ⟨fun ends => ends.holds n t run halted, fun holds => ⟨⟨n, ?_⟩, ?_⟩⟩
  · intro k u other
    obtain ⟨m, length, -⟩ := run.unique halted other
    omega
  · intro k u other stops
    obtain ⟨m, -, rest⟩ := run.unique halted other
    obtain rfl := rest.eq_of_halted stops
    exact holds

/-! ## Runs by the moves of each side -/

section moves

variable {left left' : Proc B A} {right right' : Proc B A'} {toRight toLeft : List (List B)}

variable {message : List B} {qty : Nat}

theorem Steps.write_left {next : Bool → Proc B A} :
    Steps 1 ⟨.write message next, right, toRight, toLeft⟩
      ⟨next true, right, toRight ++ [message], toLeft⟩ :=
  .step (.left rfl) (.refl _)

theorem Steps.write_right {next : Bool → Proc B A'} :
    Steps 1 ⟨left, .write message next, toRight, toLeft⟩
      ⟨left, next true, toRight, toLeft ++ [message]⟩ :=
  .step (.right rfl) (.refl _)

theorem Steps.read_left {next : Option (List B) → Proc B A} (whole : message.length ≤ qty) :
    Steps 1 ⟨.read qty next, right, toRight, message :: toLeft⟩
      ⟨next (some message), right, toRight, toLeft⟩ := by
  have moves : (Proc.read qty next).move (message :: toLeft) =
      some (next (some message), toLeft, []) := by
    rw [Proc.move, take_of_length_le whole, if_pos whole]
  have step := Step.left (s := ⟨.read qty next, right, toRight, message :: toLeft⟩) moves
  rw [append_nil] at step
  exact .step step (.refl _)

theorem Steps.read_right {next : Option (List B) → Proc B A'} (whole : message.length ≤ qty) :
    Steps 1 ⟨left, .read qty next, message :: toRight, toLeft⟩
      ⟨left, next (some message), toRight, toLeft⟩ := by
  have moves : (Proc.read qty next).move (message :: toRight) =
      some (next (some message), toRight, []) := by
    rw [Proc.move, take_of_length_le whole, if_pos whole]
  have step := Step.right (s := ⟨left, .read qty next, message :: toRight, toLeft⟩) moves
  rw [append_nil] at step
  exact .step step (.refl _)

theorem halted_of_done {a : A} {a' : A'} :
    Halted (⟨.done a, .done a', toRight, toLeft⟩ : Net B A A') := by
  intro s' move
  cases move with
  | left moves => cases moves
  | right moves => cases moves

theorem halted_of_wait {a' : A'} {next : Option (List B) → Proc B A} :
    Halted (⟨.read qty next, .done a', toRight, []⟩ : Net B A A') := by
  intro s' move
  cases move with
  | left moves => cases moves
  | right moves => cases moves

end moves

end Net

end CimArm.Duplex
