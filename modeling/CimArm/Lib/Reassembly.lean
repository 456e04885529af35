import Mathlib.Data.List.Basic

/-!
# Reassembly of a text from chunks

What arrives is read in chunks, and collected until the text so far is complete.  Where a text is
complete and none of its beginnings is, the loop takes all its chunks and none that follow,
however the text is split.
-/

namespace CimArm.Reassembly

open List

variable {α ε : Type*}

/-- At most `qty` elements of what arrives; the rest of a chunk stays. -/
def read (qty : Nat) : List (List α) → Option (List α × List (List α))
  | [] => none
  | chunk :: chunks =>
    some (chunk.take qty, if qty < chunk.length then chunk.drop qty :: chunks else chunks)

/-- Reads into a buffer with place for `room` elements until the judge finds the text complete.
Without anything that arrives the reader is `idle`; a read of nothing ends the loop with `ended`.
Each round that goes on has read something, so that `room` rounds fill the buffer. -/
def collect (judge : List α → Except ε Bool) (idle ended : ε) (room : Nat) :
    Nat → List (List α) → List α → Except ε (List α × List (List α))
  | 0, _, _ => .error ended
  | fuel + 1, chunks, text =>
    match read (room - text.length) chunks with
    | none => .error idle
    | some (chunk, chunks) =>
      if chunk = [] then .error ended
      else
        match judge (text ++ chunk) with
        | .error e => .error e
        | .ok true => .ok (text ++ chunk, chunks)
        | .ok false => collect judge idle ended room fuel chunks (text ++ chunk)

/-- A text that is complete, and no beginning of it is. -/
structure Judged (judge : List α → Except ε Bool) (whole : List α) : Prop where
  complete : judge whole = .ok true
  incomplete : ∀ text, text <+: whole → text ≠ [] → text ≠ whole → judge text = .ok false

theorem read_append {room : Nat} {chunk : List α} (fits : chunk.length ≤ room)
    (chunks : List (List α)) : read room (chunk :: chunks) = some (chunk, chunks) := by
  rw [read, take_of_length_le fits, if_neg (Nat.not_lt.2 fits)]

theorem Judged.collect_eq {judge : List α → Except ε Bool} {whole : List α}
    (judged : Judged judge whole) (idle ended : ε) {room : Nat} (fits : whole.length ≤ room)
    {chunks : List (List α)} (some : chunks ≠ []) (nonempty : ∀ chunk ∈ chunks, chunk ≠ [])
    {text : List α} (split : text ++ chunks.flatten = whole) (more : List (List α)) {fuel : Nat}
    (enough : chunks.length ≤ fuel) :
    collect judge idle ended room fuel (chunks ++ more) text = .ok (whole, more) := by
  induction chunks generalizing text fuel with
  | nil => exact absurd rfl some
  | cons chunk chunks ih =>
    obtain ⟨fuel, rfl⟩ : ∃ n, fuel = n + 1 :=
      Nat.exists_eq_succ_of_ne_zero (Nat.ne_of_gt (Nat.lt_of_lt_of_le (Nat.succ_pos _) enough))
    have first := nonempty chunk mem_cons_self
    have size := congrArg List.length split
    simp only [flatten_cons, length_append] at size
    rw [cons_append, collect, read_append (by omega)]
    dsimp only
    rw [if_neg first]
    cases chunks with
    | nil =>
      rw [flatten_singleton] at split
      rw [split, judged.complete]
      rfl
    | cons next chunks =>
      have head := nonempty next (mem_cons_of_mem _ mem_cons_self)
      have later : (text ++ chunk) ++ (next :: chunks).flatten = whole := by
        rw [← split, append_assoc]
        rfl
      have shorter : text ++ chunk ≠ whole := by
        intro same
        rw [← same, append_right_eq_self, flatten_cons] at later
        exact head (append_eq_nil_iff.1 later).1
      rw [judged.incomplete _ ⟨_, later⟩ (fun none => first (append_eq_nil_iff.1 none).2) shorter]
      exact ih (cons_ne_nil _ _) (fun c member => nonempty c (mem_cons_of_mem _ member))
        later (Nat.le_of_succ_le_succ enough)

end CimArm.Reassembly
