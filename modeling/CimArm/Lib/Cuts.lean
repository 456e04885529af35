import Mathlib.Data.List.Basic

/-!
# Lists cut into pieces that end at a stop

A list is cut behind elements at which a cut may be made, into pieces that all but the last have a
least length.  Who cuts each time as early as this allows gets at least as many pieces as any
other cut has.
-/

namespace CimArm.Cuts

open List

variable {α : Type*} (stop : α → Prop) (least : Nat)

/-- A piece behind which the list may go on. -/
structure Whole (piece : List α) : Prop where
  long : least ≤ piece.length
  stops : ∃ body last, piece = body ++ [last] ∧ stop last

/-- The pieces of a list. -/
structure Cut (pieces : List (List α)) (l : List α) : Prop where
  flatten : pieces.flatten = l
  nonempty : ∀ piece ∈ pieces, piece ≠ []
  whole : ∀ piece ∈ pieces.dropLast, Whole stop least piece

/-- The first piece of a cut that is made as early as may be. -/
structure First (piece rest : List α) : Prop where
  nonempty : piece ≠ []
  whole : rest ≠ [] → Whole stop least piece
  earliest : ∀ other behind, piece ++ rest = other ++ behind → Whole stop least other →
    piece.length ≤ other.length

/-- Each piece is cut as early as may be. -/
inductive Greedy : List (List α) → List α → Prop
  | nil : Greedy [] []
  | cons {piece rest : List α} {pieces : List (List α)} (first : First stop least piece rest)
    (others : Greedy pieces rest) : Greedy (piece :: pieces) (piece ++ rest)

variable {stop least}

variable {pieces : List (List α)} {l : List α}

theorem Greedy.ne_nil (greedy : Greedy stop least pieces l) (some : l ≠ []) : pieces ≠ [] := by
  cases greedy with
  | nil => exact absurd rfl some
  | cons first others => exact cons_ne_nil _ _

theorem Greedy.cut (greedy : Greedy stop least pieces l) : Cut stop least pieces l := by
  induction greedy with
  | nil => exact ⟨rfl, by simp, by simp⟩
  | @cons piece rest pieces first others ih =>
    refine ⟨by rw [flatten_cons, ih.flatten], ?_, ?_⟩
    · exact forall_mem_cons.2 ⟨first.nonempty, ih.nonempty⟩
    · cases pieces with
      | nil => simp
      | cons next pieces =>
        have more : rest ≠ [] := by
          rintro rfl
          have head := ih.nonempty next mem_cons_self
          exact head (append_eq_nil_iff.1 ih.flatten).1
        rw [dropLast_cons_of_ne_nil (cons_ne_nil _ _)]
        exact forall_mem_cons.2 ⟨first.whole more, ih.whole⟩

/-- A piece with something in front of it is still one behind which the list may go on. -/
theorem Whole.append {piece : List α} (whole : Whole stop least piece) (front : List α) :
    Whole stop least (front ++ piece) := by
  obtain ⟨body, last, split, stops⟩ := whole.stops
  refine ⟨?_, front ++ body, last, by rw [split, append_assoc], stops⟩
  rw [length_append]
  exact Nat.le_trans whole.long (Nat.le_add_left _ _)

theorem Greedy.length_ge {others : List (List α)} (greedy : Greedy stop least pieces l)
    (cut : Cut stop least others l) : others.length ≤ pieces.length := by
  induction greedy generalizing others with
  | nil =>
    cases others with
    | nil => exact Nat.le_refl 0
    | cons other others =>
      have head := cut.nonempty other mem_cons_self
      exact absurd (append_eq_nil_iff.1 cut.flatten).1 head
  | @cons piece rest pieces first greedy ih =>
    rcases others with _ | ⟨other, _ | ⟨next, others⟩⟩
    · exact Nat.zero_le _
    · exact Nat.succ_le_succ (Nat.zero_le _)
    · have whole : Whole stop least other :=
        cut.whole other (by rw [dropLast_cons_of_ne_nil (cons_ne_nil _ _)]; simp)
      have split : piece ++ rest = other ++ (next :: others).flatten := cut.flatten.symm
      -- what the other cut has more in its first piece goes to the front of its second one
      obtain ⟨more, rfl⟩ : piece <+: other :=
        prefix_of_prefix_length_le ⟨rest, rfl⟩ ⟨_, split.symm⟩
          (first.earliest other _ split whole)
      have rest_eq : rest = (more ++ next) ++ others.flatten := by
        rw [append_assoc] at split
        simpa using append_cancel_left split
      refine Nat.succ_le_succ (@ih ((more ++ next) :: others) ⟨?_, ?_, ?_⟩)
      · rw [flatten_cons, rest_eq]
      · have nonempty := cut.nonempty
        simp only [forall_mem_cons] at nonempty ⊢
        exact ⟨fun none => nonempty.2.1 (append_eq_nil_iff.1 none).2, nonempty.2.2⟩
      · have wholes := cut.whole
        rw [dropLast_cons_of_ne_nil (cons_ne_nil _ _), forall_mem_cons] at wholes
        cases others with
        | nil => simp
        | cons last others =>
          have later := wholes.2
          rw [dropLast_cons_of_ne_nil (cons_ne_nil _ _), forall_mem_cons] at later ⊢
          exact ⟨later.1.append more, later.2⟩

theorem Cut.length_mul_lt (cut : Cut stop least pieces l) (some : pieces ≠ []) :
    (pieces.length - 1) * least < l.length := by
  obtain ⟨front, last, rfl⟩ := (eq_nil_or_concat pieces).resolve_left some
  have wholes := cut.whole
  have ends := cut.nonempty last (by simp)
  have flatten := congrArg List.length cut.flatten
  rw [concat_eq_append, dropLast_concat] at wholes
  rw [concat_eq_append, flatten_append, flatten_singleton, length_append]
    at flatten
  have front_length : ∀ front : List (List α), (∀ piece ∈ front, Whole stop least piece) →
      front.length * least ≤ front.flatten.length := by
    intro front wholes
    induction front with
    | nil => simp
    | cons piece front ih =>
      rcases forall_mem_cons.1 wholes with ⟨first, rest⟩
      rw [length_cons, Nat.succ_mul, flatten_cons, length_append]
      have := ih rest
      have := first.long
      omega
  have few := front_length front wholes
  have positive := length_pos_iff.2 ends
  rw [concat_eq_append, length_append, length_singleton, Nat.add_sub_cancel]
  omega

end CimArm.Cuts
