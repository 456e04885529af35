import Mathlib.Data.List.DropRight
import Mathlib.Data.List.Infix

/-!
# The pieces of a list between delimiters

A delimiter is looked for from the left, and where it is found the list is cut, before it and
behind it.  The pieces with the delimiter between them are the list again
(`intercalate_pieces`); lists without the one element of the delimiter are the pieces of what they
are joined to (`pieces_intercalate`).
-/

namespace CimArm.Pieces

open List

variable {α : Type} [DecidableEq α] {d s : List α}

/-- Where the delimiter is found first. -/
def find (d : List α) : List α → Option Nat
  | [] => if d = [] then some 0 else none
  | c :: s => if d.isPrefixOf (c :: s) then some 0 else (find d s).map (· + 1)

variable {i : Nat}

theorem find_starts (found : find d s = some i) : d <+: s.drop i := by
  induction s generalizing i with
  | nil =>
    rw [find] at found
    split_ifs at found with empty
    obtain rfl := Option.some.inj found
    simp [empty]
  | cons c s ih =>
    rw [find] at found
    split_ifs at found with here
    · obtain rfl := Option.some.inj found
      exact isPrefixOf_iff_prefix.1 here
    · obtain ⟨j, later, rfl⟩ := Option.map_eq_some_iff.1 found
      exact ih later

theorem not_prefix_of_lt {j : Nat} (found : find d s = some i) (before : j < i) :
    ¬ d <+: s.drop j := by
  induction s generalizing i j with
  | nil =>
    rw [find] at found
    split_ifs at found
    obtain rfl := Option.some.inj found
    exact absurd before (Nat.not_lt_zero j)
  | cons c s ih =>
    rw [find] at found
    split_ifs at found with here
    · obtain rfl := Option.some.inj found
      exact absurd before (Nat.not_lt_zero j)
    · obtain ⟨k, later, rfl⟩ := Option.map_eq_some_iff.1 found
      cases j with
      | zero => exact fun starts => here (List.isPrefixOf_iff_prefix.2 starts)
      | succ j => exact ih later (Nat.lt_of_succ_lt_succ before)

theorem split_of_find (found : find d s = some i) :
    s = s.take i ++ (d ++ s.drop (i + d.length)) := by
  obtain ⟨rest, same⟩ := find_starts found
  have behind : s.drop (i + d.length) = rest := by
    rw [← drop_drop, ← same, drop_left]
  rw [behind, same, take_append_drop]

theorem length_of_find (found : find d s = some i) :
    (s.take i).length = i ∧ i + d.length + (s.drop (i + d.length)).length = s.length := by
  have starts := (find_starts found).length_le
  rw [length_drop] at starts
  rw [length_take, length_drop]
  rcases Nat.lt_or_ge s.length i with past | inside
  · -- nothing is found behind the end
    have empty : d = [] := eq_nil_of_length_eq_zero (by omega)
    have last := not_prefix_of_lt found past
    exact absurd (empty ▸ nil_prefix) last
  · omega

/-- The pieces, from the left. -/
def pieces (d : List α) (nonempty : d ≠ []) (s : List α) : List (List α) :=
  match _ : find d s with
  | none => [s]
  | some i => s.take i :: pieces d nonempty (s.drop (i + d.length))
termination_by s.length
decreasing_by
  have length := (length_of_find ‹find d s = some i›).2
  have positive := length_pos_iff.2 nonempty
  omega

theorem pieces_of_none (nonempty : d ≠ []) (found : find d s = none) :
    pieces d nonempty s = [s] := by
  rw [pieces]
  split
  · rfl
  · next some => exact absurd (found.symm.trans some) (Option.some_ne_none _).symm

theorem pieces_of_some (nonempty : d ≠ []) (found : find d s = some i) :
    pieces d nonempty s = s.take i :: pieces d nonempty (s.drop (i + d.length)) := by
  rw [pieces]
  split
  · next none => exact absurd (found.symm.trans none) (Option.some_ne_none _)
  · next j some =>
    obtain rfl := Option.some.inj (found.symm.trans some)
    rfl

theorem pieces_ne_nil (nonempty : d ≠ []) (s : List α) : pieces d nonempty s ≠ [] := by
  cases found : find d s with
  | none => rw [pieces_of_none nonempty found]; exact cons_ne_nil _ _
  | some i => rw [pieces_of_some nonempty found]; exact cons_ne_nil _ _

theorem intercalate_pieces (nonempty : d ≠ []) (s : List α) :
    d.intercalate (pieces d nonempty s) = s := by
  cases found : find d s with
  | none => rw [pieces_of_none nonempty found, intercalate_singleton]
  | some i =>
    have length := (length_of_find found).2
    have positive := length_pos_iff.2 nonempty
    rw [pieces_of_some nonempty found, intercalate_cons_of_ne_nil (pieces_ne_nil nonempty _),
      intercalate_pieces nonempty (s.drop (i + d.length)), append_assoc]
    exact (split_of_find found).symm
termination_by s.length
decreasing_by omega

variable {c : α}

theorem find_singleton_none {s : List α} (absent : c ∉ s) : find [c] s = none := by
  induction s with
  | nil => rfl
  | cons a s ih =>
    rw [mem_cons, not_or] at absent
    rw [find, if_neg, ih absent.2]
    · rfl
    · simpa using absent.1

theorem find_singleton {t : List α} (absent : c ∉ t) (rest : List α) :
    find [c] (t ++ [c] ++ rest) = some t.length := by
  induction t with
  | nil =>
    rw [nil_append, singleton_append, find, if_pos (by simp)]
    rfl
  | cons a t ih =>
    rw [mem_cons, not_or] at absent
    rw [cons_append, cons_append, find, if_neg, ih absent.2]
    · rfl
    · simpa using absent.1

theorem pieces_intercalate {texts : List (List α)} (some : texts ≠ [])
    (absent : ∀ t ∈ texts, c ∉ t) :
    pieces [c] (cons_ne_nil c []) ([c].intercalate texts) = texts := by
  induction texts with
  | nil => exact absurd rfl some
  | cons t texts ih =>
    have here := absent t mem_cons_self
    cases texts with
    | nil =>
      rw [intercalate_singleton, pieces_of_none _ (find_singleton_none here)]
    | cons next texts =>
      rw [intercalate_cons_of_ne_nil (cons_ne_nil _ _),
        pieces_of_some _ (find_singleton here _), ← length_append, drop_left,
        append_assoc, take_left,
        ih (cons_ne_nil _ _) fun t member => absent t (mem_cons_of_mem _ member)]

end CimArm.Pieces
