import Mathlib.Tactic.Common

/-!
# Searching a sorted sequence stored in parts

A sequence sorted by a key and cut into nonempty parts can be searched through
the first keys of its parts alone: a key occurs in the sequence exactly when it
occurs in the last of the leading parts that start at or below it.
-/

namespace CimArm.SortedParts

open List

variable {α : Type} (key : α → Nat) (v : Nat)

/-- The part starts at or below the value. -/
def startsBy : List α → Bool
  | [] => true
  | a :: _ => key a ≤ v

/-- The leading parts that start at or below the value. -/
def leading (parts : List (List α)) : List (List α) := parts.takeWhile (startsBy key v)

variable {key v} {part : List α} {parts : List (List α)}

theorem leading_cons_of_startsBy (h : startsBy key v part = true) :
    leading key v (part :: parts) = part :: leading key v parts := by
  simp [leading, h]

theorem leading_map {β : Type} {records : β → List α} {below : β → Bool} {index : List β}
    (starts : ∀ b ∈ index, startsBy key v (records b) = below b) :
    leading key v (index.map records) = (index.takeWhile below).map records := by
  induction index with
  | nil => rfl
  | cons b rest ih =>
    have ih := ih fun b' hb' => starts b' (mem_cons_of_mem b hb')
    cases hb : below b with
    | true =>
      rw [map_cons, leading_cons_of_startsBy ((starts b mem_cons_self).trans hb), ih]
      simp [hb]
    | false => simp [leading, (starts b mem_cons_self).trans hb, hb]

theorem lt_of_not_startsBy (h : startsBy key v part = false)
    (sorted : (part ++ parts.flatten).Pairwise fun a b => key a ≤ key b) :
    ∀ a ∈ part ++ parts.flatten, v < key a := by
  cases part with
  | nil => simp [startsBy] at h
  | cons first rest =>
    simp only [startsBy, decide_eq_false_iff_not, Nat.not_le] at h
    rw [cons_append, pairwise_cons] at sorted
    intro a ha
    rw [cons_append, mem_cons] at ha
    rcases ha with rfl | ha
    · exact h
    · exact Nat.lt_of_lt_of_le h (sorted.1 a ha)

theorem exists_of_leading (filled : [] ∉ parts) (more : leading key v parts ≠ [])
    (sorted : (part ++ parts.flatten).Pairwise fun a b => key a ≤ key b)
    {a : α} (ha : a ∈ part) (hv : key a = v) : ∃ b ∈ parts.flatten, key b = v := by
  cases parts with
  | nil => simp [leading] at more
  | cons next rest =>
    cases next with
    | nil => simp at filled
    | cons b others =>
      have below : key b ≤ v := by
        by_contra above
        exact more (by simp [leading, startsBy, above])
      have hb : b ∈ ((b :: others) :: rest).flatten := by simp
      have := (pairwise_append.1 sorted).2.2 a ha b hb
      exact ⟨b, hb, by omega⟩

theorem exists_iff (filled : [] ∉ parts)
    (sorted : parts.flatten.Pairwise fun a b => key a ≤ key b) :
    (∃ a ∈ parts.flatten, key a = v) ↔
      ∃ part, (leading key v parts).getLast? = some part ∧ ∃ a ∈ part, key a = v := by
  induction parts with
  | nil => simp [leading]
  | cons part rest ih =>
    rw [flatten_cons] at sorted
    simp only [mem_cons, not_or] at filled
    have ih := ih filled.2 (pairwise_append.1 sorted).2.1
    cases starts : startsBy key v part with
    | false =>
      have above := lt_of_not_startsBy starts sorted
      have none : leading key v (part :: rest) = [] := by simp [leading, starts]
      rw [none]
      refine ⟨fun ⟨a, ha, hv⟩ => ?_, fun ⟨_, h, _⟩ => by simp at h⟩
      have := above a (by simpa using ha)
      omega
    | true =>
      rw [leading_cons_of_startsBy starts, flatten_cons]
      rcases hrest : leading key v rest with - | ⟨next, others⟩
      · -- this is the last leading part
        have absent : ¬ ∃ a ∈ rest.flatten, key a = v := by
          rw [ih, hrest]
          simp
        refine ⟨fun ⟨a, ha, hv⟩ => ⟨part, rfl, a, ?_, hv⟩, fun ⟨last, hlast, a, ha, hv⟩ => ?_⟩
        · rcases mem_append.1 ha with ha | ha
          · exact ha
          · exact absurd ⟨a, ha, hv⟩ absent
        · obtain rfl : part = last := by simpa using hlast
          exact ⟨a, mem_append_left _ ha, hv⟩
      · have later : (part :: next :: others).getLast? = (leading key v rest).getLast? := by
          rw [hrest]
          simp [List.getLast?_cons]
        rw [later, ← ih]
        refine ⟨fun ⟨a, ha, hv⟩ => ?_, fun ⟨a, ha, hv⟩ => ⟨a, mem_append_right _ ha, hv⟩⟩
        rcases mem_append.1 ha with ha | ha
        · exact exists_of_leading filled.2 (by simp [hrest]) sorted ha hv
        · exact ⟨a, ha, hv⟩

/-- A sorted sequence that starts at the value starts with all elements that have it. -/
theorem takeWhile_eq_filter {l : List α} (sorted : l.Pairwise fun a b => key a ≤ key b)
    (least : ∀ a ∈ l, v ≤ key a) :
    l.takeWhile (fun a => key a = v) = l.filter fun a => key a = v := by
  induction l with
  | nil => rfl
  | cons a rest ih =>
    obtain ⟨le, sorted⟩ := pairwise_cons.1 sorted
    by_cases first : key a = v
    · rw [takeWhile_cons_of_pos (by simpa using first), filter_cons_of_pos (by simpa using first),
        ih sorted fun b hb => least b (mem_cons_of_mem a hb)]
    · have above := least a (by simp)
      rw [takeWhile_cons_of_neg (by simpa using first), eq_comm, filter_eq_nil_iff]
      intro b hb same
      have same : key b = v := of_decide_eq_true same
      rcases mem_cons.1 hb with rfl | hb
      · exact first same
      · have := le b hb
        omega

/-- In a sorted sequence the elements with the value follow one another, after those
below it. -/
theorem takeWhile_drop_eq_filter {l : List α} {m : Nat}
    (sorted : l.Pairwise fun a b => key a ≤ key b)
    (below : ∀ j a, j < m → l[j]? = some a → key a < v)
    (here : ∀ a, l[m]? = some a → key a = v) :
    (l.drop m).takeWhile (fun a => key a = v) = l.filter fun a => key a = v := by
  have sorted' := sorted.sublist (drop_sublist m l)
  have least (a : α) (ha : a ∈ l.drop m) : v ≤ key a := by
    cases rest : l.drop m with
    | nil => simp [rest] at ha
    | cons b tail =>
      have hb : key b = v := here b (by rw [← List.head?_drop, rest]; rfl)
      rw [rest] at ha sorted'
      rcases mem_cons.1 ha with rfl | ha
      · exact Nat.le_of_eq hb.symm
      · exact hb ▸ (pairwise_cons.1 sorted').1 a ha
  have none : (l.take m).filter (fun a => key a = v) = [] := by
    rw [filter_eq_nil_iff]
    intro a ha same
    obtain ⟨j, hj, rfl⟩ := mem_take_iff_getElem.1 ha
    have := below j l[j] (by omega) (List.getElem?_eq_getElem _)
    have same : key l[j] = v := of_decide_eq_true same
    omega
  rw [takeWhile_eq_filter sorted' least]
  conv_rhs => rw [← take_append_drop m l, filter_append, none, nil_append]

/-- Parts that grow in rank, each with an element, spread over as many ranks: an
element of the first one is that far below a bound of all ranks. -/
theorem rank_add_length_le (rank : α → Nat) (top : Nat) {first : List α} (nonempty : ∀ part ∈ parts, part ≠ [])
    (apart : (first :: parts).Pairwise fun p q => ∀ a ∈ p, ∀ b ∈ q, rank a < rank b)
    (below : ∀ part ∈ first :: parts, ∀ b ∈ part, rank b < top) {a : α} (ha : a ∈ first) :
    rank a + (first :: parts).length ≤ top := by
  induction parts generalizing first a with
  | nil => exact below first (by simp) a ha
  | cons next parts ih =>
    obtain ⟨lt, apart'⟩ := pairwise_cons.1 apart
    obtain ⟨b, hb⟩ := exists_mem_of_ne_nil next (nonempty next (by simp))
    have rest := ih (fun part h => nonempty part (by simp [h])) apart'
      (fun part h => below part (mem_cons_of_mem _ h)) hb
    have step := lt next (by simp) a ha b hb
    rw [length_cons]
    omega

end CimArm.SortedParts
