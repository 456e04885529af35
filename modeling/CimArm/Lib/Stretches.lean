import Mathlib.Data.List.Basic

/-!
# Lists cut behind their stops

A list is cut behind each element that is a stop, so a text becomes its lines and lines become
the stretches between two marks.  The stretches of a list are the only way to cut it so:
`Cut.stretches_flatten` gives them back from what they make together.
-/

namespace CimArm.Stretches

open List

variable {α : Type} (stop : α → Bool)

def stretches : List α → List (List α)
  | [] => []
  | a :: l =>
    if stop a then [a] :: stretches l
    else
      match stretches l with
      | [] => [[a]]
      | s :: others => (a :: s) :: others

/-- No element is a stop. -/
def Open (l : List α) : Prop := ∀ a ∈ l, stop a = false

/-- A list of stretches: each one ends with its only stop, but the last one need not. -/
inductive Cut : List (List α) → Prop
  | nil : Cut []
  | last {l : List α} (some : l ≠ []) (free : Open stop l) : Cut [l]
  | cons {body : List α} {a : α} {others : List (List α)} (free : Open stop body)
    (stops : stop a = true) (rest : Cut others) : Cut ((body ++ [a]) :: others)

variable {stop}

@[simp] theorem Open.nil : Open stop [] := by
  intro a member
  exact absurd member not_mem_nil

theorem Open.cons {a : α} {l : List α} : Open stop (a :: l) ↔ stop a = false ∧ Open stop l :=
  forall_mem_cons

/-! ## How a list begins -/

theorem stretches_closed {body : List α} {a : α} (free : Open stop body) (stops : stop a = true)
    (l : List α) : stretches stop (body ++ a :: l) = (body ++ [a]) :: stretches stop l := by
  induction body with
  | nil => rw [nil_append, stretches, if_pos stops, nil_append]
  | cons b body ih =>
    obtain ⟨first, free⟩ := Open.cons.1 free
    rw [cons_append, stretches, if_neg (by simp [first]), ih free]
    rfl

theorem stretches_open {l : List α} (some : l ≠ []) (free : Open stop l) :
    stretches stop l = [l] := by
  induction l with
  | nil => exact absurd rfl some
  | cons a l ih =>
    obtain ⟨first, free⟩ := Open.cons.1 free
    rw [stretches, if_neg (by simp [first])]
    by_cases empty : l = []
    · rw [empty]
      rfl
    · rw [ih empty free]

variable (stop) in
theorem stretches_induction {motive : List α → Prop} (nil : motive [])
    (last : ∀ l, l ≠ [] → Open stop l → motive l)
    (cons : ∀ body a l, Open stop body → stop a = true → motive l → motive (body ++ a :: l))
    (l : List α) : motive l := by
  have behind : ∀ body, Open stop body → motive (body ++ l) := by
    induction l with
    | nil =>
      intro body free
      rw [append_nil]
      by_cases empty : body = []
      · rw [empty]
        exact nil
      · exact last body empty free
    | cons a l ih =>
      intro body free
      cases stops : stop a with
      | true => exact cons body a l free stops (ih [] .nil)
      | false =>
        rw [append_cons]
        apply ih
        intro b member
        rcases mem_append.1 member with early | here
        · exact free b early
        · rwa [mem_singleton.1 here]
  exact behind [] .nil

/-! ## The stretches of a list and their elements -/

variable (stop) in
theorem cut_stretches (l : List α) : Cut stop (stretches stop l) := by
  induction l using stretches_induction stop with
  | nil => exact .nil
  | last l some free =>
    rw [stretches_open some free]
    exact .last some free
  | cons body a l free stops ih =>
    rw [stretches_closed free stops]
    exact .cons free stops ih

variable (stop) in
theorem flatten_stretches (l : List α) : (stretches stop l).flatten = l := by
  induction l using stretches_induction stop with
  | nil => rfl
  | last l some free => rw [stretches_open some free, flatten_singleton]
  | cons body a l free stops ih =>
    rw [stretches_closed free stops, flatten_cons, ih, append_assoc]
    rfl

namespace Cut

variable {ls others : List (List α)}

theorem stretches_flatten (cut : Cut stop ls) : stretches stop ls.flatten = ls := by
  induction cut with
  | nil => rfl
  | last some free => rw [flatten_singleton, stretches_open some free]
  | @cons body a others free stops rest ih =>
    rw [flatten_cons, append_assoc, singleton_append, stretches_closed free stops, ih]

theorem of_mem (cut : Cut stop ls) : ∀ l ∈ ls, l ≠ [] ∧ Open stop l.dropLast := by
  induction cut with
  | nil => simp
  | @last l some free =>
    intro s member
    rw [mem_singleton.1 member]
    exact ⟨some, fun a early => free a (dropLast_subset l early)⟩
  | cons free stops rest ih =>
    exact forall_mem_cons.2 ⟨⟨by simp, by rwa [dropLast_concat]⟩, ih⟩

theorem suffix (cut : Cut stop (ls ++ others)) : Cut stop others := by
  induction ls with
  | nil => exact cut
  | cons l ls ih =>
    generalize all : l :: ls ++ others = whole at cut
    cases cut with
    | nil => cases all
    | last some free =>
      obtain ⟨none, rfl⟩ := append_eq_nil_iff.1 (tail_eq_of_cons_eq all)
      exact .nil
    | cons free stops rest =>
      rw [← tail_eq_of_cons_eq all] at rest
      exact ih rest

theorem prefix_ (cut : Cut stop (ls ++ others)) : Cut stop ls := by
  induction ls with
  | nil => exact .nil
  | cons l ls ih =>
    generalize all : l :: ls ++ others = whole at cut
    cases cut with
    | nil => cases all
    | last some free =>
      obtain ⟨rfl, -⟩ := append_eq_nil_iff.1 (tail_eq_of_cons_eq all)
      rw [head_eq_of_cons_eq all]
      exact .last some free
    | cons free stops rest =>
      rw [← tail_eq_of_cons_eq all] at rest
      rw [head_eq_of_cons_eq all]
      exact .cons free stops (ih rest)

theorem of_stretch {whole : List (List α)} (cut : Cut stop whole) (part : ls <:+: whole) :
    Cut stop ls := by
  obtain ⟨before, behind, rfl⟩ := part
  exact cut.prefix_.suffix

theorem drop_first {early late : List α} (some : late ≠ [])
    (cut : Cut stop ((early ++ late) :: others)) : Cut stop (late :: others) := by
  generalize all : early ++ late = first at cut
  cases cut with
  | last _ free =>
    rw [← all] at free
    exact .last some (forall_mem_append.1 free).2
  | @cons body a _ free stops rest =>
    rcases eq_nil_or_concat late with rfl | ⟨middle, b, rfl⟩
    · exact absurd rfl some
    · rw [concat_eq_append, ← append_assoc] at all
      obtain ⟨rfl, same⟩ := append_inj' all rfl
      rw [concat_eq_append, same]
      exact .cons (forall_mem_append.1 free).2 stops rest

theorem eq_of_flatten_eq {ms : List (List α)} (cut : Cut stop ls) (other : Cut stop ms)
    (same : ls.flatten = ms.flatten) : ls = ms := by
  rw [← cut.stretches_flatten, same, other.stretches_flatten]

end Cut

theorem infix_of_mem_stretches {l s : List α} (member : s ∈ stretches stop l) : s <:+: l := by
  rw [← flatten_stretches stop l]
  exact infix_of_mem_flatten member

/-! ## What is taken from each of them -/

variable {β : Type} {f g : α → Option β}

theorem length_filterMap_le {l : List α} (more : ∀ a ∈ l, ∀ b, f a = some b → g a = some b) :
    (l.filterMap f).length ≤ (l.filterMap g).length := by
  induction l with
  | nil => exact Nat.le_refl 0
  | cons a l ih =>
    obtain ⟨here, others⟩ := forall_mem_cons.1 more
    have rest := ih others
    cases taken : f a with
    | some b =>
      rw [filterMap_cons_some taken, filterMap_cons_some (here b taken)]
      exact Nat.succ_le_succ rest
    | none =>
      rw [filterMap_cons_none taken, filterMap_cons]
      split
      · exact rest
      · exact Nat.le_succ_of_le rest

/-- Of two ways to take something the one that takes no more takes the same from the whole list
only if it takes the same from each element. -/
theorem eq_of_filterMap_eq {l : List α} (more : ∀ a ∈ l, ∀ b, f a = some b → g a = some b)
    (same : l.filterMap f = l.filterMap g) : ∀ a ∈ l, f a = g a := by
  induction l with
  | nil => simp
  | cons a l ih =>
    obtain ⟨here, others⟩ := forall_mem_cons.1 more
    cases taken : f a with
    | some b =>
      rw [filterMap_cons_some taken, filterMap_cons_some (here b taken)] at same
      exact forall_mem_cons.2
        ⟨by rw [taken, here b taken], ih others (tail_eq_of_cons_eq same)⟩
    | none =>
      rw [filterMap_cons_none taken] at same
      cases also : g a with
      | none =>
        rw [filterMap_cons_none also] at same
        exact forall_mem_cons.2 ⟨by rw [taken, also], ih others same⟩
      | some b =>
        have short := length_filterMap_le others
        rw [same, filterMap_cons_some also, length_cons] at short
        exact absurd short (Nat.not_succ_le_self _)

end CimArm.Stretches
