import Mathlib.Data.List.Basic

/-!
# Loops that move until they cannot

`while (move) { visit; }`: a move says whether it reached an item, which is then the current
one.  `Visits step current s items` says that the loop from `s` ends and which items it
visits, in order.  Where positions number the items and a move goes to the next position,
or to the one before, the loop visits what is left on that side.
-/

namespace CimArm.Traversal

open List

variable {S A : Type} (step : S → Bool × S) (current : S → A)

/-- The loop from a state ends, and visits these items. -/
inductive Visits : S → List A → Prop
  | stop {s : S} (ended : (step s).1 = false) : Visits s []
  | visit {s : S} {items : List A} (moved : (step s).1 = true)
      (more : Visits (step s).2 items) : Visits s (current (step s).2 :: items)

/-- The loop with a move of its own before it, and the item that this reaches. -/
inductive VisitsFrom (first : S → Bool × S) (s : S) : List A → Prop
  | none (ended : (first s).1 = false) : VisitsFrom first s []
  | visit {items : List A} (moved : (first s).1 = true)
      (more : Visits step current (first s).2 items) :
      VisitsFrom first s (current (first s).2 :: items)

variable {step current}

section positions

variable {At : Nat → S → Prop} {items : List A}
  (item : ∀ {i s}, At i s → items[i]? = some (current s))

include item

theorem Visits.forwards
    (next : ∀ {i s}, At i s → i + 1 < items.length → (step s).1 = true ∧ At (i + 1) (step s).2)
    (last : ∀ {i s}, At i s → items.length ≤ i + 1 → (step s).1 = false) {i : Nat} {s : S}
    (here : At i s) : Visits step current s (items.drop (i + 1)) := by
  obtain ⟨left, hleft⟩ : ∃ left, left = items.length - (i + 1) := ⟨_, rfl⟩
  induction left generalizing i s with
  | zero =>
    rw [drop_eq_nil_of_le (by omega)]
    exact .stop (last here (by omega))
  | succ left ih =>
    obtain ⟨moved, there⟩ := next here (by omega)
    obtain ⟨inside, same⟩ := List.getElem?_eq_some_iff.1 (item there)
    rw [drop_eq_getElem_cons inside, same]
    exact .visit moved (ih there (by omega))

theorem Visits.backwards
    (prev : ∀ {i s}, At (i + 1) s → (step s).1 = true ∧ At i (step s).2)
    (first : ∀ {s}, At 0 s → (step s).1 = false) {i : Nat} {s : S} (here : At i s) :
    Visits step current s (items.take i).reverse := by
  induction i generalizing s with
  | zero => exact .stop (first here)
  | succ i ih =>
    obtain ⟨moved, there⟩ := prev here
    rw [take_add_one, item there, Option.toList_some, reverse_append]
    exact .visit moved (ih there)

end positions

/-! ## Moves that may fail -/

section failures

variable {E : Type} (step : S → Except E (Bool × S)) (current : S → A)

/-- The loop of a move that may fail ends and visits these items, or it fails. -/
inductive Collects : S → Except E (List A) → Prop
  | stop {s s' : S} (ended : step s = .ok (false, s')) : Collects s (.ok [])
  | visit {s s' : S} {result : Except E (List A)} (moved : step s = .ok (true, s'))
      (more : Collects s' result) : Collects s (result.map (current s' :: ·))
  | fail {s : S} {e : E} (failed : step s = .error e) : Collects s (.error e)

/-- The loop after a move of its own, which may reach the first item. -/
inductive CollectsFrom (first : S → Except E (Bool × S)) (s : S) : Except E (List A) → Prop
  | none {s' : S} {result : Except E (List A)} (ended : first s = .ok (false, s'))
      (more : Collects step current s' result) : CollectsFrom first s result
  | visit {s' : S} {result : Except E (List A)} (moved : first s = .ok (true, s'))
      (more : Collects step current s' result) :
      CollectsFrom first s (result.map (current s' :: ·))
  | fail {e : E} (failed : first s = .error e) : CollectsFrom first s (.error e)

variable {step current}

variable {s : S} {check : A → Except E Bool}

theorem Collects.unique {result result' : Except E (List A)}
    (collects : Collects step current s result) (collects' : Collects step current s result') :
    result = result' := by
  induction collects generalizing result' with
  | stop ended =>
    cases collects' with
    | stop => rfl
    | visit moved => simp [ended] at moved
    | fail failed => simp [ended] at failed
  | visit moved more ih =>
    cases collects' with
    | stop ended => simp [ended] at moved
    | visit moved' more' =>
      obtain rfl : _ = _ := congrArg Prod.snd (Except.ok.inj (moved.symm.trans moved'))
      rw [ih more']
    | fail failed => simp [moved] at failed
  | fail failed =>
    cases collects' with
    | stop ended => simp [ended] at failed
    | visit moved => simp [moved] at failed
    | fail failed' => exact congrArg _ (Except.error.inj (failed.symm.trans failed'))

theorem CollectsFrom.unique {first : S → Except E (Bool × S)} {result result' : Except E (List A)}
    (collects : CollectsFrom step current first s result)
    (collects' : CollectsFrom step current first s result') : result = result' := by
  cases collects with
  | none ended more =>
    cases collects' with
    | none ended' more' =>
      obtain rfl : _ = _ := congrArg Prod.snd (Except.ok.inj (ended.symm.trans ended'))
      exact more.unique more'
    | visit moved => simp [ended] at moved
    | fail failed => simp [ended] at failed
  | visit moved more =>
    cases collects' with
    | none ended => simp [ended] at moved
    | visit moved' more' =>
      obtain rfl : _ = _ := congrArg Prod.snd (Except.ok.inj (moved.symm.trans moved'))
      rw [more.unique more']
    | fail failed => simp [moved] at failed
  | fail failed =>
    cases collects' with
    | none ended => simp [ended] at failed
    | visit moved => simp [moved] at failed
    | fail failed' => exact congrArg _ (Except.error.inj (failed.symm.trans failed'))

/-! ## Filters -/

/-- The first of some items that passes a check, and the items behind it. -/
def seek (check : A → Except E Bool) : List A → Except E (Option (A × List A))
  | [] => .ok none
  | a :: items =>
    match check a with
    | .ok true => .ok (some (a, items))
    | .ok false => seek check items
    | .error e => .error e

/-- The items that pass a check, unless the check of one of them fails. -/
def sieve (check : A → Except E Bool) : List A → Except E (List A)
  | [] => .ok []
  | a :: items =>
    match check a with
    | .ok true => (sieve check items).map (a :: ·)
    | .ok false => sieve check items
    | .error e => .error e

/-- A move goes to the next item that passes a check: `Left` are the items it still has. -/
structure Seeks (check : A → Except E Bool) (Left : List A → S → Prop)
    (step : S → Except E (Bool × S)) (current : S → A) : Prop where
  found {items : List A} {s : S} {a : A} {behind : List A} (left : Left items s)
    (sought : seek check items = .ok (some (a, behind))) :
    ∃ s', step s = .ok (true, s') ∧ current s' = a ∧ Left behind s'
  ended {items : List A} {s : S} (left : Left items s) (sought : seek check items = .ok none) :
    ∃ s', step s = .ok (false, s') ∧ Left [] s'
  failed {items : List A} {s : S} {e : E} (left : Left items s)
    (sought : seek check items = .error e) : step s = .error e

theorem seek_length {items : List A} {a : A} {behind : List A}
    (sought : seek check items = .ok (some (a, behind))) : behind.length < items.length := by
  induction items with
  | nil => cases sought
  | cons b items ih =>
    rw [seek] at sought
    cases checked : check b with
    | error e =>
      rw [checked] at sought
      cases sought
    | ok passed =>
      rw [checked] at sought
      cases passed with
      | true =>
        cases sought
        exact Nat.lt_succ_self _
      | false => exact Nat.lt_succ_of_lt (ih sought)

theorem sieve_eq_seek (check : A → Except E Bool) (items : List A) :
    sieve check items = (seek check items).bind fun sought =>
      sought.elim (.ok []) fun found => (sieve check found.2).map (found.1 :: ·) := by
  induction items with
  | nil => rfl
  | cons a items ih =>
    rw [sieve, seek]
    cases checked : check a with
    | error e => rfl
    | ok passed =>
      cases passed with
      | true => rfl
      | false => exact ih

theorem Seeks.collects {Left : List A → S → Prop} (seeks : Seeks check Left step current)
    {items : List A} (left : Left items s) : Collects step current s (sieve check items) := by
  obtain ⟨n, size⟩ : ∃ n, items.length ≤ n := ⟨_, Nat.le_refl _⟩
  induction n generalizing items s with
  | zero =>
    obtain rfl := length_eq_zero_iff.1 (Nat.le_zero.1 size)
    obtain ⟨s', ended, -⟩ := seeks.ended left rfl
    exact .stop ended
  | succ n ih =>
    rw [sieve_eq_seek]
    cases sought : seek check items with
    | error e => exact .fail (seeks.failed left sought)
    | ok result =>
      cases result with
      | none =>
        obtain ⟨s', ended, -⟩ := seeks.ended left sought
        exact .stop ended
      | some found =>
        obtain ⟨s', moved, reached, behind⟩ := seeks.found left sought
        have more := ih behind (Nat.le_of_lt_succ (Nat.lt_of_lt_of_le (seek_length sought) size))
        have visited := Collects.visit moved more
        rw [reached] at visited
        exact visited

theorem Seeks.collectsFrom {Left : List A → S → Prop} (seeks : Seeks check Left step current)
    {first : S → Except E (Bool × S)} {items : List A}
    (first_eq : ∃ s', first s = step s' ∧ Left items s') :
    CollectsFrom step current first s (sieve check items) := by
  obtain ⟨start, same, left⟩ := first_eq
  rw [sieve_eq_seek]
  cases sought : seek check items with
  | error e => exact .fail (same.trans (seeks.failed left sought))
  | ok result =>
    cases result with
    | none =>
      obtain ⟨s', ended, left⟩ := seeks.ended left sought
      exact .none (same.trans ended) (seeks.collects left)
    | some found =>
      obtain ⟨s', moved, reached, behind⟩ := seeks.found left sought
      have visited : CollectsFrom step current first s
          ((sieve check found.2).map (current s' :: ·)) :=
        .visit (same.trans moved) (seeks.collects behind)
      rw [reached] at visited
      exact visited

theorem sieve_eq_filter {passes : A → Bool} {items : List A}
    (checked : ∀ a ∈ items, check a = .ok (passes a)) :
    sieve check items = .ok (items.filter passes) := by
  induction items with
  | nil => rfl
  | cons a items ih =>
    have rest := ih fun b member => checked b (mem_cons_of_mem _ member)
    rw [sieve, checked a mem_cons_self]
    cases passed : passes a with
    | true =>
      rw [filter_cons_of_pos passed, rest]
      rfl
    | false =>
      rw [filter_cons_of_neg (by simp [passed]), rest]

theorem sieve_eq_error {items : List A} {a : A} (member : a ∈ items) {e : E}
    (failed : check a = .error e) : ∃ e', sieve check items = .error e' := by
  induction items with
  | nil => exact absurd member not_mem_nil
  | cons b items ih =>
    rw [sieve]
    cases checked : check b with
    | error e' => exact ⟨e', rfl⟩
    | ok passed =>
      have later : a ∈ items := by
        rcases mem_cons.1 member with rfl | later
        · rw [failed] at checked
          cases checked
        · exact later
      obtain ⟨e', result⟩ := ih later
      refine ⟨e', ?_⟩
      rw [result]
      cases passed <;> rfl

theorem exists_of_sieve_eq_error {items : List A} {e : E} (failed : sieve check items = .error e) :
    ∃ a ∈ items, check a = .error e := by
  induction items with
  | nil => cases failed
  | cons a items ih =>
    rw [sieve] at failed
    cases checked : check a with
    | error e' =>
      rw [checked] at failed
      obtain rfl := Except.error.inj failed
      exact ⟨a, mem_cons_self, checked⟩
    | ok passed =>
      have later : sieve check items = .error e := by
        rw [checked] at failed
        cases passed with
        | false => exact failed
        | true =>
          cases rest : sieve check items with
          | error e' =>
            rw [rest] at failed
            exact congrArg _ (Except.error.inj failed)
          | ok items' =>
            rw [rest] at failed
            cases failed
      obtain ⟨b, there, why⟩ := ih later
      exact ⟨b, mem_cons_of_mem _ there, why⟩

end failures

end CimArm.Traversal
