import Mathlib.Logic.Function.Basic
import Mathlib.Data.List.Basic

/-!
# Rows that keep a map

Each row of a table is dead or has a key and a value.  The table keeps a map if the values of its
rows are those of the map, each in one row.  A row is added under a key that has none, replaced
under its key, or replaced by a dead one; the map changes at that key and nowhere else.
-/

namespace CimArm.KeyedRows

open List Function

variable {R K V : Type} [DecidableEq K]

/-- The rows that are not dead are the entries of the map, one for each key. -/
structure Stores (entry : R → Option (K × V)) (rows : List R) (map : K → Option V) : Prop where
  unique : ∀ {i j : Nat} {r r' : R} {key : K} {v v' : V}, rows[i]? = some r → rows[j]? = some r' →
    entry r = some (key, v) → entry r' = some (key, v') → i = j
  holds : ∀ (key : K) (v : V), map key = some v ↔ ∃ r ∈ rows, entry r = some (key, v)

variable {entry : R → Option (K × V)} {rows : List R} {map : K → Option V} {key : K} {v v' : V}
  {r r' : R}

omit [DecidableEq K] in
theorem stores_nil : Stores entry [] fun _ => none where
  unique none := by cases none
  holds key v := by simp

omit [DecidableEq K] in
theorem Stores.fresh (stores : Stores entry rows map) (absent : map key = none) (member : r ∈ rows) :
    entry r ≠ some (key, v) := by
  intro same
  have present := (stores.holds key v).2 ⟨r, member, same⟩
  rw [absent] at present
  cases present

omit [DecidableEq K] in
theorem Stores.value (stores : Stores entry rows map) {i : Nat} (at_i : rows[i]? = some r)
    (live : entry r = some (key, v)) (member : r' ∈ rows) (same : entry r' = some (key, v')) :
    r' = r := by
  obtain ⟨j, at_j⟩ := mem_iff_getElem?.1 member
  obtain rfl := stores.unique at_i at_j live same
  exact Option.some.inj (at_j.symm.trans at_i)

theorem Stores.append (stores : Stores entry rows map) (absent : map key = none)
    (live : entry r = some (key, v)) :
    Stores entry (rows ++ [r]) (Function.update map key (some v)) where
  unique {i j a b x w w'} at_i at_j first second := by
    have old {k : Nat} {c : R} {u : V} (at_k : (rows ++ [r])[k]? = some c)
        (has : entry c = some (x, u)) : rows[k]? = some c ∧ x ≠ key ∨ k = rows.length ∧ x = key := by
      rcases Nat.lt_or_ge k rows.length with inside | outside
      · rw [List.getElem?_append_left inside] at at_k
        refine .inl ⟨at_k, ?_⟩
        rintro rfl
        exact stores.fresh absent (mem_of_getElem? at_k) has
      · rw [List.getElem?_append_right outside] at at_k
        obtain ⟨zero, rfl⟩ := List.getElem?_eq_some_iff.1 at_k
        rw [length_singleton] at zero
        simp only [getElem_singleton, live] at has
        cases has
        exact .inr ⟨by omega, rfl⟩
    rcases old at_i first with ⟨here, other⟩ | ⟨rfl, same⟩ <;>
      rcases old at_j second with ⟨there, other'⟩ | ⟨rfl, same'⟩
    · exact stores.unique here there first second
    · exact absurd same' other
    · exact absurd same other'
    · rfl
  holds x w := by
    simp only [mem_append, mem_singleton]
    by_cases same : x = key
    · subst same
      rw [update_self]
      constructor
      · intro found
        cases found
        exact ⟨r, .inr rfl, live⟩
      · rintro ⟨a, member | rfl, has⟩
        · exact absurd has (stores.fresh absent member)
        · rw [live] at has
          cases has
          rfl
    · rw [update_of_ne same, stores.holds]
      constructor
      · rintro ⟨a, member, has⟩
        exact ⟨a, .inl member, has⟩
      · rintro ⟨a, member | rfl, has⟩
        · exact ⟨a, member, has⟩
        · rw [live] at has
          cases has
          exact absurd rfl same

theorem Stores.set (stores : Stores entry rows map) {i : Nat} (at_i : rows[i]? = some r)
    (live : entry r = some (key, v)) (next : Option V)
    (live' : entry r' = next.map fun v => (key, v)) :
    Stores entry (rows.set i r') (Function.update map key next) where
  unique {j k a b x w w'} at_j at_k first second := by
    have inside := (List.getElem?_eq_some_iff.1 at_i).1
    have old {l : Nat} {c : R} {u : V} (at_l : (rows.set i r')[l]? = some c)
        (has : entry c = some (x, u)) : ∃ c' u', rows[l]? = some c' ∧ entry c' = some (x, u') := by
      by_cases same : i = l
      · subst same
        rw [List.getElem?_set_self inside] at at_l
        cases at_l
        rw [live'] at has
        cases next with
        | none => cases has
        | some value =>
          cases has
          exact ⟨r, v, at_i, live⟩
      · rw [List.getElem?_set_ne same] at at_l
        exact ⟨c, u, at_l, has⟩
    obtain ⟨a', u, here, has⟩ := old at_j first
    obtain ⟨b', u', there, has'⟩ := old at_k second
    exact stores.unique here there has has'
  holds x w := by
    have inside := (List.getElem?_eq_some_iff.1 at_i).1
    by_cases same : x = key
    · subst same
      rw [update_self]
      constructor
      · rintro rfl
        exact ⟨r', mem_set inside r', live'⟩
      · rintro ⟨a, member, has⟩
        obtain ⟨j, at_j⟩ := mem_iff_getElem?.1 member
        by_cases here : i = j
        · subst here
          rw [List.getElem?_set_self inside] at at_j
          cases at_j
          rw [live'] at has
          cases next with
          | none => cases has
          | some value =>
            cases has
            rfl
        · rw [List.getElem?_set_ne here] at at_j
          exact absurd (stores.unique at_i at_j live has) here
    · rw [update_of_ne same, stores.holds]
      constructor
      · rintro ⟨a, member, has⟩
        obtain ⟨j, at_j⟩ := mem_iff_getElem?.1 member
        have apart : i ≠ j := by
          rintro rfl
          rw [at_i] at at_j
          cases at_j
          rw [live] at has
          cases has
          exact same rfl
        rw [← List.getElem?_set_ne apart] at at_j
        exact ⟨a, mem_of_getElem? at_j, has⟩
      · rintro ⟨a, member, has⟩
        rcases mem_or_eq_of_mem_set member with old | rfl
        · exact ⟨a, old, has⟩
        · rw [live'] at has
          cases next with
          | none => cases has
          | some value =>
            cases has
            exact absurd rfl same

end CimArm.KeyedRows
