import Mathlib.Data.Fintype.Option
import Mathlib.Data.List.Basic

/-!
# Tables of slots

A table has a fixed number of slots, and a slot is free or holds a key.  A key is put in
the first free slot and removed from the first that holds it.  As long as no key is put
in twice, each is in at most one slot (`Distinct`), and a table with as many slots as
there are keys has a free one for a key it does not hold.
-/

namespace CimArm.SlotTable

open List

variable {α : Type}

/-- A slot holds a key. -/
def Holds (slots : List (Option α)) (i : Nat) (a : α) : Prop := slots[i]? = some (some a)

/-- No key is in two slots. -/
def Distinct (slots : List (Option α)) : Prop :=
  ∀ i j a, Holds slots i a → Holds slots j a → i = j

/-- The first free slot. -/
def free (slots : List (Option α)) : Option Nat := slots.findIdx? (·.isNone)

/-- Put a key in the first free slot. -/
def insert (slots : List (Option α)) (a : α) : List (Option α) :=
  match free slots with
  | some i => slots.set i (some a)
  | none => slots

/-- A table without keys. -/
def empty (n : Nat) : List (Option α) := List.replicate n none

variable {slots : List (Option α)} {i j : Nat} {a b : α}

theorem not_holds_empty (n i : Nat) (a : α) : ¬ Holds (empty n) i a := by
  intro holds
  have listed : some a ∈ List.replicate n none := mem_of_getElem? holds
  cases (mem_replicate.1 listed).2

theorem distinct_empty (n : Nat) : Distinct (empty n : List (Option α)) :=
  fun i _ a holds => absurd holds (not_holds_empty n i a)

theorem Holds.lt (holds : Holds slots i a) : i < slots.length :=
  (List.getElem?_eq_some_iff.1 holds).1

theorem Holds.unique (holds : Holds slots i a) (holds' : Holds slots i b) : a = b :=
  Option.some.inj (Option.some.inj (holds.symm.trans holds'))

theorem holds_set {x : Option α} (lt : i < slots.length) :
    Holds (slots.set i x) j b ↔ if j = i then x = some b else Holds slots j b := by
  rw [Holds, List.getElem?_set]
  by_cases same : j = i
  · rw [if_pos same.symm, if_pos lt, if_pos same]
    exact ⟨fun found => Option.some.inj found, fun found => congrArg some found⟩
  · rw [if_neg (Ne.symm same), if_neg same]
    exact Iff.rfl

theorem free_eq_some (found : free slots = some i) : slots[i]? = some none := by
  obtain ⟨lt, none, -⟩ := List.findIdx?_eq_some_iff_getElem.1 found
  rw [List.getElem?_eq_getElem lt, Option.isNone_iff_eq_none.1 none]

@[simp]
theorem length_insert (slots : List (Option α)) (a : α) :
    (insert slots a).length = slots.length := by
  rw [insert]
  split
  · exact length_set
  · rfl

theorem holds_insert (found : free slots = some i) :
    Holds (insert slots a) j b ↔ (j = i ∧ b = a) ∨ Holds slots j b := by
  have here := free_eq_some found
  have lt : i < slots.length := (List.getElem?_eq_some_iff.1 here).1
  rw [insert, found]
  show Holds (slots.set i (some a)) j b ↔ _
  rw [holds_set lt]
  by_cases same : j = i
  · subst same
    have empty : ¬ Holds slots j b := fun holds => by
      rw [Holds, here] at holds
      cases holds
    rw [if_pos rfl]
    constructor
    · exact fun found => .inl ⟨rfl, (Option.some.inj found).symm⟩
    · rintro (⟨-, rfl⟩ | holds)
      · rfl
      · exact absurd holds empty
  · rw [if_neg same]
    exact ⟨.inr, fun either => either.resolve_left fun both => same both.1⟩

theorem Distinct.insert (distinct : Distinct slots) (absent : ∀ i, ¬ Holds slots i a)
    (found : free slots = some i) : Distinct (insert slots a) := by
  intro j k b holds holds'
  rcases (holds_insert found).1 holds with ⟨first, same⟩ | before
  · rcases (holds_insert found).1 holds' with ⟨second, -⟩ | before'
    · exact first.trans second.symm
    · exact absurd (same ▸ before') (absent k)
  · rcases (holds_insert found).1 holds' with ⟨-, same⟩ | before'
    · exact absurd (same ▸ before) (absent j)
    · exact distinct j k b before before'

theorem Distinct.exists_free [Fintype α] (distinct : Distinct slots)
    (absent : ∀ i, ¬ Holds slots i a) (room : Fintype.card α ≤ slots.length) :
    ∃ i, free slots = some i := by
  by_contra full
  have none : free slots = none := Option.eq_none_iff_forall_ne_some.2 fun i found => full ⟨i, found⟩
  have held (i : Fin slots.length) : ∃ b, Holds slots i b := by
    have taken := List.findIdx?_eq_none_iff.1 none _ (getElem_mem i.isLt)
    cases slot : slots[i] with
    | none =>
      rw [Fin.getElem_fin] at slot
      rw [slot] at taken
      cases taken
    | some b => exact ⟨b, List.getElem?_eq_some_iff.2 ⟨i.isLt, slot⟩⟩
  choose key holds using held
  -- the keys of all slots and the one that is not there are too many
  have injective : Function.Injective fun i : Option (Fin slots.length) => i.elim a key := by
    rintro (_ | i) (_ | j) same
    · rfl
    · have same' : a = key j := same
      exact absurd (same' ▸ holds j) (absent j)
    · have same' : key i = a := same
      exact absurd (same' ▸ holds i) (absent i)
    · have same' : key i = key j := same
      exact congrArg some (Fin.ext (distinct i j (key i) (holds i) (same' ▸ holds j)))
  have card := Fintype.card_le_of_injective _ injective
  rw [Fintype.card_option, Fintype.card_fin] at card
  omega

variable [DecidableEq α]

/-- The first slot with a key. -/
def find (slots : List (Option α)) (a : α) : Option Nat := slots.findIdx? (· = some a)

/-- Free the first slot with a key. -/
def remove (slots : List (Option α)) (a : α) : List (Option α) :=
  match find slots a with
  | some i => slots.set i none
  | none => slots

theorem find_eq_some (found : find slots a = some i) : Holds slots i a := by
  obtain ⟨lt, same, -⟩ := List.findIdx?_eq_some_iff_getElem.1 found
  exact List.getElem?_eq_some_iff.2 ⟨lt, of_decide_eq_true same⟩

theorem find_eq_none (missing : find slots a = none) (i : Nat) : ¬ Holds slots i a := by
  intro holds
  have differs := List.findIdx?_eq_none_iff.1 missing _ (mem_of_getElem? holds)
  exact absurd rfl (of_decide_eq_false differs)

@[simp]
theorem length_remove (slots : List (Option α)) (a : α) :
    (remove slots a).length = slots.length := by
  rw [remove]
  split
  · exact length_set
  · rfl

theorem holds_remove (distinct : Distinct slots) :
    Holds (remove slots a) j b ↔ Holds slots j b ∧ b ≠ a := by
  rw [remove]
  cases found : find slots a with
  | none =>
    exact ⟨fun holds => ⟨holds, fun same => find_eq_none found j (same ▸ holds)⟩, And.left⟩
  | some i =>
    have here := find_eq_some found
    show Holds (slots.set i none) j b ↔ _
    rw [holds_set here.lt]
    by_cases same : j = i
    · subst same
      rw [if_pos rfl]
      constructor
      · intro none
        cases none
      · rintro ⟨holds, differs⟩
        exact absurd (holds.unique here) differs
    · rw [if_neg same]
      exact ⟨fun holds => ⟨holds, fun eq => same (distinct j i a (eq ▸ holds) here)⟩, And.left⟩

theorem Distinct.remove (distinct : Distinct slots) (a : α) : Distinct (remove slots a) :=
  fun i j b holds holds' =>
    distinct i j b ((holds_remove distinct).1 holds).1 ((holds_remove distinct).1 holds').1

end CimArm.SlotTable
