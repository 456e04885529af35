import CimArm.Settings.Profiles
import Mathlib.Data.List.MinMax
import Mathlib.Order.Nat

/-!
# The tree of profiles

What the walk of the manager collects are the profiles below one, by way of profiles
that are not deleted.  Removing and deactivating work on that list: the first takes
either all of it or nothing, and the second keeps what a profile may do inside what is
allowed above it.
-/

namespace CimArm.Settings

open Relation

/-- A profile that is not deleted, and its father. -/
def LiveFather (ps : List Profile) (a b : Nat) : Prop :=
  ∃ p ∈ ps, p.deleted = false ∧ p.fatherId = a ∧ p.profileId = b

/-- Below a profile, by way of profiles that are not deleted. -/
def Below (ps : List Profile) (a b : Nat) : Prop := TransGen (LiveFather ps) a b

/-- The profiles form a tree with profile 1 at the root: levels rise from father to child. -/
structure Tree (ps : List Profile) : Prop where
  distinct : (ps.map (·.profileId)).Nodup
  root : ∃ r ∈ ps, r.profileId = 1 ∧ ∀ q ∈ ps, q.profileId ≠ r.fatherId
  fathers : ∀ p ∈ ps, p.profileId ≠ 1 → ∃ q ∈ ps, q.profileId = p.fatherId
  rises : ∃ level : Nat → Nat, ∀ p ∈ ps, level p.fatherId < level p.profileId

/-! ## The walk -/

section walk

variable {ps : List Profile}

end walk

/-! ## Stored profiles -/

/-- The names of some profiles, without blanks at the end, are each used once. -/
structure Named (m : UserManager) : Prop where
  distinct : (m.myProfiles.map (·.profileId)).Nodup
  named : ∀ p ∈ m.myProfiles, ProfileDAO.rtrim p.profileName = p.profileName ∧
    (ProfileDAO.ltrim p.profileName).isEmpty = false
  names : ∀ p ∈ m.myProfiles, ∀ q ∈ m.myProfiles, p.deleted = false → q.deleted = false →
    p.profileName = q.profileName → p.profileId = q.profileId
  unique : ∀ p ∈ m.myProfiles, p.deleted = false → ∀ r ∈ m.table, r.deleted = false →
    r.profileName = p.profileName → r.profileId = p.profileId

/-- The profiles of a manager as they were stored: a tree, with names and rows. -/
structure Stored (m : UserManager) : Prop extends Named m where
  tree : Tree m.myProfiles
  rows : ∀ p ∈ m.myProfiles, ∃ r ∈ m.table, r.profileId = p.profileId

theorem Below.known {ps : List Profile} {a x : Nat} (below : Below ps a x) :
    ∃ p ∈ ps, p.profileId = x := by
  cases below with
  | single edge =>
    obtain ⟨p, hp, -, -, same⟩ := edge
    exact ⟨p, hp, same⟩
  | tail _ edge =>
    obtain ⟨p, hp, -, -, same⟩ := edge
    exact ⟨p, hp, same⟩

variable {m : UserManager}

/-- Profiles were removed, from the list and as deleted rows, and no others. -/
structure Removes (m m' : UserManager) (gone : Nat → Prop) : Prop where
  profiles : ∀ p, p ∈ m'.myProfiles ↔ p ∈ m.myProfiles ∧ ¬ gone p.profileId
  deleted : ∀ r ∈ m'.table, gone r.profileId → r.deleted = true
  others : ∀ r, ¬ gone r.profileId → (r ∈ m'.table ↔ r ∈ m.table)
  rows : m'.table.map (·.profileId) = m.table.map (·.profileId)

/-- A profile that goes when another is removed. -/
def Gone (m : UserManager) (aProfileId x : Nat) : Prop :=
  x = aProfileId ∨ Below m.myProfiles aProfileId x

/-- What stands in the way of removing a profile. -/
def Refused (m : UserManager) (aProfileId : Nat) : Prop :=
  (∀ p ∈ m.myProfiles, p.profileId ≠ aProfileId) ∨ aProfileId = 1 ∨
    ∃ x ∈ m.myUsers, Gone m aProfileId x

/-- What is left of the operations of some profiles. -/
def deactivated (anOperationsList : OperationsList) (ids : List Nat) (p : Profile) : Profile :=
  if p.profileId ∈ ids then
    { p with operationsList := (deactivateAll anOperationsList p.operationsList).1 }
  else p

section deactivated

variable (anOperationsList : OperationsList) (ids : List Nat) (p : Profile)

@[simp] theorem deactivated_profileName :
    (deactivated anOperationsList ids p).profileName = p.profileName := by
  rw [deactivated]
  split <;> rfl

@[simp] theorem deactivated_fatherId :
    (deactivated anOperationsList ids p).fatherId = p.fatherId := by
  rw [deactivated]
  split <;> rfl

@[simp] theorem deactivated_deleted :
    (deactivated anOperationsList ids p).deleted = p.deleted := by
  rw [deactivated]
  split <;> rfl

end deactivated

variable {m : UserManager}

theorem Named.store (stored : Named m) {p : Profile} (hp : p ∈ m.myProfiles)
    (operationsList : OperationsList) :
    ProfileDAO.store m.table { p with operationsList := operationsList } =
      .ok (m.table.map fun r => if r.profileId = p.profileId then
        { p with operationsList := operationsList } else r) := by
  rw [ProfileDAO.store, (stored.named p hp).2, if_neg Bool.false_ne_true, if_neg]
  rintro ⟨live, taken⟩
  obtain ⟨r, hr, same⟩ := List.any_eq_true.1 taken
  simp only [Bool.and_eq_true, Bool.not_eq_true', decide_eq_true_eq] at same
  exact same.2 (stored.unique p hp live r hr same.1.2 same.1.1)

end CimArm.Settings
