import CimArm.Dao.Fields
import CimArm.Db.Rows
import CimArm.Lib.KeyedRows
import CimArm.Lib.Trace
import Mathlib.Data.Sym.Sym2

/-!
# Dual access

`ProfileDAO` keeps a table of pairs of profiles.  A pair is looked for in both orders; removing
one marks its record, and storing it again adds another.

The numbers of the profiles are `int`, but the fields and the filters of the searches have the
width of a `short`.  Two numbers that differ may be the same there: then the pair is stored, and is
of one profile, and is not found under the numbers it was stored with.

* `related_iff`: in a run the table is the relation it should be if and only if no pair is stored
  or removed under a number that does not fit.  What a call is checked for and what a search finds
  are as they should be in every run.
-/

namespace CimArm.DualAccess

open Trace KeyedRows RecordSet List

/-! ## The table -/

structure Row : Type where
  profile1Id : Int
  profile2Id : Int
  deleted : Bool
  deriving DecidableEq

inductive Exn : Type
  | REFERENCE_NOT_FOUND_EX
  | DAO_EQUALS_DUAL_ACCESS_EX
  | DAO_DUPLICATED_DUAL_ACCESS_EX
  deriving DecidableEq

def dualSchema : Schema Row := ⟨⟨0, 0, false⟩, none⟩

/-- Of the profiles only the numbers are read. -/
def profileSchema : Schema Int := ⟨0, none⟩

structure Tables : Type where
  profiles : Table Int
  dual_access : Table Row

section

variable (self : Tables) (aProfile1Id aProfile2Id : Int)

def existsProfile : Bool :=
  (find self.profiles (fun profileId => profileId = toShort aProfile1Id) (.open profileSchema)).1

/-- The filters of a search. -/
def checkCondition (row : Row) : Bool :=
  row.profile1Id = toShort aProfile1Id ∧ row.profile2Id = toShort aProfile2Id ∧ row.deleted = false

/-- The first search, and the second one over the same record set. -/
def findDual : Bool × Bool × RecordSet Row :=
  let (first, myRecordSet) :=
    find self.dual_access (checkCondition aProfile1Id aProfile2Id) (.open dualSchema)
  let (second, myRecordSet) :=
    find self.dual_access (checkCondition aProfile2Id aProfile1Id) myRecordSet
  (first, second, myRecordSet)

def verifiedDualAccess : Bool :=
  let (first, second, _) := findDual self aProfile1Id aProfile2Id
  existsProfile self aProfile1Id && existsProfile self aProfile2Id &&
    !decide (aProfile1Id = aProfile2Id) && !first && !second

/-- The audit and the backup are other tables. -/
def storeDualAccess : Except Exn Tables :=
  if !existsProfile self aProfile1Id then .error .REFERENCE_NOT_FOUND_EX
  else if !existsProfile self aProfile2Id then .error .REFERENCE_NOT_FOUND_EX
  else if aProfile1Id = aProfile2Id then .error .DAO_EQUALS_DUAL_ACCESS_EX
  else
    let (first, second, myRecordSet) := findDual self aProfile1Id aProfile2Id
    if first then .error .DAO_DUPLICATED_DUAL_ACCESS_EX
    else if second then .error .DAO_DUPLICATED_DUAL_ACCESS_EX
    else
      let row : Row := ⟨toShort aProfile1Id, toShort aProfile2Id, false⟩
      let saved := ((myRecordSet.add dualSchema).setRecordBuffer row).save dualSchema
        self.dual_access
      .ok { self with dual_access := saved.2.1 }

/-- The search that finds the pair, the second one if the first fails. -/
def findEither : Bool × RecordSet Row :=
  let (first, myRecordSet) :=
    find self.dual_access (checkCondition aProfile1Id aProfile2Id) (.open dualSchema)
  if first then (true, myRecordSet)
  else find self.dual_access (checkCondition aProfile2Id aProfile1Id) myRecordSet

def removeDualAccess : Except Exn Tables :=
  if !existsProfile self aProfile1Id then .error .REFERENCE_NOT_FOUND_EX
  else if !existsProfile self aProfile2Id then .error .REFERENCE_NOT_FOUND_EX
  else
    let (found, myRecordSet) := findEither self aProfile1Id aProfile2Id
    if found then
      let row := { myRecordSet.buffer with deleted := true }
      let saved := (myRecordSet.setRecordBuffer row).save dualSchema self.dual_access
      .ok { self with dual_access := saved.2.1 }
    else .ok self

def loadDualAccess : Option Row :=
  nextWhere self.dual_access
    (fun row =>
      (row.profile1Id = aProfile1Id ∧ row.profile2Id = aProfile2Id ∨
        row.profile1Id = aProfile2Id ∧ row.profile2Id = aProfile1Id) ∧ row.deleted = false)
    (self.dual_access.records.length + 1) (.open dualSchema)

end

/-! ## The relation -/

/-- The pair of an active record. -/
def Row.entry (row : Row) : Option (Sym2 Int × Unit) :=
  if row.deleted then none else some (s(row.profile1Id, row.profile2Id), ())

inductive Call : Type
  | storeDualAccess (aProfile1Id aProfile2Id : Int)
  | removeDualAccess (aProfile1Id aProfile2Id : Int)

/-- The tables, and the pairs that were stored after they were last removed. -/
structure Session : Type where
  tables : Tables
  pairs : Sym2 Int → Option Unit

namespace Session

def start (profiles : Table Int) : Session := ⟨⟨profiles, .empty⟩, fun _ => none⟩

/-- A call that raises changes nothing. -/
def step : Call → Session → Session
  | .storeDualAccess a b, self =>
    match storeDualAccess self.tables a b with
    | .ok tables => ⟨tables, Function.update self.pairs s(a, b) (some ())⟩
    | .error _ => self
  | .removeDualAccess a b, self =>
    match removeDualAccess self.tables a b with
    | .ok tables => ⟨tables, Function.update self.pairs s(a, b) none⟩
    | .error _ => self

/-- What the table is for. -/
structure Related (session : Session) : Prop where
  /-- One active record for each pair. -/
  stores : Stores Row.entry session.tables.dual_access.records session.pairs
  different : ∀ row ∈ session.tables.dual_access.records, row.deleted = false →
    row.profile1Id ≠ row.profile2Id ∧ row.profile1Id ∈ session.tables.profiles.records ∧
      row.profile2Id ∈ session.tables.profiles.records
  verified : ∀ a b, verifiedDualAccess session.tables a b = true ↔
    ∃ tables, storeDualAccess session.tables a b = .ok tables
  symmetric : ∀ a b, loadDualAccess session.tables a b = loadDualAccess session.tables b a
  loads : ∀ a b, (loadDualAccess session.tables a b).isSome = true ↔ session.pairs s(a, b) = some ()

/-- Removing a pair marks its active record and leaves the others. -/
def Removes (self : Session) : Call → Prop
  | .storeDualAccess _ _ => True
  | .removeDualAccess a b => ∀ tables, removeDualAccess self.tables a b = .ok tables →
      ∀ i : Nat, tables.dual_access.records[i]? =
        (self.tables.dual_access.records[i]?).map fun row =>
          if row.entry = some (s(a, b), ()) then { row with deleted := true } else row

structure Right (session : Session) (call : Call) : Prop where
  related : (step call session).Related
  removes : session.Removes call

/-- The profiles of a call, as they are searched, exist. -/
def Refers (tables : Tables) (a b : Int) : Prop :=
  toShort a ∈ tables.profiles.records ∧ toShort b ∈ tables.profiles.records

/-- A pair, as it is searched, has an active record. -/
def Paired (tables : Tables) (a b : Int) : Prop :=
  ∃ row ∈ tables.dual_access.records, row.entry = some (s(toShort a, toShort b), ())

/-- A pair that is stored, or whose record is marked, has numbers that fit. -/
def Fits (self : Session) : Call → Prop
  | .storeDualAccess a b =>
    Refers self.tables a b → a ≠ b → ¬Paired self.tables a b → IsShort a ∧ IsShort b
  | .removeDualAccess a b =>
    Refers self.tables a b → Paired self.tables a b → IsShort a ∧ IsShort b

end Session

open Session

/-! ## The searches -/

variable {self : Tables} {a b : Int}

theorem existsProfile_iff : existsProfile self a = true ↔ toShort a ∈ self.profiles.records := by
  rw [existsProfile]
  rcases find_search self.profiles (fun profileId => decide (profileId = toShort a))
      (.open profileSchema) with ⟨record, passes, -, on⟩ | ⟨fail, answer, -⟩
  · rw [on]
    have same := of_decide_eq_true passes
    exact iff_of_true rfl (same ▸ mem_of_getElem? record)
  · rw [answer]
    refine iff_of_false Bool.false_ne_true ?_
    intro member
    exact absurd rfl (of_decide_eq_false (fail _ member))

variable {row : Row}

theorem entry_eq_iff {p q : Int} : row.entry = some (s(p, q), ()) ↔
    (row.profile1Id = p ∧ row.profile2Id = q ∨ row.profile1Id = q ∧ row.profile2Id = p) ∧
      row.deleted = false := by
  rw [Row.entry]
  cases deleted : row.deleted with
  | true => simp
  | false => simp

theorem checkCondition_or : checkCondition a b row = true ∨ checkCondition b a row = true ↔
      row.entry = some (s(toShort a, toShort b), ()) := by
  rw [entry_eq_iff, checkCondition, checkCondition, decide_eq_true_iff, decide_eq_true_iff]
  tauto

theorem findDual_or (self : Tables) (a b : Int) :
    (findDual self a b).1 = true ∨ (findDual self a b).2.1 = true ↔ Paired self a b := by
  simp only [findDual]
  generalize first : find self.dual_access (checkCondition a b) (.open dualSchema) = result
  have second := find_search self.dual_access (checkCondition b a) result.2
  have search := first ▸ find_search self.dual_access (checkCondition a b) (.open dualSchema)
  rcases search with ⟨record, passes, -, on⟩ | ⟨fail, answer, -⟩
  · rw [on]
    exact iff_of_true (.inl rfl)
      ⟨_, mem_of_getElem? record, checkCondition_or.1 (.inl passes)⟩
  rw [answer]
  rcases second with ⟨record, passes, -, on⟩ | ⟨fail', answer', -⟩
  · rw [on]
    exact iff_of_true (.inr rfl)
      ⟨_, mem_of_getElem? record, checkCondition_or.1 (.inr passes)⟩
  · rw [answer']
    refine iff_of_false (by simp) ?_
    intro paired
    obtain ⟨row, member, entry⟩ := paired
    rcases checkCondition_or.2 entry with passes | passes
    · rw [fail row member] at passes
      cases passes
    · rw [fail' row member] at passes
      cases passes

theorem findDual_atEnd (missed : (findDual self a b).2.1 = false) :
    (findDual self a b).2.2.AtEnd self.dual_access := by
  simp only [findDual] at missed ⊢
  generalize find self.dual_access (checkCondition a b) (.open dualSchema) = first at missed ⊢
  rcases find_search self.dual_access (checkCondition b a) first.2 with
    ⟨-, -, -, on⟩ | ⟨-, -, atEnd⟩
  · rw [on] at missed
    cases missed
  · exact atEnd

theorem findEither_spec (self : Tables) (a b : Int) :
    (∃ (k : Nat) (row : Row), self.dual_access.records[k]? = some row ∧
      row.entry = some (s(toShort a, toShort b), ()) ∧
        findEither self a b = (true, onRecord k row)) ∨
    ¬Paired self a b ∧ (findEither self a b).1 = false := by
  rw [findEither]
  rcases find_search self.dual_access (checkCondition a b) (.open dualSchema) with
    ⟨record, passes, -, on⟩ | ⟨fail, answer, -⟩
  · left
    rw [on]
    exact ⟨_, _, record, checkCondition_or.1 (.inl passes), rfl⟩
  · generalize find self.dual_access (checkCondition a b) (.open dualSchema) = first at answer
    obtain ⟨found, myRecordSet⟩ := first
    dsimp only at answer ⊢
    subst answer
    rw [if_neg Bool.false_ne_true]
    rcases find_search self.dual_access (checkCondition b a) myRecordSet with
      ⟨record, passes, -, on⟩ | ⟨fail', answer, -⟩
    · left
      rw [on]
      exact ⟨_, _, record, checkCondition_or.1 (.inr passes), rfl⟩
    · right
      refine ⟨?_, answer⟩
      intro paired
      obtain ⟨row, member, entry⟩ := paired
      rcases checkCondition_or.2 entry with passes | passes
      · rw [fail row member] at passes
        cases passes
      · rw [fail' row member] at passes
        cases passes

/-! ## The calls -/

/-- The pair is of two profiles that exist, and has no active record. -/
structure Admits (tables : Tables) (a b : Int) : Prop where
  refers : Refers tables a b
  different : a ≠ b
  unpaired : ¬Paired tables a b

theorem storeDualAccess_spec (self : Tables) (a b : Int) :
    Admits self a b ∧ storeDualAccess self a b = .ok { self with
      dual_access := { self.dual_access with
        records := self.dual_access.records ++ [⟨toShort a, toShort b, false⟩] } } ∨
    ¬Admits self a b ∧ ∃ ex, storeDualAccess self a b = .error ex := by
  have either := findDual_or self a b
  rw [storeDualAccess]
  by_cases first : existsProfile self a = true
  case neg =>
    right
    rw [Bool.not_eq_true] at first
    rw [first]
    refine ⟨?_, _, rfl⟩
    intro admits
    rw [existsProfile_iff.2 admits.refers.1] at first
    cases first
  by_cases second : existsProfile self b = true
  case neg =>
    right
    rw [Bool.not_eq_true] at second
    rw [first, second]
    refine ⟨?_, _, rfl⟩
    intro admits
    rw [existsProfile_iff.2 admits.refers.2] at second
    cases second
  have refers : Refers self a b := ⟨existsProfile_iff.1 first, existsProfile_iff.1 second⟩
  rw [first, second, if_neg (by decide), if_neg (by decide)]
  by_cases same : a = b
  · right
    rw [if_pos same]
    exact ⟨fun admits => admits.different same, _, rfl⟩
  rw [if_neg same]
  have atEnd := @findDual_atEnd self a b
  generalize findDual self a b = result at either atEnd
  obtain ⟨inOrder, inverted, myRecordSet⟩ := result
  dsimp only at either atEnd ⊢
  cases inOrder with
  | true => exact .inr ⟨fun admits => admits.unpaired (either.1 (.inl rfl)), _, rfl⟩
  | false =>
    cases inverted with
    | true => exact .inr ⟨fun admits => admits.unpaired (either.1 (.inr rfl)), _, rfl⟩
    | false =>
      left
      refine ⟨⟨refers, same, fun paired => ?_⟩, ?_⟩
      · rcases either.2 paired with found | found <;> cases found
      · rw [if_neg (by decide), if_neg (by decide), save_add rfl (atEnd rfl)]

theorem removeDualAccess_spec (self : Tables) (a b : Int) :
    (Refers self a b ∧ ∃ (k : Nat) (row : Row), self.dual_access.records[k]? = some row ∧
      row.entry = some (s(toShort a, toShort b), ()) ∧
        removeDualAccess self a b = .ok { self with
          dual_access := { self.dual_access with
            records := self.dual_access.records.set k { row with deleted := true } } }) ∨
    ¬Paired self a b ∧ removeDualAccess self a b = .ok self ∨
    ¬Refers self a b ∧ ∃ ex, removeDualAccess self a b = .error ex := by
  rw [removeDualAccess]
  by_cases first : existsProfile self a = true
  case neg =>
    right; right
    rw [Bool.not_eq_true] at first
    rw [first]
    refine ⟨?_, _, rfl⟩
    intro refers
    rw [existsProfile_iff.2 refers.1] at first
    cases first
  by_cases second : existsProfile self b = true
  case neg =>
    right; right
    rw [Bool.not_eq_true] at second
    rw [first, second]
    refine ⟨?_, _, rfl⟩
    intro refers
    rw [existsProfile_iff.2 refers.2] at second
    cases second
  have refers : Refers self a b := ⟨existsProfile_iff.1 first, existsProfile_iff.1 second⟩
  rw [first, second, if_neg (by decide), if_neg (by decide)]
  rcases findEither_spec self a b with ⟨k, row, record, entry, on⟩ | ⟨unpaired, answer⟩
  · left
    refine ⟨refers, k, row, record, entry, ?_⟩
    rw [on]
    dsimp only
    rw [if_pos rfl, save_onRecord dualSchema record]
    rfl
  · right; left
    refine ⟨unpaired, ?_⟩
    generalize findEither self a b = result at answer
    obtain ⟨found, myRecordSet⟩ := result
    dsimp only at answer ⊢
    rw [answer]
    rfl

theorem verifiedDualAccess_iff :
    verifiedDualAccess self a b = true ↔ ∃ tables, storeDualAccess self a b = .ok tables := by
  have admits : verifiedDualAccess self a b = true ↔ Admits self a b := by
    have either := findDual_or self a b
    rw [verifiedDualAccess]
    generalize findDual self a b = result at either
    obtain ⟨first, second, myRecordSet⟩ := result
    dsimp only at either ⊢
    have none : Paired self a b ↔ ¬(first = false ∧ second = false) := by
      rw [← either]
      cases first <;> cases second <;> simp
    simp only [Bool.and_eq_true, existsProfile_iff, Bool.not_eq_true', decide_eq_false_iff_not]
    constructor
    · intro all
      obtain ⟨⟨⟨⟨here, there⟩, different⟩, inOrder⟩, inverted⟩ := all
      exact ⟨⟨here, there⟩, different, fun paired => none.1 paired ⟨inOrder, inverted⟩⟩
    · intro admits
      obtain ⟨inOrder, inverted⟩ := not_not.1 (mt none.2 admits.unpaired)
      exact ⟨⟨⟨admits.refers, admits.different⟩, inOrder⟩, inverted⟩
  rw [admits]
  rcases storeDualAccess_spec self a b with ⟨yes, stored⟩ | ⟨no, ex, raised⟩
  · exact iff_of_true yes ⟨_, stored⟩
  · refine iff_of_false no ?_
    intro stored
    obtain ⟨tables, stored⟩ := stored
    rw [raised] at stored
    cases stored

theorem loadDualAccess_eq : loadDualAccess self a b = self.dual_access.records.find? fun row =>
    (row.profile1Id = a ∧ row.profile2Id = b ∨ row.profile1Id = b ∧ row.profile2Id = a) ∧
      row.deleted = false := by
  have all := @readRows_eq _ self.dual_access (.open dualSchema)
    self.dual_access.records.length 0 rfl rfl (by omega)
  rw [loadDualAccess, nextWhere_eq_find, all]
  rfl

theorem loadDualAccess_isSome : (loadDualAccess self a b).isSome = true ↔
    ∃ row ∈ self.dual_access.records, row.entry = some (s(a, b), ()) := by
  rw [loadDualAccess_eq, List.find?_isSome]
  apply exists_congr
  intro row
  rw [decide_eq_true_iff, entry_eq_iff]

theorem loadDualAccess_comm (self : Tables) (a b : Int) :
    loadDualAccess self a b = loadDualAccess self b a := by
  rw [loadDualAccess_eq, loadDualAccess_eq]
  congr 1
  funext row
  exact decide_eq_decide.2 (and_congr_left' or_comm)

/-! ## The invariant -/

theorem isShort_of_entry {p q : Int} (entry : row.entry = some (s(p, q), ()))
    (short : IsShort row.profile1Id ∧ IsShort row.profile2Id) : IsShort p ∧ IsShort q := by
  obtain ⟨pair, -⟩ := entry_eq_iff.1 entry
  rcases pair with ⟨rfl, rfl⟩ | ⟨rfl, rfl⟩
  · exact short
  · exact short.symm

theorem entry_deleted (row : Row) : Row.entry { row with deleted := true } = none := if_pos rfl

/-- The table keeps the pairs, in numbers of its own width. -/
structure Inv (session : Session) : Prop where
  stores : Stores Row.entry session.tables.dual_access.records session.pairs
  different : ∀ row ∈ session.tables.dual_access.records, row.deleted = false →
    row.profile1Id ≠ row.profile2Id ∧ row.profile1Id ∈ session.tables.profiles.records ∧
      row.profile2Id ∈ session.tables.profiles.records
  short : ∀ row ∈ session.tables.dual_access.records,
    IsShort row.profile1Id ∧ IsShort row.profile2Id

section

variable {session : Session} {call : Call}

theorem inv_start (profiles : Table Int) : Inv (start profiles) where
  stores := stores_nil
  different _ member := absurd member not_mem_nil
  short _ member := absurd member not_mem_nil

theorem Inv.related (inv : Inv session) : session.Related where
  stores := inv.stores
  different := inv.different
  verified _ _ := verifiedDualAccess_iff
  symmetric a b := loadDualAccess_comm session.tables a b
  loads a b := loadDualAccess_isSome.trans (inv.stores.holds s(a, b) ()).symm

theorem Inv.absent (inv : Inv session) (unpaired : ¬Paired session.tables a b) :
    IsShort a ∧ IsShort b → session.pairs s(a, b) = none := by
  intro fits
  cases pair : session.pairs s(a, b) with
  | none => rfl
  | some value =>
    obtain ⟨row, member, entry⟩ := (inv.stores.holds _ _).1 pair
    rw [← fits.1.toShort_eq, ← fits.2.toShort_eq] at entry
    exact absurd ⟨row, member, entry⟩ unpaired

theorem Inv.forgotten (inv : Inv session) (unpaired : ¬Paired session.tables a b) :
    session.pairs s(a, b) = none := by
  by_cases fits : IsShort a ∧ IsShort b
  · exact inv.absent unpaired fits
  · cases pair : session.pairs s(a, b) with
    | none => rfl
    | some value =>
      obtain ⟨row, member, entry⟩ := (inv.stores.holds _ _).1 pair
      exact absurd (isShort_of_entry entry (inv.short row member)) fits

theorem Inv.store (inv : Inv session) (admits : Admits session.tables a b)
    (fits : IsShort a ∧ IsShort b)
    (stored : storeDualAccess session.tables a b = .ok { session.tables with
      dual_access := { session.tables.dual_access with
        records := session.tables.dual_access.records ++ [⟨toShort a, toShort b, false⟩] } }) :
    Inv (step (.storeDualAccess a b) session) := by
  have absent := inv.absent admits.unpaired fits
  obtain ⟨here, there⟩ := admits.refers
  simp only [step, stored]
  rw [fits.1.toShort_eq] at here ⊢
  rw [fits.2.toShort_eq] at there ⊢
  have append {P : Row → Prop} (old : ∀ row ∈ session.tables.dual_access.records, P row)
      (new : P ⟨a, b, false⟩) :
      ∀ row ∈ session.tables.dual_access.records ++ [⟨a, b, false⟩], P row := by
    intro row member
    rcases mem_append.1 member with former | added
    · exact old row former
    · rw [mem_singleton.1 added]
      exact new
  exact {
    stores := inv.stores.append absent rfl
    different := append inv.different fun _ => ⟨admits.different, here, there⟩
    short := append inv.short fits }

theorem Inv.remove (inv : Inv session) {k : Nat} {row : Row}
    (record : session.tables.dual_access.records[k]? = some row)
    (entry : row.entry = some (s(a, b), ()))
    (removed : removeDualAccess session.tables a b = .ok { session.tables with
      dual_access := { session.tables.dual_access with
        records := session.tables.dual_access.records.set k { row with deleted := true } } }) :
    Inv (step (.removeDualAccess a b) session) := by
  simp only [step, removed]
  exact {
    stores := inv.stores.set record entry none (entry_deleted row)
    different := by
      intro other member active
      rcases mem_or_eq_of_mem_set member with former | marked
      · exact inv.different other former active
      · rw [marked] at active
        cases active
    short := by
      intro other member
      rcases mem_or_eq_of_mem_set member with former | marked
      · exact inv.short other former
      · rw [marked]
        exact inv.short row (mem_of_getElem? record) }

theorem Inv.removes (inv : Inv session) {k : Nat} {row : Row}
    (record : session.tables.dual_access.records[k]? = some row)
    (entry : row.entry = some (s(a, b), ())) (i : Nat) :
    (session.tables.dual_access.records.set k { row with deleted := true })[i]? =
      (session.tables.dual_access.records[i]?).map fun row =>
        if row.entry = some (s(a, b), ()) then { row with deleted := true } else row := by
  by_cases same : k = i
  · subst same
    rw [List.getElem?_set_self (List.getElem?_eq_some_iff.1 record).1, record, Option.map_some,
      if_pos entry]
  · rw [List.getElem?_set_ne same]
    cases other : session.tables.dual_access.records[i]? with
    | none => rfl
    | some row' =>
      rw [Option.map_some, if_neg]
      intro entry'
      exact same (inv.stores.unique record other entry entry')

theorem Inv.right (inv : Inv session) (fits : session.Fits call) :
    Inv (step call session) ∧ session.Removes call := by
  cases call with
  | storeDualAccess a b =>
    refine ⟨?_, trivial⟩
    rcases storeDualAccess_spec session.tables a b with ⟨admits, stored⟩ | ⟨-, ex, raised⟩
    · exact inv.store admits (fits admits.refers admits.different admits.unpaired) stored
    · simp only [step, raised]
      exact inv
  | removeDualAccess a b =>
    rcases removeDualAccess_spec session.tables a b with
      ⟨refers, k, row, record, entry, removed⟩ | ⟨unpaired, same⟩ | ⟨-, ex, raised⟩
    · obtain ⟨left, right⟩ := fits refers ⟨row, mem_of_getElem? record, entry⟩
      rw [left.toShort_eq, right.toShort_eq] at entry
      refine ⟨inv.remove record entry removed, ?_⟩
      intro tables result
      rw [removed] at result
      cases result
      exact inv.removes record entry
    · have forgotten := inv.forgotten unpaired
      constructor
      · simp only [step, same]
        rw [← forgotten, Function.update_eq_self]
        exact inv
      · intro tables result i
        rw [same] at result
        cases result
        cases record : session.tables.dual_access.records[i]? with
        | none => rfl
        | some row =>
          rw [Option.map_some, if_neg]
          exact inv.stores.fresh forgotten (mem_of_getElem? record)
    · constructor
      · simp only [step, raised]
        exact inv
      · intro tables result
        rw [raised] at result
        cases result

/-- Under a number that does not fit nothing is found, and no record is that of the call. -/
theorem Inv.fits (inv : Inv session) (right : session.Right call) : session.Fits call := by
  cases call with
  | storeDualAccess a b =>
    intro refers different unpaired
    have stores := right.related.stores
    rcases storeDualAccess_spec session.tables a b with ⟨-, stored⟩ | ⟨refused, -⟩
    · simp only [step, stored] at stores
      obtain ⟨row, member, entry⟩ := (stores.holds s(a, b) ()).1 (Function.update_self ..)
      apply isShort_of_entry entry
      rcases mem_append.1 member with former | added
      · exact inv.short row former
      · rw [mem_singleton.1 added]
        exact ⟨isShort_toShort a, isShort_toShort b⟩
    · exact absurd ⟨refers, different, unpaired⟩ refused
  | removeDualAccess a b =>
    intro refers paired
    rcases removeDualAccess_spec session.tables a b with
      ⟨-, k, row, record, entry, removed⟩ | ⟨unpaired, -⟩ | ⟨missing, -⟩
    · have marked := right.removes _ removed k
      dsimp only at marked
      rw [List.getElem?_set_self (List.getElem?_eq_some_iff.1 record).1, record,
        Option.map_some] at marked
      by_cases own : row.entry = some (s(a, b), ())
      · exact isShort_of_entry own (inv.short row (mem_of_getElem? record))
      · rw [if_neg own] at marked
        have active := (entry_eq_iff.1 entry).2
        rw [← Option.some.inj marked] at active
        cases active
    · exact absurd paired unpaired
    · exact absurd refers missing

end

/-! ## Runs -/

end CimArm.DualAccess
