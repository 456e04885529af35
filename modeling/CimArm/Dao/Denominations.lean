import CimArm.Cim.BillAcceptor
import CimArm.Dao.MoneyField
import CimArm.Db.Rows
import CimArm.Lib.KeyedRows
import CimArm.Lib.Trace

/-!
# The table of denominations

`AcceptorDAO` keeps the denominations of all acceptors in one table, looked for from the first
record on.  A denomination that is stored replaces its record or is added; one that is deleted
loses its acceptor and its currency, so that its record is never found again.

What is looked for is compared with what the fields hold, and these are narrower: a number that
does not fit a `short` and an amount that does not fit its field are stored as others, and each
store adds a record.

* `isMap_iff`: in a run the table is a map from the value type, the acceptor, the currency and the
  amount if and only if all that is stored fits its field.
-/

namespace CimArm.Denominations

open Trace KeyedRows RecordSet List
open BillAcceptor (DenominationState DenominationSecurity AcceptedCurrency)

/-! ## The table -/

structure Row : Type where
  depositValueType : DepositValueType
  acceptorId : Int
  currencyId : Int
  /-- The five bytes of the amount. -/
  denomination : List UInt8
  state : DenominationState
  security : DenominationSecurity
  deriving DecidableEq

def denominationsSchema : Schema Row :=
  ⟨⟨.undefined, 0, 0, [0, 0, 0, 0, 0], .undefined, .undefined⟩, none⟩

/-- The table, and the record set that all operations share. -/
structure AcceptorDAO : Type where
  denominations : Table Row
  denominationsRS : RecordSet Row

/-- What is stored of a denomination. -/
structure Denomination : Type where
  amount : Int64
  state : DenominationState
  security : DenominationSecurity

section

variable (self : AcceptorDAO) (aDepositValueType : DepositValueType)
  (anAcceptorId aCurrencyId : Int)

/-- The condition of the loops that look for a record. -/
def isRecord (amount : Int64) (row : Row) : Bool :=
  row.depositValueType = aDepositValueType ∧ row.acceptorId = anAcceptorId ∧
    row.currencyId = aCurrencyId ∧ getMoneyValue row.denomination = amount

/-- The audit and the backup are other tables. -/
def storeDenomination (aDenomination : Denomination) : AcceptorDAO :=
  let (found, denominationsRS) := findRow self.denominations
    (isRecord aDepositValueType anAcceptorId aCurrencyId aDenomination.amount) self.denominationsRS
  let denominationsRS :=
    if !found then
      let denominationsRS := denominationsRS.add denominationsSchema
      denominationsRS.setRecordBuffer { denominationsRS.buffer with
        depositValueType := aDepositValueType
        acceptorId := toShort anAcceptorId
        currencyId := toShort aCurrencyId
        denomination := setMoneyValue aDenomination.amount }
    else denominationsRS
  let denominationsRS := denominationsRS.setRecordBuffer { denominationsRS.buffer with
    state := aDenomination.state
    security := aDenomination.security }
  let (_, denominations, denominationsRS) :=
    denominationsRS.save denominationsSchema self.denominations
  ⟨denominations, denominationsRS⟩

def deleteDenomination (amount : Int64) : AcceptorDAO :=
  let (found, denominationsRS) := findRow self.denominations
    (isRecord aDepositValueType anAcceptorId aCurrencyId amount) self.denominationsRS
  if !found then { self with denominationsRS }
  else
    let denominationsRS := denominationsRS.setRecordBuffer { denominationsRS.buffer with
      acceptorId := 0
      currencyId := 0 }
    let (_, denominations, denominationsRS) :=
      denominationsRS.save denominationsSchema self.denominations
    ⟨denominations, denominationsRS⟩

/-- The condition of the loop that loads the denominations of a currency. -/
def IsListed (row : Row) : Prop :=
  row.acceptorId = anAcceptorId ∧ row.depositValueType = aDepositValueType ∧
    row.currencyId = aCurrencyId

instance : DecidablePred (IsListed aDepositValueType anAcceptorId aCurrencyId) := fun _ =>
  inferInstanceAs (Decidable (_ ∧ _))

/-- The denomination of a record. -/
def Row.read (row : Row) : BillAcceptor.Denomination :=
  ⟨(getMoneyValue row.denomination).toInt, row.state, row.security⟩

def loadDenominations (acceptedCurrency : AcceptedCurrency) : AcceptedCurrency :=
  let denominationsRS := (self.denominationsRS.moveBeforeFirst self.denominations).2
  (readRows self.denominations (self.denominations.records.length + 1) denominationsRS).foldl
    (fun acceptedCurrency row =>
      if IsListed aDepositValueType anAcceptorId acceptedCurrency.currencyId row then
        acceptedCurrency.addDenomination row.read
      else acceptedCurrency)
    acceptedCurrency

end

/-! ## The map -/

structure Key : Type where
  depositValueType : DepositValueType
  acceptorId : Int
  currencyId : Int
  amount : Int64
  deriving DecidableEq

def Row.key (row : Row) : Key :=
  ⟨row.depositValueType, row.acceptorId, row.currencyId, getMoneyValue row.denomination⟩

/-- A record without an acceptor is dead. -/
def Row.entry (row : Row) : Option (Key × DenominationState × DenominationSecurity) :=
  if row.acceptorId = 0 then none else some (row.key, row.state, row.security)

inductive Call : Type
  | storeDenomination (aDepositValueType : DepositValueType) (anAcceptorId aCurrencyId : Int)
    (aDenomination : Denomination)
  | deleteDenomination (aDepositValueType : DepositValueType) (anAcceptorId aCurrencyId : Int)
    (amount : Int64)

def Call.key : Call → Key
  | .storeDenomination aDepositValueType anAcceptorId aCurrencyId aDenomination =>
    ⟨aDepositValueType, anAcceptorId, aCurrencyId, aDenomination.amount⟩
  | .deleteDenomination aDepositValueType anAcceptorId aCurrencyId amount =>
    ⟨aDepositValueType, anAcceptorId, aCurrencyId, amount⟩

/-- What the map has under the key of the call behind it. -/
def Call.value : Call → Option (DenominationState × DenominationSecurity)
  | .storeDenomination _ _ _ aDenomination => some (aDenomination.state, aDenomination.security)
  | .deleteDenomination _ _ _ _ => none

/-- The table, and what was stored after it was last deleted. -/
structure Session : Type where
  dao : AcceptorDAO
  map : Key → Option (DenominationState × DenominationSecurity)

def AcceptorDAO.step (self : AcceptorDAO) : Call → AcceptorDAO
  | .storeDenomination aDepositValueType anAcceptorId aCurrencyId aDenomination =>
    storeDenomination self aDepositValueType anAcceptorId aCurrencyId aDenomination
  | .deleteDenomination aDepositValueType anAcceptorId aCurrencyId amount =>
    deleteDenomination self aDepositValueType anAcceptorId aCurrencyId amount

namespace Session

def start : Session := ⟨⟨.empty, .open denominationsSchema⟩, fun _ => none⟩

def step (call : Call) (self : Session) : Session :=
  ⟨self.dao.step call, Function.update self.map call.key call.value⟩

/-- What the table is for. -/
structure IsMap (session : Session) : Prop where
  /-- One live record for each denomination, and no other live record. -/
  stores : Stores Row.entry session.dao.denominations.records session.map
  loads : ∀ aDepositValueType anAcceptorId aCurrencyId, anAcceptorId ≠ 0 → ∀ d,
    d ∈ (loadDenominations session.dao aDepositValueType anAcceptorId
      ⟨aCurrencyId, [], nodup_nil⟩).denominations ↔
    ∃ amount : Int64, d.amount = amount.toInt ∧
      session.map ⟨aDepositValueType, anAcceptorId, aCurrencyId, amount⟩ =
        some (d.state, d.security)

end Session

/-- The numbers and the amount fit their fields. -/
def Key.Fits (key : Key) : Prop :=
  IsShort key.acceptorId ∧ IsShort key.currencyId ∧ FitsMoney key.amount.toInt

/-- What is stored fits; what is deleted need not. -/
def Call.Fits : Call → Prop
  | .storeDenomination _ anAcceptorId aCurrencyId aDenomination =>
    IsShort anAcceptorId ∧ IsShort aCurrencyId ∧ FitsMoney aDenomination.amount.toInt
  | .deleteDenomination _ _ _ _ => True

open Session

/-! ## The operations -/

section

variable {self : AcceptorDAO} {aDepositValueType : DepositValueType}
  {anAcceptorId aCurrencyId : Int} {amount : Int64} {row : Row}

theorem isRecord_iff : isRecord aDepositValueType anAcceptorId aCurrencyId amount row = true ↔
    row.key = ⟨aDepositValueType, anAcceptorId, aCurrencyId, amount⟩ := by
  simp only [isRecord, Row.key, decide_eq_true_eq, Key.mk.injEq]

theorem key_ne (fail : isRecord aDepositValueType anAcceptorId aCurrencyId amount row = false) :
    row.key ≠ ⟨aDepositValueType, anAcceptorId, aCurrencyId, amount⟩ := by
  intro same
  rw [isRecord_iff.2 same] at fail
  cases fail

theorem storeDenomination_spec (self : AcceptorDAO) (aDepositValueType : DepositValueType)
    (anAcceptorId aCurrencyId : Int) (aDenomination : Denomination) :
    let key : Key := ⟨aDepositValueType, anAcceptorId, aCurrencyId, aDenomination.amount⟩
    let stored :=
      storeDenomination self aDepositValueType anAcceptorId aCurrencyId aDenomination
    (∃ (k : Nat) (row : Row), self.denominations.records[k]? = some row ∧ row.key = key ∧
      stored.denominations.records = self.denominations.records.set k
        { row with state := aDenomination.state, security := aDenomination.security }) ∨
    (∀ row ∈ self.denominations.records, row.key ≠ key) ∧
      stored.denominations.records = self.denominations.records ++
        [⟨aDepositValueType, toShort anAcceptorId, toShort aCurrencyId,
          setMoneyValue aDenomination.amount, aDenomination.state, aDenomination.security⟩] := by
  intro key stored
  have search := findRow_search self.denominations
    (isRecord aDepositValueType anAcceptorId aCurrencyId aDenomination.amount) self.denominationsRS
  simp only [stored, storeDenomination]
  rcases search with ⟨record, passes, -, on⟩ | ⟨fail, answer, atEnd⟩
  · left
    refine ⟨_, _, record, isRecord_iff.1 passes, ?_⟩
    rw [on]
    simp only [Bool.not_true, Bool.false_eq_true, if_false]
    rw [save_onRecord denominationsSchema record]
    rfl
  · right
    refine ⟨fun row member => key_ne (fail row member), ?_⟩
    generalize findRow self.denominations _ self.denominationsRS = found at answer atEnd
    obtain ⟨found, denominationsRS⟩ := found
    dsimp only at answer atEnd ⊢
    subst answer
    simp only [Bool.not_false, if_true]
    have plain : denominationsSchema.autoIncField = none := rfl
    exact congrArg Table.records (save_add plain atEnd _)

theorem deleteDenomination_spec (self : AcceptorDAO) (aDepositValueType : DepositValueType)
    (anAcceptorId aCurrencyId : Int) (amount : Int64) :
    let key : Key := ⟨aDepositValueType, anAcceptorId, aCurrencyId, amount⟩
    let deleted := deleteDenomination self aDepositValueType anAcceptorId aCurrencyId amount
    (∃ (k : Nat) (row : Row), self.denominations.records[k]? = some row ∧ row.key = key ∧
      deleted.denominations.records =
        self.denominations.records.set k { row with acceptorId := 0, currencyId := 0 }) ∨
    (∀ row ∈ self.denominations.records, row.key ≠ key) ∧
      deleted.denominations.records = self.denominations.records := by
  intro key deleted
  have search := findRow_search self.denominations
    (isRecord aDepositValueType anAcceptorId aCurrencyId amount) self.denominationsRS
  simp only [deleted, deleteDenomination]
  rcases search with ⟨record, passes, -, on⟩ | ⟨fail, answer, -⟩
  · left
    refine ⟨_, _, record, isRecord_iff.1 passes, ?_⟩
    rw [on]
    simp only [Bool.not_true, Bool.false_eq_true, if_false]
    rw [save_onRecord denominationsSchema record]
    rfl
  · right
    refine ⟨fun row member => key_ne (fail row member), ?_⟩
    rw [answer]
    rfl

theorem Row.entry_of_ne (row : Row) (live : row.acceptorId ≠ 0) :
    row.entry = some (row.key, row.state, row.security) := if_neg live

theorem entry_eq_iff {key : Key} {state : DenominationState} {security : DenominationSecurity} :
    row.entry = some (key, state, security) ↔
      row.acceptorId ≠ 0 ∧ row.key = key ∧ row.state = state ∧ row.security = security := by
  rw [Row.entry]
  by_cases dead : row.acceptorId = 0
  · rw [if_pos dead]
    exact iff_of_false (by simp) fun live => live.1 dead
  · rw [if_neg dead, and_iff_right dead, Option.some.injEq, Prod.mk.injEq, Prod.mk.injEq]

/-! ## Loading -/

theorem mem_addDenomination {acceptedCurrency : AcceptedCurrency} {d e : BillAcceptor.Denomination}
    (once : ∀ e ∈ acceptedCurrency.denominations, e.amount = d.amount → e = d) :
    e ∈ (acceptedCurrency.addDenomination d).denominations ↔
      e ∈ acceptedCurrency.denominations ∨ e = d := by
  rw [AcceptedCurrency.addDenomination]
  split
  · rw [mem_append, mem_singleton]
  · rename_i present
    obtain ⟨other, member, same⟩ := mem_map.1 (not_not.1 present)
    rw [once other member same] at member
    constructor
    · exact .inl
    · intro either
      rcases either with old | rfl
      · exact old
      · exact member

theorem mem_foldl_addDenomination (ds : List BillAcceptor.Denomination)
    (acceptedCurrency : AcceptedCurrency) {e : BillAcceptor.Denomination}
    (once : ∀ d ∈ acceptedCurrency.denominations ++ ds,
      ∀ d' ∈ acceptedCurrency.denominations ++ ds, d.amount = d'.amount → d = d') :
    e ∈ (ds.foldl .addDenomination acceptedCurrency).denominations ↔
      e ∈ acceptedCurrency.denominations ++ ds := by
  induction ds generalizing acceptedCurrency with
  | nil => rw [foldl_nil, append_nil]
  | cons d ds ih =>
    have here : d ∈ acceptedCurrency.denominations ++ d :: ds :=
      mem_append_right _ mem_cons_self
    have added (e : BillAcceptor.Denomination) := mem_addDenomination (e := e)
      fun e member => once e (mem_append_left _ member) d here
    have members (e : BillAcceptor.Denomination) :
        e ∈ (acceptedCurrency.addDenomination d).denominations ++ ds ↔
          e ∈ acceptedCurrency.denominations ++ d :: ds := by
      rw [mem_append, added, mem_append, mem_cons, or_assoc]
    rw [foldl_cons, ih, members]
    intro e member e' member'
    exact once e ((members e).1 member) e' ((members e').1 member')

theorem addDenomination_currencyId (acceptedCurrency : AcceptedCurrency)
    (d : BillAcceptor.Denomination) :
    (acceptedCurrency.addDenomination d).currencyId = acceptedCurrency.currencyId := by
  rw [AcceptedCurrency.addDenomination]
  split <;> rfl

theorem loadDenominations_eq (self : AcceptorDAO) (aDepositValueType : DepositValueType)
    (anAcceptorId : Int) (acceptedCurrency : AcceptedCurrency) :
    loadDenominations self aDepositValueType anAcceptorId acceptedCurrency =
      ((self.denominations.records.filter
        (IsListed aDepositValueType anAcceptorId acceptedCurrency.currencyId)).map Row.read).foldl
          .addDenomination acceptedCurrency := by
  have all := @readRows_eq _ self.denominations
    { self.denominationsRS with pos := 0, feof := false } self.denominations.records.length 0
    rfl rfl (by omega)
  rw [loadDenominations, moveBeforeFirst_snd, all, drop_zero]
  clear all
  induction self.denominations.records generalizing acceptedCurrency with
  | nil => rfl
  | cons row rows ih =>
    rw [foldl_cons, ih, filter_cons]
    by_cases listed : IsListed aDepositValueType anAcceptorId acceptedCurrency.currencyId row
    · rw [if_pos listed, if_pos (decide_eq_true listed), map_cons, foldl_cons,
        addDenomination_currencyId]
    · rw [if_neg listed, if_neg (by rwa [decide_eq_true_iff])]

end

/-! ## The invariant -/

/-- The table is the map, and its records are as the fields can hold them. -/
structure Inv (session : Session) : Prop where
  stores : Stores Row.entry session.dao.denominations.records session.map
  fits : ∀ row ∈ session.dao.denominations.records, row.key.Fits

section

variable {session : Session} {call : Call}

theorem loads_of_stores
    (stores : Stores Row.entry session.dao.denominations.records session.map)
    (aDepositValueType : DepositValueType) {anAcceptorId : Int} (aCurrencyId : Int)
    (live : anAcceptorId ≠ 0) (d : BillAcceptor.Denomination) :
    d ∈ (loadDenominations session.dao aDepositValueType anAcceptorId
      ⟨aCurrencyId, [], nodup_nil⟩).denominations ↔
    ∃ amount : Int64, d.amount = amount.toInt ∧
      session.map ⟨aDepositValueType, anAcceptorId, aCurrencyId, amount⟩ =
        some (d.state, d.security) := by
  have listed (e : BillAcceptor.Denomination) :
      e ∈ (session.dao.denominations.records.filter
        (IsListed aDepositValueType anAcceptorId aCurrencyId)).map Row.read ↔
      ∃ row ∈ session.dao.denominations.records,
        IsListed aDepositValueType anAcceptorId aCurrencyId row ∧ row.read = e := by
    simp only [mem_map, mem_filter, decide_eq_true_eq, and_assoc]
  rw [loadDenominations_eq, mem_foldl_addDenomination]
  · rw [nil_append, listed]
    constructor
    · intro found
      obtain ⟨row, member, ⟨acceptor, type, currency⟩, rfl⟩ := found
      refine ⟨getMoneyValue row.denomination, by rw [Row.read], ?_⟩
      apply (stores.holds _ _).2
      have alive : row.acceptorId ≠ 0 := by rwa [acceptor]
      refine ⟨row, member, ?_⟩
      rw [row.entry_of_ne alive, Row.key, type, acceptor, currency]
      rfl
    · intro kept
      obtain ⟨amount, same, value⟩ := kept
      obtain ⟨row, member, entry⟩ := (stores.holds _ _).1 value
      obtain ⟨-, key, state, security⟩ := entry_eq_iff.1 entry
      rw [Row.key, Key.mk.injEq] at key
      obtain ⟨type, acceptor, currency, money⟩ := key
      refine ⟨row, member, ⟨acceptor, type, currency⟩, ?_⟩
      rw [Row.read, money, state, security, ← same]
  · intro e member e' member' same
    rw [nil_append] at member member'
    obtain ⟨row, inside, ⟨acceptor, type, currency⟩, rfl⟩ := (listed e).1 member
    obtain ⟨row', inside', ⟨acceptor', type', currency'⟩, rfl⟩ := (listed e').1 member'
    obtain ⟨k, record⟩ := mem_iff_getElem?.1 inside
    have money : getMoneyValue row.denomination = getMoneyValue row'.denomination := by
      simp only [Row.read] at same
      exact Int64.toInt_inj.1 same
    have key : row'.key = row.key := by
      rw [Row.key, Row.key, type, type', acceptor, acceptor', currency, currency', money]
    have entry := row.entry_of_ne (by rwa [acceptor])
    have entry' := row'.entry_of_ne (by rwa [acceptor'])
    rw [key] at entry'
    rw [stores.value record entry inside' entry']

theorem Inv.isMap (inv : Inv session) : session.IsMap where
  stores := inv.stores
  loads type _ currency live d := loads_of_stores inv.stores type currency live d

theorem inv_start : Inv start where
  stores := stores_nil
  fits _ member := absurd member not_mem_nil

theorem fits_written (type : DepositValueType) (acceptor currency : Int) (amount : Int64)
    (state : DenominationState) (security : DenominationSecurity) :
    (Row.key ⟨type, toShort acceptor, toShort currency, setMoneyValue amount, state,
      security⟩).Fits :=
  ⟨isShort_toShort acceptor, isShort_toShort currency, fitsMoney_getMoneyValue amount⟩

theorem isShort_zero : IsShort 0 := by decide

theorem Inv.absent (inv : Inv session) {key : Key}
    (missing : ∀ row ∈ session.dao.denominations.records, row.key ≠ key) :
    session.map key = none := by
  cases value : session.map key with
  | none => rfl
  | some v =>
    obtain ⟨row, member, entry⟩ := (inv.stores.holds key v).1 value
    exact absurd (entry_eq_iff.1 entry).2.1 (missing row member)

theorem Inv.step (inv : Inv session) (live : call.key.acceptorId ≠ 0) (fits : call.Fits) :
    Inv (step call session) := by
  obtain ⟨stores, width⟩ := inv
  cases call with
  | storeDenomination type acceptor currency aDenomination =>
    rcases storeDenomination_spec session.dao type acceptor currency aDenomination with
      ⟨k, row, record, key, saved⟩ | ⟨missing, added⟩
    · have alive : row.acceptorId ≠ 0 := by
        rw [Row.key, Key.mk.injEq] at key
        rw [key.2.1]
        exact live
      have entry := row.entry_of_ne alive
      rw [key] at entry
      constructor
      · show Stores Row.entry (storeDenomination _ _ _ _ _).denominations.records _
        rw [saved]
        apply stores.set record entry (some (aDenomination.state, aDenomination.security))
        rw [Option.map_some, ← key]
        exact Row.entry_of_ne _ alive
      · show ∀ row ∈ (storeDenomination _ _ _ _ _).denominations.records, _
        rw [saved]
        intro other member
        rcases mem_or_eq_of_mem_set member with former | same
        · exact width other former
        · rw [same]
          exact width row (mem_of_getElem? record)
    · have absent := Inv.absent ⟨stores, width⟩ missing
      have back : getMoneyValue (setMoneyValue aDenomination.amount) = aDenomination.amount :=
        (getMoneyValue_setMoneyValue _).2 fits.2.2
      constructor
      · show Stores Row.entry (storeDenomination _ _ _ _ _).denominations.records _
        rw [added, fits.1.toShort_eq, fits.2.1.toShort_eq]
        apply stores.append absent
        rw [Row.entry_of_ne _ live, Row.key, back]
      · show ∀ row ∈ (storeDenomination _ _ _ _ _).denominations.records, _
        rw [added]
        intro other member
        rcases mem_append.1 member with former | new
        · exact width other former
        · rw [mem_singleton.1 new]
          exact fits_written ..
  | deleteDenomination type acceptor currency amount =>
    rcases deleteDenomination_spec session.dao type acceptor currency amount with
      ⟨k, row, record, key, saved⟩ | ⟨missing, same⟩
    · have alive : row.acceptorId ≠ 0 := by
        rw [Row.key, Key.mk.injEq] at key
        rw [key.2.1]
        exact live
      have entry := row.entry_of_ne alive
      rw [key] at entry
      constructor
      · show Stores Row.entry (deleteDenomination _ _ _ _ _).denominations.records _
        rw [saved]
        exact stores.set record entry none (if_pos rfl)
      · show ∀ row ∈ (deleteDenomination _ _ _ _ _).denominations.records, _
        rw [saved]
        intro other member
        rcases mem_or_eq_of_mem_set member with former | same
        · exact width other former
        · rw [same]
          exact ⟨isShort_zero, isShort_zero, (width row (mem_of_getElem? record)).2.2⟩
    · have absent := Inv.absent ⟨stores, width⟩ missing
      constructor
      · show Stores Row.entry (deleteDenomination _ _ _ _ _).denominations.records (Function.update _ _ none)
        have unchanged := Function.update_eq_self
          (⟨type, acceptor, currency, amount⟩ : Key) session.map
        rw [absent] at unchanged
        rw [same]
        exact unchanged.symm ▸ stores
      · show ∀ row ∈ (deleteDenomination _ _ _ _ _).denominations.records, _
        rw [same]
        exact width

theorem Inv.fits_of_isMap (inv : Inv session) (right : (Session.step call session).IsMap) :
    call.Fits := by
  cases call with
  | deleteDenomination type acceptor currency amount => trivial
  | storeDenomination type acceptor currency aDenomination =>
    obtain ⟨row, member, entry⟩ :=
      (right.stores.holds _ _).1 (Function.update_self (β := fun _ => _) ..)
    obtain ⟨-, key, -⟩ := entry_eq_iff.1 entry
    have shown : row.key.Fits := by
      change row ∈ (storeDenomination _ _ _ _ _).denominations.records at member
      rcases storeDenomination_spec session.dao type acceptor currency aDenomination with
        ⟨k, old, record, -, saved⟩ | ⟨-, added⟩
      · rw [saved] at member
        rcases mem_or_eq_of_mem_set member with former | same
        · exact inv.fits row former
        · rw [same]
          exact inv.fits old (mem_of_getElem? record)
      · rw [added] at member
        rcases mem_append.1 member with former | new
        · exact inv.fits row former
        · rw [mem_singleton.1 new]
          exact fits_written ..
    rw [key] at shown
    exact shown

end

/-! ## Runs -/

theorem isMap_iff (calls : List Call) (live : ∀ call ∈ calls, call.key.acceptorId ≠ 0) :
    start.IsMap ∧ Always step (fun session call => (step call session).IsMap) calls start ↔
      ∀ call ∈ calls, call.Fits := by
  rw [and_iff_right inv_start.isMap, ← Always.forall_iff calls start]
  refine Always.congr_of_invariant Inv ?_ ?_ inv_start ((Always.forall_iff calls start).2 live)
  · intro session call inv live
    constructor
    · exact inv.fits_of_isMap
    · intro fits
      exact (inv.step live fits).isMap
  · intro session call inv live fits
    exact inv.step live fits

/-- A note of 100 is accepted, rejected, and deleted. -/
theorem isMap_iff_note :
    let calls : List Call :=
      [.storeDenomination .validatedCash 1 2 ⟨1000000000, .accept, .standard⟩,
        .storeDenomination .validatedCash 1 2 ⟨1000000000, .reject, .standard⟩,
        .deleteDenomination .validatedCash 1 2 1000000000]
    start.IsMap ∧ Always step (fun session call => (step call session).IsMap) calls start := by
  intro calls
  have live : ∀ call ∈ calls, call.key.acceptorId ≠ 0 := by decide
  apply (isMap_iff calls live).2
  have fits : IsShort 1 ∧ IsShort 2 ∧ FitsMoney (1000000000 : Int64).toInt := by decide
  intro call member
  simp only [calls, mem_cons, not_mem_nil, or_false] at member
  rcases member with rfl | rfl | rfl
  · exact fits
  · exact fits
  · trivial

/-- 21 474 836.49 is stored as 21 474 836.40. -/
theorem not_isMap :
    let calls : List Call :=
      [.storeDenomination .validatedCash 1 2 ⟨214748364900000, .accept, .standard⟩]
    ¬(start.IsMap ∧
      Always step (fun session call => (step call session).IsMap) calls start) := by
  intro calls right
  obtain ⟨row, member, entry⟩ := (right.2.1.stores.holds
    ⟨.validatedCash, 1, 2, 214748364900000⟩ (.accept, .standard)).1 (by decide +kernel)
  have amounts : ∀ row ∈ (storeDenomination start.dao .validatedCash 1 2
      ⟨214748364900000, .accept, .standard⟩).denominations.records,
      getMoneyValue row.denomination ≠ 214748364900000 := by
    decide +kernel
  obtain ⟨-, key, -⟩ := entry_eq_iff.1 entry
  rw [Row.key, Key.mk.injEq] at key
  exact amounts row member key.2.2.2

end CimArm.Denominations
