import CimArm.Cim.Deposit
import CimArm.Dao.Fields

/-!
# Deposits as records

The records of the deposit tables, how the data access objects fill them in from a
deposit, and the deposit they read back.  Objects go to the file as identifiers and
come back from the lists of the managers; a `NULL` object is sent the message all
the same and gives 0.  The tables of finished deposits and of deposits in progress
have the same fields; they differ in how much of a text a field takes.
-/

namespace CimArm

/-- The identifier of an object, 0 for `NULL`. -/
def idOf {α : Type} (id : α → Int) (object : Option α) : Int := (object.map id).getD 0

/-- The first registered object with an identifier. -/
def lookup {α : Type} (id : α → Int) (registered : List α) (anId : Int) : Option α :=
  registered.find? fun object => id object = anId

/-- The objects the managers have registered. -/
structure Registry : Type where
  doors : List Door
  cimCashs : List CimCash
  acceptorSettings : List AcceptorSettings
  currencies : List Currency
  users : List User
  references : List CashReference

namespace Registry

variable (self : Registry)

def getDoorById (aDoorId : Int) : Option Door := lookup (·.doorId) self.doors aDoorId

def getCimCashById (aCimCashId : Int) : Option CimCash :=
  lookup (·.cimCashId) self.cimCashs aCimCashId

def getAcceptorSettingsById (anId : Int) : Option AcceptorSettings :=
  lookup (·.acceptorId) self.acceptorSettings anId

def getCurrencyById (aCurrencyId : Int) : Option Currency :=
  lookup (·.currencyId) self.currencies aCurrencyId

def getUserFromCompleteList (aUserId : Int) : Option User :=
  lookup (·.userId) self.users aUserId

def getCashReferenceById (aCashReferenceId : Int) : Option CashReference :=
  lookup (·.cashReferenceId) self.references aCashReferenceId

end Registry

/-- A row of `deposits` or `temp_deposits`. -/
structure DepositRecord : Type where
  number : Nat
  doorId : Int
  cimCashId : Int
  referenceId : Int
  depositType : DepositType
  openTime : Nat
  closeTime : Nat
  userId : Int
  envelopeNumber : CString
  bankAccountNumber : CString
  rejectedQty : Int
  applyTo : CString
  deriving DecidableEq, Repr

/-- A row of `deposit_details` or `temp_deposit_details`. -/
structure DepositDetailRecord : Type where
  number : Nat
  acceptorId : Int
  depositValueType : DepositValueType
  qty : Int
  amount : Decimal
  currencyId : Int
  additionalId : Int
  deriving DecidableEq, Repr

def DepositRecord.blank : DepositRecord := ⟨0, 0, 0, 0, .undefined, 0, 0, 0, [], [], 0, []⟩

def DepositDetailRecord.blank : DepositDetailRecord := ⟨0, 0, .undefined, 0, ⟨0, 0⟩, 0, 0⟩

/-- The header values of a deposit set in a record, all but its number. A reference
is set only when there is one. `text` says what is left of a text in a field. -/
def DepositRecord.setDepositValues (text : Nat → CString → CString) (self : DepositRecord)
    (anObject : Deposit) : DepositRecord :=
  { self with
    doorId := toShort (idOf (·.doorId) anObject.door)
    cimCashId := toShort (idOf (·.cimCashId) anObject.cimCash)
    depositType := anObject.depositType
    openTime := toULong anObject.openTime
    closeTime := toULong anObject.closeTime
    userId := toLong (idOf (·.userId) anObject.user)
    envelopeNumber := text 15 anObject.envelopeNumber
    bankAccountNumber := text 30 anObject.bankAccountNumber
    rejectedQty := toShort anObject.rejectedQty
    applyTo := text 15 anObject.applyTo
    referenceId := match anObject.cashReference with
      | some reference => toShort reference.cashReferenceId
      | none => self.referenceId }

/-- The values of a detail, set in a new record. -/
def DepositDetailRecord.ofDetail (number : Nat) (detail : DepositDetail) :
    DepositDetailRecord where
  number := toULong number
  acceptorId := toShort (idOf (·.acceptorId) detail.acceptorSettings)
  depositValueType := detail.depositValueType
  qty := toShort detail.qty
  amount := moneyToDecimal detail.amount
  currencyId := toShort (idOf (·.currencyId) detail.currency)
  additionalId := 0

/-- The cash reference of a record; 0 stands for none. -/
def Registry.readReference (registry : Registry) (referenceId : Int) : Option CashReference :=
  if referenceId > 0 then registry.getCashReferenceById referenceId else none

/-- The deposit of a header record, with no details yet and without its number. -/
def Deposit.ofRecord (registry : Registry) (r : DepositRecord) : Deposit :=
  { Deposit.new with
    door := registry.getDoorById r.doorId
    cimCash := registry.getCimCashById r.cimCashId
    depositType := r.depositType
    openTime := r.openTime
    closeTime := r.closeTime
    user := registry.getUserFromCompleteList r.userId
    envelopeNumber := r.envelopeNumber
    bankAccountNumber := r.bankAccountNumber
    rejectedQty := r.rejectedQty
    applyTo := r.applyTo
    cashReference := registry.readReference r.referenceId }

/-- The detail of a detail record. -/
def DepositDetail.ofRecord (registry : Registry) (r : DepositDetailRecord) : DepositDetail where
  depositValueType := r.depositValueType
  amount := decimalToMoney r.amount
  qty := r.qty
  currency := registry.getCurrencyById r.currencyId
  acceptorSettings := registry.getAcceptorSettingsById r.acceptorId

/-! ## What comes back as it was -/

/-- A detail fits the fields of its record, and its objects are found again. -/
structure DepositDetail.FitsRecord (registry : Registry) (detail : DepositDetail) : Prop where
  acceptorSettings : registry.getAcceptorSettingsById
    (toShort (idOf (·.acceptorId) detail.acceptorSettings)) = detail.acceptorSettings
  qty : toShort detail.qty = detail.qty
  amount : FitsMoney detail.amount
  currency : registry.getCurrencyById
    (toShort (idOf (·.currencyId) detail.currency)) = detail.currency

end CimArm
