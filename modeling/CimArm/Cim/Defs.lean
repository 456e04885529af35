import Mathlib.Tactic.Common

/-!
# Objects of the cash-in manager

The enumerations of `CimDefs.h` and the configuration objects that deposits and
extractions point to.  The program compares these objects by reference; every
object is registered once under its identifier, so a reference is modelled by
the object's data and a nullable reference by an `Option`.  Amounts (`money_t`, a
fixed point integer) and quantities are `Int`, instants (`datetime_t`, seconds
since the epoch) are `Nat`.
-/

namespace CimArm

/-- The bytes of a C string before its terminator. -/
abbrev CString := List UInt8

/-- Kind of acceptor device. -/
inductive AcceptorType
  | undefined | validator | mailbox
  deriving DecidableEq, Repr

/-- Kind of deposited value. -/
inductive DepositValueType
  | undefined | validatedCash | manualCash | check | bond | creditCard | other | bookmark
  deriving DecidableEq, Repr

/-- Kind of deposit, and of the cashes that take it. -/
inductive DepositType
  | undefined | auto | manual | withoutDevices
  deriving DecidableEq, Repr

/-- The exceptions raised by the modelled methods. -/
inductive CimExcept
  /-- `CIM_MAX_DEPOSIT_DETAIL_QTY_EX` -/
  | maxDepositDetailQty
  deriving DecidableEq, Repr

/-- The most details one deposit may hold (`MAX_DEPOSIT_DETAIL_QTY`). -/
def maxDepositDetailQty : Nat := 20

structure Door : Type where
  doorId : Int
  deriving DecidableEq, Repr

structure AcceptorSettings : Type where
  acceptorId : Int
  acceptorType : AcceptorType
  deriving DecidableEq, Repr

structure Currency : Type where
  currencyId : Int
  deriving DecidableEq, Repr

structure CimCash : Type where
  cimCashId : Int
  depositType : DepositType
  door : Option Door
  deriving DecidableEq, Repr

structure User : Type where
  userId : Int
  deriving DecidableEq, Repr

structure CashReference : Type where
  cashReferenceId : Int
  deriving DecidableEq, Repr

end CimArm
