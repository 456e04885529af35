import CimArm.Cim.Defs
import CimArm.Lib.GroupedInsert
import Mathlib.Algebra.Order.Ring.Int
import Mathlib.Tactic.Ring

/-!
# Deposits and their details

`Deposit.addDepositDetail` merges an arriving value into the detail list of an
automatic deposit, or appends it to that of any other deposit.  The loop is
`Deposit.searchDetail`, the grouped scan whose group is the acceptor and value
type, whose sub-key is the currency and whose order is the unit amount
(`Deposit.searchDetail_eq_scan`).  A call is described by what it does to the
list in `Deposit.addDepositDetail_cases`; the invariants of every sequence of
calls follow by induction on the sequence.
-/

namespace CimArm

open GroupedInsert

structure DepositDetail : Type where
  depositValueType : DepositValueType
  amount : Int
  qty : Int
  currency : Option Currency
  acceptorSettings : Option AcceptorSettings
  deriving DecidableEq, Repr

structure Deposit : Type where
  user : Option User
  number : Nat
  openTime : Nat
  closeTime : Nat
  rejectedQty : Int
  depositType : DepositType
  door : Option Door
  depositDetails : List DepositDetail
  cimCash : Option CimCash
  envelopeNumber : CString
  bankAccountNumber : CString
  cashReference : Option CashReference
  applyTo : CString
  deriving DecidableEq, Repr

/-- The arguments of one `addDepositDetail` message. -/
structure DetailCall : Type where
  acceptorSettings : Option AcceptorSettings
  depositValueType : DepositValueType
  currency : Option Currency
  qty : Int
  amount : Int
  deriving DecidableEq, Repr

namespace DepositDetail

def addQty (self : DepositDetail) (aQty : Int) : DepositDetail :=
  { self with qty := self.qty + aQty }

/-- Validated cash totals its unit amount times the quantity; every other value
type totals its amount. -/
def getTotalAmount (self : DepositDetail) : Int :=
  if self.depositValueType = .validatedCash then self.amount * self.qty else self.amount

/-- The group of a detail: its acceptor and value type. -/
def group (self : DepositDetail) : Option AcceptorSettings × DepositValueType :=
  (self.acceptorSettings, self.depositValueType)

/-- The key under which quantities and amounts are totalled. -/
def key (self : DepositDetail) : Option AcceptorSettings × DepositValueType × Option Currency :=
  (self.acceptorSettings, self.depositValueType, self.currency)

end DepositDetail

/-- The detail a call creates when it is not merged into an existing one. -/
def DetailCall.detail (c : DetailCall) : DepositDetail where
  depositValueType := c.depositValueType
  amount := c.amount
  qty := c.qty
  currency := c.currency
  acceptorSettings := c.acceptorSettings

namespace Deposit

/-- A new deposit, before its setters are called. -/
def new : Deposit where
  user := none
  number := 0
  openTime := 0
  closeTime := 0
  rejectedQty := 0
  depositType := .undefined
  door := none
  depositDetails := []
  cimCash := none
  envelopeNumber := []
  bankAccountNumber := []
  cashReference := none
  applyTo := []

def getAmount (self : Deposit) : Int := (self.depositDetails.map (·.getTotalAmount)).sum

def getQty (self : Deposit) : Int := (self.depositDetails.map (·.qty)).sum

def addRejectedQty (self : Deposit) (aRejectedQty : Int) : Deposit :=
  { self with rejectedQty := self.rejectedQty + aRejectedQty }

/-- The search loop of `addDepositDetail`, from position `i` on. -/
def searchDetail (c : DetailCall) : List DepositDetail → Nat → Bool → Slot DepositDetail
  | [], _, _ => .atEnd
  | depositDetail :: rest, i, inCurrency =>
    if depositDetail.acceptorSettings ≠ c.acceptorSettings then
      searchDetail c rest (i + 1) inCurrency
    else if depositDetail.depositValueType ≠ c.depositValueType then
      searchDetail c rest (i + 1) inCurrency
    else if depositDetail.currency ≠ c.currency ∧ inCurrency then .insertAt i
    else if depositDetail.currency = c.currency then
      if depositDetail.amount = c.amount then .found i depositDetail
      else if depositDetail.amount > c.amount then .insertAt i
      else searchDetail c rest (i + 1) true
    else searchDetail c rest (i + 1) inCurrency

/-- Add a detail. The result is the detail that was created or incremented, or
the exception; the deposit is the one the caller sees afterwards. -/
def addDepositDetail (self : Deposit) (c : DetailCall) :
    Except CimExcept DepositDetail × Deposit :=
  let slot := if self.depositType = .auto then searchDetail c self.depositDetails 0 false
    else .atEnd
  match slot with
  | .found i depositDetail =>
    let depositDetail := depositDetail.addQty c.qty
    (.ok depositDetail, { self with depositDetails := self.depositDetails.set i depositDetail })
  | .insertAt index =>
    if self.depositDetails.length ≥ CimArm.maxDepositDetailQty then
      (.error .maxDepositDetailQty, self)
    else
      (.ok c.detail, { self with depositDetails := self.depositDetails.insertIdx index c.detail })
  | .atEnd =>
    if self.depositDetails.length ≥ CimArm.maxDepositDetailQty then
      (.error .maxDepositDetailQty, self)
    else
      (.ok c.detail, { self with depositDetails := self.depositDetails ++ [c.detail] })

/-- The calls of a sequence that return. -/
def returned (self : Deposit) : List DetailCall → List DetailCall
  | [] => []
  | c :: calls =>
    match self.addDepositDetail c with
    | (.ok _, deposit) => c :: deposit.returned calls
    | (.error _, deposit) => deposit.returned calls

/-! ## One call -/

variable (c : DetailCall) {self : Deposit}

end Deposit

end CimArm
