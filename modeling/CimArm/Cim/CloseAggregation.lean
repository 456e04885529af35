import CimArm.Cim.ZClose

/-!
# The aggregation of a close

A close keeps its details under a composite key and its cash references under another one,
and the summary of its details is made again from the details by a third loop.  The three
loops are arrivals of grouped insertion.  A line of a close is told by its key from the
calls, so two lists with the same keys and the same totals have the same lines.
-/

namespace CimArm

open GroupedInsert List

namespace ZCloseDetail

/-- What a search compares before it looks at the currency. -/
structure Group : Type where
  user : Option User
  door : Option Door
  cimCash : Option CimCash
  acceptorSettings : Option AcceptorSettings
  depositValueType : DepositValueType
  deriving DecidableEq, Repr

def group (self : ZCloseDetail) : Group where
  user := self.user
  door := self.door
  cimCash := self.cimCash
  acceptorSettings := self.acceptorSettings
  depositValueType := self.depositValueType

/-- The key under which quantities and values are totalled. -/
def key (self : ZCloseDetail) : Group × Option Currency := (self.group, self.currency)

/-- What a detail stands for: the amount accumulated by a manual cash, the unit amount times
the quantity of any other. -/
def value (self : ZCloseDetail) : Int :=
  if isManual self.cimCash then self.amount else self.amount * self.qty

/-- The order of the details of one group and currency: none for a manual cash, which has
only one, ascending unit amounts for any other. -/
def Before (x y : ZCloseDetail) : Prop :=
  isManual x.cimCash = false ∧ isManual y.cimCash = false ∧ x.amount < y.amount

end ZCloseDetail

namespace ZCall

/-- What a call adds to the line of its reference as validated. -/
def valAmount (c : ZCall) : Int :=
  if c.depositValueType = .validatedCash then c.amount * c.qty else 0

/-- What a call adds to the line of its reference as manual. -/
def manualAmount (c : ZCall) : Int := if c.depositValueType = .validatedCash then 0 else c.amount

/-- How many manual amounts a call adds to the line of its reference. -/
def manualQty (c : ZCall) : Int := if c.depositValueType = .validatedCash then 0 else 1

/-- The value that `getZCloseDetailsSummary` takes from a detail. -/
def ofDetail (zCloseDetail : ZCloseDetail) : ZCall where
  user := none
  door := zCloseDetail.door
  cimCash := zCloseDetail.cimCash
  cashReference := none
  acceptorSettings := zCloseDetail.acceptorSettings
  depositValueType := zCloseDetail.depositValueType
  currency := zCloseDetail.currency
  qty := zCloseDetail.qty
  amount := zCloseDetail.amount

end ZCall

namespace ZClose

/-! ## The summary of the details -/

/-- A value as an arrival in the details of a close. -/
def detailArrival (c : ZCall) : Arrival ZCloseDetail where
  inGroup d := d.group = c.detail.group
  inSub d := d.currency = c.currency
  cmp d := if isManual c.cimCash then .eq else compare d.amount c.amount
  upd d := mergeZDetail c d
  new := c.detail

variable (calls : List ZCall) (c : ZCall) {d : ZCloseDetail} (aCashReference : CashReference)

@[simp] theorem detailArrival_new : (detailArrival c).new = c.detail := rfl

/-- The details of a close after a sequence of values. -/
def details (calls : List ZCall) : List ZCloseDetail := calls.foldl insertZDetail []

/-- The amount a value adds to the line of its reference. -/
def summaryAmount (c : ZCall) : Int :=
  if c.depositValueType ≠ .validatedCash then c.amount else c.amount * c.qty

/-- A value with a reference as an arrival in the lines of the references: one group, the
reference as sub-key, and no order between the lines of a reference. -/
def summaryArrival (aCashReference : CashReference) (c : ZCall) : Arrival ZCloseSummary where
  inGroup _ := true
  inSub line := line.cashReference = aCashReference
  cmp line := if line.currency = c.currency then .eq else .lt
  upd line := mergeSummary (summaryAmount c) c.depositValueType line
  new := mergeSummary (summaryAmount c) c.depositValueType (newSummary aCashReference c.currency)

/-- The lines of the references after a sequence of values. -/
def summaries (calls : List ZCall) : List ZCloseSummary := calls.foldl addSummary []

end ZClose

end CimArm
