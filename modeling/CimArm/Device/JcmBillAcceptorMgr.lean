/-!
# Bill acceptors

What the drivers of the validators share: the codes that the devices' answers are mapped
to, the status the application gives a validator, and the file in which a validator's
last bill is kept over a power failure.
-/

namespace CimArm.Jcm

/-- The protocols of the validators that are modelled here. -/
inductive Protocol
  | ID003 | CCNET | EBDS
deriving DecidableEq, Repr

inductive JcmStatus
  | notInit | enable | disable | validateOnly
deriving DecidableEq, Repr

/-- The codes of `id0003Mapping.h` that stand for states and errors, and the events the
driver of an MEI validator adds to them. -/
inductive Code
  /-- No state, no error, and the event that ends a firmware transfer. -/
  | zero
  | ID003_UPDATE_FIRM
  | ID003_IDLING
  | ID003_ACCEPTING
  | ID003_ESCROW
  | ID003_STACKING
  | ID003_STACKED
  | ID003_REJECTING
  | ID003_RETURNING
  | ID003_RETURNED
  | ID003_STACKER_FULL
  | ID003_STACKER_OPEN
  | ID003_JAM_IN_ACCEPTOR
  | ID003_PAUSE
  | ID003_CHEATED
  | ID003_FAILURE
  | ID003_COMM_ERROR
  | EVT_VERSION
  | EVT_CURRENCY
  /-- The event `0x50` of a firmware transfer. -/
  | transfer
deriving DecidableEq, Repr

/-- The contents of a validator's status file; an empty file reads as all zero. -/
structure TempValInfo : Type where
  status : Code
  billStackedQty : Int
  amount : Int
  currencyId : Int
deriving DecidableEq, Repr

def TempValInfo.zero : TempValInfo := ⟨.zero, 0, 0, 0⟩

/-- Money has seven decimals. -/
def MultipApp : Int := 10000000

/-- A bill: its amount, in units, and its currency. -/
structure Bill : Type where
  amount : Int
  currencyId : Int
  amount_pos : 0 < amount
deriving DecidableEq

/-- What a bill counts for: an amount of money and its currency. -/
abbrev Credit := Int × Int

def credit (amount currencyId : Int) : Credit := (amount * MultipApp, currencyId)

def Bill.credit (b : Bill) : Credit := Jcm.credit b.amount b.currencyId

end CimArm.Jcm
