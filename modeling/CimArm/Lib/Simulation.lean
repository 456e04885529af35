import CimArm.Lib.Trace

/-!
# Simulation of machines with outputs

A machine answers each operation and moves to its next state.  When a relation between
the states of two machines is kept by every operation, and related states answer alike,
the machines answer alike along every run: `outputs_eq` is the induction, done once.
The relation may be kept only by the operations that meet a condition; then the run has
to meet it at each step.
-/

namespace CimArm.Simulation

open Trace

variable {Op Out S T : Type}

/-- The state after an operation. -/
def next (step : Op → S → Out × S) (op : Op) (s : S) : S := (step op s).2

/-- The answers along a run. -/
def outputs (step : Op → S → Out × S) : List Op → S → List Out
  | [], _ => []
  | op :: ops, s => (step op s).1 :: outputs step ops (next step op s)

/-- The relation is kept by an operation, and the answers agree. -/
def Agree (step : Op → S → Out × S) (spec : Op → T → Out × T) (R : S → T → Prop) (op : Op)
    (s : S) (t : T) : Prop :=
  (step op s).1 = (spec op t).1 ∧ R (next step op s) (next spec op t)

variable {step : Op → S → Out × S} {spec : Op → T → Out × T} {R : S → T → Prop}
  {Ok : S → Op → Prop}

theorem outputs_eq (kept : ∀ {op s t}, R s t → Ok s op → Agree step spec R op s t)
    {ops : List Op} {s : S} {t : T} (start : R s t) (ok : Always (next step) Ok ops s) :
    outputs step ops s = outputs spec ops t := by
  induction ops generalizing s t with
  | nil => rfl
  | cons op ops ih =>
    rcases kept start ok.1 with ⟨answer, related⟩
    simp only [outputs, answer, ih related ok.2]

theorem after_related (kept : ∀ {op s t}, R s t → Ok s op → Agree step spec R op s t)
    {ops : List Op} {s : S} {t : T} (start : R s t) (ok : Always (next step) Ok ops s) :
    R (after (next step) ops s) (after (next spec) ops t) := by
  induction ops generalizing s t with
  | nil => exact start
  | cons op ops ih => exact ih (kept start ok.1).2 ok.2

end CimArm.Simulation
