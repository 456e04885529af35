/-!
# State machines

The engine behind the validators and the extraction workflow.  A state has functions to
enter and leave it and a table of transitions; an event takes the first transition of the
table that fits it and whose guard holds.  Guards may change the context.  Actions and
entry functions work on the whole machine, since they may execute further events.

* `executeStateMachine_rule`: what is known of a transition taken.
* `executeStateMachine_invariant`: what guards, moves and functions keep, an event keeps.
-/

namespace CimArm.Engine

open List

variable {Event Name Context : Type}

structure StateMachine (Name Context : Type) : Type where
  currentState : Name
  context : Context

structure Transition (Event Name Context : Type) : Type where
  /-- `none` stands for `SM_ANY`. -/
  event : Option Event
  guardCondition : Context → Bool × Context
  action : StateMachine Name Context → StateMachine Name Context
  nextState : Name

structure State (Event Name Context : Type) : Type where
  entry : StateMachine Name Context → StateMachine Name Context
  exit : StateMachine Name Context → StateMachine Name Context
  transitions : List (Transition Event Name Context)

/-- Lift a function on the context. -/
def onContext (f : Context → Context) (sm : StateMachine Name Context) :
    StateMachine Name Context :=
  { sm with context := f sm.context }

/-- A guard that changes nothing. -/
def test (p : Context → Bool) (c : Context) : Bool × Context := (p c, c)

def Transition.Fits (t : Transition Event Name Context) (event : Event) : Prop :=
  t.event = some event ∨ t.event = none

instance [DecidableEq Event] (t : Transition Event Name Context) (event : Event) :
    Decidable (t.Fits event) :=
  inferInstanceAs (Decidable (_ ∨ _))

variable [DecidableEq Event]

/-- The first transition that fits and whose guard holds.  Every table ends in one that
always does. -/
def findTransition (event : Event) :
    List (Transition Event Name Context) → Context →
      Option (Transition Event Name Context) × Context
  | [], c => (none, c)
  | t :: ts, c =>
    if t.Fits event then
      match t.guardCondition c with
      | (true, c) => (some t, c)
      | (false, c) => findTransition event ts c
    else findTransition event ts c

variable [DecidableEq Name]

/-- Take a transition: the machine is in the new state already when the old one is left
and the action runs, and an action may move it on. -/
def takeTransition (states : Name → State Event Name Context) (currentState : Name)
    (t : Transition Event Name Context) (c : Context) : StateMachine Name Context :=
  let newState := t.nextState
  let sm := ⟨newState, c⟩
  let sm := if newState ≠ currentState then (states currentState).exit sm else sm
  let sm := t.action sm
  if newState ≠ currentState then (states newState).entry sm else sm

/-- Take the transition for an event. -/
def executeStateMachine (states : Name → State Event Name Context)
    (sm : StateMachine Name Context) (event : Event) : StateMachine Name Context :=
  match findTransition event (states sm.currentState).transitions sm.context with
  | (some t, c) => takeTransition states sm.currentState t c
  | (none, c) => ⟨sm.currentState, c⟩

/-- Put a machine into a state. -/
def gotoState (states : Name → State Event Name Context) (sm : StateMachine Name Context)
    (newState : Name) : StateMachine Name Context :=
  (states newState).entry ⟨newState, sm.context⟩

/-! ## Rules -/

variable {states : Name → State Event Name Context} {event : Event}

omit [DecidableEq Name] in
/-- What is found is a transition that fits and whose guard has held, in a context that
the guards before it have kept. -/
theorem findTransition_rule {P : Context → Prop} {ts : List (Transition Event Name Context)}
    (guards : ∀ t ∈ ts, t.Fits event → ∀ c, P c → P (t.guardCondition c).2)
    {c : Context} (start : P c) :
    (∃ t ∈ ts, ∃ c', t.Fits event ∧ P c' ∧ (t.guardCondition c').1 = true ∧
      findTransition event ts c = (some t, (t.guardCondition c').2)) ∨
    ∃ c', P c' ∧ findTransition event ts c = (none, c') := by
  induction ts generalizing c with
  | nil => exact Or.inr ⟨c, start, rfl⟩
  | cons t ts ih =>
    have rest {c : Context} (start : P c) :=
      ih (fun t mem => guards t (mem_cons_of_mem _ mem)) start
    have skipped {c c₀ : Context} (start : P c)
        (eq : findTransition event (t :: ts) c₀ = findTransition event ts c) :
        (∃ t' ∈ t :: ts, ∃ c', t'.Fits event ∧ P c' ∧ (t'.guardCondition c').1 = true ∧
          findTransition event (t :: ts) c₀ = (some t', (t'.guardCondition c').2)) ∨
        ∃ c', P c' ∧ findTransition event (t :: ts) c₀ = (none, c') := by
      rw [eq]
      rcases rest start with ⟨t', mem, found⟩ | none
      · exact Or.inl ⟨t', mem_cons_of_mem _ mem, found⟩
      · exact Or.inr none
    by_cases fits : t.Fits event
    · have kept := guards t mem_cons_self fits c start
      rcases eq : t.guardCondition c with ⟨holds, c'⟩
      cases holds with
      | true =>
        refine Or.inl ⟨t, mem_cons_self, c, fits, start, by rw [eq], ?_⟩
        rw [findTransition, if_pos fits, eq]
      | false =>
        rw [eq] at kept
        exact skipped kept (by rw [findTransition, if_pos fits, eq])
    · exact skipped start (by rw [findTransition, if_neg fits])

/-- The rule for an event: what the guards keep is there when a transition is taken, and
every transition that fits and whose guard holds leads to `R`. -/
theorem executeStateMachine_rule {P : Context → Prop} {R : StateMachine Name Context → Prop}
    {sm : StateMachine Name Context}
    (guards : ∀ t ∈ (states sm.currentState).transitions, t.Fits event →
      ∀ c, P c → P (t.guardCondition c).2)
    (taken : ∀ t ∈ (states sm.currentState).transitions, t.Fits event →
      ∀ c, P c → (t.guardCondition c).1 = true →
        R (takeTransition states sm.currentState t (t.guardCondition c).2))
    (none : ∀ c, P c → R ⟨sm.currentState, c⟩)
    (start : P sm.context) : R (executeStateMachine states sm event) := by
  unfold executeStateMachine
  rcases findTransition_rule guards start with
    ⟨t, mem, c, fits, kept, holds, found⟩ | ⟨c, kept, found⟩
  · rw [found]
    exact taken t mem fits c kept holds
  · rw [found]
    exact none c kept

/-- An event keeps a property of machines that guards, moves, actions, entries and exits
keep, as far as the transitions of the current state that fit the event go. -/
theorem executeStateMachine_invariant {P : StateMachine Name Context → Prop}
    {sm : StateMachine Name Context}
    (guards : ∀ t ∈ (states sm.currentState).transitions, t.Fits event →
      ∀ c, P ⟨sm.currentState, c⟩ → P ⟨sm.currentState, (t.guardCondition c).2⟩)
    (moves : ∀ t ∈ (states sm.currentState).transitions, t.Fits event →
      ∀ c, P ⟨sm.currentState, c⟩ → P ⟨t.nextState, c⟩)
    (actions : ∀ t ∈ (states sm.currentState).transitions, t.Fits event →
      ∀ m, P m → P (t.action m))
    (entries : ∀ name m, P m → P ((states name).entry m))
    (exits : ∀ name m, P m → P ((states name).exit m))
    (start : P sm) : P (executeStateMachine states sm event) := by
  refine executeStateMachine_rule (P := fun c => P ⟨sm.currentState, c⟩) guards ?_
    (fun _ kept => kept) start
  intro t mem fits c kept _
  have moved := moves t mem fits _ (guards t mem fits c kept)
  unfold takeTransition
  dsimp only
  split
  · exact entries _ _ (actions t mem fits _ (exits _ _ moved))
  · exact actions t mem fits _ moved

end CimArm.Engine
