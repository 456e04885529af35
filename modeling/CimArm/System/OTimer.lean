import CimArm.Lib.SlotTable
import CimArm.Lib.Trace
import Mathlib.Logic.Function.Basic

/-!
# Timers

The timers of the program stand in a table of slots.  A thread goes through it with the
ticks of the system and calls back the timers that have expired; a callback may set,
start and stop timers, its own included.  Ticks are counted in an `unsigned long`: a
number of the model stands for its value modulo `ulongSize`, which is what a comparison
sees.

The history of a run keeps the last start of each timer that was not stopped, with how
often it fired.  `Timely` says when a firing is in time and when a sweep has left no
timer out.

* `Sound.step`: every operation keeps the table and the history in order, and is timely.
* `timely_of_comparable`: so is every run in which the counter orders the times that a
  sweep compares.
-/

namespace CimArm.Timer

open SlotTable Function

def MAX_CTIMERS : Nat := 96

/-- Ticks are counted modulo this. -/
def ulongSize : Nat := 2 ^ 32

def ONE_SHOT : Int := 1
def PERIODIC : Int := -1

/-! ## Timer objects -/

structure CTimer : Type where
  expires : Nat
  periodic : Bool
  period : Nat

structure OTimer : Type where
  myTimer : CTimer
  myIsActive : Bool
  myOriginalPeriod : Nat
  myCycle : Int

/-- An object whose fields are zero. -/
def OTimer.new : OTimer := ⟨⟨0, false, 0⟩, false, 0, 0⟩

/-- Where the thread is: between two sweeps, at a slot, or in the callback of a timer. -/
inductive Phase (T : Type) : Type
  | idle
  | sweeping (tickcount slot : Nat)
  | calling (tickcount slot : Nat) (timer : T)

/-- The timers, and the milliseconds that have passed. -/
structure Machine (T : Type) : Type where
  now : Nat
  timers : List (Option T)
  objects : T → OTimer
  phase : Phase T

/-- What a run shows. -/
inductive Event (T : Type) : Type
  | started (t : T) (time period : Nat) (periodic : Bool)
  | stopped (t : T)
  | sweeping (time : Nat)
  | fired (t : T)
  | swept

/-- What happens: time passes, a timer is used, or the thread goes on. -/
inductive Op (T : Type) : Type
  | wait (ms : Nat)
  | initTimer (t : T) (aCycle : Int) (aPeriod : Nat)
  | start (t : T)
  | stop (t : T)
  /-- The thread begins a sweep. -/
  | sweep
  /-- It looks at a slot. -/
  | visit
  /-- A callback returns. -/
  | finish

variable {T : Type} [DecidableEq T]

namespace Machine

/-- No timer was used yet. -/
def new (now : Nat) : Machine T := ⟨now, empty MAX_CTIMERS, fun _ => .new, .idle⟩

def update (m : Machine T) (t : T) (f : OTimer → OTimer) : Machine T :=
  { m with objects := Function.update m.objects t (f (m.objects t)) }

@[simp]
theorem object_update (m : Machine T) (t : T) (f : OTimer → OTimer) :
    (m.update t f).objects t = f (m.objects t) :=
  update_self ..

theorem objects_update (m : Machine T) {t u : T} (f : OTimer → OTimer) (other : u ≠ t) :
    (m.update t f).objects u = m.objects u :=
  update_of_ne other ..

def del_ctimer (m : Machine T) (t : T) : Machine T := { m with timers := remove m.timers t }

def add_ctimer (m : Machine T) (t : T) : Machine T := { m with timers := insert m.timers t }

def initTimer (m : Machine T) (t : T) (aCycle : Int) (aPeriod : Nat) : Machine T :=
  m.update t fun o => { o with myOriginalPeriod := aPeriod, myCycle := aCycle }

def stop (m : Machine T) (t : T) : Machine T :=
  (m.update t fun o => { o with myIsActive := false }).del_ctimer t

def start (m : Machine T) (t : T) : Machine T :=
  let m := if (m.objects t).myIsActive then m.stop t else m
  let m := m.update t fun o =>
    { o with myTimer := ⟨m.now + o.myOriginalPeriod, o.myCycle = PERIODIC, o.myOriginalPeriod⟩ }
  (m.add_ctimer t).update t fun o => { o with myIsActive := true }

/-- `expireTimer`, up to the callback. -/
def expireTimer (m : Machine T) (t : T) : Machine T :=
  if (m.objects t).myCycle ≠ PERIODIC then m.stop t else m

/-- `handle_ctimers` at a slot. -/
def visit (m : Machine T) (tickcount slot : Nat) : Option (Event T) × Machine T :=
  if slot < MAX_CTIMERS then
    match m.timers[slot]? with
    | some (some t) =>
      if tickcount % ulongSize ≥ (m.objects t).myTimer.expires % ulongSize then
        (some (.fired t), { m.expireTimer t with phase := .calling tickcount slot t })
      else (none, { m with phase := .sweeping tickcount (slot + 1) })
    | _ => (none, { m with phase := .sweeping tickcount (slot + 1) })
  else (some .swept, { m with phase := .idle })

/-- `handle_ctimers` behind a callback. -/
def finish (m : Machine T) (tickcount slot : Nat) (t : T) : Machine T :=
  let m := if (m.objects t).myTimer.periodic then
      m.update t fun o =>
        { o with myTimer := { o.myTimer with expires := o.myTimer.expires + o.myTimer.period } }
    else m
  { m with phase := .sweeping tickcount (slot + 1) }

/-- Timers are used between two sweeps and from callbacks. -/
def Usable (m : Machine T) : Prop :=
  match m.phase with
  | .sweeping .. => False
  | _ => True

instance (m : Machine T) : Decidable m.Usable :=
  match phase : m.phase with
  | .sweeping .. => isFalse (by rw [Usable, phase]; exact id)
  | .idle => isTrue (by rw [Usable, phase]; trivial)
  | .calling .. => isTrue (by rw [Usable, phase]; trivial)

/-- An operation, where it is possible, and what it shows. -/
def perform (op : Op T) (m : Machine T) : Option (Event T) × Machine T :=
  match op with
  | .wait ms => (none, { m with now := m.now + ms })
  | .initTimer t aCycle aPeriod => (none, if m.Usable then m.initTimer t aCycle aPeriod else m)
  | .start t =>
    if m.Usable then
      (some (.started t m.now (m.objects t).myOriginalPeriod
        ((m.objects t).myCycle = PERIODIC)), m.start t)
    else (none, m)
  | .stop t => if m.Usable then (some (.stopped t), m.stop t) else (none, m)
  | .sweep =>
    match m.phase with
    | .idle => (some (.sweeping m.now), { m with phase := .sweeping m.now 0 })
    | _ => (none, m)
  | .visit =>
    match m.phase with
    | .sweeping tickcount slot => m.visit tickcount slot
    | _ => (none, m)
  | .finish =>
    match m.phase with
    | .calling tickcount slot t => (none, m.finish tickcount slot t)
    | _ => (none, m)

end Machine

/-! ## What should happen -/

/-- A start of a timer: when and in which sweep, and how often it fired since. -/
structure Job : Type where
  started : Nat
  period : Nat
  periodic : Bool
  sweep : Nat
  fired : Nat

/-- The timers that were started and not stopped, and the last sweep. -/
structure History (T : Type) : Type where
  jobs : T → Option Job
  sweeps : Nat
  sweepTime : Nat

namespace History

def new : History T := ⟨fun _ => none, 0, 0⟩

def put (h : History T) (t : T) (job : Option Job) : History T :=
  { h with jobs := Function.update h.jobs t job }

@[simp]
theorem put_self (h : History T) (t : T) (job : Option Job) : (h.put t job).jobs t = job :=
  update_self ..

theorem put_other (h : History T) {t u : T} (job : Option Job) (other : u ≠ t) :
    (h.put t job).jobs u = h.jobs u :=
  update_of_ne other ..

/-- A firing ends a one-shot. -/
def fire (job : Job) : Option Job :=
  if job.periodic then some { job with fired := job.fired + 1 } else none

def observe (h : History T) : Option (Event T) → History T
  | some (.started t time period periodic) =>
    h.put t (some ⟨time, period, periodic, h.sweeps, 0⟩)
  | some (.stopped t) => h.put t none
  | some (.sweeping time) => { h with sweeps := h.sweeps + 1, sweepTime := time }
  | some (.fired t) => h.put t ((h.jobs t).bind fire)
  | _ => h

/-- A firing belongs to a start and does not come before so many periods after it; behind a sweep
no one-shot is due that was started before it. -/
def Timely (h : History T) : Option (Event T) → Prop
  | some (.fired t) =>
    ∃ job ∈ h.jobs t, job.started + (job.fired + 1) * job.period ≤ h.sweepTime
  | some .swept => ∀ t, ∀ job ∈ h.jobs t, job.periodic = false → job.sweep < h.sweeps →
    h.sweepTime < job.started + job.period
  | _ => True

end History

/-! ## Tables in order -/

/-- The timer is in the callback. -/
def Phase.Calls (phase : Phase T) (t : T) : Prop :=
  match phase with
  | .calling _ _ t' => t' = t
  | _ => False

instance (phase : Phase T) (t : T) : Decidable (phase.Calls t) :=
  match phase with
  | .calling _ _ t' => inferInstanceAs (Decidable (t' = t))
  | .idle | .sweeping .. => inferInstanceAs (Decidable False)

/-- The ticks of a sweep and the next slot it looks at. -/
def Phase.next : Phase T → Option (Nat × Nat)
  | .idle => none
  | .sweeping tickcount slot => some (tickcount, slot)
  | .calling tickcount slot _ => some (tickcount, slot + 1)

/-- The ticks of a sweep and the slot it looks at. -/
def Phase.visits : Phase T → Option (Nat × Nat)
  | .sweeping tickcount slot => some (tickcount, slot)
  | _ => none

omit [DecidableEq T] in
theorem Phase.sweeping_outside {phase : Phase T} {tickcount slot : Nat}
    (at_ : phase = .sweeping tickcount slot) (t : T) : ¬ phase.Calls t := by
  rw [at_]
  exact id

omit [DecidableEq T] in
theorem Phase.sweeping_next {phase : Phase T} {tickcount slot : Nat}
    (at_ : phase = .sweeping tickcount slot) : phase.next = some (tickcount, slot) := by
  rw [at_]
  rfl

/-- A timer is set for the next firing of its start, in its callback for the last one. -/
structure Job.Sets (job : Job) (timer : CTimer) (calls : Prop) : Prop where
  period : timer.period = job.period
  periodic : timer.periodic = job.periodic
  oneShot : job.periodic = false → timer.expires = job.started + job.period ∧ job.fired = 0
  due : job.periodic = true → ¬ calls →
    job.started + (job.fired + 1) * job.period ≤ timer.expires
  called : job.periodic = true → job.started + job.fired * job.period ≤ timer.expires

/-- A table in order. -/
structure Sound (m : Machine T) (h : History T) : Prop where
  length : m.timers.length = MAX_CTIMERS
  distinct : Distinct m.timers
  active : ∀ t, (m.objects t).myIsActive = true ↔ ∃ i, Holds m.timers i t
  set : ∀ i t, Holds m.timers i t →
    ∃ job, h.jobs t = some job ∧ job.Sets (m.objects t).myTimer (m.phase.Calls t)
  running : ∀ t job, h.jobs t = some job → job.periodic = false → ∃ i, Holds m.timers i t
  begun : ∀ t job, h.jobs t = some job → job.sweep ≤ h.sweeps
  sweepTime : ∀ next, m.phase.next = some next → h.sweepTime = next.1
  ahead : ∀ next, m.phase.next = some next → ∀ t job, h.jobs t = some job →
    job.periodic = false → job.sweep < h.sweeps → job.started + job.period ≤ next.1 →
      ∀ i, Holds m.timers i t → next.2 ≤ i

namespace Sound

variable {m : Machine T} {h : History T}

omit [DecidableEq T] in
theorem new (now : Nat) : Sound (.new now : Machine T) .new where
  length := List.length_replicate
  distinct := distinct_empty _
  active t := by
    refine iff_of_false Bool.noConfusion ?_
    rintro ⟨i, holds⟩
    exact not_holds_empty _ i t holds
  set i t holds := absurd holds (not_holds_empty _ i t)
  running _ _ job := nomatch job
  begun _ _ job := nomatch job
  sweepTime _ next := nomatch next
  ahead _ next := nomatch next

/-! ### The table behind a start and a stop -/

theorem holds_stop (sound : Sound m h) (t : T) (i : Nat) (u : T) :
    Holds (m.stop t).timers i u ↔ Holds m.timers i u ∧ u ≠ t :=
  holds_remove sound.distinct

theorem objects_stop (m : Machine T) {t u : T} (other : u ≠ t) :
    (m.stop t).objects u = m.objects u :=
  update_of_ne other ..

theorem active_stop (m : Machine T) (t : T) : ((m.stop t).objects t).myIsActive = false :=
  congrArg OTimer.myIsActive (m.object_update t fun o => { o with myIsActive := false })

theorem object_start (m : Machine T) (t : T) : (m.start t).objects t =
    { m.objects t with
      myTimer := ⟨m.now + (m.objects t).myOriginalPeriod, (m.objects t).myCycle = PERIODIC,
        (m.objects t).myOriginalPeriod⟩
      myIsActive := true } := by
  rw [Machine.start]
  split <;> simp [Machine.update, Machine.add_ctimer, Machine.stop, Machine.del_ctimer]

theorem objects_start (m : Machine T) {t u : T} (other : u ≠ t) :
    (m.start t).objects u = m.objects u := by
  rw [Machine.start]
  split <;> simp [Machine.update, Machine.add_ctimer, Machine.stop, Machine.del_ctimer,
    update_of_ne other]

theorem phase_start (m : Machine T) (t : T) : (m.start t).phase = m.phase := by
  rw [Machine.start]
  split <;> rfl

theorem holds_start [Fintype T] (few : Fintype.card T ≤ MAX_CTIMERS) (sound : Sound m h) (t : T) :
    (m.start t).timers.length = MAX_CTIMERS ∧ Distinct (m.start t).timers ∧
      ∃ k, ∀ i u, Holds (m.start t).timers i u ↔
        (u = t ∧ i = k) ∨ (u ≠ t ∧ Holds m.timers i u) := by
  obtain ⟨timers, same, length, distinct, holds⟩ : ∃ timers,
      (m.start t).timers = insert timers t ∧ timers.length = MAX_CTIMERS ∧ Distinct timers ∧
        ∀ i u, Holds timers i u ↔ Holds m.timers i u ∧ u ≠ t := by
    cases active : (m.objects t).myIsActive with
    | true =>
      refine ⟨remove m.timers t, ?_, ?_, sound.distinct.remove t, fun i u =>
        holds_remove sound.distinct⟩
      · rw [Machine.start, if_pos active]
        rfl
      · rw [length_remove, sound.length]
    | false =>
      refine ⟨m.timers, ?_, sound.length, sound.distinct, fun i u => ⟨fun holds => ⟨holds, ?_⟩,
        And.left⟩⟩
      · rw [Machine.start, if_neg (by rw [active]; exact Bool.noConfusion)]
        rfl
      · rintro rfl
        rw [(sound.active u).2 ⟨i, holds⟩] at active
        cases active
  have absent (i : Nat) : ¬ Holds timers i t := fun here => ((holds i t).1 here).2 rfl
  obtain ⟨k, found⟩ := distinct.exists_free absent (length ▸ few)
  refine ⟨?_, ?_, k, fun i u => ?_⟩
  · rw [same, length_insert, length]
  · rw [same]
    exact distinct.insert absent found
  · rw [same, holds_insert found, holds]
    constructor
    · rintro (⟨here, rfl⟩ | ⟨here, other⟩)
      · exact .inl ⟨rfl, here⟩
      · exact .inr ⟨other, here⟩
    · rintro (⟨rfl, here⟩ | ⟨other, here⟩)
      · exact .inl ⟨here, rfl⟩
      · exact .inr ⟨here, other⟩

/-! ### Uses of timers -/

omit [DecidableEq T] in
theorem congr (sound : Sound m h) {m' : Machine T} (timers : m'.timers = m.timers)
    (phase : m'.phase = m.phase)
    (objects : ∀ t, (m'.objects t).myIsActive = (m.objects t).myIsActive ∧
      (m'.objects t).myTimer = (m.objects t).myTimer) : Sound m' h := by
  obtain ⟨length, distinct, active, set, running, begun, sweepTime, ahead⟩ := sound
  rw [← timers] at length distinct
  refine ⟨length, distinct, fun t => ?_, fun i t holds => ?_, fun t job => ?_, begun, ?_, ?_⟩
  · rw [(objects t).1, timers]
    exact active t
  · rw [timers] at holds
    rw [(objects t).2, phase]
    exact set i t holds
  · rw [timers]
    exact running t job
  · rw [phase]
    exact sweepTime
  · rw [phase, timers]
    exact ahead

theorem initTimer (sound : Sound m h) (t : T) (aCycle : Int) (aPeriod : Nat) :
    Sound (m.initTimer t aCycle aPeriod) h := by
  refine sound.congr rfl rfl fun u => ?_
  rw [Machine.initTimer]
  by_cases same : u = t
  · subst same
    rw [Machine.object_update]
    exact ⟨rfl, rfl⟩
  · rw [Machine.objects_update m _ same]
    exact ⟨rfl, rfl⟩

theorem stop (sound : Sound m h) (t : T) (job : Option Job) (done : ∀ j ∈ job, j.periodic = true)
    (begun : ∀ j ∈ job, j.sweep ≤ h.sweeps) :
    Sound (m.stop t) (h.put t job) := by
  refine ⟨?_, sound.distinct.remove t, fun u => ?_, fun i u holds => ?_, fun u j some once => ?_,
    fun u j some => ?_, sound.sweepTime, fun next at_ u j some once since due i holds => ?_⟩
  · exact (length_remove ..).trans sound.length
  · by_cases same : u = t
    · subst same
      rw [active_stop]
      refine iff_of_false Bool.noConfusion ?_
      rintro ⟨i, holds⟩
      exact ((sound.holds_stop u i u).1 holds).2 rfl
    · rw [objects_stop m same, sound.active u]
      exact ⟨fun ⟨i, holds⟩ => ⟨i, (sound.holds_stop t i u).2 ⟨holds, same⟩⟩,
        fun ⟨i, holds⟩ => ⟨i, ((sound.holds_stop t i u).1 holds).1⟩⟩
  · obtain ⟨holds, other⟩ := (sound.holds_stop t i u).1 holds
    rw [h.put_other job other, objects_stop m other]
    exact sound.set i u holds
  · by_cases same : u = t
    · subst same
      rw [History.put_self] at some
      rw [done j some] at once
      cases once
    · rw [h.put_other job same] at some
      obtain ⟨i, holds⟩ := sound.running u j some once
      exact ⟨i, (sound.holds_stop t i u).2 ⟨holds, same⟩⟩
  · by_cases same : u = t
    · subst same
      rw [History.put_self] at some
      exact begun j some
    · rw [h.put_other job same] at some
      exact sound.begun u j some
  · obtain ⟨holds, other⟩ := (sound.holds_stop t i u).1 holds
    rw [h.put_other job other] at some
    exact sound.ahead next at_ u j some once since due i holds

theorem start [Fintype T] (few : Fintype.card T ≤ MAX_CTIMERS) (sound : Sound m h) (t : T) :
    Sound (m.start t) (h.put t (some ⟨m.now, (m.objects t).myOriginalPeriod,
      (m.objects t).myCycle = PERIODIC, h.sweeps, 0⟩)) := by
  obtain ⟨length, distinct, k, holds_iff⟩ := holds_start few sound t
  obtain ⟨job, job_eq⟩ : ∃ job : Job, job = ⟨m.now, (m.objects t).myOriginalPeriod,
    (m.objects t).myCycle = PERIODIC, h.sweeps, 0⟩ := ⟨_, rfl⟩
  rw [← job_eq]
  have here : Holds (m.start t).timers k t := (holds_iff k t).2 (.inl ⟨rfl, rfl⟩)
  refine ⟨length, distinct, fun u => ?_, fun i u holds => ?_, fun u j some once => ?_,
    fun u j some => ?_, ?_, fun next at_ u j some once since due i holds => ?_⟩
  · by_cases same : u = t
    · subst same
      rw [object_start]
      exact iff_of_true rfl ⟨k, here⟩
    · rw [objects_start m same, sound.active u]
      exact ⟨fun ⟨i, holds⟩ => ⟨i, (holds_iff i u).2 (.inr ⟨same, holds⟩)⟩,
        fun ⟨i, holds⟩ => ⟨i, (((holds_iff i u).1 holds).resolve_left fun both => same both.1).2⟩⟩
  · rcases (holds_iff i u).1 holds with ⟨rfl, -⟩ | ⟨other, holds⟩
    · refine ⟨job, History.put_self .., ?_⟩
      rw [object_start, phase_start, job_eq]
      refine ⟨rfl, rfl, fun _ => ⟨rfl, rfl⟩, fun _ _ => ?_, fun _ => ?_⟩
      · show m.now + (0 + 1) * (m.objects u).myOriginalPeriod ≤
          m.now + (m.objects u).myOriginalPeriod
        omega
      · show m.now + 0 * (m.objects u).myOriginalPeriod ≤ m.now + (m.objects u).myOriginalPeriod
        omega
    · rw [h.put_other _ other, objects_start m other, phase_start]
      exact sound.set i u holds
  · by_cases same : u = t
    · subst same
      exact ⟨k, here⟩
    · rw [h.put_other _ same] at some
      obtain ⟨i, holds⟩ := sound.running u j some once
      exact ⟨i, (holds_iff i u).2 (.inr ⟨same, holds⟩)⟩
  · by_cases same : u = t
    · subst same
      rw [History.put_self] at some
      obtain rfl := Option.some.inj some
      rw [job_eq]
      exact Nat.le_refl _
    · rw [h.put_other _ same] at some
      exact sound.begun u j some
  · rw [phase_start]
    exact sound.sweepTime
  · rw [phase_start] at at_
    rcases (holds_iff i u).1 holds with ⟨rfl, -⟩ | ⟨other, holds⟩
    · -- it was started during the sweep
      rw [History.put_self] at some
      obtain rfl := Option.some.inj some
      rw [job_eq] at since
      exact absurd since (Nat.lt_irrefl _)
    · rw [h.put_other _ other] at some
      exact sound.ahead next at_ u j some once since due i holds

/-! ### Sweeps -/

omit [DecidableEq T] in
theorem wait (sound : Sound m h) (ms : Nat) : Sound { m with now := m.now + ms } h :=
  sound.congr rfl rfl fun _ => ⟨rfl, rfl⟩

omit [DecidableEq T] in
theorem set_next (sound : Sound m h) (outside : ∀ t, ¬ m.phase.Calls t) (calls : Prop) {i : Nat}
    {t : T} (holds : Holds m.timers i t) :
    ∃ job, h.jobs t = some job ∧ job.Sets (m.objects t).myTimer calls := by
  obtain ⟨job, some, period, periodic, oneShot, due, called⟩ := sound.set i t holds
  exact ⟨job, some, period, periodic, oneShot, fun cyclic _ => due cyclic (outside t), called⟩

omit [DecidableEq T] in
theorem sweep (sound : Sound m h) (outside : ∀ t, ¬ m.phase.Calls t) :
    Sound { m with phase := .sweeping m.now 0 }
      { h with sweeps := h.sweeps + 1, sweepTime := m.now } := by
  refine ⟨sound.length, sound.distinct, sound.active, fun i t holds =>
    sound.set_next outside _ holds, sound.running,
    fun t job some => Nat.le_succ_of_le (sound.begun t job some), fun next at_ => ?_,
    fun next at_ t job _ _ _ _ i _ => ?_⟩
  · obtain rfl := Option.some.inj at_
    rfl
  · obtain rfl := Option.some.inj at_
    exact Nat.zero_le i

omit [DecidableEq T] in
theorem swept (sound : Sound m h) {tickcount slot : Nat}
    (at_ : m.phase = .sweeping tickcount slot) (last : ¬ slot < MAX_CTIMERS) :
    Sound { m with phase := .idle } h ∧ h.Timely (some .swept) := by
  have outside := Phase.sweeping_outside at_
  have next := Phase.sweeping_next at_
  refine ⟨⟨sound.length, sound.distinct, sound.active, fun i t holds =>
    sound.set_next outside _ holds, sound.running, sound.begun, fun next at_ => (nomatch at_),
    fun next at_ => (nomatch at_)⟩, fun t job some once since => ?_⟩
  obtain ⟨i, holds⟩ := sound.running t job some once
  by_contra late
  rw [sound.sweepTime _ next] at late
  have ahead := sound.ahead _ next t job some once since (Nat.not_lt.1 late) i holds
  have lt := holds.lt
  rw [sound.length] at lt
  omega

omit [DecidableEq T] in
/-- The thread goes on to the next slot, where this one holds no one-shot that is due. -/
theorem pass (sound : Sound m h) {tickcount slot : Nat}
    (at_ : m.phase = .sweeping tickcount slot)
    (early : ∀ t, Holds m.timers slot t → tickcount < (m.objects t).myTimer.expires) :
    Sound { m with phase := .sweeping tickcount (slot + 1) } h := by
  have outside := Phase.sweeping_outside at_
  have next := Phase.sweeping_next at_
  refine ⟨sound.length, sound.distinct, sound.active, fun i t holds =>
    sound.set_next outside _ holds, sound.running, sound.begun, fun next' at_' => ?_,
    fun next' at_' t job some once since due i holds => ?_⟩
  · obtain rfl := Option.some.inj at_'
    show h.sweepTime = tickcount
    exact sound.sweepTime _ next
  · obtain rfl := Option.some.inj at_'
    have ahead := sound.ahead _ next t job some once since due i holds
    refine Nat.lt_of_le_of_ne ahead fun same => ?_
    obtain ⟨job', some', sets⟩ := sound.set i t holds
    obtain rfl := Option.some.inj (some.symm.trans some')
    have early := early t (same ▸ holds)
    rw [(sets.oneShot once).1] at early
    exact absurd due (Nat.not_le.2 early)

variable {tickcount slot : Nat} {t : T}

omit [DecidableEq T] in
theorem call (sound : Sound m h) (t : T) (at_ : m.phase = .sweeping tickcount slot)
    (cyclic : ∀ u job, Holds m.timers slot u → h.jobs u = some job → job.periodic = true) :
    Sound { m with phase := .calling tickcount slot t } h := by
  have outside := Phase.sweeping_outside at_
  have next := Phase.sweeping_next at_
  refine ⟨sound.length, sound.distinct, sound.active, fun i t holds =>
    sound.set_next outside _ holds, sound.running, sound.begun, fun next' at_' => ?_,
    fun next' at_' t job some once since due i holds => ?_⟩
  · obtain rfl := Option.some.inj at_'
    show h.sweepTime = tickcount
    exact sound.sweepTime _ next
  · obtain rfl := Option.some.inj at_'
    have ahead := sound.ahead _ next t job some once since due i holds
    refine Nat.lt_of_le_of_ne ahead fun same => ?_
    rw [cyclic t job (same ▸ holds) some] at once
    cases once

theorem again (sound : Sound m h) {job : Job} (at_ : m.phase = .calling tickcount slot t)
    (some : h.jobs t = some job) (cyclic : job.periodic = true)
    (due : job.started + (job.fired + 1) * job.period ≤ (m.objects t).myTimer.expires) :
    Sound m (h.put t (Option.some { job with fired := job.fired + 1 })) := by
  have calls (u : T) : m.phase.Calls u ↔ t = u := by
    rw [at_]
    exact Iff.rfl
  refine ⟨sound.length, sound.distinct, sound.active, fun i u holds => ?_, fun u j some' once => ?_,
    fun u j some' => ?_, sound.sweepTime, fun next' at_' u j some' once since late i holds => ?_⟩
  · obtain ⟨j, some', sets⟩ := sound.set i u holds
    by_cases same : u = t
    · subst same
      obtain rfl := Option.some.inj (some.symm.trans some')
      refine ⟨_, History.put_self .., sets.period, sets.periodic, fun once => ?_, fun _ outside =>
        absurd ((calls u).2 rfl) outside, fun _ => due⟩
      rw [show _ = true from cyclic] at once
      cases once
    · rw [h.put_other _ same]
      exact ⟨j, some', sets⟩
  · by_cases same : u = t
    · subst same
      rw [History.put_self] at some'
      obtain rfl := Option.some.inj some'
      rw [show _ = true from cyclic] at once
      cases once
    · rw [h.put_other _ same] at some'
      exact sound.running u j some' once
  · by_cases same : u = t
    · subst same
      rw [History.put_self] at some'
      obtain rfl := Option.some.inj some'
      exact sound.begun u job some
    · rw [h.put_other _ same] at some'
      exact sound.begun u j some'
  · by_cases same : u = t
    · subst same
      rw [History.put_self] at some'
      obtain rfl := Option.some.inj some'
      rw [show _ = true from cyclic] at once
      cases once
    · rw [h.put_other _ same] at some'
      exact sound.ahead next' at_' u j some' once since late i holds

theorem fire (sound : Sound m h) (at_ : m.phase = .sweeping tickcount slot)
    (holds : Holds m.timers slot t) (late : (m.objects t).myTimer.expires ≤ tickcount)
    (kept : (m.objects t).myCycle = PERIODIC → (m.objects t).myTimer.periodic = true) :
    Sound { m.expireTimer t with phase := .calling tickcount slot t }
      (h.observe (some (.fired t))) ∧ h.Timely (some (.fired t)) := by
  have outside := Phase.sweeping_outside at_
  have next := Phase.sweeping_next at_
  obtain ⟨job, some, sets⟩ := sound.set slot t holds
  have timely : job.started + (job.fired + 1) * job.period ≤ h.sweepTime := by
    rw [sound.sweepTime _ next]
    refine Nat.le_trans ?_ late
    cases cyclic : job.periodic with
    | true => exact sets.due cyclic (outside t)
    | false =>
      obtain ⟨expires, fired⟩ := sets.oneShot cyclic
      rw [expires, fired]
      omega
  refine ⟨?_, job, some, timely⟩
  have after : h.observe (.some (.fired t)) = h.put t (History.fire job) := by
    rw [History.observe, some]
    rfl
  rw [after, Machine.expireTimer]
  by_cases once : (m.objects t).myCycle ≠ PERIODIC
  · rw [if_pos once]
    have fired (j : Job) (hj : j ∈ History.fire job) :
        j.periodic = true ∧ j.sweep ≤ h.sweeps := by
      rw [History.fire] at hj
      split at hj
      · obtain rfl := Option.some.inj hj
        exact ⟨‹_›, sound.begun t job some⟩
      · cases hj
    have stopped := sound.stop t (History.fire job) (fun j hj => (fired j hj).1)
      fun j hj => (fired j hj).2
    refine stopped.call t at_ fun u j holds' => ?_
    obtain ⟨holds', other⟩ := (sound.holds_stop t slot u).1 holds'
    exact absurd (holds'.unique holds) other
  · rw [if_neg once]
    have cyclic : job.periodic = true :=
      sets.periodic.symm.trans (kept (not_not.1 once))
    rw [History.fire, if_pos cyclic]
    have called : Sound { m with phase := .calling tickcount slot t } h := by
      refine sound.call t at_ fun u j holds' some' => ?_
      obtain rfl := holds'.unique holds
      obtain rfl := Option.some.inj (some.symm.trans some')
      exact cyclic
    exact called.again rfl some cyclic (sets.due cyclic (outside t))

theorem finish (sound : Sound m h) (at_ : m.phase = .calling tickcount slot t) :
    Sound (m.finish tickcount slot t) h := by
  have next : m.phase.next = some (tickcount, slot + 1) := by
    rw [at_]
    rfl
  have calls (u : T) : m.phase.Calls u ↔ t = u := by
    rw [at_]
    exact Iff.rfl
  obtain ⟨m', m'_eq⟩ : ∃ m' : Machine T, m' = if (m.objects t).myTimer.periodic then
      m.update t fun o =>
        { o with myTimer := { o.myTimer with expires := o.myTimer.expires + o.myTimer.period } }
    else m := ⟨_, rfl⟩
  have timers : m'.timers = m.timers := by
    rw [m'_eq]
    split <;> rfl
  have others (u : T) (other : u ≠ t) : m'.objects u = m.objects u := by
    rw [m'_eq]
    split
    · exact m.objects_update _ other
    · rfl
  have active : (m'.objects t).myIsActive = (m.objects t).myIsActive := by
    rw [m'_eq]
    split
    · rw [m.object_update]
    · rfl
  have timer : (m'.objects t).myTimer = { (m.objects t).myTimer with
      expires := (m.objects t).myTimer.expires +
        if (m.objects t).myTimer.periodic then (m.objects t).myTimer.period else 0 } := by
    rw [m'_eq]
    split
    · rw [m.object_update]
    · rfl
  rw [Machine.finish, ← m'_eq]
  refine ⟨timers ▸ sound.length, timers ▸ sound.distinct, fun u => ?_, fun i u holds => ?_,
    fun u job some once => timers ▸ sound.running u job some once, sound.begun,
    fun next' at_' => ?_, fun next' at_' u job some once since due i holds => ?_⟩
  · show (m'.objects u).myIsActive = true ↔ ∃ i, Holds m'.timers i u
    rw [timers]
    by_cases same : u = t
    · subst same
      rw [active]
      exact sound.active u
    · rw [others u same]
      exact sound.active u
  · have holds' : Holds m.timers i u := timers ▸ holds
    obtain ⟨job, some, sets⟩ := sound.set i u holds'
    refine ⟨job, some, ?_⟩
    show job.Sets (m'.objects u).myTimer _
    by_cases same : u = t
    · subst same
      rw [timer]
      refine ⟨sets.period, sets.periodic, fun once => ?_, fun cyclic _ => ?_, fun cyclic => ?_⟩
      · rw [if_neg (by rw [sets.periodic, once]; exact Bool.noConfusion)]
        exact sets.oneShot once
      · have called := sets.called cyclic
        rw [if_pos (sets.periodic.trans cyclic), sets.period, Nat.succ_mul]
        show job.started + (job.fired * job.period + job.period) ≤ _ + _
        omega
      · exact Nat.le_add_right_of_le (sets.called cyclic)
    · rw [others u same]
      exact ⟨sets.period, sets.periodic, sets.oneShot, fun cyclic _ =>
        sets.due cyclic fun calls' => same ((calls u).1 calls').symm, sets.called⟩
  · obtain rfl := Option.some.inj at_'
    exact sound.sweepTime _ next
  · obtain rfl := Option.some.inj at_'
    exact sound.ahead _ next u job some once since due i (timers ▸ holds)

end Sound

/-! ## Runs -/

/-- A machine with what it showed. -/
structure Run (T : Type) : Type where
  machine : Machine T
  history : History T

namespace Run

def new (now : Nat) : Run T := ⟨.new now, .new⟩

def step (op : Op T) (r : Run T) : Run T :=
  ⟨(r.machine.perform op).2, r.history.observe (r.machine.perform op).1⟩

/-- No timer is in two slots, and what is shown is timely. -/
def InTime (r : Run T) (op : Op T) : Prop :=
  Distinct r.machine.timers ∧ r.history.Timely (r.machine.perform op).1

/-- At a slot that is looked at, the counter orders the ticks of the sweep and the time at which the
timer expires as they are, and a timer that expires was not set to be periodic since it was
started as a one-shot. -/
def Comparable (r : Run T) : Op T → Prop
  | .visit => ∀ next ∈ r.machine.phase.visits, ∀ t ∈ r.machine.timers[next.2]?.join,
    let o := r.machine.objects t
    (next.1 % ulongSize ≥ o.myTimer.expires % ulongSize ↔ next.1 ≥ o.myTimer.expires) ∧
      (next.1 ≥ o.myTimer.expires → o.myCycle = PERIODIC → o.myTimer.periodic = true)
  | _ => True

instance (r : Run T) : (op : Op T) → Decidable (r.Comparable op)
  | .visit => inferInstanceAs (Decidable (∀ next ∈ r.machine.phase.visits, ∀ t ∈ _, _ ∧ (_ → _)))
  | .wait _ | .initTimer .. | .start _ | .stop _ | .sweep | .finish => isTrue trivial

end Run

open Run

theorem Sound.step [Fintype T] (few : Fintype.card T ≤ MAX_CTIMERS) {r : Run T} {op : Op T}
    (sound : Sound r.machine r.history) (comparable : r.Comparable op) :
    Sound (r.step op).machine (r.step op).history ∧ r.InTime op := by
  obtain ⟨m, h⟩ := r
  suffices Sound (m.perform op).2 (h.observe (m.perform op).1) ∧
      h.Timely (m.perform op).1 from ⟨this.1, sound.distinct, this.2⟩
  cases op with
  | wait ms => exact ⟨sound.wait ms, trivial⟩
  | initTimer t aCycle aPeriod =>
    rw [Machine.perform]
    split
    · exact ⟨sound.initTimer t aCycle aPeriod, trivial⟩
    · exact ⟨sound, trivial⟩
  | start t =>
    rw [Machine.perform]
    split
    · exact ⟨sound.start few t, trivial⟩
    · exact ⟨sound, trivial⟩
  | stop t =>
    rw [Machine.perform]
    split
    · exact ⟨sound.stop t none (fun _ hj => nomatch hj) fun _ hj => (nomatch hj), trivial⟩
    · exact ⟨sound, trivial⟩
  | sweep =>
    rw [Machine.perform]
    cases phase : m.phase with
    | idle =>
      refine ⟨sound.sweep fun t => ?_, trivial⟩
      rw [phase]
      exact id
    | sweeping tickcount slot => exact ⟨sound, trivial⟩
    | calling tickcount slot t => exact ⟨sound, trivial⟩
  | visit =>
    rw [Machine.perform]
    cases phase : m.phase with
    | idle => exact ⟨sound, trivial⟩
    | calling tickcount slot t => exact ⟨sound, trivial⟩
    | sweeping tickcount slot =>
      dsimp only
      rw [Machine.visit]
      by_cases inside : slot < MAX_CTIMERS
      · rw [if_pos inside]
        cases held : m.timers[slot]? with
        | none =>
          refine ⟨sound.pass phase fun t holds => ?_, trivial⟩
          rw [Holds, held] at holds
          cases holds
        | some slot' =>
          cases slot' with
          | none =>
            refine ⟨sound.pass phase fun t holds => ?_, trivial⟩
            rw [Holds, held] at holds
            cases holds
          | some t =>
            obtain ⟨ordered, kept⟩ := comparable (tickcount, slot)
              (by rw [Option.mem_def]; exact congrArg Phase.visits phase) t
              (by rw [Option.mem_def]; exact congrArg Option.join held)
            dsimp only at ordered kept ⊢
            by_cases late : tickcount % ulongSize ≥ (m.objects t).myTimer.expires % ulongSize
            · rw [if_pos late]
              exact sound.fire phase held (ordered.1 late) (kept (ordered.1 late))
            · rw [if_neg late]
              refine ⟨sound.pass phase fun u holds => ?_, trivial⟩
              obtain rfl : t = u := Holds.unique held holds
              exact Nat.lt_of_not_le (mt ordered.2 late)
      · rw [if_neg inside]
        exact sound.swept phase inside
  | finish =>
    rw [Machine.perform]
    cases phase : m.phase with
    | idle => exact ⟨sound, trivial⟩
    | sweeping tickcount slot => exact ⟨sound, trivial⟩
    | calling tickcount slot t => exact ⟨sound.finish phase, trivial⟩

/-- In every run in which the counter orders the times that are compared and no one-shot that
expires was set to be periodic, timers fire in time, and each is in one slot. -/
theorem inTime_of_comparable [Fintype T] (few : Fintype.card T ≤ MAX_CTIMERS) (now : Nat)
    (ops : List (Op T)) (comparable : Trace.Always step Comparable ops (new now)) :
    Trace.Always step InTime ops (new now) :=
  Trace.Always.of_invariant (fun r => Sound r.machine r.history)
    (fun sound ok => sound.step few ok) (Sound.new now) comparable

/-- A one-shot and a periodic timer that fire in one sweep, the first of them started again by its
callback. -/
def twoTimers : List (Op (Fin 2)) :=
  [.initTimer 0 ONE_SHOT 500, .start 0, .initTimer 1 PERIODIC 250, .start 1, .wait 500, .sweep,
    .visit, .start 0, .finish, .visit, .finish] ++ List.replicate 95 .visit

theorem inTime_twoTimers :
    Trace.Always step InTime twoTimers (new (T := Fin 2) (2 ^ 31)) :=
  inTime_of_comparable (by decide) (2 ^ 31) twoTimers (by decide +kernel)

/-- The counter wraps while the timer runs. -/
def wrapped : List (Op (Fin 1)) :=
  [.initTimer 0 ONE_SHOT 200, .start 0, .wait 10, .sweep, .visit]

/-- The timer fires after 10 of its 200 milliseconds. -/
theorem not_inTime_wrapped :
    ¬ Trace.Always step InTime wrapped (new (2 ^ 32 - 100)) := by
  rintro ⟨-, -, -, -, ⟨-, timely⟩, -⟩
  have late : ¬ ∃ job ∈ (Trace.after step (wrapped.take 4) (new (T := Fin 1)
      (2 ^ 32 - 100))).history.jobs 0, job.started + (job.fired + 1) * job.period ≤
        (Trace.after step (wrapped.take 4) (new (T := Fin 1) (2 ^ 32 - 100))).history.sweepTime := by
    decide +kernel
  exact late timely

end CimArm.Timer
