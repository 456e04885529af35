import CimArm.Lib.Divergence
import CimArm.System.Excepts

/-!
# The flow of exceptions

A program that the macros run is left as structured exceptions leave it as long as the
record and the flags of the thread tell the truth where they are read.  The record holds
the exception raised last, and a flag whether it came to no handler yet; what `END_TRY`
and `RETHROW` do with them is right when that is the exception they are about.

* `exec_follows`: a statement does what it should, or shows something else (`Follows`).
* `flows_iff`: the flow is right exactly in the undisturbed runs.
-/

namespace CimArm.Excepts

open List

/-! ## Undisturbed runs -/

/-- The exception raised last, and whether no handler has caught it. -/
structure History : Type where
  last : Exception
  uncaught : Bool

namespace History

/-- Before anything was raised. -/
def start : History := ⟨Thread.new.exception, false⟩

def step (event : Event) (g : History) : History :=
  match event with
  | .threw e | .rethrew e => ⟨e, true⟩
  | .caught _ _ => { g with uncaught := false }
  | _ => g

/-- The exception that no handler has caught. -/
def pending (g : History) : Option Exception := if g.uncaught then some g.last else none

/-- `RETHROW` is about the exception raised last, an exception is raised again at the end of a
handler or cleanup if it was raised last and caught by no handler, and only then,
and `RETURN_TRY` leaves the body of one `TRY` with `CATCH`. -/
def Undisturbed (g : History) : Event → Prop
  | .rethrew e => g.last = e
  | .ended again => g.pending = again
  | .returned bodies => bodies = [.tryCatch]
  | _ => True

instance (g : History) : (event : Event) → Decidable (g.Undisturbed event)
  | .rethrew _ => inferInstanceAs (Decidable (_ = _))
  | .ended _ => inferInstanceAs (Decidable (_ = _))
  | .returned _ => inferInstanceAs (Decidable (_ = _))
  | .performed _ | .threw _ | .caught .. | .cleaning _ | .left _ => isTrue trivial

/-- All events of a trace are undisturbed. -/
def Clean (g : History) (trace : List Event) : Prop :=
  Trace.Always step Undisturbed trace g

instance (g : History) (trace : List Event) : Decidable (g.Clean trace) :=
  inferInstanceAs (Decidable (Trace.Always _ _ _ _))

/-- The history after a trace. -/
def after (g : History) (trace : List Event) : History := Trace.after step trace g

theorem clean_append (g : History) (trace more : List Event) :
    g.Clean (trace ++ more) ↔ g.Clean trace ∧ (g.after trace).Clean more :=
  Trace.Always.append_iff trace more g

theorem after_append (g : History) (trace more : List Event) :
    g.after (trace ++ more) = (g.after trace).after more :=
  Trace.after_append trace more g

end History

/-! ## What comes behind a trace -/

theorem Run.trace_andThen (run : Run) (next : Thread → Run) :
    ∃ more, (run.andThen next).trace = run.trace ++ more := by
  rw [Run.andThen]
  split
  · exact ⟨_, rfl⟩
  · exact ⟨[], (append_nil _).symm⟩

theorem Run.trace_leave (run : Run) : ∃ more, run.leave.trace = run.trace ++ more := by
  rw [Run.leave]
  split
  · exact ⟨_, rfl⟩
  · exact ⟨_, rfl⟩
  · exact ⟨[], (append_nil _).symm⟩

theorem Run.trace_handle (run : Run) (env : Nat) (handler : Thread → Run) :
    ∃ more, (run.handle env handler).trace = run.trace ++ more := by
  rw [Run.handle]
  split
  · obtain ⟨more, trace⟩ := Run.trace_leave _
    exact ⟨_, trace.trans (append_assoc ..)⟩
  · obtain ⟨more, trace⟩ := Run.trace_leave (run.andThen fun σ => ⟨[], .normal, σ.ex_remove_env⟩)
    obtain ⟨more', trace'⟩ := run.trace_andThen fun σ => ⟨[], .normal, σ.ex_remove_env⟩
    exact ⟨more' ++ more, by rw [trace, trace', append_assoc]⟩

theorem Run.trace_cleanUp (run : Run) (env : Nat) (cleanup : Thread → Run) :
    ∃ more, (run.cleanUp env cleanup).trace = run.trace ++ more := by
  rw [Run.cleanUp]
  generalize ends : (if run.exit = .jumped env then { run with exit := .normal }
    else run.andThen fun σ => ⟨[], .normal, σ.ex_remove_env⟩) = run'
  have here : ∃ more, run'.trace = run.trace ++ more := by
    rw [← ends]
    split
    · exact ⟨[], (append_nil _).symm⟩
    · exact run.trace_andThen _
  obtain ⟨more, trace⟩ := here
  obtain ⟨more', trace'⟩ := run'.trace_andThen fun σ => .after (.cleaning σ.jmpenvs.length)
    ((cleanup σ.ex_set_finally_block).andThen Thread.ex_do_rethrow)
  obtain ⟨more'', trace''⟩ := Run.trace_leave (run'.andThen fun σ =>
    .after (.cleaning σ.jmpenvs.length)
      ((cleanup σ.ex_set_finally_block).andThen Thread.ex_do_rethrow))
  exact ⟨more ++ (more' ++ more''), by
    rw [trace'', trace', trace, append_assoc, append_assoc]⟩

theorem Flow.trace_andThen (flow next : Flow) :
    ∃ more, (flow.andThen next).trace = flow.trace ++ more := by
  rw [Flow.andThen]
  split
  · exact ⟨_, rfl⟩
  · exact ⟨[], (append_nil _).symm⟩

theorem Flow.trace_leave (flow : Flow) (depth : Nat) :
    ∃ more, (flow.leave depth).trace = flow.trace ++ more := by
  rw [Flow.leave]
  split
  · exact ⟨[], (append_nil _).symm⟩
  · exact ⟨_, rfl⟩

theorem Flow.trace_handle (flow : Flow) (handler : Exception → Flow) (depth : Nat) :
    ∃ more, (flow.handle handler depth).trace = flow.trace ++ more := by
  rw [Flow.handle]
  split
  · obtain ⟨more, trace⟩ := Flow.trace_leave _ depth
    exact ⟨_, trace.trans (append_assoc ..)⟩
  · exact flow.trace_leave depth

theorem Flow.trace_cleanUp (flow cleanup : Flow) (depth : Nat) :
    ∃ more, (flow.cleanUp cleanup depth).trace = flow.trace ++ .cleaning depth :: more := by
  obtain ⟨more, trace⟩ := Flow.trace_leave _ depth
  exact ⟨_, trace.trans (append_assoc ..)⟩

/-! ## Statements that do what they should -/

/-- The record and the flags of a thread between statements. -/
structure Agrees (σ : Thread) (g : History) : Prop where
  exception : σ.exception = g.last
  inexception : σ.inexception = g.uncaught
  infinally : σ.inexception = true → σ.infinally = true

theorem Agrees.again {σ : Thread} {g : History} (agrees : Agrees σ g) : σ.again = g.pending := by
  obtain ⟨exception, inexception, infinally⟩ := agrees
  rw [Thread.again, History.pending, ← exception, ← inexception]
  cases raised : σ.inexception with
  | false => rfl
  | true => rw [infinally raised]; rfl

theorem Agrees.congr {σ σ' : Thread} {g : History} (agrees : Agrees σ g)
    (exception : σ'.exception = σ.exception) (inexception : σ'.inexception = σ.inexception)
    (infinally : σ'.infinally = σ.infinally) : Agrees σ' g :=
  ⟨exception.trans agrees.exception, inexception.trans agrees.inexception,
    fun raised => infinally.trans (agrees.infinally (inexception ▸ raised))⟩

/-- A jump goes to the first saved environment, and takes it away. -/
structure Jumps (envs : List Nat) (exit : Exit) (σ : Thread) : Prop where
  exit : exit = match envs with
    | [] => .aborted
    | env :: _ => .jumped env
  envs : σ.jmpenvs = envs.tail

/-- The run of a statement and the flow it should have, from environments and a history: the
run does what it should, or it shows something else.  A `RETURN_TRY` is seen only
when the blocks around it are left. -/
inductive Follows (envs : List Nat) (g : History) (bodies : List Block) (b : Bool) :
    Run → Flow → Prop
  | normal {trace : List Event} {σ : Thread} (clean : g.Clean trace)
      (same : σ.jmpenvs = envs) (agrees : Agrees σ (g.after trace)) :
      Follows envs g bodies b ⟨trace, .normal, σ⟩ ⟨trace, .normal⟩
  | raised {trace : List Event} {exit : Exit} {σ : Thread} {e : Exception} (clean : g.Clean trace)
      (jumps : Jumps envs exit σ) (exception : σ.exception = e)
      (inexception : σ.inexception = true) (after : g.after trace = ⟨e, true⟩) :
      Follows envs g bodies b ⟨trace, exit, σ⟩ ⟨trace, .raised e⟩
  /-- A body is left that is inside the statement. -/
  | returned {trace : List Event} {σ : Thread} (clean : g.Clean trace ↔ bodies = [])
      (same : σ.jmpenvs = envs) (agrees : Agrees σ (g.after trace)) :
      Follows envs g bodies b ⟨trace, .returned, σ⟩ ⟨trace, .returned⟩
  /-- The body is left that the statement stands in. -/
  | leaving {trace : List Event} {σ : Thread} (direct : b = true)
      (clean : g.Clean trace ↔ bodies = [.tryCatch]) (popped : σ.jmpenvs = envs.tail)
      (agrees : Agrees σ (g.after trace)) :
      Follows envs g bodies b ⟨trace, .returned, σ⟩ ⟨trace, .returned⟩
  | diverged {run : Run} {flow : Flow} (disturbed : ¬ g.Clean flow.trace)
      (diverges : Diverges run.trace flow.trace) : Follows envs g bodies b run flow

namespace Follows

variable {envs : List Nat} {g : History} {bodies : List Block} {b : Bool} {run : Run} {flow : Flow}

theorem prepend {trace : List Event} (clean : g.Clean trace)
    (follows : Follows envs (g.after trace) bodies b run flow) :
    Follows envs g bodies b ⟨trace ++ run.trace, run.exit, run.thread⟩
      ⟨trace ++ flow.trace, flow.outcome⟩ := by
  have clean_iff (more : List Event) : g.Clean (trace ++ more) ↔ (g.after trace).Clean more := by
    rw [History.clean_append]
    exact and_iff_right clean
  cases follows with
  | normal clean' same agrees =>
    exact .normal ((clean_iff _).2 clean') same (History.after_append .. ▸ agrees)
  | raised clean' jumps exception inexception after =>
    exact .raised ((clean_iff _).2 clean') jumps exception inexception
      ((History.after_append ..).trans after)
  | returned clean' same agrees =>
    exact .returned ((clean_iff _).trans clean') same (History.after_append .. ▸ agrees)
  | leaving direct clean' popped agrees =>
    exact .leaving direct ((clean_iff _).trans clean') popped (History.after_append .. ▸ agrees)
  | diverged disturbed diverges =>
    exact .diverged (mt (clean_iff _).1 disturbed) (diverges.prepend trace)

variable {flow' : Flow} {env : Nat}

theorem diverged_more {run' : Run} (disturbed : ¬ g.Clean flow.trace)
    (diverges : Diverges run.trace flow.trace) (trace : ∃ more, run'.trace = run.trace ++ more)
    (trace' : ∃ more, flow'.trace = flow.trace ++ more) : Follows envs g bodies b run' flow' := by
  obtain ⟨more, trace⟩ := trace
  obtain ⟨more', trace'⟩ := trace'
  refine .diverged (fun clean => disturbed ?_) ?_
  · rw [trace', History.clean_append] at clean
    exact clean.1
  · rw [trace, trace']
    exact diverges.append more more'

theorem andThen (follows : Follows envs g bodies b run flow) {next : Thread → Run}
    (goesOn : ∀ (trace : List Event) (σ : Thread), g.Clean trace → σ.jmpenvs = envs →
      Agrees σ (g.after trace) → Follows envs (g.after trace) bodies b (next σ) flow') :
    Follows envs g bodies b (run.andThen next) (flow.andThen flow') := by
  cases follows with
  | @normal trace σ clean same agrees => exact (goesOn trace σ clean same agrees).prepend clean
  | raised clean jumps exception inexception after =>
    cases envs with
    | nil =>
      obtain rfl := jumps.exit
      exact .raised clean jumps exception inexception after
    | cons env envs =>
      obtain rfl := jumps.exit
      exact .raised clean jumps exception inexception after
  | returned clean same agrees => exact .returned clean same agrees
  | leaving direct clean popped agrees => exact .leaving direct clean popped agrees
  | diverged disturbed diverges =>
    exact diverged_more disturbed diverges (run.trace_andThen next) (flow.trace_andThen flow')

theorem of_jump (trace : List Event) (σ : Thread) {e : Exception} (clean : g.Clean trace)
    (same : σ.jmpenvs = envs) (exception : σ.exception = e) (inexception : σ.inexception = true)
    (after : g.after trace = ⟨e, true⟩) :
    Follows envs g bodies b ⟨trace ++ σ.jump.trace, σ.jump.exit, σ.jump.thread⟩
      ⟨trace, .raised e⟩ := by
  rw [Thread.jump]
  cases envs with
  | nil =>
    rw [same, append_nil]
    exact .raised clean ⟨rfl, same⟩ exception inexception after
  | cons env envs =>
    rw [same, append_nil]
    exact .raised clean ⟨rfl, rfl⟩ exception inexception after

theorem leave (follows : Follows envs g bodies false run flow) :
    Follows envs g bodies b run.leave (flow.leave envs.length) := by
  cases follows with
  | @normal trace σ clean same agrees =>
    rw [Run.leave, Flow.leave, same]
    have ended : (g.after trace).Clean [.left envs.length] := ⟨trivial, trivial⟩
    exact prepend clean (.normal ended same agrees)
  | raised clean jumps exception inexception after =>
    cases envs with
    | nil =>
      obtain rfl := jumps.exit
      exact .raised clean jumps exception inexception after
    | cons env envs =>
      obtain rfl := jumps.exit
      exact .raised clean jumps exception inexception after
  | @returned trace σ clean same agrees =>
    rw [Run.leave, Flow.leave, same]
    refine .returned ?_ same ?_
    · rw [History.clean_append]
      exact (and_iff_left ⟨trivial, trivial⟩).trans clean
    · rw [History.after_append]
      exact agrees
  | diverged disturbed diverges =>
    exact diverged_more disturbed diverges (Run.trace_leave _) (Flow.trace_leave _ _)
  | leaving direct clean popped agrees => cases direct

/-- The end of a handler or a cleanup, where an exception may have to be raised again. -/
theorem endTry (follows : Follows envs g bodies b run flow) {outcome : Outcome}
    (ends : outcome ≠ .returned) :
    Follows envs g bodies b (run.andThen Thread.ex_do_rethrow)
      (flow.andThen ⟨[.ended outcome.pending], outcome⟩) := by
  refine follows.andThen fun trace σ clean same agrees => ?_
  have again := agrees.again
  rw [Thread.ex_do_rethrow]
  by_cases right : σ.again = outcome.pending
  · have admitted : (g.after trace).Clean [.ended outcome.pending] :=
      ⟨again.symm.trans right, trivial⟩
    rw [right]
    cases outcome with
    | normal => exact .normal admitted same agrees
    | returned => exact absurd rfl ends
    | raised e =>
      have uncaught : g.after trace = ⟨e, true⟩ := by
        have pending : (g.after trace).pending = some e := again.symm.trans right
        rw [History.pending] at pending
        cases raised : (g.after trace).uncaught with
        | false =>
          rw [raised] at pending
          cases pending
        | true =>
          rw [raised] at pending
          obtain rfl := Option.some.inj pending
          rw [← raised]
      have thrown : σ.ex_throw_msg e.toThrow =
          Thread.jump { σ with exception := e, inexception := true } := by
        rw [Thread.ex_throw_msg, Exception.ofThrow_toThrow]
      show Follows envs (g.after trace) bodies b (.after _ (σ.ex_throw_msg e.toThrow)) _
      rw [thrown]
      exact of_jump [.ended (some e)] _ admitted same rfl rfl uncaught
  · refine .diverged (fun clean => right (again.trans clean.1)) ?_
    exact Diverges.of_ne (fun same => right (Event.ended.inj same)) _ _

theorem removeEnv {trace : List Event} {σ : Thread} (same : σ.jmpenvs = env :: envs)
    (agrees : Agrees σ (g.after trace)) :
    σ.ex_remove_env.jmpenvs = envs ∧ Agrees σ.ex_remove_env (g.after trace) := by
  refine ⟨?_, agrees.congr rfl rfl rfl⟩
  rw [Thread.ex_remove_env, same]
  rfl

theorem finish (follows : Follows envs g [] false run flow) :
    Follows envs g bodies b run.finish flow.finish := by
  cases follows with
  | normal clean same agrees => exact .normal clean same agrees
  | raised clean jumps exception inexception after =>
    cases envs with
    | nil =>
      obtain rfl := jumps.exit
      exact .raised clean jumps exception inexception after
    | cons env envs =>
      obtain rfl := jumps.exit
      exact .raised clean jumps exception inexception after
  | returned clean same agrees => exact .normal (clean.2 rfl) same agrees
  | leaving direct clean popped agrees => cases direct
  | diverged disturbed diverges =>
    refine diverged_more disturbed diverges ⟨[], ?_⟩ ⟨[], ?_⟩
    · rw [Run.finish, append_nil]
      split <;> rfl
    · rw [Flow.finish, append_nil]
      split <;> rfl

theorem handle (follows : Follows (env :: envs) g (.tryCatch :: bodies) true run flow)
    {handler : Thread → Run} {flow' : Exception → Flow}
    (handles : ∀ (g' : History) (σ : Thread) (e : Exception), σ.jmpenvs = envs → Agrees σ g' →
      Follows envs g' bodies false (handler σ) (flow' e)) :
    Follows envs g bodies b (run.handle env handler) (flow.handle flow' envs.length) := by
  cases follows with
  | @normal trace σ clean same agrees =>
    obtain ⟨same', agrees'⟩ := removeEnv same agrees
    have body : Follows envs g bodies false
        (Run.andThen ⟨trace, .normal, σ⟩ fun σ => ⟨[], .normal, σ.ex_remove_env⟩)
        ⟨trace, .normal⟩ := by
      show Follows _ _ _ _ ⟨trace ++ [], _, _⟩ _
      rw [append_nil]
      exact .normal clean same' agrees'
    exact body.leave
  | @raised trace exit σ e clean jumps exception inexception after =>
    obtain rfl := jumps.exit
    have caught : g.Clean (trace ++ [.caught e envs.length]) :=
      (History.clean_append ..).2 ⟨clean, trivial, trivial⟩
    have agrees : Agrees σ.ex_set_except_block (g.after (trace ++ [.caught e envs.length])) := by
      rw [History.after_append, after]
      exact ⟨exception, rfl, fun raised => Bool.noConfusion raised⟩
    have whole := prepend caught ((handles _ σ.ex_set_except_block e jumps.envs agrees).endTry
      (show Outcome.normal ≠ .returned from Outcome.noConfusion))
    rw [append_assoc, append_assoc] at whole
    have depth : σ.jmpenvs.length = envs.length := congrArg List.length jumps.envs
    rw [Run.handle, if_pos rfl, Flow.handle]
    show Follows envs g bodies b (Run.leave ⟨trace ++ .caught σ.exception σ.jmpenvs.length :: _, _, _⟩) _
    rw [exception, depth]
    exact whole.leave
  | @returned trace σ clean same agrees =>
    refine .diverged (fun clean' => ?_) ?_
    · rw [Flow.handle, Flow.leave, History.clean_append] at clean'
      exact cons_ne_nil _ _ (clean.1 clean'.1)
    · refine (Diverges.of_ne (fun equal => ?_) [] []).prepend trace
      have depth : σ.jmpenvs.length = envs.length := Event.left.inj equal
      rw [same, length_cons] at depth
      omega
  | @leaving trace σ direct clean popped agrees =>
    have ended : g.Clean (trace ++ [.left envs.length]) ↔ bodies = [] := by
      rw [History.clean_append]
      refine (and_iff_left ⟨trivial, trivial⟩).trans (clean.trans ?_)
      simp
    have agrees' : Agrees σ (g.after (trace ++ [.left envs.length])) := by
      rw [History.after_append]
      exact agrees
    have depth : σ.jmpenvs.length = envs.length := congrArg List.length popped
    show Follows envs g bodies b ⟨trace ++ [.left σ.jmpenvs.length], _, _⟩ _
    rw [depth]
    exact .returned ended popped agrees'
  | diverged disturbed diverges =>
    exact diverged_more disturbed diverges (run.trace_handle env handler)
      (flow.trace_handle flow' _)

theorem cleanUp (follows : Follows (env :: envs) g (.tryFinally :: bodies) true run flow)
    {cleanup : Thread → Run}
    (cleans : ∀ (g' : History) (σ : Thread), σ.jmpenvs = envs → Agrees σ g' →
      Follows envs g' bodies false (cleanup σ) flow') :
    Follows envs g bodies b (run.cleanUp env cleanup) (flow.cleanUp flow' envs.length) := by
  -- the cleanup behind a body that comes to it
  have ends (trace : List Event) (σ : Thread) (outcome : Outcome) (clean : g.Clean trace)
      (same : σ.jmpenvs = envs) (agrees : Agrees σ.ex_set_finally_block (g.after trace))
      (notReturned : outcome ≠ .returned) :
      Follows envs g bodies b
        (Run.leave (Run.andThen ⟨trace, .normal, σ⟩ fun σ => .after (.cleaning σ.jmpenvs.length)
          ((cleanup σ.ex_set_finally_block).andThen Thread.ex_do_rethrow)))
        (Flow.cleanUp ⟨trace, outcome⟩ flow' envs.length) := by
    have begun : g.Clean (trace ++ [.cleaning envs.length]) :=
      (History.clean_append ..).2 ⟨clean, trivial, trivial⟩
    have agrees' : Agrees σ.ex_set_finally_block
        (g.after (trace ++ [.cleaning envs.length])) := by
      rw [History.after_append]
      exact agrees
    have whole := prepend begun ((cleans _ σ.ex_set_finally_block same agrees').endTry notReturned)
    rw [append_assoc, append_assoc] at whole
    show Follows envs g bodies b (Run.leave ⟨trace ++ .cleaning σ.jmpenvs.length :: _, _, _⟩) _
    rw [same]
    exact whole.leave
  -- a return goes past it
  have skipped (trace : List Event) (σ : Thread) (disturbed : ¬ g.Clean trace) :
      Follows envs g bodies b (Run.cleanUp ⟨trace, .returned, σ⟩ env cleanup)
        (Flow.cleanUp ⟨trace, .returned⟩ flow' envs.length) := by
    obtain ⟨more, whole⟩ := Flow.trace_cleanUp ⟨trace, .returned⟩ flow' envs.length
    refine .diverged (fun clean => disturbed ?_) ?_
    · rw [whole, History.clean_append] at clean
      exact clean.1
    · rw [whole]
      exact (Diverges.of_ne Event.noConfusion [] more).prepend trace
  cases follows with
  | @normal trace σ clean same agrees =>
    obtain ⟨same', agrees'⟩ := removeEnv same agrees
    have whole := ends trace σ.ex_remove_env .normal clean same'
      ⟨agrees'.exception, agrees'.inexception, fun _ => rfl⟩ Outcome.noConfusion
    rw [Run.cleanUp, if_neg Exit.noConfusion]
    show Follows _ _ _ _ (Run.leave (Run.andThen ⟨trace ++ [], _, _⟩ _)) _
    rw [append_nil]
    exact whole
  | @raised trace exit σ e clean jumps exception inexception after =>
    obtain rfl := jumps.exit
    have agrees : Agrees σ.ex_set_finally_block (g.after trace) := by
      rw [after]
      exact ⟨exception, inexception, fun _ => rfl⟩
    rw [Run.cleanUp, if_pos rfl]
    exact ends trace σ (.raised e) clean jumps.envs agrees Outcome.noConfusion
  | returned clean same agrees =>
    exact skipped _ _ fun clean' => cons_ne_nil _ _ (clean.1 clean')
  | leaving direct clean popped agrees =>
    exact skipped _ _ fun clean' => Block.noConfusion (List.cons.inj (clean.1 clean')).1
  | diverged disturbed diverges =>
    obtain ⟨more, trace⟩ := flow.trace_cleanUp flow' envs.length
    exact diverged_more disturbed diverges (run.trace_cleanUp env cleanup) ⟨_, trace⟩

end Follows

/-! ## Blocks -/

variable {h b : Bool} {σ : Thread} {g : History} {bodies : List Block}

theorem exec_follows (s : Stmt h b) (caught : Option Exception) (handled : h = true → caught ≠ none)
    (bodies : List Block) {σ : Thread} {g : History} (agrees : Agrees σ g)
    (room : σ.jmpenvs.length + s.nesting ≤ MAX_NESTED_TRIES) :
    Follows σ.jmpenvs g bodies b (exec s bodies σ) (eval s caught bodies σ.jmpenvs.length) := by
  induction s generalizing caught bodies σ g with
  | skip => exact .normal trivial rfl agrees
  | perform action => exact .normal ⟨trivial, trivial⟩ rfl agrees
  | throw t =>
    exact .of_jump [.threw (.ofThrow t)] { σ with exception := .ofThrow t, inexception := true }
      ⟨trivial, trivial⟩ rfl rfl rfl rfl
  | rethrow =>
    obtain ⟨e, rfl⟩ := Option.ne_none_iff_exists'.1 (handled rfl)
    rw [exec, eval]
    by_cases right : g.last = e
    · subst right
      rw [agrees.exception]
      exact .of_jump [.rethrew g.last] { σ with inexception := true } ⟨rfl, trivial⟩ rfl
        agrees.exception rfl rfl
    · refine .diverged (fun clean => right clean.1) ?_
      refine Diverges.of_ne (fun same => right ?_) _ _
      rw [← agrees.exception]
      exact Event.rethrew.inj same
  | returnTry =>
    rw [exec, eval]
    exact .leaving rfl (and_iff_left trivial) rfl (agrees.congr rfl rfl rfl)
  | seq first second ih ih' =>
    rw [Stmt.nesting] at room
    rw [exec, eval]
    refine (ih caught handled bodies agrees (by omega)).andThen fun trace σ' clean same agrees' => ?_
    rw [← same]
    exact ih' caught handled bodies agrees' (by rw [same]; omega)
  | call function ih =>
    rw [exec, eval]
    rw [Stmt.nesting] at room
    exact (ih none (fun handled => nomatch handled) [] agrees room).finish
  | tryCatch body handler ih ih' =>
    rw [Stmt.nesting] at room
    have saves : σ.ex_save_env = some (σ.saved, { σ with
        jmpenvs := σ.saved :: σ.jmpenvs, saved := σ.saved + 1 }) := if_neg (by omega)
    have begun : Agrees { σ with
        jmpenvs := σ.saved :: σ.jmpenvs, saved := σ.saved + 1 } g := agrees.congr rfl rfl rfl
    have inside := ih caught handled (.tryCatch :: bodies) begun (by
      show σ.jmpenvs.length + 1 + body.nesting ≤ _
      omega)
    rw [exec, saves, eval]
    refine inside.handle fun g' σ' e same agrees' => ?_
    rw [← same]
    exact ih' (some e) (fun _ => Option.some_ne_none e) bodies agrees' (by rw [same]; omega)
  | tryFinally body cleanup ih ih' =>
    rw [Stmt.nesting] at room
    have saves : σ.ex_save_env = some (σ.saved, { σ with
        jmpenvs := σ.saved :: σ.jmpenvs, saved := σ.saved + 1 }) := if_neg (by omega)
    have begun : Agrees { σ with
        jmpenvs := σ.saved :: σ.jmpenvs, saved := σ.saved + 1 } g := agrees.congr rfl rfl rfl
    have inside := ih caught handled (.tryFinally :: bodies) begun (by
      show σ.jmpenvs.length + 1 + body.nesting ≤ _
      omega)
    rw [exec, saves, eval]
    refine inside.cleanUp fun g' σ' same agrees' => ?_
    rw [← same]
    exact ih' caught handled bodies agrees' (by rw [same]; omega)

/-! ## Programs -/

/-- A thread runs a program with the macros. -/
def run (p : Stmt false false) : Run := exec p [] Thread.new

/-- A program by structured exceptions. -/
def structured (p : Stmt false false) : Flow := eval p none [] 0

/-- How a program ends that is left this way: without a block around it, an exception aborts. -/
def Outcome.exit : Outcome → Exit
  | .normal => .normal
  | .returned => .returned
  | .raised _ => .aborted

/-- The run is that of structured exceptions: the same events in the same order, the same end, and
no environment left. -/
structure Flows (p : Stmt false false) : Prop where
  trace : (run p).trace = (structured p).trace
  exit : (run p).exit = (structured p).outcome.exit
  uncaught : ∀ e, (structured p).outcome = .raised e → (run p).thread.exception = e
  depth : (run p).thread.jmpenvs = []

/-- A program flows as structured exceptions do exactly when the events it should have are
undisturbed. -/
theorem flows_iff (p : Stmt false false) (nested : p.nesting ≤ MAX_NESTED_TRIES) :
    Flows p ↔ History.start.Clean (structured p).trace := by
  have agrees : Agrees Thread.new History.start :=
    ⟨rfl, rfl, fun raised => Bool.noConfusion raised⟩
  have follows := exec_follows p none (fun handled => nomatch handled) [] agrees
    (by rw [Thread.new, length_nil]; omega)
  change Follows [] History.start [] false (run p) (structured p) at follows
  generalize run_eq : run p = run' at follows
  generalize flow_eq : structured p = flow at follows
  cases follows with
  | normal clean same agrees =>
    refine iff_of_true ⟨?_, ?_, fun e raised => ?_, ?_⟩ clean
    · rw [run_eq, flow_eq]
    · rw [run_eq, flow_eq]
      rfl
    · rw [flow_eq] at raised
      cases raised
    · rw [run_eq]
      exact same
  | raised clean jumps exception inexception after =>
    refine iff_of_true ⟨?_, ?_, fun e raised => ?_, ?_⟩ clean
    · rw [run_eq, flow_eq]
    · rw [run_eq, flow_eq]
      exact jumps.exit
    · rw [flow_eq] at raised
      rw [run_eq]
      exact exception.trans (Outcome.raised.inj raised)
    · rw [run_eq]
      exact jumps.envs
  | returned clean same agrees =>
    refine iff_of_true ⟨?_, ?_, fun e raised => ?_, ?_⟩ (clean.2 rfl)
    · rw [run_eq, flow_eq]
    · rw [run_eq, flow_eq]
      rfl
    · rw [flow_eq] at raised
      cases raised
    · rw [run_eq]
      exact same
  | leaving direct => cases direct
  | diverged disturbed diverges =>
    refine iff_of_false (fun flows => diverges.ne ?_) disturbed
    have trace := flows.trace
    rw [run_eq, flow_eq] at trace
    exact trace

/-- A throw with this code. -/
def throwCode {h b : Bool} (excode : Int) : Stmt h b := .throw ⟨excode, 0, [], 0, [], []⟩

/-- Nested blocks: a cleanup on the way to a handler, which raises its exception again. -/
def cleanProgram : Stmt false false :=
  .tryCatch (.tryCatch (.tryFinally (throwCode 1) (.perform 2)) (.seq (.perform 3) .rethrow))
    (.call (.tryCatch .returnTry .skip))

theorem flows_cleanProgram : Flows cleanProgram :=
  (flows_iff cleanProgram (by decide)).2 (by decide +kernel)

/-- A cleanup with a block of its own, while an exception is pending. -/
def nestedCleanup : Stmt false false :=
  .tryCatch
    (.tryFinally (throwCode 1) (.seq (.tryFinally .skip (.perform 2)) (.perform 3))) (.perform 4)

/-- The exception is raised again at the end of the inner cleanup: the outer one is cut
short. -/
theorem not_flows_nestedCleanup :
    nestedCleanup.nesting < MAX_NESTED_TRIES ∧ ¬ Flows nestedCleanup := by
  refine ⟨by decide, fun flows => ?_⟩
  have skips : Event.performed 3 ∉ (run nestedCleanup).trace := by decide +kernel
  have shows : Event.performed 3 ∈ (structured nestedCleanup).trace := by decide +kernel
  exact skips (flows.trace ▸ shows)

end CimArm.Excepts
