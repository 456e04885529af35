import CimArm.Lib.Trace

/-!
# Exceptions

`TRY`, `CATCH`, `FINALLY` and `END_TRY` are macros around `setjmp`: a thread keeps a
stack of saved environments, the record of one exception and two flags, and all blocks
share them.  A program is a tree of such blocks; a statement knows whether it stands in
a handler, where `RETHROW` may be used, and whether the innermost part of a block around
it is a body, where `RETURN_TRY` may.

`exec` runs a program as the macros do, `eval` as structured exceptions would, and both
tell the events of the run in order.
-/

namespace CimArm.Excepts

open List

/-! ## Programs -/

/-- What a throw is given. -/
structure Throw : Type where
  excode : Int
  adcode : Int
  file : List Char
  line : Int
  name : List Char
  msg : List Char
  deriving DecidableEq, Repr

def EX_NAME_SIZE : Nat := 100
def EX_FILE_SIZE : Nat := 100
def EX_MSG_SIZE : Nat := 100
def MAX_NESTED_TRIES : Nat := 20

/-- The exception of a thread; the texts have room. -/
structure Exception : Type where
  toThrow : Throw
  file_fits : toThrow.file.length ≤ EX_FILE_SIZE - 1
  name_fits : toThrow.name.length ≤ EX_NAME_SIZE - 1
  msg_fits : toThrow.msg.length ≤ EX_MSG_SIZE - 1
  deriving DecidableEq

/-- The texts are copied as far as they fit. -/
def Exception.ofThrow (t : Throw) : Exception where
  toThrow := { t with
    file := t.file.take (EX_FILE_SIZE - 1)
    name := t.name.take (EX_NAME_SIZE - 1)
    msg := t.msg.take (EX_MSG_SIZE - 1) }
  file_fits := length_take_le _ _
  name_fits := length_take_le _ _
  msg_fits := length_take_le _ _

@[simp]
theorem Exception.ofThrow_toThrow (e : Exception) : Exception.ofThrow e.toThrow = e := by
  obtain ⟨⟨excode, adcode, file, line, name, msg⟩, file_fits, name_fits, msg_fits⟩ := e
  simp only [ofThrow, take_of_length_le file_fits, take_of_length_le name_fits,
    take_of_length_le msg_fits]

/-- A block, by the part behind its body. -/
inductive Block
  | tryCatch | tryFinally
  deriving DecidableEq, Repr

/-- A program, by whether it stands in a handler and directly in a body. -/
inductive Stmt : (inHandler inBody : Bool) → Type
  | skip {h b : Bool} : Stmt h b
  /-- Anything else than control flow. -/
  | perform {h b : Bool} (action : Nat) : Stmt h b
  | throw {h b : Bool} (t : Throw) : Stmt h b
  | rethrow {b : Bool} : Stmt true b
  | returnTry {h : Bool} : Stmt h true
  | seq {h b : Bool} (first second : Stmt h b) : Stmt h b
  | tryCatch {h b : Bool} (body : Stmt h true) (handler : Stmt true false) : Stmt h b
  | tryFinally {h b : Bool} (body : Stmt h true) (cleanup : Stmt h false) : Stmt h b
  /-- A call of a function with this body. -/
  | call {h b : Bool} (function : Stmt false false) : Stmt h b

/-- How deep blocks are nested, those in handlers and cleanups included. -/
def Stmt.nesting {h b : Bool} : Stmt h b → Nat
  | .seq first second => max first.nesting second.nesting
  | .tryCatch body handler => max body.nesting handler.nesting + 1
  | .tryFinally body cleanup => max body.nesting cleanup.nesting + 1
  | .call function => function.nesting
  | _ => 0

/-- What a run shows. -/
inductive Event : Type
  | performed (action : Nat)
  | threw (e : Exception)
  | rethrew (e : Exception)
  /-- A handler begins, with so many environments saved. -/
  | caught (e : Exception) (depth : Nat)
  /-- A cleanup begins. -/
  | cleaning (depth : Nat)
  /-- A handler or a cleanup comes to its end, and an exception is raised again. -/
  | ended (again : Option Exception)
  /-- `RETURN_TRY` in these blocks of its function, the innermost first. -/
  | returned (bodies : List Block)
  /-- A block is left, not by an exception. -/
  | left (depth : Nat)
  deriving DecidableEq

/-! ## The macros -/

/-- The exception data of a thread. -/
structure Thread : Type where
  /-- The saved environments, that of `jenv` first, by the number of their `setjmp`. -/
  jmpenvs : List Nat
  exception : Exception
  inexception : Bool
  infinally : Bool
  /-- How many `setjmp` there were. -/
  saved : Nat

namespace Thread

/-- A new thread. -/
def new : Thread := ⟨[], .ofThrow ⟨0, 0, [], 0, [], []⟩, false, false, 0⟩

/-- `ex_save_env`, where there is room, and the `setjmp` to it. -/
def ex_save_env (self : Thread) : Option (Nat × Thread) :=
  if self.jmpenvs.length ≥ MAX_NESTED_TRIES then none
  else some (self.saved,
    { self with jmpenvs := self.saved :: self.jmpenvs, saved := self.saved + 1 })

def ex_remove_env (self : Thread) : Thread := { self with jmpenvs := self.jmpenvs.tail }

def ex_set_except_block (self : Thread) : Thread :=
  { self with infinally := false, inexception := false }

def ex_set_finally_block (self : Thread) : Thread := { self with infinally := true }

end Thread

/-- How a statement is left. -/
inductive Exit : Type
  | normal
  | returned
  /-- `longjmp` to a saved environment. -/
  | jumped (env : Nat)
  /-- Without a saved environment the program is aborted. -/
  | aborted
  deriving DecidableEq

/-- What a statement did. -/
structure Run : Type where
  trace : List Event
  exit : Exit
  thread : Thread

namespace Run

/-- Go on behind a statement that ends normally. -/
def andThen (run : Run) (next : Thread → Run) : Run :=
  match run.exit with
  | .normal =>
    let run' := next run.thread
    ⟨run.trace ++ run'.trace, run'.exit, run'.thread⟩
  | _ => run

/-- Put an event in front. -/
def after (event : Event) (run : Run) : Run := ⟨event :: run.trace, run.exit, run.thread⟩

/-- The end of a block. -/
def leave (run : Run) : Run :=
  match run.exit with
  | .normal | .returned => ⟨run.trace ++ [.left run.thread.jmpenvs.length], run.exit, run.thread⟩
  | _ => run

end Run

namespace Thread

/-- The jump at the end of `ex_throw_msg` and of `ex_rethrow`. -/
def jump (self : Thread) : Run :=
  match self.jmpenvs with
  | [] => ⟨[], .aborted, self⟩
  | env :: jmpenvs => ⟨[], .jumped env, { self with jmpenvs := jmpenvs }⟩

def ex_throw_msg (self : Thread) (t : Throw) : Run :=
  { self with exception := .ofThrow t, inexception := true }.jump

def ex_rethrow (self : Thread) : Run := { self with inexception := true }.jump

/-- The exception that `END_TRY` raises again. -/
def again (self : Thread) : Option Exception :=
  if self.inexception && self.infinally then some self.exception else none

/-- `ex_do_rethrow`, at the end of a handler or a cleanup. -/
def ex_do_rethrow (self : Thread) : Run :=
  .after (.ended self.again) <| match self.again with
    | some e => self.ex_throw_msg e.toThrow
    | none => ⟨[], .normal, self⟩

end Thread

/-- `CATCH` and `END_TRY`, behind a body that saved this environment. -/
def Run.handle (run : Run) (env : Nat) (handler : Thread → Run) : Run :=
  if run.exit = .jumped env then
    let run' := Run.after (.caught run.thread.exception run.thread.jmpenvs.length)
      ((handler run.thread.ex_set_except_block).andThen Thread.ex_do_rethrow)
    Run.leave ⟨run.trace ++ run'.trace, run'.exit, run'.thread⟩
  else (run.andThen fun σ => ⟨[], .normal, σ.ex_remove_env⟩).leave

/-- `FINALLY` and `END_TRY`. Both a jump and the end of the body come to the cleanup. -/
def Run.cleanUp (run : Run) (env : Nat) (cleanup : Thread → Run) : Run :=
  let run := if run.exit = .jumped env then { run with exit := .normal }
    else run.andThen fun σ => ⟨[], .normal, σ.ex_remove_env⟩
  (run.andThen fun σ => .after (.cleaning σ.jmpenvs.length)
    ((cleanup σ.ex_set_finally_block).andThen Thread.ex_do_rethrow)).leave

/-- The end of a call. -/
def Run.finish (run : Run) : Run :=
  match run.exit with
  | .returned => { run with exit := .normal }
  | _ => run

/-- Run a statement with the macros. The blocks of its function are only shown. -/
def exec {h b : Bool} : Stmt h b → List Block → Thread → Run
  | .skip, _, σ => ⟨[], .normal, σ⟩
  | .perform action, _, σ => ⟨[.performed action], .normal, σ⟩
  | .throw t, _, σ => .after (.threw (.ofThrow t)) (σ.ex_throw_msg t)
  | .rethrow, _, σ => .after (.rethrew σ.exception) σ.ex_rethrow
  | .returnTry, bodies, σ => ⟨[.returned bodies], .returned, σ.ex_remove_env⟩
  | .seq first second, bodies, σ => (exec first bodies σ).andThen (exec second bodies)
  | .call function, _, σ => (exec function [] σ).finish
  | .tryCatch body handler, bodies, σ =>
    match σ.ex_save_env with
    | none => ⟨[], .aborted, σ⟩
    | some (env, saved) =>
      (exec body (.tryCatch :: bodies) saved).handle env (exec handler bodies)
  | .tryFinally body cleanup, bodies, σ =>
    match σ.ex_save_env with
    | none => ⟨[], .aborted, σ⟩
    | some (env, saved) =>
      (exec body (.tryFinally :: bodies) saved).cleanUp env (exec cleanup bodies)

/-! ## Structured exceptions -/

/-- How a statement is left. -/
inductive Outcome : Type
  | normal
  | returned
  | raised (e : Exception)
  deriving DecidableEq

/-- What a statement should do. -/
structure Flow : Type where
  trace : List Event
  outcome : Outcome

namespace Flow

def andThen (flow next : Flow) : Flow :=
  match flow.outcome with
  | .normal => ⟨flow.trace ++ next.trace, next.outcome⟩
  | _ => flow

def leave (flow : Flow) (depth : Nat) : Flow :=
  match flow.outcome with
  | .raised _ => flow
  | _ => ⟨flow.trace ++ [.left depth], flow.outcome⟩

end Flow

/-- The exception of a statement that raises one. -/
def Outcome.pending : Outcome → Option Exception
  | .raised e => some e
  | _ => none

/-- A handler takes the exception of a body. -/
def Flow.handle (flow : Flow) (handler : Exception → Flow) (depth : Nat) : Flow :=
  match flow.outcome with
  | .raised e =>
    let flow' := (handler e).andThen ⟨[.ended none], .normal⟩
    Flow.leave ⟨flow.trace ++ .caught e depth :: flow'.trace, flow'.outcome⟩ depth
  | _ => flow.leave depth

/-- A cleanup comes behind a body however it was left, and passes that on. -/
def Flow.cleanUp (flow cleanup : Flow) (depth : Nat) : Flow :=
  let flow' := cleanup.andThen ⟨[.ended flow.outcome.pending], flow.outcome⟩
  Flow.leave ⟨flow.trace ++ .cleaning depth :: flow'.trace, flow'.outcome⟩ depth

def Flow.finish (flow : Flow) : Flow :=
  match flow.outcome with
  | .returned => { flow with outcome := .normal }
  | _ => flow

/-- A statement by structured exceptions, in a handler of an exception, in these blocks of its
function, and in so many open bodies. -/
def eval {h b : Bool} : Stmt h b → Option Exception → List Block → Nat → Flow
  | .skip, _, _, _ => ⟨[], .normal⟩
  | .perform action, _, _, _ => ⟨[.performed action], .normal⟩
  | .throw t, _, _, _ => ⟨[.threw (.ofThrow t)], .raised (.ofThrow t)⟩
  | .rethrow, caught, _, _ =>
    match caught with
    | some e => ⟨[.rethrew e], .raised e⟩
    | none => ⟨[], .normal⟩
  | .returnTry, _, bodies, _ => ⟨[.returned bodies], .returned⟩
  | .seq first second, caught, bodies, depth =>
    (eval first caught bodies depth).andThen (eval second caught bodies depth)
  | .call function, _, _, depth => (eval function none [] depth).finish
  | .tryCatch body handler, caught, bodies, depth =>
    (eval body caught (.tryCatch :: bodies) (depth + 1)).handle
      (fun e => eval handler (some e) bodies depth) depth
  | .tryFinally body cleanup, caught, bodies, depth =>
    (eval body caught (.tryFinally :: bodies) (depth + 1)).cleanUp
      (eval cleanup caught bodies depth) depth

end CimArm.Excepts
