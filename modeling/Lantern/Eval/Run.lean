/-
  Lantern.Eval.Run — the state of a run, and the steps a run is made of.

  A step comes to one of four ends: a value; a `return` on its way to the nearest call;
  an error on its way to the nearest statement; or the fuel is used up. The first three
  keep the state as it was left. The last is a device of the definition: it stands for a
  run that goes on for ever, or longer than was asked for.
-/

import Lantern.Value.Heap
import Lantern.Eval.Operator
import Lantern.Eval.Builtin
import Lantern.Eval.Journal

namespace Lantern

inductive Policy where
  /-- Report the error, let the statement come to `null`, and go on with the next one. -/
  | proceed
  /-- End the run. -/
  | abort
  deriving DecidableEq, Repr, Inhabited

structure Settings where
  policy : Policy
  /-- Whether test blocks run. -/
  testMode : Bool
  /-- How deep calls may nest, if there is a limit. -/
  maxCallDepth : Option Nat
  deriving DecidableEq, Repr, Inhabited

/-- What one test block came to: its label, and the messages of the errors met while it
    ran. -/
structure TestOutcome where
  label : String
  passed : Bool
  errors : List String
  deriving DecidableEq, Repr, Inhabited

structure State where
  heap : Heap
  console : Console
  /-- The errors reported and not taken out since. -/
  diagnostics : Diagnostic.Queue
  /-- What has happened so far. -/
  journal : Journal
  /-- The tests that ended, in order. -/
  outcomes : Array TestOutcome
  /-- The function bodies being run. -/
  callDepth : Nat
  deriving Inhabited

def State.fresh : State := ⟨.empty, .recording, .empty, .empty, #[], 0⟩

inductive Flow (α : Type) where
  | value (result : α) (state : State)
  | returned (result : Value) (state : State)
  | failed (error : EvalError) (state : State)
  | outOfFuel

def Run (α : Type) : Type := State → Flow α

namespace Run

@[inline] def done {α : Type} (result : α) : Run α := fun state => .value result state

@[inline] def andThen {α β : Type} (first : Run α) (next : α → Run β) : Run β := fun state =>
  match first state with
  | .value result behind => next result behind
  | .returned result behind => .returned result behind
  | .failed error behind => .failed error behind
  | .outOfFuel => .outOfFuel

instance : Monad Run where
  pure := done
  bind := andThen

@[inline] def stop {α : Type} : Run α := fun _ => .outOfFuel

@[inline] def fail {α : Type} (error : EvalError) : Run α := fun state => .failed error state

@[inline] def lift {α : Type} (outcome : Except EvalError α) : Run α := fun state =>
  match outcome with
  | .ok result => .value result state
  | .error error => .failed error state

@[inline] def leave {α : Type} (result : Value) : Run α := fun state => .returned result state

@[inline] def ask {α : Type} (question : Heap → α) : Run α := fun state =>
  .value (question state.heap) state

@[inline] def alter (change : Heap → Heap) : Run Unit := fun state =>
  .value () { state with heap := change state.heap }

@[inline] def extend {α : Type} (change : Heap → α × Heap) : Run α := fun state =>
  match change state.heap with
  | (answer, heap) => .value answer { state with heap }

def callBuiltin (primitive : Builtin) (arguments : List Value) : Run Value := fun state =>
  match primitive.call arguments state.console with
  | (outcome, console) => lift outcome { state with console }

end Run

namespace State

def note (state : State) (event : Event) : State :=
  { state with journal := state.journal.note event }

/-- Report an error: queue its diagnostic, and note the error. -/
def report (state : State) (error : EvalError) : State :=
  { state with diagnostics := state.diagnostics.push error.toDiagnostic }.note (.reported error)

end State

end Lantern
