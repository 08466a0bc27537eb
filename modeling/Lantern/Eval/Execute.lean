/-
  Lantern.Eval.Execute — running a program from nothing.

  A fresh state has one root scope with the builtins. A plain run ends at its first
  error; a run of tests reports errors and goes on, so that every test block gets its
  turn. `strayCount` tells how many errors were reported outside of every test: all of
  them, less those some test lists.
-/

import Lantern.Eval.Evaluate

namespace Lantern

def State.withBuiltins : ScopeId × State :=
  let (root, heap) := Heap.empty.addBuiltinRoot
  (root, { State.fresh with heap })

/-- Errors are reported, tests are passed over, and calls nest without a limit. -/
def Settings.lenient : Settings := ⟨.proceed, false, none⟩

/-- How a file is run: up to its first error, or with its tests and to its end. -/
def Settings.ofRun (testMode : Bool) : Settings :=
  ⟨if testMode then .proceed else .abort, testMode, none⟩

def listedCount (outcomes : List TestOutcome) : Nat :=
  (outcomes.map (·.errors.length)).foldr (· + ·) 0

def strayCount (diagnostics : List Diagnostic) (outcomes : List TestOutcome) : Nat :=
  diagnostics.length - listedCount outcomes

structure Execution where
  /-- The value, or the error that ended the run. -/
  result : Except EvalError Value
  /-- What was printed. -/
  output : String
  outcomes : List TestOutcome
  diagnostics : List Diagnostic

namespace Execution

def failedTests (execution : Execution) : Nat := (execution.outcomes.filter (!·.passed)).length

def stray (execution : Execution) : Nat := strayCount execution.diagnostics execution.outcomes

end Execution

def Program.execute (program : Program) (settings : Settings) (fuel : Nat) : Option Execution :=
  let (root, state) := State.withBuiltins
  (evalProgram settings fuel program root state).map fun (result, behind) =>
    ⟨result, behind.console.text, behind.outcomes.toList, behind.diagnostics.toList⟩

end Lantern
