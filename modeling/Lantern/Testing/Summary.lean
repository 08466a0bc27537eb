/-
  Lantern.Testing.Summary — the results of running tests, by file and over all files.

  Besides the outcomes of its tests a file can have errors of its own: it could not be
  read, it has syntax errors, or errors were met outside of its tests. A file with
  either kind of trouble has failures. All counts are taken from the lists.
-/

import Lantern.Eval.Run

namespace Lantern

structure FileSummary where
  path : String
  /-- One outcome for each test, in the order they ended. -/
  results : List TestOutcome
  /-- Troubles that are not a single test failing. -/
  errors : List String
  /-- What the file printed while it ran. -/
  output : String
  deriving DecidableEq, Repr, Inhabited

namespace FileSummary

def empty (path : String) : FileSummary := ⟨path, [], [], ""⟩

def addResult (summary : FileSummary) (outcome : TestOutcome) : FileSummary :=
  { summary with results := summary.results ++ [outcome] }

def addError (summary : FileSummary) (error : String) : FileSummary :=
  { summary with errors := summary.errors ++ [error] }

def passed (summary : FileSummary) : Nat := summary.results.countP (·.passed)

def failed (summary : FileSummary) : Nat := summary.results.countP (!·.passed)

def total (summary : FileSummary) : Nat := summary.passed + summary.failed

def hasFailures (summary : FileSummary) : Bool := 0 < summary.failed || !summary.errors.isEmpty

end FileSummary

structure TestSummary where
  files : List FileSummary
  deriving DecidableEq, Repr, Inhabited

namespace TestSummary

def empty : TestSummary := ⟨[]⟩

def addFile (summary : TestSummary) (file : FileSummary) : TestSummary := ⟨summary.files ++ [file]⟩

def passed (summary : TestSummary) : Nat := (summary.files.map (·.passed)).foldr (· + ·) 0

def failed (summary : TestSummary) : Nat := (summary.files.map (·.failed)).foldr (· + ·) 0

def errorFiles (summary : TestSummary) : Nat := summary.files.countP (!·.errors.isEmpty)

def total (summary : TestSummary) : Nat := summary.passed + summary.failed

def hasFailures (summary : TestSummary) : Bool := 0 < summary.failed || 0 < summary.errorFiles

/-- 0 when everything passed, 1 when something failed, 2 when there was nothing to run. -/
def exitCode (summary : TestSummary) : Nat :=
  if summary.total = 0 ∧ summary.errorFiles = 0 then 2 else if summary.hasFailures then 1 else 0

end TestSummary

end Lantern
