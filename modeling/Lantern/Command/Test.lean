/-
  Lantern.Command.Test — running tests from the command line, and the summary of it.

  A file is mentioned if a test in it ran or it has errors of its own. Tests that passed
  and what the file printed are shown only on request.
-/

import Lantern.Command.Report
import Lantern.Testing.Suite
import Lantern.Text.Lines

namespace Lantern.Command

/-- The lines on one test: nothing for one that passed, unless asked for. -/
def resultLines (verbose : Bool) (outcome : TestOutcome) : String :=
  if outcome.passed then if verbose then "  PASS " ++ outcome.label ++ "\n" else ""
  else "  FAIL " ++ outcome.label ++ "\n" ++ String.join (outcome.errors.map fun error => "      " ++ error ++ "\n")

def fileLines (verbose : Bool) (file : FileSummary) : String :=
  if file.results.isEmpty && file.errors.isEmpty then ""
  else
    file.path ++ ":\n" ++
    String.join (file.errors.map fun error => "  ERROR: " ++ error ++ "\n") ++
    (if verbose then String.join ((Text.lines file.output).map fun line => "  | " ++ line ++ "\n") else "") ++
    String.join (file.results.map (resultLines verbose))

def verdict (summary : TestSummary) : String :=
  if summary.hasFailures then "FAILED" else if summary.total = 0 then "No tests found" else "OK"

def summaryText (verbose : Bool) (summary : TestSummary) (elapsed : String) : String :=
  String.join (summary.files.map (fileLines verbose)) ++
  "\nTest Summary:\n" ++
  "  " ++ toString summary.passed ++ " passed, " ++ toString summary.failed ++ " failed (" ++
    toString summary.files.length ++ " files, " ++ elapsed ++ ")\n" ++
  "\n" ++ verdict summary ++ "\n"

def runTests (runner : TestRunner) (fuel : Nat) (path : String) (verbose : Bool)
    (found : Except ReadError Entry) :
    Option Report :=
  match found with
  | .error _ => some (.failure "" "" (.notFound path))
  | .ok entry =>
    (runner.run fuel (discoverAt path entry)).map fun summary =>
      ⟨summaryText verbose summary, "", if summary.hasFailures then 1 else 0⟩

end Lantern.Command
