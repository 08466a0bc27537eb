/-
  Lantern.Command.File — the commands on one source file: run it, print it in canonical
  form, and show its tree or its tokens.

  Running and printing refuse a file with syntax errors and list them all; the two that
  show the inside of a file show what there is.
-/

import Lantern.Command.Report
import Lantern.Diagnostic.Terminal
import Lantern.Eval.Execute
import Lantern.Parse.Parsed
import Lantern.Syntax.Tree

namespace Lantern

def Terminal.ofPath (path : String) : Terminal := ⟨false, some path⟩

namespace Command

def rejected (path : String) (parsed : Parsed) : Report :=
  .failure "" ((Terminal.ofPath path).report parsed.diagnostics) .reported

def testLines (outcome : TestOutcome) : String :=
  "test " ++ outcome.label ++ " ... " ++ (if outcome.passed then "ok" else "FAILED") ++ "\n" ++
    String.join (outcome.errors.map fun error => "    " ++ error ++ "\n")

/-- The report on a run. Errors outside of tests are reported together with those inside. -/
def executed (path : String) (testMode : Bool) (tree : String) (execution : Execution) : Report :=
  let terminal := Terminal.ofPath path
  match execution.result with
  | .error error => .failure (tree ++ execution.output) (terminal.report [error.toDiagnostic]) .reported
  | .ok _ =>
    if testMode then
      let output := tree ++ execution.output ++ String.join (execution.outcomes.map testLines)
      let errors := if 0 < execution.stray then terminal.report execution.diagnostics else ""
      if 0 < execution.failedTests ∨ 0 < execution.stray then .failure output errors .reported
      else .success output
    else .success (tree ++ execution.output)

def runFile (fuel : Nat) (path : String) (printTree testMode : Bool) (source : String) :
    Option Report :=
  let parsed := parseSource source
  if parsed.hasErrors then some (rejected path parsed)
  else
    let tree := if printTree then parsed.program.dump ++ "\n" else ""
    (parsed.program.execute (.ofRun testMode) fuel).map (executed path testMode tree)

def formatFile (path source : String) : Report :=
  let parsed := parseSource source
  if parsed.hasErrors then rejected path parsed else .success (parsed.program.render ++ "\n")

def treeFile (path source : String) : Report :=
  let parsed := parseSource source
  let statements := parsed.program.statements
  let functions := statements.countP fun | .function _ => true | _ => false
  let classes := statements.countP fun | .classDefinition .. => true | _ => false
  let tests := statements.countP fun | .test .. => true | _ => false
  .success <|
    "Parse result for '" ++ path ++ "':\n" ++
    "  Statements: " ++ toString statements.length ++ "\n" ++
    "  Functions: " ++ toString functions ++ "\n" ++
    "  Classes: " ++ toString classes ++ "\n" ++
    "  Tests: " ++ toString tests ++ "\n" ++
    "  Errors: " ++ toString parsed.errors.length ++ "\n" ++
    (if parsed.program.isEmpty then "" else "\n" ++ parsed.program.dump ++ "\n") ++
    (if parsed.errors.isEmpty then "" else
      "\nErrors:\n" ++
        String.join (parsed.errors.map fun error => "  [" ++ error.code.text ++ "] " ++ error.text ++ "\n"))

def tokenLine (token : Token) : String :=
  "  " ++ token.kind.name ++ " " ++ Text.quoted token.text ++ " @ line " ++ toString token.line ++ "\n"

def tokensFile (path source : String) : Report :=
  let tokens := (scan source).toList
  .success ("Tokens for '" ++ path ++ "' (" ++ toString tokens.length ++ " tokens):\n" ++
    String.join (tokens.map tokenLine))

end Command

end Lantern
