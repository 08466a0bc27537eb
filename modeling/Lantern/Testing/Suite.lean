/-
  Lantern.Testing.Suite — running the tests of files.

  Every file gets a state of its own. Its statements run in order, test blocks among
  them, so tests can use what the file defines; errors are reported and do not end the
  run. An error inside a test is that test failing; errors outside of tests make one
  error of the file, with their number. Calls may nest ten thousand deep.

  Files do not see each other, so a pool of threads can run them side by side. Where no
  pool can be had they are run one after the other.
-/

import Lantern.Eval.Execute
import Lantern.Parse.Parsed
import Lantern.Testing.Discovery
import Lantern.Testing.Summary

namespace Lantern

namespace Settings

def testing : Settings := ⟨.proceed, true, some 10000⟩

end Settings

def strayMessage (count : Nat) : String := toString count ++ " runtime error(s) outside test blocks"

def Execution.fileErrors (execution : Execution) : List String :=
  (match execution.result with
    | .ok _ => []
    | .error error => [error.message]) ++
  (if 0 < execution.stray then [strayMessage execution.stray] else [])

def testSource (fuel : Nat) (path source : String) : Option FileSummary :=
  let parsed := parseSource source
  if parsed.hasErrors then some ⟨path, [], parsed.messages, ""⟩
  else
    (parsed.program.execute .testing fuel).map fun execution =>
      ⟨path, execution.outcomes, execution.fileErrors, execution.output⟩

def testAt (fuel : Nat) (path : String) (found : Except ReadError Entry) : Option FileSummary :=
  match found.bind Entry.text with
  | .ok source => testSource fuel path source
  | .error reason => some ((FileSummary.empty path).addError ("Failed to read file: " ++ reason.message))

def testFile (fuel : Nat) (file : String × ByteArray) : Option FileSummary :=
  testAt fuel file.1 (.ok (.file file.2))

def testFiles (fuel : Nat) (files : List (String × ByteArray)) : Option TestSummary :=
  (files.mapM (testFile fuel)).map TestSummary.mk

/-- A pool of threads: given what to do with a file, what that comes to for each of some
    files, unless it does not end. -/
abbrev Pool : Type := (String × ByteArray → Option FileSummary) → List (String × ByteArray) → Option (List FileSummary)

structure TestRunner where
  /-- Whether to run files side by side. -/
  parallel : Bool
  /-- The pool to do so on, if one can be had. -/
  pool : Option Pool

namespace TestRunner

def run (runner : TestRunner) (fuel : Nat) (files : List (String × ByteArray)) :
    Option TestSummary :=
  if runner.parallel then
    match runner.pool with
    | some pool => (pool (testFile fuel) files).map TestSummary.mk
    | none => testFiles fuel files
  else testFiles fuel files

end TestRunner

end Lantern
