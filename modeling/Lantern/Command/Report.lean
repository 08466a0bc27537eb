/-
  Lantern.Command.Report — what a command leaves behind.

  A command writes to the output and to the error output, and ends well or badly. Only
  one thing in it is not settled by the input: how long the tests took. So the output is
  a function of that.
-/

import Lantern.Files.Entry

namespace Lantern

inductive Failure where
  | notFound (path : String)
  | unreadable (path : String) (reason : ReadError)
  | unknownCode (text : String)
  /-- The arguments are at fault. -/
  | misused (fault : String)
  /-- Errors that have been written out already. -/
  | reported
  deriving DecidableEq, Repr

def Failure.text : Failure → String
  | notFound path => "error: cannot find file '" ++ path ++ "'\n"
  | unreadable path reason => "error: error reading '" ++ path ++ "': " ++ reason.message ++ "\n"
  | unknownCode text => "error: unknown error code: " ++ text ++ "\n"
  | misused fault => "error: " ++ fault ++ "\n\nRun 'fener help' for usage.\n"
  | reported => ""

structure Report where
  /-- The output, given how long the run took. -/
  output : String → String
  errors : String
  code : Nat

namespace Report

def success (output : String) : Report := ⟨fun _ => output, "", 0⟩

def failure (output errors : String) (why : Failure) : Report :=
  ⟨fun _ => output, errors ++ why.text, 1⟩

end Report

def readSource (path : String) (found : Except ReadError Entry) : Except Failure String :=
  match found.bind Entry.text with
  | .ok text => .ok text
  | .error .notFound => .error (.notFound path)
  | .error reason => .error (.unreadable path reason)

end Lantern
