/-
  Lantern.Command.Basic — the commands of the command line, and how they are written.

  `parse` reads the arguments behind the name of the program. A first argument that is
  no command but ends like a source file runs that file. Of several faults in the
  arguments the first one counts.
-/

import Lantern.Testing.Discovery

namespace Lantern

inductive Command where
  /-- Show how the program is used. -/
  | usage
  | version
  /-- Run a file, first showing its tree if asked to, with its tests if asked to. -/
  | run (path : String) (printTree testMode : Bool)
  /-- Start an interactive session. -/
  | session (printTree : Bool)
  /-- Run the tests below a path, files side by side unless asked not to, showing what
      passed too if asked to. -/
  | test (path : String) (parallel verbose : Bool)
  /-- Print a file in canonical form. -/
  | format (path : String)
  /-- Show the tree of a file. -/
  | tree (path : String)
  /-- Show the tokens of a file. -/
  | tokens (path : String)
  /-- Say what an error code stands for. -/
  | explain (code : String)
  deriving DecidableEq, Repr, Inhabited

namespace Command

def path? : Command → Option String
  | run path _ _ | test path _ _ | format path | tree path | tokens path => some path
  | usage | version | session _ | explain _ => none

def looksBelow : Command → Bool
  | test .. => true
  | _ => false

/-! ## Faults in the arguments -/

def unknownOption (option : String) : String := "unknown option '" ++ option ++ "'"

def unexpectedArgument (argument : String) : String := "unexpected argument '" ++ argument ++ "'"

def missing (what : String) : String := "missing " ++ what

def unknownCommand (name : String) : String := "unknown command '" ++ name ++ "'"

/-! ## Reading arguments -/

def single (what : String) : List String → Except String String
  | [argument] => .ok argument
  | [] => .error (missing what)
  | _ :: extra :: _ => .error (unexpectedArgument extra)

def runArguments (printTree testMode : Bool) (path : Option String) :
    List String → Except String Command
  | [] =>
    match path with
    | some path => .ok (run path printTree testMode)
    | none => .error (missing "file path")
  | argument :: more =>
    if argument = "--print-ast" then runArguments true testMode path more
    else if argument = "--test" then runArguments printTree true path more
    else if argument.startsWith "-" then .error (unknownOption argument)
    else if path.isNone then runArguments printTree testMode (some argument) more
    else .error (unexpectedArgument argument)

def sessionArguments (printTree : Bool) : List String → Except String Command
  | [] => .ok (session printTree)
  | argument :: more =>
    if argument = "--print-ast" then sessionArguments true more else .error (unknownOption argument)

def testArguments (parallel verbose : Bool) (path : Option String) :
    List String → Except String Command
  | [] => .ok (test (path.getD ".") parallel verbose)
  | argument :: more =>
    if argument = "--sequential" then testArguments false verbose path more
    else if argument = "--verbose" ∨ argument = "-v" then testArguments parallel true path more
    else if argument.startsWith "-" then .error (unknownOption argument)
    else if path.isNone then testArguments parallel verbose (some argument) more
    else .error (unexpectedArgument argument)

def parse (arguments : List String) : Except String Command :=
  match arguments with
  | [] => .ok usage
  | name :: rest =>
    if name = "run" then runArguments false false none rest
    else if name = "repl" then sessionArguments false rest
    else if name = "test" then testArguments true false none rest
    else if name = "fmt" then (single "file path" rest).map format
    else if name = "parse" then (single "file path" rest).map tree
    else if name = "lex" then (single "file path" rest).map tokens
    else if name = "explain" ∨ name = "--explain" then (single "error code" rest).map explain
    else if name = "help" ∨ name = "--help" ∨ name = "-h" then .ok usage
    else if name = "version" ∨ name = "--version" ∨ name = "-V" then .ok version
    else if name.endsWith ("." ++ sourceExtension) then .ok (run name false false)
    else .error (unknownCommand name)

end Command

end Lantern
