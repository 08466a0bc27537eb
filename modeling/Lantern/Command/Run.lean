/-
  Lantern.Command.Run — what each command does.

  A command reads at most one path, and what stands there is handed in, as is the input;
  so the report of a command is a function of its arguments and of those two.
-/

import Lantern.Command.Basic
import Lantern.Command.File
import Lantern.Command.Prompt
import Lantern.Command.Test

namespace Lantern.Command

def usageText : String :=
  versionText ++ "\n" ++
  "\n" ++
  "Usage: fener <command> [options]\n" ++
  "\n" ++
  "Commands:\n" ++
  "  run <file.fn>        Run a program\n" ++
  "  repl                 Start an interactive session\n" ++
  "  test [path]          Run test blocks (default: current directory)\n" ++
  "  fmt <file.fn>        Print a file in canonical form\n" ++
  "  parse <file.fn>      Parse and display the syntax tree\n" ++
  "  lex <file.fn>        Tokenize and display tokens\n" ++
  "  explain <code>       Explain an error code (e.g., E2002)\n" ++
  "  help                 Show this help message\n" ++
  "  version              Show version information\n" ++
  "\n" ++
  "Run options:\n" ++
  "  --print-ast          Print the syntax tree before running\n" ++
  "  --test               Run test blocks and report their results\n" ++
  "\n" ++
  "Repl options:\n" ++
  "  --print-ast          Print the syntax tree of every line\n" ++
  "\n" ++
  "Test options:\n" ++
  "  --sequential         Run files one at a time\n" ++
  "  --verbose, -v        Show passing tests and captured output\n" ++
  "\n" ++
  "Logging:\n" ++
  "  RUST_LOG=debug       Enable tracing output on stderr\n" ++
  "  FENER_LOG_TREE=1     Render tracing spans as a tree\n"

def explainCode (text : String) : Report :=
  match Code.parse? text with
  | some code =>
    let phase := if code.isOfSyntax then "syntax error" else "runtime error"
    .success (code.text ++ ": " ++ code.description ++ " (" ++ phase ++ ")\n")
  | none => .failure "" "" (.unknownCode text)

def withSource (path : String) (found : Except ReadError Entry) (use : String → Option Report) :
    Option Report :=
  match readSource path found with
  | .ok source => use source
  | .error why => some (.failure "" "" why)

/-- Carry out a command, given what stands at its path and the whole input. There is no
    report if the fuel is used up. No pool of threads is to be had here. -/
def execute (command : Command) (fuel : Nat) (found : Except ReadError Entry) (input : ByteArray) :
    Option Report :=
  match command with
  | usage => some (.success usageText)
  | version => some (.success (versionText ++ "\n"))
  | run path printTree testMode => withSource path found (runFile fuel path printTree testMode)
  | session printTree => Prompt.play fuel printTree input
  | test path parallel verbose => runTests ⟨parallel, none⟩ fuel path verbose found
  | format path => withSource path found fun source => some (formatFile path source)
  | tree path => withSource path found fun source => some (treeFile path source)
  | tokens path => withSource path found fun source => some (tokensFile path source)
  | explain code => some (explainCode code)

def answer (arguments : List String) (fuel : Nat) (locate : String → Except ReadError Entry)
    (input : ByteArray) :
    Option Report :=
  match parse arguments with
  | .error fault => some (.failure "" "" (.misused fault))
  | .ok command =>
    match command.path? with
    | some path => command.execute fuel (locate path) input
    | none => command.execute fuel (.error .notFound) input

end Lantern.Command
