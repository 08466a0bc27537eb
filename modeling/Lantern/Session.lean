/-
  Lantern.Session — an interactive session.

  A session keeps one root scope over all its lines. A line is a command that starts
  with a colon, or a program; a program with syntax errors is not run, and an error in a
  run leaves everything bound before it in place. A line is shown as the errors it met
  and the value it came to, unless that is `null`.
-/

import Lantern.Eval.Execute
import Lantern.Parse.Parsed
import Lantern.Syntax.Tree
import Lantern.Text.Lines

namespace Lantern

inductive Shown where
  | output (text : String)
  | error (text : String)
  deriving DecidableEq, Repr

inductive Reaction where
  | proceed (shown : List Shown)
  | quit
  deriving DecidableEq, Repr

structure Session where
  root : ScopeId
  state : State
  /-- Whether the tree of each program is shown before it runs. -/
  printTree : Bool
  deriving Inhabited

namespace Session

def help : String :=
  "Enter fener statements to evaluate them.\n" ++
  "  :help   show this message\n" ++
  "  :quit   leave the REPL (Ctrl-D works too)"

def start (printTree : Bool) : Session :=
  let (root, state) := State.withBuiltins
  ⟨root, state, printTree⟩

def echo : Except EvalError Value → List Shown
  | .ok value => if value.isNull then [] else [.output value.inspect]
  | .error _ => []

/-- Run a program without syntax errors. The errors it met are taken out of the state. -/
def run (session : Session) (fuel : Nat) (program : Program) : Option (List Shown × Session) :=
  (evalProgram .lenient fuel program session.root session.state).map fun (result, behind) =>
    let (diagnostics, emptied) := behind.diagnostics.flush
    let tree := if session.printTree then [Shown.output program.dump] else []
    (tree ++ diagnostics.map (fun diagnostic => .error diagnostic.text) ++ echo result,
     { session with state := { behind with diagnostics := emptied } })

/-- Take a line. There is no answer if the fuel is used up. -/
def line (session : Session) (fuel : Nat) (text : String) : Option (Reaction × Session) :=
  let word := Text.trimmed text
  if word = ":quit" ∨ word = ":q" then some (.quit, session)
  else if word = ":help" ∨ word = ":h" then some (.proceed [.output help], session)
  else if word = "" then some (.proceed [], session)
  else
    let parsed := parseSource text
    if parsed.hasErrors then some (.proceed (parsed.messages.map .error), session)
    else (session.run fuel parsed.program).map fun (shown, behind) => (.proceed shown, behind)

end Session

end Lantern
