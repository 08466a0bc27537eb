/-
  Lantern.Diagnostic.Terminal — diagnostics as a terminal shows them.

  A diagnostic is its short form on one line and, where its line is known, an arrow to
  the place on the next: the file and line, or the line alone for source without a name.
  A summary closes the list. The word `error`, the code and the place are painted when
  colours are on.
-/

import Lantern.Diagnostic.Basic

namespace Lantern

inductive ColorMode where
  /-- If the output is a terminal. -/
  | auto
  | always
  | never
  deriving DecidableEq, Repr, Inhabited

def ColorMode.paints (mode : ColorMode) (isTerminal : Bool) : Bool :=
  match mode with
  | auto => isTerminal
  | always => true
  | never => false

structure Terminal where
  colors : Bool
  path : Option String
  deriving DecidableEq, Repr

namespace Terminal

def red : String := "\x1b[1;31m"
def bold : String := "\x1b[1m"
def blue : String := "\x1b[1;34m"
def plain : String := "\x1b[0m"

def paint (terminal : Terminal) (color text : String) : String :=
  if terminal.colors then color ++ text ++ plain else text

def place (terminal : Terminal) (line : Nat) : String :=
  match terminal.path with
  | some path => path ++ ":" ++ toString line
  | none => "line " ++ toString line

def entry (terminal : Terminal) (diagnostic : Diagnostic) : String :=
  terminal.paint red "error" ++ terminal.paint bold ("[" ++ diagnostic.code.text ++ "]") ++ ": " ++
    diagnostic.message ++ "\n" ++
    match diagnostic.line with
    | some line => "  --> " ++ terminal.paint blue (terminal.place line) ++ "\n"
    | none => ""

def entries (terminal : Terminal) (diagnostics : List Diagnostic) : String :=
  String.join (diagnostics.map terminal.entry)

def summary (terminal : Terminal) (count : Nat) : String :=
  match count with
  | 0 => ""
  | 1 => terminal.paint red "error" ++ ": aborting due to previous error\n"
  | _ => terminal.paint red "error" ++ ": aborting due to " ++ toString count ++ " previous errors\n"

def report (terminal : Terminal) (diagnostics : List Diagnostic) : String :=
  terminal.entries diagnostics ++ terminal.summary diagnostics.length

end Terminal

end Lantern
