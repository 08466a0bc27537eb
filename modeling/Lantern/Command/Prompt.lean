/-
  Lantern.Command.Prompt — an interactive session over streams of bytes.

  The session prompts, reads a line and shows what it came to, until a line asks to quit
  or the input ends; then the prompt gets a line end. Bytes that are not text end it
  badly. `Prompt.take` is one turn, which a terminal can drive; `Prompt.takeAll` plays a
  whole input.
-/

import Lantern.Command.Report
import Lantern.Session
import Lantern.Text.Lines

namespace Lantern

def versionText : String := "fener 0.1.0-alpha.8"

namespace Prompt

def banner : String := versionText ++ " (type :help for help)\n"

def prompt : String := ">> "

structure Turn where
  output : String
  errors : String
  next : Option Session

def outputOf (shown : List Shown) : String :=
  String.join (shown.map fun | .output text => text ++ "\n" | .error _ => "")

def errorsOf (shown : List Shown) : String :=
  String.join (shown.map fun | .error text => text ++ "\n" | .output _ => "")

/-- Take one line of input. What the line prints comes before what it is shown as. -/
def take (session : Session) (fuel : Nat) (text : String) : Option Turn :=
  (session.line fuel text).map fun
    | (.quit, _) => ⟨"", "", none⟩
    | (.proceed shown, behind) =>
      let (printed, console) := behind.state.console.take
      ⟨printed ++ outputOf shown, errorsOf shown, some { behind with state := { behind.state with console } }⟩

def takeAll (session : Session) (fuel : Nat) (output errors : String) :
    List (List UInt8) → Option Report
  | [] => some ⟨fun _ => output ++ prompt ++ "\n", errors, 0⟩
  | line :: more =>
    match String.fromUTF8? ⟨line.toArray⟩ with
    | none => some (.failure (output ++ prompt) errors (.unreadable "<stdin>" .notText))
    | some text =>
      match take session fuel text with
      | none => none
      | some ⟨shown, wrong, none⟩ => some ⟨fun _ => output ++ prompt ++ shown, errors ++ wrong, 0⟩
      | some ⟨shown, wrong, some next⟩ => takeAll next fuel (output ++ prompt ++ shown) (errors ++ wrong) more

def play (fuel : Nat) (printTree : Bool) (input : ByteArray) : Option Report :=
  takeAll (.start printTree) fuel banner "" (Text.cutAfter (· == 10) input.data.toList)

end Prompt

end Lantern
