/-
  Lantern.Main — the program.

  It reads what stands at the path a command names, hands it to the command, and writes
  the report. A session is driven line by line, so that each answer is seen before the
  next line is typed.
-/

import Lantern.Command.Run
import Lantern.Text.Decimal

namespace Lantern.Main

/-- What stands at a path, read from the system. What stands in a directory is read if
    `below` holds. -/
partial def load (path : String) (below : Bool) : IO (Except ReadError Entry) := do
  if path.isEmpty then return .error .notFound
  let place := (← IO.currentDir) / path
  if ← place.isDir then
    if !below then return .ok (.directory [])
    let mut children : List Child := []
    for entry in ← place.readDir do
      match ← load (joinPath place.toString entry.fileName) below with
      | .ok found => children := ⟨entry.fileName, found⟩ :: children
      | .error _ => pure ()
    return .ok (.directory children)
  try
    return .ok (.file (← IO.FS.readBinFile place))
  catch
    | .inappropriateType .. => return .error .notADirectory
    | .invalidArgument .. => return .error .nameTooLong
    | _ => return .error .notFound

partial def converse (session : Session) : IO UInt32 := do
  let output ← IO.getStdout
  output.putStr Prompt.prompt
  output.flush
  let line ← (← IO.getStdin).getLine
  if line.isEmpty then
    output.putStrLn ""
    return 0
  match Prompt.take session plenty line with
  | none => return 1
  | some turn =>
    output.putStr turn.output
    (← IO.getStderr).putStr turn.errors
    match turn.next with
    | some next => converse next
    | none => return 0

def carryOut (arguments : List String) (path : Option String) (below : Bool) : IO UInt32 := do
  let started ← IO.monoNanosNow
  let found ← match path with
    | some path => load path below
    | none => pure (.error .notFound)
  match Command.answer arguments plenty (fun _ => found) .empty with
  | none => return 1
  | some report =>
    (← IO.getStderr).putStr report.errors
    let ended ← IO.monoNanosNow
    (← IO.getStdout).putStr (report.output (Text.duration (ended - started)))
    return report.code.toUInt32

end Lantern.Main

def main (arguments : List String) : IO UInt32 := do
  match Lantern.Command.parse arguments with
  | .ok (.session printTree) =>
    (← IO.getStdout).putStr Lantern.Prompt.banner
    Lantern.Main.converse (.start printTree)
  | .ok command => Lantern.Main.carryOut arguments command.path? command.looksBelow
  | .error _ => Lantern.Main.carryOut arguments none false
