/-
  Lantern.Files.Entry — files and directories, and what a path names among them.

  A path is followed one part at a time. `.` and an empty part stay where they are and
  `..` goes up, but all three ask for a directory; so a path with a slash at its end
  names no file. The empty path names nothing. A path starts at a directory, or at the
  root if a slash comes first; nothing is known of what lies outside of that directory
  but that it is directories, and they are taken to be empty. Names and paths have
  greatest lengths, counted in bytes.
-/

namespace Lantern

mutual

inductive Entry where
  | file (contents : ByteArray)
  | directory (children : List Child)

structure Child where
  name : String
  entry : Entry

end

instance : Inhabited Entry := ⟨.directory []⟩

inductive ReadError where
  /-- Nothing stands at the path. -/
  | notFound
  /-- The path goes on behind a file. -/
  | notADirectory
  | isADirectory
  /-- The path, or a name looked up on the way, is longer than a system takes. -/
  | nameTooLong
  | notText
  deriving DecidableEq, Repr, Inhabited

def ReadError.message : ReadError → String
  | notFound => "No such file or directory (os error 2)"
  | notADirectory => "Not a directory (os error 20)"
  | isADirectory => "Is a directory (os error 21)"
  | nameTooLong => "File name too long (os error 36)"
  | notText => "stream did not contain valid UTF-8"

namespace Entry

def text : Entry → Except ReadError String
  | file contents =>
    match String.fromUTF8? contents with
    | some text => .ok text
    | none => .error .notText
  | directory _ => .error .isADirectory

def child? (children : List Child) (name : String) : Option Entry :=
  (children.find? (·.name == name)).map (·.entry)

/-- What lies outside of the directory that paths start at. -/
def outside : Entry := directory []

def longestName : Nat := 255

def longestPath : Nat := 4095

/-- Follow the parts of a path from `here`, which stands inside `above`, innermost first. -/
def follow (above : List Entry) (here : Entry) : List String → Except ReadError Entry
  | [] => .ok here
  | part :: more =>
    match here with
    | file _ => .error .notADirectory
    | directory children =>
      if part = "" ∨ part = "." then follow above here more
      else if part = ".." then
        match above with
        | outer :: further => follow further outer more
        | [] => follow [] outside more
      else if longestName < part.utf8ByteSize then .error .nameTooLong
      else
        match child? children part with
        | some entry => follow (here :: above) entry more
        | none => .error .notFound

def find (here : Entry) (path : String) : Except ReadError Entry :=
  if longestPath < path.utf8ByteSize then .error .nameTooLong
  else
    match path.toList with
    | [] => .error .notFound
    | '/' :: _ => follow [] outside (path.splitOn "/")
    | _ => follow [] here (path.splitOn "/")

def insert (children : List Child) (parts : List String) (entry : Entry) : List Child :=
  match parts with
  | [] => children
  | [name] => children.filter (·.name != name) ++ [⟨name, entry⟩]
  | name :: more =>
    let inner :=
      match child? children name with
      | some (directory inner) => inner
      | _ => []
    children.filter (·.name != name) ++ [⟨name, directory (insert inner more entry)⟩]

def ofPaths (entries : List (String × Entry)) : Entry :=
  directory (entries.foldl (fun children (path, entry) => insert children (path.splitOn "/") entry) [])

end Entry

end Lantern
