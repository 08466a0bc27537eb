/-
  Lantern.Testing.Discovery — the source files below a directory.

  Every file with the extension of sources counts. Names that start with a point are
  passed over, files and directories alike, and so are directories called `target`; the
  directory the search starts at may be called anything. The files come in the order of
  their paths, compared part by part, so the order does not hang on how a directory
  lists its entries.
-/

import Lantern.Files.Entry

namespace Lantern

/-- A source file found: its path below the start, part by part, and what it holds. -/
structure Source where
  parts : List String
  contents : ByteArray

def sourceExtension : String := "fn"

/-- Whether a file of this name is a source. A name that is nothing but the extension
    has none. -/
def isSourceName (name : String) : Bool :=
  name.endsWith ("." ++ sourceExtension) && name != "." ++ sourceExtension

def isHidden (name : String) : Bool := name.startsWith "."

/-- The order of paths: part by part, a path before its extensions. -/
def pathLe : List String → List String → Bool
  | [], _ => true
  | _ :: _, [] => false
  | a :: as, b :: bs => a < b || (a == b && pathLe as bs)

namespace Source

def below (name : String) (source : Source) : Source :=
  { source with parts := name :: source.parts }

def listed : List Child → List Source
  | [] => []
  | ⟨name, .file contents⟩ :: more =>
    if !isHidden name && isSourceName name then ⟨[name], contents⟩ :: listed more else listed more
  | ⟨name, .directory children⟩ :: more =>
    if isHidden name || name == "target" then listed more
    else (listed children).map (below name) ++ listed more
termination_by children => children
decreasing_by
  all_goals
    simp only [List.cons.sizeOf_spec, Child.mk.sizeOf_spec, Entry.directory.sizeOf_spec]
    omega

def discover (children : List Child) : List Source :=
  (listed children).mergeSort fun a b => pathLe a.parts b.parts

end Source

def joinPath (path name : String) : String :=
  if path = "" || path.endsWith "/" then path ++ name else path ++ "/" ++ name

def fileName (path : String) : String := (path.splitOn "/").getLastD ""

/-- The source files at `path`, each with its own path: those below it if it is a
    directory, or else the file itself if it is a source. -/
def discoverAt (path : String) : Entry → List (String × ByteArray)
  | .file contents => if isSourceName (fileName path) then [(path, contents)] else []
  | .directory children =>
    (Source.discover children).map fun source => (source.parts.foldl joinPath path, source.contents)

end Lantern
