/-
  Lantern.Diagnostic.Basic — a reportable error, and the queue errors are collected in.

  A diagnostic is a code, a message and, where it is known, the line the trouble was
  found on. The queue keeps the order in which they were reported.
-/

import Lantern.Diagnostic.Code

namespace Lantern

structure Diagnostic where
  code : Code
  message : String
  line : Option Nat
  deriving DecidableEq, Repr, Inhabited

namespace Diagnostic

/-- The form without a place: `error[E2002]: Identifier not found: x`. -/
def text (diagnostic : Diagnostic) : String :=
  "error[" ++ diagnostic.code.text ++ "]: " ++ diagnostic.message

structure Queue where
  items : Array Diagnostic
  deriving DecidableEq, Repr, Inhabited

namespace Queue

def empty : Queue := ⟨#[]⟩

def push (queue : Queue) (diagnostic : Diagnostic) : Queue := ⟨queue.items.push diagnostic⟩

def extend (queue : Queue) (more : List Diagnostic) : Queue := more.foldl push queue

def length (queue : Queue) : Nat := queue.items.size

def isEmpty (queue : Queue) : Bool := queue.items.isEmpty

def toList (queue : Queue) : List Diagnostic := queue.items.toList

def since (queue : Queue) (count : Nat) : List Diagnostic := queue.toList.drop count

def flush (queue : Queue) : List Diagnostic × Queue := (queue.toList, empty)

@[simp] theorem toList_push (queue : Queue) (diagnostic : Diagnostic) :
    (queue.push diagnostic).toList = queue.toList ++ [diagnostic] := by
  simp [push, toList]

/-- What came behind all that was there before. -/
theorem since_of_append {queue before : Queue} {more : List Diagnostic}
    (grown : queue.toList = before.toList ++ more) :
    queue.since before.length = more := by
  rw [since, grown]
  exact List.drop_left

end Queue

end Diagnostic

end Lantern
