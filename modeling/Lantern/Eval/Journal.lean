/-
  Lantern.Eval.Journal — what happened during a run, in order.

  A journal notes every error that is reported, and where the bodies of tests and of
  functions begin and end, so it shows what was being run at each moment. Nothing is
  struck out of it: taking the diagnostics of a run out of their queue leaves the
  journal as it was.
-/

import Lantern.Eval.Error

namespace Lantern

inductive Event where
  | reported (error : EvalError)
  /-- The body of a test begins. -/
  | testBegins
  /-- It ends, in whatever way. -/
  | testEnds
  /-- The body of a function begins. -/
  | callBegins
  /-- It ends, in whatever way. -/
  | callEnds
  deriving DecidableEq, Repr, Inhabited

def Event.error? : Event → Option EvalError
  | reported error => some error
  | _ => none

structure Journal where
  events : Array Event
  deriving DecidableEq, Repr, Inhabited

namespace Journal

def empty : Journal := ⟨#[]⟩

def note (journal : Journal) (event : Event) : Journal := ⟨journal.events.push event⟩

def toList (journal : Journal) : List Event := journal.events.toList

def errors (journal : Journal) : List EvalError := journal.toList.filterMap Event.error?

@[simp] theorem toList_note (journal : Journal) (event : Event) :
    (journal.note event).toList = journal.toList ++ [event] := by
  simp [note, toList]

theorem errors_note (journal : Journal) (event : Event) :
    (journal.note event).errors = journal.errors ++ event.error?.toList := by
  cases event <;> simp [errors, Event.error?]

end Journal

end Lantern
