/-
  Lantern.Eval.Tree — scopes and errors of a run, written out with their parts.

  A scope shows its depth and the names it binds itself, an error the name of its kind;
  a kind can be found by that name again. Either is on one line.
-/

import Lantern.Eval.Error
import Lantern.Value.Tree

namespace Lantern

open Text (Outline)

namespace EvalErrorKind

def name : EvalErrorKind → String
  | unknownNode => "UnknownNode"
  | identifierNotFound => "IdentifierNotFound"
  | typeMismatch => "TypeMismatch"
  | wrongArgCount => "WrongArgCount"
  | notCallable => "NotCallable"
  | fieldOnNonInstance => "FieldOnNonInstance"
  | fieldNotFound => "FieldNotFound"
  | divisionByZero => "DivisionByZero"
  | indexOutOfBounds => "IndexOutOfBounds"
  | assertionFailed => "AssertionFailed"
  | callDepthExceeded => "CallDepthExceeded"

def ofName? (name : String) : Option EvalErrorKind :=
  [unknownNode, identifierNotFound, typeMismatch, wrongArgCount, notCallable, fieldOnNonInstance, fieldNotFound,
   divisionByZero, indexOutOfBounds, assertionFailed, callDepthExceeded].find? (·.name == name)

end EvalErrorKind

def EvalError.dump (error : EvalError) : String :=
  (Outline.record "EvalError"
    [⟨"kind", .atom error.kind.name⟩, ⟨"message", .atom (Text.quoted error.message)⟩,
     ⟨"line", .optional (error.line.map fun line => .atom (toString line))⟩] true).inline

def Heap.dumpScope (heap : Heap) (id : ScopeId) : String :=
  (Outline.record "Environment"
    [⟨"depth", .atom (toString (heap.depth id))⟩, ⟨"locals", quotedNames (heap.bindings id).names⟩] true).inline

end Lantern
