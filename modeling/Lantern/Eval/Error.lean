/-
  Lantern.Eval.Error — errors of a run and their wording.

  An error starts without a line. The innermost statement it passes through gives it its
  own, and later ones leave it (`onLine_onLine`). The wording of every error a run can
  raise is in this module, one function each.
-/

import Lantern.Diagnostic.Basic
import Lantern.Value.Basic

namespace Lantern

inductive EvalErrorKind where
  | unknownNode
  | identifierNotFound
  | typeMismatch
  | wrongArgCount
  | notCallable
  | fieldOnNonInstance
  | fieldNotFound
  | divisionByZero
  | indexOutOfBounds
  | assertionFailed
  | callDepthExceeded
  deriving DecidableEq, Repr, Inhabited

namespace EvalErrorKind

def code : EvalErrorKind → Code
  | unknownNode => .unsupportedNode
  | identifierNotFound => .identifierNotFound
  | typeMismatch => .typeMismatch
  | wrongArgCount => .wrongArgumentCount
  | notCallable => .notCallable
  | fieldOnNonInstance => .fieldOnNonInstance
  | fieldNotFound => .fieldNotFound
  | divisionByZero => .divisionByZero
  | indexOutOfBounds => .indexOutOfBounds
  | assertionFailed => .assertionFailed
  | callDepthExceeded => .callDepthExceeded

end EvalErrorKind

structure EvalError where
  kind : EvalErrorKind
  message : String
  line : Option Nat
  deriving DecidableEq, Repr, Inhabited

namespace EvalError

def code (error : EvalError) : Code := error.kind.code

/-- The error placed on `line`, unless it has a place already. -/
def onLine (error : EvalError) (line : Nat) : EvalError :=
  { error with line := some (error.line.getD line) }

/-- The innermost place wins. -/
theorem onLine_onLine (error : EvalError) (inner outer : Nat) :
    (error.onLine inner).onLine outer = error.onLine inner := rfl

def toDiagnostic (error : EvalError) : Diagnostic := ⟨error.code, error.message, error.line⟩

/-! ## The errors a run raises -/

def notFound (name : String) : EvalError := ⟨.identifierNotFound, "Identifier not found: " ++ name, none⟩

def badOperands (op : InfixOp) (left right : Value) : EvalError :=
  ⟨.typeMismatch,
   "Can't perform infix operation `" ++ op.symbol ++ "` on " ++ left.typeName ++ " and " ++ right.typeName, none⟩

def cannotCompare (left right : Value) : EvalError :=
  ⟨.typeMismatch, "Can't compare expressions " ++ left.typeName ++ " and " ++ right.typeName, none⟩

def cannotNegate (operand : Value) : EvalError :=
  ⟨.typeMismatch, "Can't negate expression " ++ operand.typeName, none⟩

def divisionByZero : EvalError := ⟨.divisionByZero, "Division by zero", none⟩

def modulusByZero : EvalError := ⟨.divisionByZero, "Modulus by zero", none⟩

def argumentCount (expected got : Nat) : EvalError :=
  ⟨.wrongArgCount, "Expected " ++ toString expected ++ " arguments, got " ++ toString got, none⟩

def argumentRange (least most got : Nat) : EvalError :=
  ⟨.wrongArgCount,
   "Expected " ++ toString least ++ " to " ++ toString most ++ " arguments, got " ++ toString got, none⟩

def notCallable (callee : Value) : EvalError := ⟨.notCallable, "Can't call expression " ++ callee.typeName, none⟩

def tooDeep (limit : Nat) : EvalError :=
  ⟨.callDepthExceeded, "Maximum call depth of " ++ toString limit ++ " exceeded", none⟩

def noFields (target : Value) : EvalError :=
  ⟨.fieldOnNonInstance, "Can't access field on " ++ target.typeName, none⟩

def noMember (name className : String) : EvalError :=
  ⟨.fieldNotFound, "No field or method `" ++ name ++ "` on instance of " ++ className, none⟩

def cannotIndex (target position : Value) : EvalError :=
  ⟨.typeMismatch, "Can't index " ++ target.typeName ++ " with " ++ position.typeName, none⟩

def outOfBounds (position : Int64) (length : Nat) : EvalError :=
  ⟨.indexOutOfBounds,
   "Index " ++ toString position.toInt ++ " out of bounds for length " ++ toString length, none⟩

def badArgument (primitive : Builtin) (expected : String) (got : Value) : EvalError :=
  ⟨.typeMismatch, primitive.name ++ " expects " ++ expected ++ ", got " ++ got.typeName, none⟩

def assertionFailed (message : Option String) : EvalError :=
  ⟨.assertionFailed,
   match message with
    | some text => "Assertion failed: " ++ text
    | none => "Assertion failed", none⟩

end EvalError

end Lantern
