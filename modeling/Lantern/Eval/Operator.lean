/-
  Lantern.Eval.Operator — what operators and indexing compute.

  Operands are values already, so `&&` and `||` look at both. Integers are 64 bits wide
  and wrap; division goes towards zero, and by zero it is an error. `+` joins two
  strings or two arrays. `&` and `|` work on the bits of two integers and on the truth
  of anything else.
-/

import Lantern.Eval.Error

namespace Lantern

namespace InfixOp

def onIntegers (op : InfixOp) (a b : Int64) : Except EvalError Value :=
  match op with
  | add => .ok (.integer (a + b))
  | sub => .ok (.integer (a - b))
  | mul => .ok (.integer (a * b))
  | div => if b = 0 then .error .divisionByZero else .ok (.integer (a / b))
  | mod => if b = 0 then .error .modulusByZero else .ok (.integer (a % b))
  | _ => .error (.badOperands op (.integer a) (.integer b))

def arithmetic (op : InfixOp) (left right : Value) : Except EvalError Value :=
  match left, right with
  | .integer a, .integer b => op.onIntegers a b
  | .string a, .string b => if op = add then .ok (.string (a ++ b)) else .error (.badOperands op left right)
  | .array a, .array b => if op = add then .ok (.array (a ++ b)) else .error (.badOperands op left right)
  | _, _ => .error (.badOperands op left right)

def compare (holds : Int64 → Int64 → Bool) (left right : Value) : Except EvalError Value :=
  match left, right with
  | .integer a, .integer b => .ok (.boolean (holds a b))
  | _, _ => .error (.cannotCompare left right)

/-- `&` and `|`: on the bits of two integers, on the truth of anything else. -/
def bitwise (onBits : Int64 → Int64 → Int64) (onTruth : Bool → Bool → Bool) (left right : Value) :
    Value :=
  match left, right with
  | .integer a, .integer b => .integer (onBits a b)
  | _, _ => .boolean (onTruth left.isTruthy right.isTruthy)

def apply (op : InfixOp) (left right : Value) : Except EvalError Value :=
  match op with
  | add | sub | mul | div | mod => op.arithmetic left right
  | eq => .ok (.boolean (left.equals right))
  | notEq => .ok (.boolean (!left.equals right))
  | lt => compare (fun a b => a < b) left right
  | ltEq => compare (fun a b => a ≤ b) left right
  | gt => compare (fun a b => b < a) left right
  | gtEq => compare (fun a b => b ≤ a) left right
  | and => .ok (.boolean (left.isTruthy && right.isTruthy))
  | or => .ok (.boolean (left.isTruthy || right.isTruthy))
  | bitAnd => .ok (bitwise (· &&& ·) (· && ·) left right)
  | bitOr => .ok (bitwise (· ||| ·) (· || ·) left right)

end InfixOp

def PrefixOp.apply (op : PrefixOp) (operand : Value) : Except EvalError Value :=
  match op, operand with
  | neg, .integer number => .ok (.integer (-number))
  | neg, other => .error (.cannotNegate other)
  | not, other => .ok (.boolean (!other.isTruthy))

namespace Value

/-- The element of a sequence at a position counted from zero; a negative position is
    outside. -/
def element? {α : Type} (items : List α) (position : Int64) : Option α :=
  if position < 0 then none else items[position.toInt.toNat]?

def index (target position : Value) : Except EvalError Value :=
  match position with
  | integer i =>
    match target with
    | array items =>
      match element? items i with
      | some item => .ok item
      | none => .error (.outOfBounds i items.length)
    | string text =>
      match element? text.toList i with
      | some c => .ok (string (String.singleton c))
      | none => .error (.outOfBounds i text.length)
    | other => .error (.cannotIndex other position)
  | other => .error (.cannotIndex target other)

end Value

end Lantern
