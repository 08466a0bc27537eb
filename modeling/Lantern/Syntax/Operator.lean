/-
  Lantern.Syntax.Operator — the operators between two operands and before one.

  An operator is settled by the kind of its token, so the two spellings of `&&`, `||`
  and `!` are one operator each, and a rendering has one symbol to print.
-/

import Lantern.Token.Kind

namespace Lantern

inductive InfixOp where
  | add
  | sub
  | mul
  | div
  | mod
  | eq
  | notEq
  | lt
  | ltEq
  | gt
  | gtEq
  | and
  | or
  | bitAnd
  | bitOr
  deriving DecidableEq, Repr, Inhabited

namespace InfixOp

def symbol : InfixOp → String
  | add => "+"
  | sub => "-"
  | mul => "*"
  | div => "/"
  | mod => "%"
  | eq => "=="
  | notEq => "!="
  | lt => "<"
  | ltEq => "<="
  | gt => ">"
  | gtEq => ">="
  | and => "&&"
  | or => "||"
  | bitAnd => "&"
  | bitOr => "|"

def name : InfixOp → String
  | add => "Add"
  | sub => "Sub"
  | mul => "Mul"
  | div => "Div"
  | mod => "Mod"
  | eq => "Eq"
  | notEq => "NotEq"
  | lt => "Lt"
  | ltEq => "LtEq"
  | gt => "Gt"
  | gtEq => "GtEq"
  | and => "And"
  | or => "Or"
  | bitAnd => "BitAnd"
  | bitOr => "BitOr"

def all : List InfixOp :=
  [add, sub, mul, div, mod, eq, notEq, lt, ltEq, gt, gtEq, and, or, bitAnd, bitOr]

def ofName? (name : String) : Option InfixOp := all.find? (·.name == name)

def ofKind? : Kind → Option InfixOp
  | .plus => some add
  | .minus => some sub
  | .star => some mul
  | .slash => some div
  | .percent => some mod
  | .eqEq => some eq
  | .notEq => some notEq
  | .lt => some lt
  | .ltEq => some ltEq
  | .gt => some gt
  | .gtEq => some gtEq
  | .andAnd => some and
  | .orOr => some or
  | .amp => some bitAnd
  | .pipe => some bitOr
  | _ => none

/-- The operators that compute a number from two numbers, or join two sequences. -/
def isArithmetic : InfixOp → Bool
  | add | sub | mul | div | mod => true
  | _ => false

end InfixOp

inductive PrefixOp where
  | neg
  | not
  deriving DecidableEq, Repr, Inhabited

namespace PrefixOp

def symbol : PrefixOp → String
  | neg => "-"
  | not => "!"

def name : PrefixOp → String
  | neg => "Neg"
  | not => "Not"

def ofName? (name : String) : Option PrefixOp := [neg, not].find? (·.name == name)

def ofKind? : Kind → Option PrefixOp
  | .minus => some neg
  | .bang => some not
  | _ => none

end PrefixOp

end Lantern
