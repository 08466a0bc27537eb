/-
  Lantern.Parse.Precedence — how tightly a token binds what stands before it.

  Twelve levels, compared by number. A token that cannot continue an expression has the
  lowest one, so climbing stops at it without asking what it is.
-/

import Lantern.Token.Kind

namespace Lantern

inductive Precedence where
  | lowest
  | assign
  | boolean
  | equality
  | comparison
  | sum
  | product
  | modulus
  | unary
  | field
  | call
  | index
  deriving DecidableEq, Repr, Inhabited

namespace Precedence

def level : Precedence → Nat
  | lowest => 0
  | assign => 1
  | boolean => 2
  | equality => 3
  | comparison => 4
  | sum => 5
  | product => 6
  | modulus => 7
  | unary => 8
  | field => 9
  | call => 10
  | index => 11

def name : Precedence → String
  | lowest => "Lowest"
  | assign => "Assign"
  | boolean => "Boolean"
  | equality => "Equality"
  | comparison => "Comparison"
  | sum => "Sum"
  | product => "Product"
  | modulus => "Modulus"
  | unary => "Prefix"
  | field => "Field"
  | call => "Call"
  | index => "Index"

def all : List Precedence :=
  [lowest, assign, boolean, equality, comparison, sum, product, modulus, unary, field, call, index]

def ofName? (name : String) : Option Precedence := all.find? (·.name == name)

/-- The level of a token behind an operand. -/
def of : Kind → Precedence
  | .assign => assign
  | .andAnd | .orOr | .amp | .pipe => boolean
  | .eqEq | .notEq => equality
  | .lt | .gt | .ltEq | .gtEq => comparison
  | .plus | .minus => sum
  | .star | .slash => product
  | .percent => modulus
  | .dot => field
  | .lparen => call
  | .lbracket => index
  | _ => lowest

def below (a b : Precedence) : Bool := a.level < b.level

end Precedence

end Lantern
