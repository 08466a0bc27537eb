/-
  Lantern.Diagnostic.Code — the codes errors are published under.

  A code is an E and four digits. The first digit tells the phase: 1 for errors of
  syntax, found while parsing, 2 for errors of a run. `parse?` reads a code in either
  case with white space around it.
-/

import Lantern.Text.Lines

namespace Lantern

inductive Code where
  | unexpectedToken
  | expressionExpected
  | integerOutOfRange
  | identifierExpected
  | stringExpected
  | invalidAssignmentTarget
  | unsupportedNode
  | identifierNotFound
  | typeMismatch
  | wrongArgumentCount
  | notCallable
  | fieldOnNonInstance
  | fieldNotFound
  | divisionByZero
  | indexOutOfBounds
  | assertionFailed
  | callDepthExceeded
  deriving DecidableEq, Repr, Inhabited

namespace Code

def text : Code → String
  | unexpectedToken => "E1001"
  | expressionExpected => "E1002"
  | integerOutOfRange => "E1003"
  | identifierExpected => "E1004"
  | stringExpected => "E1005"
  | invalidAssignmentTarget => "E1006"
  | unsupportedNode => "E2001"
  | identifierNotFound => "E2002"
  | typeMismatch => "E2003"
  | wrongArgumentCount => "E2004"
  | notCallable => "E2005"
  | fieldOnNonInstance => "E2006"
  | fieldNotFound => "E2007"
  | divisionByZero => "E2008"
  | indexOutOfBounds => "E2009"
  | assertionFailed => "E2010"
  | callDepthExceeded => "E2011"

def description : Code → String
  | unexpectedToken => "unexpected token"
  | expressionExpected => "expression expected"
  | integerOutOfRange => "integer literal out of range"
  | identifierExpected => "identifier expected"
  | stringExpected => "string expected"
  | invalidAssignmentTarget => "invalid assignment target"
  | unsupportedNode => "unsupported node"
  | identifierNotFound => "identifier not found"
  | typeMismatch => "type mismatch"
  | wrongArgumentCount => "wrong number of arguments"
  | notCallable => "value is not callable"
  | fieldOnNonInstance => "field access on a non-instance"
  | fieldNotFound => "field or method not found"
  | divisionByZero => "division by zero"
  | indexOutOfBounds => "index out of bounds"
  | assertionFailed => "assertion failed"
  | callDepthExceeded => "call depth limit exceeded"

def all : List Code :=
  [unexpectedToken, expressionExpected, integerOutOfRange, identifierExpected, stringExpected,
   invalidAssignmentTarget, unsupportedNode, identifierNotFound, typeMismatch, wrongArgumentCount, notCallable,
   fieldOnNonInstance, fieldNotFound, divisionByZero, indexOutOfBounds, assertionFailed, callDepthExceeded]

def isOfSyntax : Code → Bool
  | unexpectedToken | expressionExpected | integerOutOfRange | identifierExpected | stringExpected
  | invalidAssignmentTarget => true
  | _ => false

/-- The code `text` names. Only ASCII letters have two cases. -/
def parse? (text : String) : Option Code :=
  let wanted := (Text.trimmed text).toList.map Char.toUpper
  all.find? fun code => code.text.toList == wanted

end Code

end Lantern
