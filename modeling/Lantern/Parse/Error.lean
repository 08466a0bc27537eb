/-
  Lantern.Parse.Error — syntax errors and their wording.

  A syntax error always has a line: that of the token it is about. The wording of every
  error the parser records is in this module, one function each.
-/

import Lantern.Diagnostic.Basic
import Lantern.Syntax.Render

namespace Lantern

inductive ParseErrorKind where
  | unexpectedToken
  | noPrefixParser
  | invalidInteger
  | expectedIdentifier
  | expectedString
  | invalidAssignmentTarget
  deriving DecidableEq, Repr, Inhabited

namespace ParseErrorKind

def name : ParseErrorKind → String
  | unexpectedToken => "UnexpectedToken"
  | noPrefixParser => "NoPrefixParser"
  | invalidInteger => "InvalidInteger"
  | expectedIdentifier => "ExpectedIdentifier"
  | expectedString => "ExpectedString"
  | invalidAssignmentTarget => "InvalidAssignmentTarget"

def ofName? (name : String) : Option ParseErrorKind :=
  [unexpectedToken, noPrefixParser, invalidInteger, expectedIdentifier, expectedString,
   invalidAssignmentTarget].find? (·.name == name)

def code : ParseErrorKind → Code
  | unexpectedToken => .unexpectedToken
  | noPrefixParser => .expressionExpected
  | invalidInteger => .integerOutOfRange
  | expectedIdentifier => .identifierExpected
  | expectedString => .stringExpected
  | invalidAssignmentTarget => .invalidAssignmentTarget

end ParseErrorKind

structure ParseError where
  kind : ParseErrorKind
  message : String
  line : Nat
  deriving DecidableEq, Repr, Inhabited

namespace ParseError

def code (error : ParseError) : Code := error.kind.code

def text (error : ParseError) : String := "line " ++ toString error.line ++ ": " ++ error.message

def toDiagnostic (error : ParseError) : Diagnostic := ⟨error.code, error.message, some error.line⟩

/-! ## The errors the parser records -/

def unexpected (expected : Kind) (found : Token) : ParseError :=
  ⟨.unexpectedToken,
   "expected next token to be " ++ expected.spelling ++ ", got " ++ found.describe ++ " instead", found.line⟩

def noExpression (found : Token) : ParseError :=
  ⟨.noPrefixParser, "no prefix parse function for " ++ found.describe ++ " found", found.line⟩

def badInteger (found : Token) : ParseError :=
  ⟨.invalidInteger, "could not parse " ++ Text.quoted found.text ++ " as integer", found.line⟩

def noName (found : Token) : ParseError :=
  ⟨.expectedIdentifier, "expected identifier, got " ++ found.describe ++ " instead", found.line⟩

def noClassName (found : Token) : ParseError :=
  ⟨.expectedIdentifier, "Expected identifier target for class statement, got " ++ found.describe, found.line⟩

def noTestLabel (found : Token) : ParseError :=
  ⟨.expectedString, "Expected string target for test statement, got " ++ found.describe, found.line⟩

def notAMethod (found : Token) : ParseError :=
  ⟨.unexpectedToken, "unexpected token " ++ found.describe ++ " in class body", found.line⟩

def badTarget (target : Expr) : ParseError :=
  ⟨.invalidAssignmentTarget,
   "invalid assignment target: " ++ target.render ++ " (" ++ target.kindName ++ ")", target.token.line⟩

end ParseError

end Lantern
