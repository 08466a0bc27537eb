/-
  Lantern.Token.Basic — a token: its kind, the text it was scanned from, and the line it
  starts on.

  Lines count from 1. The text of a string token is what stands between its quotes;
  every other token holds its lexeme as written.
-/

import Lantern.Token.Kind
import Lantern.Text.Quoted

namespace Lantern

structure Token where
  kind : Kind
  text : String
  line : Nat
  deriving DecidableEq, Repr, Inhabited

namespace Token

def eof (line : Nat) : Token := ⟨.eof, "", line⟩

def canonical (kind : Kind) : Token := ⟨kind, kind.spelling, 1⟩

def is (token : Token) (kind : Kind) : Bool := token.kind == kind

def dump (token : Token) : String :=
  token.kind.name ++ "(" ++ Text.quoted token.text ++ ") @ line " ++ toString token.line

/-- The token in a message: its kind, and its text where the kind does not settle it. -/
def describe (token : Token) : String :=
  match token.kind with
  | .ident | .int | .str | .illegal => token.kind.spelling ++ " (" ++ Text.quoted token.text ++ ")"
  | kind => kind.spelling

/-- The characters that scan as this token: a string is written in quotes, any other
    token as its text. -/
def lexeme (token : Token) : List Char :=
  match token.kind with
  | .str => '"' :: token.text.toList ++ ['"']
  | _ => token.text.toList

end Token

end Lantern
