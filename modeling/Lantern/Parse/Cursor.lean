/-
  Lantern.Parse.Cursor — a place in a token stream.

  The cursor shows the current token and the kind of the one behind it, counts the
  tokens it has passed, and remembers the line of the last one, so that it can tell
  whether the current token opens a new line. At the end it stands still: `advance`
  answers with the end token and changes nothing.
-/

import Lantern.Token.Stream

namespace Lantern

structure Cursor where
  /-- The tokens ahead, the current one first. -/
  ahead : List Token
  /-- What is read once they have run out. -/
  last : Token
  /-- The line of the last token passed; at the start, of the current token. -/
  previousLine : Nat
  /-- The number of tokens passed. -/
  consumed : Nat
  deriving DecidableEq, Repr, Inhabited

namespace Cursor

def ofStream (stream : Stream) : Cursor :=
  ⟨stream.tokens, stream.last, (stream.tokens.headD stream.last).line, 0⟩

def current (cursor : Cursor) : Token := cursor.ahead.headD cursor.last

def kind (cursor : Cursor) : Kind := cursor.current.kind

def peekKind (cursor : Cursor) : Kind := (cursor.ahead.tail.headD cursor.last).kind

def check (cursor : Cursor) (kind : Kind) : Bool := cursor.kind == kind

def atEnd (cursor : Cursor) : Bool := cursor.ahead.isEmpty

def onNewLine (cursor : Cursor) : Bool := cursor.previousLine < cursor.current.line

def advance (cursor : Cursor) : Token × Cursor :=
  match cursor.ahead with
  | [] => (cursor.last, cursor)
  | token :: more =>
    (token, { cursor with ahead := more, previousLine := token.line, consumed := cursor.consumed + 1 })

/-- Pass tokens until one of `kinds` is current. False if the end came first. -/
def seek (kinds : List Kind) (cursor : Cursor) : Bool × Cursor :=
  match _h : cursor.ahead with
  | [] => (false, cursor)
  | token :: more =>
    if kinds.contains token.kind then (true, cursor)
    else seek kinds { cursor with ahead := more, previousLine := token.line, consumed := cursor.consumed + 1 }
termination_by cursor.ahead.length
decreasing_by simp [_h]

end Cursor

end Lantern
