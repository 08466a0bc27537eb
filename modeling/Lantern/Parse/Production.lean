/-
  Lantern.Parse.Production — the steps a grammar is written in.

  A production reads tokens from a parser, the cursor together with the errors recorded
  so far, and comes to one of three ends: it builds a node, or it gives up, as a rule
  with an error, or the bound on its recursion is used up. Giving up ends every
  production around it, up to the one that asked for an attempt; the errors and the
  place of the cursor are kept either way. The third end is a device of the definition:
  with a bound computed from the number of tokens ahead it is never reached.
-/

import Lantern.Parse.Cursor
import Lantern.Parse.Error

namespace Lantern

structure Parser where
  cursor : Cursor
  errors : Array ParseError
  deriving Inhabited

def Parser.ofStream (stream : Stream) : Parser := ⟨.ofStream stream, #[]⟩

inductive Reply (α : Type) where
  | built (node : α) (parser : Parser)
  | gaveUp (parser : Parser)
  | exhausted

def Production (α : Type) : Type := Parser → Reply α

namespace Production

@[inline] def done {α : Type} (node : α) : Production α := fun parser => .built node parser

@[inline] def andThen {α β : Type} (first : Production α) (next : α → Production β) :
    Production β :=
  fun parser =>
    match first parser with
    | .built node behind => next node behind
    | .gaveUp behind => .gaveUp behind
    | .exhausted => .exhausted

instance : Monad Production where
  pure := done
  bind := andThen

@[inline] def stop {α : Type} : Production α := fun _ => .exhausted

/-- Go on whether or not `first` builds a node. -/
@[inline] def attempt {α : Type} (first : Production α) : Production (Option α) := fun parser =>
  match first parser with
  | .built node behind => .built (some node) behind
  | .gaveUp behind => .built none behind
  | .exhausted => .exhausted

@[inline] def giveUp {α : Type} : Production α := fun parser => .gaveUp parser

@[inline] def ask {α : Type} (question : Cursor → α) : Production α := fun parser =>
  .built (question parser.cursor) parser

@[inline] def record (error : ParseError) : Production Unit := fun parser =>
  .built () { parser with errors := parser.errors.push error }

@[inline] def fail {α : Type} (error : ParseError) : Production α := fun parser =>
  .gaveUp { parser with errors := parser.errors.push error }

@[inline] def advance : Production Token := fun parser =>
  let (token, cursor) := parser.cursor.advance
  .built token { parser with cursor }

def seek (kinds : List Kind) : Production Bool := fun parser =>
  let (found, cursor) := parser.cursor.seek kinds
  .built found { parser with cursor }

/-- Pass a token of this kind. Any other one is an error, and stays current. -/
def expect (kind : Kind) : Production Token := do
  let found ← ask Cursor.current
  if found.kind == kind then advance else fail (.unexpected kind found)

def identifier : Production Identifier := do
  let found ← ask Cursor.current
  if found.kind == .ident then return .ofToken (← advance) else fail (.noName found)

/-- Pass one token if none was passed since `consumed` of them were, so that no token
    can hold up a list of statements. -/
def ensureProgress (consumed : Nat) : Production Unit := do
  if (← ask Cursor.consumed) == consumed then
    let _ ← advance

end Production

end Lantern
