/-
  Lantern.Token.Stream — the tokens a parser reads, and the end token it meets for ever
  after them.

  A stream holds no end token among its tokens (`ofTokens` drops them), so having no
  token left and standing at the end are the same thing.
-/

import Lantern.Token.Basic

namespace Lantern

structure Stream where
  /-- The tokens before the end. -/
  tokens : List Token
  /-- What is read once they have run out. -/
  last : Token
  deriving DecidableEq, Repr, Inhabited

namespace Stream

/-- A stream of prepared tokens. Its end stands on the line of the last token, or on
    line 1. -/
def ofTokens (tokens : List Token) : Stream :=
  let kept := tokens.filter (·.kind != .eof)
  ⟨kept, .eof ((kept.getLast?.map (·.line)).getD 1)⟩

def length (stream : Stream) : Nat := stream.tokens.length

def isEmpty (stream : Stream) : Bool := stream.tokens.isEmpty

def toList (stream : Stream) : List Token := stream.tokens ++ [stream.last]

theorem eof_notMem_ofTokens {tokens : List Token} {token : Token}
    (h : token ∈ (ofTokens tokens).tokens) :
    token.kind ≠ .eof := by
  simpa using (List.mem_filter.1 h).2

end Stream

end Lantern
