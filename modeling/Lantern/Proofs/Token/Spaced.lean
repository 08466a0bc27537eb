/-
  Lantern.Proofs.Token.Spaced — tokens written out with single blanks between them.

  A blank ends a token of every kind (`Kind.bounds_blank`), so one blank between any two
  tokens is enough to tell them apart again, whatever they are: operators that would
  make one, words, and strings that hold what looks like a comment. Of all that is
  written so only strings hold newlines (`Spelled.newlines_eq`); they alone move the
  tokens behind them down.

  Main statement:

  - `scan_spaced`: tokens written with single blanks between them scan as themselves,
    each on the line of the newlines in the strings before it.
-/

import Lantern.Proofs.Token.Spelling

namespace Lantern

def spaced (tokens : List Token) : String := " ".intercalate (tokens.map fun token => String.ofList token.lexeme)

def stringNewlines (tokens : List Token) : Nat :=
  newlines ((tokens.filter (·.is .str)).flatMap fun token => token.text.toList)

/-- The tokens, each on the line of the newlines in the strings before it. -/
def lined (tokens : List Token) : List Token :=
  tokens.mapIdx fun place token => { token with line := 1 + stringNewlines (tokens.take place) }

/-! ## What ends a token -/

theorem Kind.bounds_blank (kind : Kind) : kind.bounds ' ' := by
  cases kind <;> decide

/-- Only a string is written over several lines. -/
theorem Spelled.newlines_eq {kind : Kind} {text : String} (spelled : Spelled kind text)
    (other : kind ≠ .str) :
    newlines text.toList = 0 := by
  have none {p : Char → Bool} (all : text.toList.all p) (outside : p '\n' = false) : newlines text.toList = 0 := by
    rw [newlines, List.count_eq_zero]
    intro mem
    rw [List.all_eq_true.1 all '\n' mem] at outside
    cases outside
  cases kind
  case eof | illegal => exact spelled.elim
  case str => exact absurd rfl other
  case ident => exact none spelled.2.1 (by decide)
  case int => exact none spelled.2 (by decide)
  all_goals
    cases spelled
    decide

/-! ## The layout -/

def Token.mark (token : Token) : Mark := .token token.kind token.text

def Mark.spaced (tokens : List Token) : List Mark := (tokens.map Token.mark).intersperse .gap

theorem Mark.spaced_cons (token next : Token) (tokens : List Token) :
    Mark.spaced (token :: next :: tokens) = token.mark :: .gap :: Mark.spaced (next :: tokens) := rfl

theorem toList_spaced (tokens : List Token) :
    (spaced tokens).toList = Mark.written (Mark.spaced tokens) := by
  rw [spaced, String.toList_intercalate]
  induction tokens with
  | nil => rfl
  | cons token tokens ih =>
    cases tokens with
    | nil => simp [Mark.spaced, Token.mark, Mark.chars, Token.lexeme]
    | cons next tokens =>
      rw [Mark.spaced_cons, Mark.written_cons, Mark.written_cons, ← ih]
      simp [Token.mark, Mark.chars, Token.lexeme]

theorem scannable_spaced {tokens : List Token}
    (spelled : ∀ token ∈ tokens, Spelled token.kind token.text) :
    Scannable (Mark.spaced tokens) := by
  induction tokens with
  | nil => trivial
  | cons token tokens ih =>
    obtain ⟨first, others⟩ := List.forall_mem_cons.1 spelled
    cases tokens with
    | nil => exact ⟨first, by simp, trivial⟩
    | cons next tokens =>
      refine ⟨first, ?_, ih others⟩
      rintro c ⟨⟩
      exact token.kind.bounds_blank

/-! ## Lines -/

theorem stringNewlines_cons {token : Token} (spelled : Spelled token.kind token.text)
    (tokens : List Token) :
    stringNewlines (token :: tokens) = newlines token.text.toList + stringNewlines tokens := by
  by_cases string : token.kind = .str
  · simp [stringNewlines, Token.is, string, newlines]
  · simp [stringNewlines, Token.is, string, spelled.newlines_eq string]

theorem tokens_spaced {tokens : List Token}
    (spelled : ∀ token ∈ tokens, Spelled token.kind token.text) (line : Nat) :
    Mark.tokens line (Mark.spaced tokens) =
      tokens.mapIdx fun place token => { token with line := line + stringNewlines (tokens.take place) } := by
  induction tokens generalizing line with
  | nil => rfl
  | cons token tokens ih =>
    obtain ⟨first, others⟩ := List.forall_mem_cons.1 spelled
    have behind : Mark.tokens line (Mark.spaced (token :: tokens)) =
        { token with line } :: Mark.tokens (line + newlines token.text.toList) (Mark.spaced tokens) := by
      cases tokens <;> rfl
    rw [behind, ih others, List.mapIdx_cons]
    simp only [List.take_succ_cons, stringNewlines_cons first, Nat.add_assoc]
    rfl

theorem lineAfter_spaced {tokens : List Token}
    (spelled : ∀ token ∈ tokens, Spelled token.kind token.text) (line : Nat) :
    Mark.lineAfter line (Mark.spaced tokens) = line + stringNewlines tokens := by
  induction tokens generalizing line with
  | nil => rfl
  | cons token tokens ih =>
    obtain ⟨first, others⟩ := List.forall_mem_cons.1 spelled
    have behind : Mark.lineAfter line (Mark.spaced (token :: tokens)) =
        Mark.lineAfter (line + newlines token.text.toList) (Mark.spaced tokens) := by
      cases tokens with
      | nil => exact Mark.lineAfter_token ..
      | cons next tokens => rw [Mark.spaced_cons, Token.mark, Mark.lineAfter_token, Mark.lineAfter_gap]
    rw [behind, ih others, stringNewlines_cons first, Nat.add_assoc]

/-- Tokens that are written as their kinds are, with a single blank between any two,
    scan as themselves, in order. Each stands on the line of the newlines in the strings
    before it, and the end behind them all. -/
theorem scan_spaced (tokens : List Token) (spelled : ∀ token ∈ tokens, Spelled token.kind token.text) :
    (scan (spaced tokens)).toList = lined tokens ++ [.eof (1 + stringNewlines tokens)] := by
  rw [scan_written (toList_spaced tokens) (scannable_spaced spelled), Stream.toList, tokens_spaced spelled,
    lineAfter_spaced spelled, lined]

/-- Operators that would run together, and a string of two lines that holds a comment
    and a bracket. -/
def crowdedTokens : List Token :=
  [⟨.assign, "=", 7⟩, ⟨.eqEq, "==", 7⟩, ⟨.str, "a;; b\n(", 7⟩, ⟨.int, "007", 7⟩, ⟨.ident, "fn_", 7⟩, ⟨.fnWord, "fn", 7⟩,
    ⟨.amp, "&", 7⟩, ⟨.andAnd, "&&", 7⟩]

theorem scan_spaced_crowded :
    spaced crowdedTokens = "= == \"a;; b\n(\" 007 fn_ fn & &&" ∧
    (∀ token ∈ crowdedTokens, Spelled token.kind token.text) ∧
    (scan (spaced crowdedTokens)).toList.map (·.line) = [1, 1, 1, 2, 2, 2, 2, 2, 2] := by
  have spelled : ∀ token ∈ crowdedTokens, Spelled token.kind token.text := by decide
  refine ⟨by decide, spelled, ?_⟩
  rw [scan_spaced crowdedTokens spelled]
  rfl

end Lantern
