/-
  Lantern.Token.Scan — from characters to tokens.

  `Lexeme.cut` takes the longest lexeme off the front of the input: a run of blanks, a
  newline, a comment from `;;` to the end of its line, or the text of a token. A word is
  a run of ASCII letters and underscores, a number a run of ASCII digits, a string
  whatever stands between two double quotes, newlines included. A character that starts
  nothing is an illegal token of its own, and a quote that is never closed makes an
  illegal token of all the rest.

  `Scanner.next` skips to the next token and counts lines on the way; at the end it
  answers with an end token however often it is asked. `scan` collects the tokens of a
  whole text. Every lexeme takes at least one character (`Lexeme.cut_rest_le`), which is
  why both stop.
-/

import Lantern.Token.Stream

namespace Lantern

/-! ## Lexemes -/

inductive Lexeme where
  | blanks
  | newline
  | comment
  | token (kind : Kind)
  deriving DecidableEq, Repr

def isGap (c : Char) : Bool := c == ' ' || c == '\t' || c == '\r'

def isWordChar (c : Char) : Bool := c.isAlpha || c == '_'

def pairKind? (c d : Char) : Option Kind :=
  match c, d with
  | '=', '=' => some .eqEq
  | '!', '=' => some .notEq
  | '<', '=' => some .ltEq
  | '>', '=' => some .gtEq
  | '&', '&' => some .andAnd
  | '|', '|' => some .orOr
  | _, _ => none

/-- The kind of an operator or mark of one character; `illegal` for a character that
    starts nothing. -/
def markKind (c : Char) : Kind :=
  match c with
  | '=' => .assign
  | '+' => .plus
  | '-' => .minus
  | '*' => .star
  | '/' => .slash
  | '%' => .percent
  | '!' => .bang
  | '<' => .lt
  | '>' => .gt
  | '&' => .amp
  | '|' => .pipe
  | '.' => .dot
  | ',' => .comma
  | '(' => .lparen
  | ')' => .rparen
  | '[' => .lbracket
  | ']' => .rbracket
  | _ => .illegal

namespace Lexeme

structure Cut where
  lexeme : Lexeme
  more : List Char
  rest : List Char

def run (lexeme : Lexeme) (continues : Char → Bool) (input : List Char) : Cut :=
  ⟨lexeme, input.takeWhile continues, input.dropWhile continues⟩

def word (c : Char) (input : List Char) : Cut :=
  let text := String.ofList (c :: input.takeWhile isWordChar)
  run (.token ((Kind.keyword? text).getD .ident)) isWordChar input

def string (input : List Char) : Cut :=
  match input.dropWhile (· != '"') with
  | quote :: rest => ⟨.token .str, input.takeWhile (· != '"') ++ [quote], rest⟩
  | [] => ⟨.token .illegal, input, []⟩

def mark (c : Char) (input : List Char) : Cut :=
  match input with
  | [] => ⟨.token (markKind c), [], []⟩
  | d :: rest =>
    match pairKind? c d with
    | some kind => ⟨.token kind, [d], rest⟩
    | none => ⟨.token (markKind c), [], input⟩

/-- What follows a semicolon: a second one starts a comment. -/
def semicolon (input : List Char) : Cut :=
  match input with
  | ';' :: _ => run .comment (· != '\n') input
  | _ => ⟨.token .illegal, [], input⟩

/-- The longest lexeme at the front of `c :: input`. -/
def cut (c : Char) (input : List Char) : Cut :=
  if c == '\n' then ⟨.newline, [], input⟩
  else if isGap c then run .blanks isGap input
  else if isWordChar c then word c input
  else if c.isDigit then run (.token .int) Char.isDigit input
  else if c == '"' then string input
  else if c == ';' then semicolon input
  else mark c input

theorem run_rest_le (lexeme : Lexeme) (continues : Char → Bool) (input : List Char) :
    (run lexeme continues input).rest.length ≤ input.length :=
  (List.dropWhile_suffix continues).length_le

theorem string_rest_le (input : List Char) : (string input).rest.length ≤ input.length := by
  have := (List.dropWhile_suffix (· != '"') (l := input)).length_le
  unfold string
  split
  · next h => rw [h, List.length_cons] at this; exact Nat.le_of_succ_le this
  · exact Nat.zero_le _

theorem mark_rest_le (c : Char) (input : List Char) :
    (mark c input).rest.length ≤ input.length := by
  unfold mark
  repeat' split
  all_goals simp

theorem semicolon_rest_le (input : List Char) : (semicolon input).rest.length ≤ input.length := by
  unfold semicolon
  split
  · exact run_rest_le ..
  · exact Nat.le_refl _

/-- Cutting never lengthens the input. -/
theorem cut_rest_le (c : Char) (input : List Char) : (cut c input).rest.length ≤ input.length := by
  unfold cut
  repeat' split
  · exact Nat.le_refl _
  · exact run_rest_le ..
  · exact run_rest_le ..
  · exact run_rest_le ..
  · exact string_rest_le _
  · exact semicolon_rest_le _
  · exact mark_rest_le ..

end Lexeme

/-! ## The scanner -/

structure Scanner where
  input : List Char
  line : Nat
  deriving Repr

def newlines (chars : List Char) : Nat := chars.count '\n'

/-- The text a token keeps: a string drops its quotes. -/
def Kind.keep (kind : Kind) (chars : List Char) : String :=
  match kind with
  | .str => String.ofList (chars.drop 1).dropLast
  | _ => String.ofList chars

namespace Scanner

def ofSource (source : String) : Scanner := ⟨source.toList, 1⟩

/-- The next token, and the place behind it. A token keeps the line it starts on. -/
def next (s : Scanner) : Token × Scanner :=
  match _h : s.input with
  | [] => (.eof s.line, s)
  | c :: input =>
    let cut := Lexeme.cut c input
    match cut.lexeme with
    | .blanks | .comment => next ⟨cut.rest, s.line⟩
    | .newline => next ⟨cut.rest, s.line + 1⟩
    | .token kind =>
      (⟨kind, kind.keep (c :: cut.more), s.line⟩, ⟨cut.rest, s.line + newlines (c :: cut.more)⟩)
termination_by s.input.length
decreasing_by
  all_goals
    have := Lexeme.cut_rest_le c input
    simp only [_h, List.length_cons]
    omega

/-- A scanner that finds a token leaves less input. -/
theorem next_input_lt {s : Scanner} (found : s.next.1.kind ≠ .eof) :
    s.next.2.input.length < s.input.length := by
  fun_induction next s with
  | case1 => exact absurd rfl found
  | case2 s c input ahead cut _ ih | case3 s c input ahead cut _ ih | case4 s c input ahead cut _ ih =>
    have shorter : cut.rest.length ≤ input.length := Lexeme.cut_rest_le c input
    have := ih found
    simp only [ahead, List.length_cons] at *
    omega
  | case5 s c input ahead cut kind _ =>
    have shorter : cut.rest.length ≤ input.length := Lexeme.cut_rest_le c input
    simp only [ahead, List.length_cons]
    omega

def drain (s : Scanner) : Stream :=
  if _h : s.next.1.kind = .eof then ⟨[], s.next.1⟩
  else
    let behind := drain s.next.2
    ⟨s.next.1 :: behind.tokens, behind.last⟩
termination_by s.input.length
decreasing_by exact next_input_lt _h

end Scanner

def scan (source : String) : Stream := (Scanner.ofSource source).drain

end Lantern
