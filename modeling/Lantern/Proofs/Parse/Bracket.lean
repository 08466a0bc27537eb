/-
  Lantern.Proofs.Parse.Bracket — a bracket right behind an expression.

  A bracket binds tighter than any operator, so where an expression comes to the end, a
  bracket that follows is taken by whatever ends there, at the innermost level
  (`Reads.carries`). Only the line can keep it from that: a bracket on a later line than
  the token before starts a statement. A token keeps the line it starts on, so behind a
  string that goes on over a newline even a bracket that follows at once is on a later
  line.
  - `parse_bracketed`: behind an expression a second one in brackets makes one statement
    of both, unless the first one ends with such a string. Then there are two.
-/

import Lantern.Proofs.Parse.Sequel
import Lantern.Proofs.Token.Enclosed

namespace Lantern

namespace Grammar

variable {last last' : Token} {c c' : Place} {φ : Phrase} {more : List Token}

/-! ## In front of more tokens -/

theorem Phrase.retoken_down_zero (φ : Phrase) : φ.retoken (Token.down 0) = φ := by
  have still : Token.down 0 = id := rfl
  have names (names : List Identifier) : names.map (Identifier.retoken id) = names := List.map_id names
  rw [still]
  cases φ <;>
    simp only [Phrase.retoken, names, id, Expr.retoken_id, Expr.retokenAll_id, Elif.retokenAll_id, Block.retokenElse_id,
      Block.retoken_id, Stmt.retokenAll_id, Stmt.retoken_id, FunctionStatement.retoken_id, FunctionLiteral.retoken_id,
      FunctionStatement.retokenAll_id]

/-- What ends with a token of its own is read alike in front of more tokens. -/
theorem Reads.still (last' : Token) (h : Reads last c φ c')
    (ends : φ.isOpen → c'.ahead = [] → (c'.moved 0 more).Ends) (fits : φ.Fits c') :
    Reads last' (c.moved 0 more) φ (c'.moved 0 more) := by
  have moved := h.shifted last' ends fits
  rwa [Phrase.retoken_down_zero] at moved

/-! ## What takes a bracket -/

/-- Whatever ends here goes on, if it is no tighter than an operator, and then the input
    is read to the end. -/
structure Place.Binds (last : Token) (c : Place) (behind : Nat) : Prop where
  tight {min : Precedence} : min.below .call → c.extends? min
  taken (left : Expr) : ∃ wider, Reads last c (.extension left wider) ⟨behind, []⟩

/-- What a phrase that came to the end is, now that more follows there: it ends where it
    did, or a wider one in its place takes what follows. An expression cannot end where
    it did. -/
def Phrase.Carries (last : Token) (c c' : Place) (behind : Nat) : Phrase → Prop
  | .operand e => Reads last c (.operand e) c' ∨ ∃ wider, Reads last c (.operand wider) ⟨behind, []⟩
  | .climbing min e => Reads last c (.climbing min e) c' ∨ ∃ wider, Reads last c (.climbing min wider) ⟨behind, []⟩
  | .extension left e =>
    Reads last c (.extension left e) c' ∨ ∃ wider, Reads last c (.extension left wider) ⟨behind, []⟩
  | .expression min _ => min.below .call → ∃ wider, Reads last c (.expression min wider) ⟨behind, []⟩
  | _ => True

/-- Calls bind tighter than every operator. -/
theorem below_call_of_ofKind? {kind : Kind} {op : InfixOp}
    (writes : InfixOp.ofKind? kind = some op) :
    (Precedence.of kind).below .call := by
  cases kind <;> first | rfl | cases writes

/-- At the end of the input the innermost expression takes what follows. -/
theorem Reads.carries {behind : Nat} (h : Reads last c φ c') (ended : c'.ahead = [])
    (binds : (c'.moved 0 more).Binds last' behind) :
    φ.Carries last' (c.moved 0 more) (c'.moved 0 more) behind := by
  -- the parts that end with a token of their own are read as they were
  have inside {c : Place} {isOpen : Prop} (ahead : c.ahead ≠ []) : isOpen → c.ahead = [] → (c.moved 0 more).Ends :=
    fun _ none => absurd none ahead
  induction h with
  | identifier word => exact .inl (.identifier (word.still last' nofun trivial))
  | integer word number => exact .inl (.integer (word.still last' nofun trivial) number)
  | string word => exact .inl (.string (word.still last' nofun trivial))
  | truth word => exact .inl (.truth (word.still last' nofun trivial))
  | falsity word => exact .inl (.falsity (word.still last' nofun trivial))
  | group open_ inner close =>
    exact .inl (.group (open_.still last' nofun trivial) (inner.still last' (inside close.token_ne) trivial)
      (close.still last' nofun trivial))
  | array open_ elements => exact .inl (.array (open_.still last' nofun trivial) (elements.still last' nofun trivial))
  | conditional word tested then_ body arms alternative end_ =>
    have ahead := end_.token_ne
    exact .inl (.conditional (word.still last' nofun trivial) (tested.still last' (inside then_.token_ne) trivial)
      (then_.still last' nofun trivial) (body.still last' nofun (arms.ahead_ne (alternative.ahead_ne ahead)))
      (arms.still last' nofun (alternative.ahead_ne ahead)) (alternative.still last' nofun ahead)
      (end_.still last' nofun trivial))
  | lambda word literal => exact .inl (.lambda (word.still last' nofun trivial) (literal.still last' nofun trivial))
  | call open_ arguments => exact .inl (.call (open_.still last' nofun trivial) (arguments.still last' nofun trivial))
  | index open_ position close =>
    exact .inl (.index (open_.still last' nofun trivial) (position.still last' (inside close.token_ne) trivial)
      (close.still last' nofun trivial))
  | field dot name => exact .inl (.field (dot.still last' nofun trivial) (name.still last' nofun trivial))
  -- the others end with an expression, and that takes what follows
  | negation word _ _ operand =>
    obtain ⟨wider, reads⟩ := operand ended binds rfl
    exact .inr ⟨_, .negation (word.still last' nofun trivial) reads⟩
  | complement word _ _ operand =>
    obtain ⟨wider, reads⟩ := operand ended binds rfl
    exact .inr ⟨_, .complement (word.still last' nofun trivial) reads⟩
  | assignment word _ found _ value =>
    obtain ⟨wider, reads⟩ := value ended binds rfl
    exact .inr ⟨_, .assignment (word.still last' nofun trivial) reads found⟩
  | binary word writes _ _ right =>
    obtain ⟨wider, reads⟩ := right ended binds (below_call_of_ofKind? writes)
    exact .inr ⟨_, .binary (word.still last' nofun trivial) writes reads⟩
  -- spines
  | start _ operand =>
    rcases operand ended binds with reads | ⟨wider, reads⟩
    · exact .inl (.start reads)
    · exact .inr ⟨wider, .start reads⟩
  | climb spine extends_ _ _ extension =>
    have ahead := Place.ahead_ne_of_extends extends_
    have spine := spine.still last' (inside ahead) trivial
    rw [← Place.moved_extends ahead] at extends_
    rcases extension ended binds with reads | ⟨wider, reads⟩
    · exact .inl (.climb spine extends_ reads)
    · exact .inr ⟨wider, .climb spine extends_ reads⟩
  | expression _ _ spine =>
    intro below
    rcases spine ended binds with reads | ⟨wider, reads⟩
    · obtain ⟨wider, taken⟩ := binds.taken _
      exact ⟨wider, .expression (.climb reads (binds.tight below) taken) rfl⟩
    · exact ⟨wider, .expression reads rfl⟩
  | _ => trivial

/-! ## An expression in brackets -/

section

variable {t u : Token} {ts : List Token} {e : Expr} {pair : Kind × Kind} (known : pair ∈ brackets) (opens : t.kind = pair.1)
  (inner : Reads last ⟨t.line, ts⟩ (.expression .lowest e) c) (closes : Reads last c (.token pair.2 u) c')
include known opens inner closes

/-- Behind an expression that ends on its line, an expression in brackets is an index or
    an argument. -/
theorem Reads.binds {behind : Nat} (ended : c' = ⟨behind, []⟩) :
    Place.Binds last ⟨t.line, t :: ts⟩ behind := by
  subst ended
  rcases brackets_cases known with rfl | rfl
  · refine ⟨fun {min} below => ?_, fun left => ⟨_, .index (.token _ _ opens) inner closes⟩⟩
    have tight : min.below .index := by cases min <;> first | rfl | cases below
    simp [Place.extends?, opens, Precedence.of, tight]
  · have list : Reads last ⟨t.line, ts⟩ (.expressions .rparen [e]) ⟨behind, []⟩ :=
      .someExpressions inner (.lastExpression (.inl rfl) closes)
    refine ⟨fun below => ?_, fun left => ⟨_, .call (.token _ _ opens) list⟩⟩
    simp [Place.extends?, opens, Precedence.of, below]

/-- By itself it is a list or a group. -/
theorem Reads.enclosed (line : Nat) : ∃ wider, Reads last ⟨line, t :: ts⟩ (.operand wider) c' := by
  rcases brackets_cases known with rfl | rfl
  · exact ⟨_, .array (.token _ _ opens) (.someExpressions inner (.lastExpression (.inr rfl) closes))⟩
  · exact ⟨_, .group (.token _ _ opens) inner closes⟩

end

/-! ## Lines -/

def Place.lastLine (c : Place) : Nat := (c.ahead.getLast?.map Token.line).getD c.line

/-- A reading does not change which token is the last one. -/
theorem Reads.lastLine (h : Reads last c φ c') (isPart : φ.isPart) : c.lastLine = c'.lastLine := by
  have pass (line : Nat) (t : Token) (ts : List Token) : Place.lastLine ⟨line, t :: ts⟩ = Place.lastLine ⟨t.line, ts⟩ := by
    cases ts with
    | nil => rfl
    | cons u ts =>
      rw [Place.lastLine, Place.lastLine, List.getLast?_cons_cons, List.getLast?_eq_some_getLast (List.cons_ne_nil u ts)]
      rfl
  exact h.along (T := fun c c' => c.lastLine = c'.lastLine) (fun _ => rfl) Eq.trans (fun line t ts _ _ => pass line t ts)
    (fun line t ts _ _ _ => pass line t ts) isPart

/-! ## Statements -/

theorem Reads.plain_of (h : Reads last c (.expression .lowest e) c') :
    ∃ t, Reads last c (.statement (.expression t e)) c' := by
  obtain ⟨line, ahead⟩ := c
  cases ahead with
  | nil => exact absurd rfl (h.starts_ne rfl)
  | cons t ts => exact ⟨t, .plain h⟩

/-- One expression, and nothing behind it. -/
theorem Reads.single {t : Token} {e : Expr} {line : Nat}
    (h : Reads last c (.statements [] [.expression t e]) ⟨line, []⟩) :
    Reads last c (.expression .lowest e) ⟨line, []⟩ := by
  cases h with
  | someStatements first rest =>
    cases rest with
    | noStatements =>
      cases first with
      | plain value => exact value

section

variable {t u : Token} {ts : List Token} {e e' : Expr} {line behind : Nat} {pair : Kind × Kind} (known : pair ∈ brackets)
  (opens : t.kind = pair.1) (outer : Reads last c (.expression .lowest e) ⟨line, []⟩)
  (inner : Reads last' ⟨t.line, ts⟩ (.expression .lowest e') c') (closes : Reads last' c' (.token pair.2 u) ⟨behind, []⟩)
include known opens outer inner closes

/-- A bracket on the line where an expression ends goes on with it. -/
theorem Reads.bracket_level (level : line = t.line) :
    ∃ statement, Reads last' (c.moved 0 (t :: ts)) (.statements [] [statement]) ⟨behind, []⟩ := by
  subst level
  obtain ⟨wider, reads⟩ := outer.carries rfl (Reads.binds known opens inner closes rfl) rfl
  obtain ⟨first, statement⟩ := reads.plain_of
  exact ⟨_, .someStatements statement (.noStatements rfl)⟩

/-- On a later line it starts a statement. -/
theorem Reads.bracket_below (later : line < t.line) :
    ∃ statement next, Reads last' (c.moved 0 (t :: ts)) (.statements [] [statement, next]) ⟨behind, []⟩ := by
  have fresh : t.kind.isFresh := by
    rw [opens]
    rcases brackets_cases known with rfl | rfl <;> rfl
  have apart : (Place.moved 0 (t :: ts) ⟨line, []⟩).Ends := Place.ends_fresh fresh later
  obtain ⟨first, statement⟩ := (outer.still last' (fun _ _ => apart) trivial).plain_of
  obtain ⟨wider, operand⟩ := Reads.enclosed known opens inner closes line
  obtain ⟨second, next⟩ := Reads.plain_of (.expression (.start operand) rfl)
  exact ⟨_, _, .someStatements statement (.someStatements next (.noStatements rfl))⟩

end

end Grammar

open Grammar

/-! ## Texts -/

/-- A text that is one expression. -/
structure IsExpression (source : String) : Prop where
  clean : (parseSource source).errors = []
  one : ∃ token value, (parseSource source).program.statements = [.expression token value]

/-- The last token goes on over a newline. -/
def Stream.EndsAcross (stream : Stream) : Prop := ∃ t ∈ stream.tokens.getLast?, '\n' ∈ t.text.toList

instance (stream : Stream) : Decidable stream.EndsAcross := inferInstanceAs (Decidable (∃ t ∈ _, _))

namespace IsExpression

variable {source : String} (h : IsExpression source)
include h

theorem reads :
    ∃ e line, Reads (scan source).last (scan source).place (.expression .lowest e) ⟨line, []⟩ := by
  obtain ⟨line, reads⟩ := parse_reads (scan_last source) h.clean
  obtain ⟨token, value, one⟩ := h.one
  rw [show parse (scan source) = parseSource source from rfl, one] at reads
  exact ⟨value, line, reads.single⟩

omit h in
theorem of_reads {e : Expr} {line : Nat}
    (reads : Reads (scan source).last (scan source).place (.expression .lowest e) ⟨line, []⟩) :
    IsExpression source := by
  obtain ⟨t, statement⟩ := reads.plain_of
  obtain ⟨clean, statements⟩ := parse_of_reads (scan_last source) (.someStatements statement (.noStatements rfl))
  exact ⟨clean, t, e, statements⟩

theorem legal : ∀ t ∈ (scan source).tokens, t.kind ≠ .illegal := by
  obtain ⟨e, line, reads⟩ := h.reads
  exact reads.legal rfl

/-- Further down, a closing bracket ends it. -/
theorem closed {pair : Kind × Kind} (known : pair ∈ brackets) {u : Token} (closes : u.kind = pair.2)
    (last : Token)
    (lines line : Nat) :
    ∃ e c, Reads last ⟨line, (scan source).tokens.map (Token.down lines) ++ [u]⟩ (.expression .lowest e) c ∧
      Reads last c (.token pair.2 u) ⟨u.line, []⟩ := by
  obtain ⟨e, behind, reads⟩ := h.reads
  have loose : Precedence.of u.kind = .lowest := by
    rw [closes]
    rcases brackets_cases known with rfl | rfl <;> rfl
  have apart : (Place.moved lines [u] ⟨behind, []⟩).Ends := Place.ends_loose loose
  have moved := (reads.shifted last (fun _ _ => apart) trivial).reline rfl line
  exact ⟨_, _, moved, .token _ _ closes⟩

end IsExpression

/-- A bracket right behind an expression stands on the line of the last token, or below
    if that goes on over a newline. -/
theorem bracket_line {source : String} {split : Split} (of : split.Of source.toList)
    (noGap : split.tail = []) {e : Expr}
    {line : Nat}
    (reads : Reads (scan source).last (scan source).place (.expression .lowest e) ⟨line, []⟩) :
    if (scan source).EndsAcross then line < 1 + newlines source.toList else line = 1 + newlines source.toList := by
  have ahead : (scan source).tokens ≠ [] := reads.starts_ne rfl
  obtain ⟨t, last⟩ := Option.ne_none_iff_exists'.1 (mt List.getLast?_eq_none_iff.1 ahead)
  have ending := of.last_line noGap last
  have here : t.line = line := by
    have same : ((scan source).tokens.getLast?.map Token.line).getD _ = line := reads.lastLine rfl
    rwa [last] at same
  have across : (scan source).EndsAcross ↔ 0 < newlines t.text.toList := by
    simp [Stream.EndsAcross, last, newlines, List.count_pos_iff]
  split <;> rename_i ends
  · have := across.1 ends
    omega
  · have := mt across.2 ends
    omega

/-- An expression right behind another one, in brackets. -/
theorem parse_enclosed {source inner : String} (outer : IsExpression source)
    {outside inside : Split}
    (of : outside.Of source.toList) (noGap : outside.tail = []) (within : IsExpression inner)
    (of' : inside.Of inner.toList) (noComment : ';' ∉ inside.tail) {pair : Kind × Kind} (known : pair ∈ brackets) :
    (parseSource (source ++ pair.1.spelling ++ inner ++ pair.2.spelling)).errors = [] ∧
      (parseSource (source ++ pair.1.spelling ++ inner ++ pair.2.spelling)).program.statements.length =
        if (scan source).EndsAcross then 2 else 1 := by
  obtain ⟨e, line, reads⟩ := outer.reads
  have level := bracket_line of noGap reads
  have joined := scan_enclosed of of' (by simp [noGap]) noComment outer.legal within.legal known
  have atLast := scan_last (source ++ pair.1.spelling ++ inner ++ pair.2.spelling)
  rw [show parseSource (source ++ pair.1.spelling ++ inner ++ pair.2.spelling) =
    parse (scan (source ++ pair.1.spelling ++ inner ++ pair.2.spelling)) from rfl]
  generalize scan (source ++ pair.1.spelling ++ inner ++ pair.2.spelling) = stream at joined atLast ⊢
  generalize newlines source.toList = lines at level joined
  have opens : (⟨pair.1, pair.1.spelling, 1 + lines⟩ : Token).kind = pair.1 := rfl
  have closes : (⟨pair.2, pair.2.spelling, 1 + lines + newlines inner.toList⟩ : Token).kind = pair.2 := rfl
  obtain ⟨e', c', enclosed, closed⟩ := within.closed known closes stream.last lines (1 + lines)
  have ahead (more : List Token) : ((scan source).place.moved 0 more).ahead = (scan source).tokens ++ more := by
    have still : Token.down 0 = id := rfl
    rw [Place.moved, still, List.map_id]
    rfl
  split <;> rename_i across
  · rw [if_pos across] at level
    obtain ⟨_, _, both⟩ := Reads.bracket_below known opens reads enclosed closed level
    obtain ⟨clean, statements⟩ := parse_of_ahead atLast both ((ahead _).trans joined.symm)
    exact ⟨clean, congrArg List.length statements⟩
  · rw [if_neg across] at level
    obtain ⟨_, both⟩ := Reads.bracket_level known opens reads enclosed closed level
    obtain ⟨clean, statements⟩ := parse_of_ahead atLast both ((ahead _).trans joined.symm)
    exact ⟨clean, congrArg List.length statements⟩

/-- An expression with nothing behind its last token, and right behind it a second one
    in brackets, with no comment at its end: there is no error, and both make one
    statement. But if the first one ends with a string that goes on over a newline,
    there are two. -/
theorem parse_bracketed {source inner : String} (outer : IsExpression source)
    (noGap : ∃ split : Split, split.Of source.toList ∧ split.tail = []) (within : IsExpression inner)
    (noComment : ∃ split : Split, split.Of inner.toList ∧ ';' ∉ split.tail) :
    ∀ pair ∈ [("[", "]"), ("(", ")")],
      (parseSource (source ++ pair.1 ++ inner ++ pair.2)).errors = [] ∧
        (parseSource (source ++ pair.1 ++ inner ++ pair.2)).program.statements.length =
          if (scan source).EndsAcross then 2 else 1 := by
  obtain ⟨outside, of, noGap⟩ := noGap
  obtain ⟨inside, of', noComment⟩ := noComment
  have enclosed {pair : Kind × Kind} (known : pair ∈ brackets) :=
    parse_enclosed outer of noGap within of' noComment known
  intro pair known
  simp only [List.mem_cons, List.not_mem_nil, or_false] at known
  rcases known with rfl | rfl
  · exact @enclosed (.lbracket, .rbracket) (by decide)
  · exact @enclosed (.lparen, .rparen) (by decide)

def onTwoLines : String := "\"x\ny\""

def zero : String := "0"

theorem onTwoLines_scan : scan onTwoLines = ⟨Mark.tokens 1 [.token .str "x\ny"], .eof 2⟩ :=
  scan_written (by decide) (by decide)

theorem zero_scan : scan zero = ⟨Mark.tokens 1 [.token .int "0"], .eof 1⟩ :=
  scan_written (by decide) (by decide)

theorem onTwoLines_isExpression : IsExpression onTwoLines := by
  have reads : Reads (scan onTwoLines).last (scan onTwoLines).place
      (.expression .lowest (.string ⟨.str, "x\ny", 1⟩ "x\ny")) ⟨1, []⟩ := by
    rw [onTwoLines_scan]
    exact .expression (.start (.string (.token _ _ rfl))) rfl
  exact .of_reads reads

theorem zero_isExpression : IsExpression zero := by
  have reads : Reads (scan zero).last (scan zero).place (.expression .lowest (.integer ⟨.int, "0", 1⟩ 0)) ⟨1, []⟩ := by
    rw [zero_scan]
    exact .expression (.start (.integer (.token _ _ rfl) (by decide +kernel))) rfl
  exact .of_reads reads

/-- A text that is one token has no gaps. -/
theorem split_single {c : Char} {more : List Char} {t : Token}
    (cut : Lexeme.cut c more = ⟨.token t.kind, more, []⟩)
    (lexeme : t.lexeme = c :: more) (line : t.line = 1) : Split.Of (c :: more) ⟨[([], t)], []⟩ := by
  have longest := Lexeme.cut_longest c more
  rw [cut] at longest
  refine ⟨?_, .none _, ?_, ?_, line, .none _⟩
  · simp [Split.written, lexeme]
  · simp [lexeme]
  · simpa [Split.written, lexeme] using longest

/-- The bracket opens a statement of its own. -/
theorem parse_bracketed_onTwoLines :
    IsExpression onTwoLines ∧ (∃ split : Split, split.Of onTwoLines.toList ∧ split.tail = []) ∧ IsExpression zero ∧
      (∃ split : Split, split.Of zero.toList ∧ ';' ∉ split.tail) ∧
      ∀ pair ∈ [("[", "]"), ("(", ")")],
        (parseSource (onTwoLines ++ pair.1 ++ zero ++ pair.2)).errors = [] ∧
          (parseSource (onTwoLines ++ pair.1 ++ zero ++ pair.2)).program.statements.length = 2 := by
  have noGap : ∃ split : Split, split.Of onTwoLines.toList ∧ split.tail = [] :=
    ⟨⟨[([], ⟨.str, "x\ny", 1⟩)], []⟩, split_single rfl rfl rfl, rfl⟩
  have noComment : ∃ split : Split, split.Of zero.toList ∧ ';' ∉ split.tail :=
    ⟨⟨[([], ⟨.int, "0", 1⟩)], []⟩, split_single rfl rfl rfl, by decide⟩
  refine ⟨onTwoLines_isExpression, noGap, zero_isExpression, noComment, ?_⟩
  have across : (scan onTwoLines).EndsAcross := by
    rw [onTwoLines_scan]
    exact ⟨_, rfl, by decide⟩
  have two := parse_bracketed onTwoLines_isExpression noGap zero_isExpression noComment
  rwa [if_pos across] at two

end Lantern
