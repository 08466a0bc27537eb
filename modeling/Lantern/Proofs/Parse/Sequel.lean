/-
  Lantern.Proofs.Parse.Sequel — the statements of one text behind another.

  A reading looks one token ahead, and it compares the lines of brackets with those of
  the tokens before them. So it does not change when all its tokens move down by the
  same number of lines, nor when more tokens follow, if it ends with a token of its own
  or they cannot go on with what it ends with (`Reads.shifted`, `Reads.moved`). What
  starts a statement is such a token, if it is no minus, and a bracket only at the start
  of a line. A minus is the one token that can both start a statement and go on with
  one.

  Main statements:

  - `parse_sequel`: a source behind another one, both free of syntax errors, the second
    not starting with a minus: no error, and the statements of both.
  - `parse_joined`: the same for any number of sources.
-/

import Lantern.Proofs.Parse.Completeness
import Lantern.Proofs.Parse.Spot
import Lantern.Proofs.Syntax.Retoken
import Lantern.Proofs.Token.Sequel

namespace Lantern.Grammar

variable {last : Token} {c c' : Place} {φ : Phrase} {kind : Kind} {t : Token}

/-! ## What a reading leaves behind -/

def Place.Within (bound : Nat) (c : Place) : Prop := c.line ≤ bound ∧ ∀ t ∈ c.ahead, t.line ≤ bound

theorem Reads.within {bound : Nat} (h : Reads last c φ c') (isPart : φ.isPart)
    (within : c.Within bound) :
    c'.Within bound := by
  have pass (line : Nat) (t : Token) (ts : List Token) (within : Place.Within bound ⟨line, t :: ts⟩) :
      Place.Within bound ⟨t.line, ts⟩ := List.forall_mem_cons.1 within.2
  exact h.along (T := fun c c' => c.Within bound → c'.Within bound) (fun _ => id) (fun f g => g ∘ f)
    (fun line t ts _ _ => pass line t ts) (fun line t ts _ _ _ => pass line t ts) isPart within

/-- No token that is read is illegal. -/
theorem Reads.legal {line : Nat} (h : Reads last c φ ⟨line, []⟩) (isPart : φ.isPart) :
    ∀ t ∈ c.ahead, t.kind ≠ .illegal := by
  have pass {t : Token} {ts : List Token} (legal : t.kind ≠ .illegal) :
      ∀ u ∈ t :: ts, u ∈ ts ∨ u.kind ≠ .illegal := by
    intro u here
    rcases List.mem_cons.1 here with rfl | later
    · exact .inr legal
    · exact .inl later
  intro t member
  refine (h.along (T := fun c c' => ∀ t ∈ c.ahead, t ∈ c'.ahead ∨ t.kind ≠ .illegal) ?_ ?_ ?_ ?_ isPart t member).resolve_left
    List.not_mem_nil
  · exact fun _ _ => .inl
  · exact fun f g t here => (f t here).elim (g t) .inr
  · exact fun _ _ _ legal _ => pass legal
  · exact fun _ _ _ _ number _ => pass (by rw [number]; decide)

theorem Reads.ahead_ne (h : Reads last c φ c') (more : c'.ahead ≠ []) : c.ahead ≠ [] := by
  have shorter := h.shorter
  rw [← List.length_pos_iff] at more ⊢
  omega

/-- What has a token at least does not start at the end. -/
theorem Reads.starts_ne (h : Reads last c φ c') (one : φ.least = 1) : c.ahead ≠ [] := by
  have shorter := h.shorter
  rw [← List.length_pos_iff]
  omega

theorem Reads.token_ne (h : Reads last c (.token kind t) c') : c.ahead ≠ [] := h.starts_ne rfl

/-! ## Moving a reading -/

def Phrase.retoken (g : Token → Token) : Phrase → Phrase
  | .token kind t => .token kind (g t)
  | .moreParameters names => .moreParameters (names.map (Identifier.retoken g))
  | .parameters names => .parameters (names.map (Identifier.retoken g))
  | .operand e => .operand (e.retoken g)
  | .climbing min e => .climbing min (e.retoken g)
  | .expression min e => .expression min (e.retoken g)
  | .extension left e => .extension (left.retoken g) (e.retoken g)
  | .expressions close es => .expressions close (Expr.retokenAll g es)
  | .moreExpressions close es => .moreExpressions close (Expr.retokenAll g es)
  | .elifs arms => .elifs (Elif.retokenAll g arms)
  | .otherwise alternative => .otherwise (Block.retokenElse g alternative)
  | .block close body => .block close (body.retoken g)
  | .statements close list => .statements close (Stmt.retokenAll g list)
  | .statement s => .statement (s.retoken g)
  | .functionStatement definition => .functionStatement (definition.retoken g)
  | .functionLiteral literal => .functionLiteral (literal.retoken g)
  | .methods members => .methods (FunctionStatement.retokenAll g members)

theorem target?_retoken (g : Token → Token) {left : Expr} {target : Target}
    (h : target? left = some target) :
    target? (left.retoken g) = some (target.retoken g) := by
  cases left <;> cases h <;> rfl

/-- What may end at the end of the input. The others are followed by the word that
    closes them. -/
def Phrase.Fits (c' : Place) : Phrase → Prop
  | .elifs _ | .otherwise _ | .block .. | .statements .. | .methods _ => c'.ahead ≠ []
  | _ => True

/-- What may go on with the tokens behind it. Any other phrase ends with a token of its
    own, or in front of one. -/
def Phrase.isOpen : Phrase → Bool
  | .operand _ | .climbing .. | .expression .. | .extension .. | .statement _ => true
  | _ => false

theorem Phrase.isPart_of_isOpen (isOpen : φ.isOpen) : φ.isPart := by
  cases φ <;> first | rfl | cases isOpen

def Place.moved (lines : Nat) (more : List Token) (c : Place) : Place :=
  ⟨c.line + lines, c.ahead.map (Token.down lines) ++ more⟩

/-- Nothing that ends on the bound at the latest goes on with these tokens. -/
def Apart (bound lines : Nat) (more : List Token) : Prop :=
  ∀ line ≤ bound, Place.Ends ⟨line + lines, more⟩

section

variable {bound lines : Nat} {more : List Token}

theorem Place.moved_shows (ahead : c.ahead ≠ []) (kind : Kind) :
    (c.moved lines more).shows kind = c.shows kind := by
  obtain ⟨line, _ | ⟨t, ts⟩⟩ := c
  · exact absurd rfl ahead
  · rfl

theorem Place.moved_stops (ahead : c.ahead ≠ []) (close : List Kind) :
    (c.moved lines more).stops close = c.stops close := by
  obtain ⟨line, _ | ⟨t, ts⟩⟩ := c
  · exact absurd rfl ahead
  · rfl

theorem Place.moved_headD (ahead : c.ahead ≠ []) (last last' : Token) :
    (c.moved lines more).ahead.headD last' = (c.ahead.headD last).down lines := by
  obtain ⟨line, _ | ⟨t, ts⟩⟩ := c
  · exact absurd rfl ahead
  · rfl

theorem Place.moved_extends (ahead : c.ahead ≠ []) (min : Precedence) :
    (c.moved lines more).extends? min = c.extends? min := by
  obtain ⟨line, _ | ⟨t, ts⟩⟩ := c
  · exact absurd rfl ahead
  · simp [moved, extends?, Token.down]

theorem Place.ahead_ne_of_extends {min : Precedence} (extends_ : c.extends? min) :
    c.ahead ≠ [] := by
  intro none
  rw [Place.extends?, none] at extends_
  cases extends_

/-- A reading moves down with its tokens, and does not see what follows: either it does
    not come to the end, or it ends with a token of its own, or what follows goes on
    with nothing there. -/
theorem Reads.shifted (last' : Token) (h : Reads last c φ c')
    (ends : φ.isOpen → c'.ahead = [] → (c'.moved lines more).Ends) (fits : φ.Fits c') :
    Reads last' (c.moved lines more) (φ.retoken (Token.down lines)) (c'.moved lines more) := by
  -- within a reading nothing comes to the end
  have inside {c : Place} {isOpen : Prop} (ahead : c.ahead ≠ []) : isOpen → c.ahead = [] → (c.moved lines more).Ends :=
    fun _ none => absurd none ahead
  induction h with
  | token line ts eq => exact .token _ _ eq
  | lastParameter _ ih => exact .lastParameter (ih nofun trivial)
  | nextParameter _ _ _ ihComma ihName ihMore =>
    exact .nextParameter (ihComma nofun trivial) (ihName nofun trivial) (ihMore nofun trivial)
  | noParameters _ _ ihOpen ihClose => exact .noParameters (ihOpen nofun trivial) (ihClose nofun trivial)
  | someParameters _ _ _ ihOpen ihName ihMore =>
    exact .someParameters (ihOpen nofun trivial) (ihName nofun trivial) (ihMore nofun trivial)
  | identifier _ ih => exact .identifier (ih nofun trivial)
  | integer _ number ih => exact .integer (ih nofun trivial) number
  | string _ ih => exact .string (ih nofun trivial)
  | truth _ ih => exact .truth (ih nofun trivial)
  | falsity _ ih => exact .falsity (ih nofun trivial)
  | negation _ _ ihToken ihOperand =>
    exact .negation (ihToken nofun trivial) (ihOperand (fun _ => ends rfl) trivial)
  | complement _ _ ihToken ihOperand =>
    exact .complement (ihToken nofun trivial) (ihOperand (fun _ => ends rfl) trivial)
  | group _ _ close ihOpen ihInner ihClose =>
    exact .group (ihOpen nofun trivial) (ihInner (inside close.token_ne) trivial) (ihClose nofun trivial)
  | array _ _ ihOpen ihItems => exact .array (ihOpen nofun trivial) (ihItems nofun trivial)
  | conditional _ _ then_ _ arms alternative end_ ihWord ihTest ihThen ihBody ihArms ihElse ihEnd =>
    have ahead := end_.token_ne
    exact .conditional (ihWord nofun trivial) (ihTest (inside then_.token_ne) trivial) (ihThen nofun trivial)
      (ihBody nofun (arms.ahead_ne (alternative.ahead_ne ahead))) (ihArms nofun (alternative.ahead_ne ahead))
      (ihElse nofun ahead) (ihEnd nofun trivial)
  | lambda _ _ ihWord ihLiteral => exact .lambda (ihWord nofun trivial) (ihLiteral nofun trivial)
  | start _ ih => exact .start (ih (fun _ => ends rfl) trivial)
  | climb _ extends_ _ ihLeft ihWider =>
    have ahead := Place.ahead_ne_of_extends extends_
    refine .climb (ihLeft (inside ahead) trivial) ?_ (ihWider (fun _ => ends rfl) trivial)
    rw [Place.moved_extends ahead]
    exact extends_
  | @expression c c' min e _ stops ih =>
    refine .expression (ih (fun _ => ends rfl) trivial) ?_
    by_cases ahead : c'.ahead = []
    · exact ends rfl ahead min
    · rw [Place.moved_extends ahead]
      exact stops
  | assignment _ _ found ihToken ihValue =>
    exact .assignment (ihToken nofun trivial) (ihValue (fun _ => ends rfl) trivial) (target?_retoken _ found)
  | call _ _ ihOpen ihArguments => exact .call (ihOpen nofun trivial) (ihArguments nofun trivial)
  | index _ _ close ihOpen ihPosition ihClose =>
    exact .index (ihOpen nofun trivial) (ihPosition (inside close.token_ne) trivial) (ihClose nofun trivial)
  | field _ _ ihDot ihName => exact .field (ihDot nofun trivial) (ihName nofun trivial)
  | binary _ writes _ ihToken ihRight =>
    exact .binary (ihToken nofun trivial) writes (ihRight (fun _ => ends rfl) trivial)
  | noExpressions bracket _ ih => exact .noExpressions bracket (ih nofun trivial)
  | someExpressions _ rest ihFirst ihRest =>
    exact .someExpressions (ihFirst (inside (rest.starts_ne rfl)) trivial) (ihRest nofun trivial)
  | lastExpression bracket _ ih => exact .lastExpression bracket (ih nofun trivial)
  | nextExpression _ _ rest ihComma ihFirst ihRest =>
    exact .nextExpression (ihComma nofun trivial) (ihFirst (inside (rest.starts_ne rfl)) trivial) (ihRest nofun trivial)
  | noElifs shows => exact .noElifs (by rw [Place.moved_shows fits]; exact shows)
  | someElifs _ _ then_ _ arms ihWord ihTest ihThen ihBody ihRest =>
    exact .someElifs (ihWord nofun trivial) (ihTest (inside then_.token_ne) trivial) (ihThen nofun trivial)
      (ihBody nofun (arms.ahead_ne fits)) (ihRest nofun fits)
  | noOtherwise shows => exact .noOtherwise (by rw [Place.moved_shows fits]; exact shows)
  | someOtherwise _ _ ihWord ihBody => exact .someOtherwise (ihWord nofun trivial) (ihBody nofun fits)
  | block list ih =>
    have reads := Reads.block (ih nofun fits)
    rw [Place.moved_headD (list.ahead_ne fits) last] at reads
    exact reads
  | noStatements stops => exact .noStatements (by rw [Place.moved_stops fits]; exact stops)
  | someStatements _ rest ihFirst ihRest =>
    exact .someStatements (ihFirst (inside (rest.ahead_ne fits)) trivial) (ihRest nofun fits)
  | returning _ _ ihWord ihValue =>
    exact .returning (ihWord nofun trivial) (ihValue (fun _ => ends rfl) trivial)
  | whileLoop _ _ then_ _ end_ ihWord ihTest ihThen ihBody ihEnd =>
    exact .whileLoop (ihWord nofun trivial) (ihTest (inside then_.token_ne) trivial) (ihThen nofun trivial)
      (ihBody nofun end_.token_ne) (ihEnd nofun trivial)
  | test _ _ _ end_ ihWord ihLabel ihBody ihEnd =>
    -- the label is read off the token, and moving the token leaves its text alone
    have reads :=
      Reads.test (ihWord nofun trivial) (ihLabel nofun trivial) (ihBody nofun end_.token_ne) (ihEnd nofun trivial)
    exact reads
  | classDefinition _ _ _ end_ ihWord ihName ihMembers ihEnd =>
    exact .classDefinition (ihWord nofun trivial) (ihName nofun trivial) (ihMembers nofun end_.token_ne)
      (ihEnd nofun trivial)
  | function _ ih => exact .function (ih nofun trivial)
  | plain _ ih => exact .plain (ih (fun _ => ends rfl) trivial)
  | functionStatement _ _ _ ihWord ihName ihLiteral =>
    exact .functionStatement (ihWord nofun trivial) (ihName nofun trivial) (ihLiteral nofun trivial)
  | functionLiteral _ _ end_ ihParameters ihBody ihEnd =>
    exact .functionLiteral (ihParameters nofun trivial) (ihBody nofun end_.token_ne) (ihEnd nofun trivial)
  | noMethods stops => exact .noMethods (by rw [Place.moved_stops fits]; exact stops)
  | someMethods _ _ ihFirst ihRest => exact .someMethods (ihFirst nofun trivial) (ihRest nofun fits)

/-- So it moves in front of tokens that go on with nothing that ends on the bound at the
    latest. -/
theorem Reads.moved (apart : Apart bound lines more) (last' : Token) (h : Reads last c φ c')
    (within : c.Within bound)
    (fits : φ.Fits c') :
    Reads last' (c.moved lines more) (φ.retoken (Token.down lines)) (c'.moved lines more) := by
  refine h.shifted last' (fun isOpen none => ?_) fits
  rw [Place.moved, none]
  exact apart c'.line (h.within (Phrase.isPart_of_isOpen isOpen) within).1

end

/-! ## Where a statement starts -/

/-- A statement starts with a token that continues nothing on a line above, or with a
    minus. -/
theorem isFresh_or_minus (starts : kind ∈ statementStart) : kind.isFresh ∨ kind = .minus := by
  revert kind
  decide

def Phrase.startsWithToken : Phrase → Bool
  | .token .. | .operand _ | .climbing .. | .expression .. | .statement _ | .functionStatement _ => true
  | _ => false

/-- What starts with a token does not see the line of the token before. -/
theorem Reads.reline (h : Reads last c φ c') (starts : φ.startsWithToken) (line : Nat) :
    Reads last ⟨line, c.ahead⟩ φ c' := by
  induction h with
  | token _ ts eq => exact .token _ ts eq
  | identifier _ ih => exact .identifier (ih rfl)
  | integer _ number ih => exact .integer (ih rfl) number
  | string _ ih => exact .string (ih rfl)
  | truth _ ih => exact .truth (ih rfl)
  | falsity _ ih => exact .falsity (ih rfl)
  | negation _ operand ih => exact .negation (ih rfl) operand
  | complement _ operand ih => exact .complement (ih rfl) operand
  | group _ inner close ih => exact .group (ih rfl) inner close
  | array _ elements ih => exact .array (ih rfl) elements
  | conditional _ tested then_ body arms alternative end_ ih =>
    exact .conditional (ih rfl) tested then_ body arms alternative end_
  | lambda _ literal ih => exact .lambda (ih rfl) literal
  | start _ ih => exact .start (ih rfl)
  | climb _ extends_ extension ih => exact .climb (ih rfl) extends_ extension
  | expression _ ends ih => exact .expression (ih rfl) ends
  | returning _ value ih => exact .returning (ih rfl) value
  | whileLoop _ tested then_ body end_ ih => exact .whileLoop (ih rfl) tested then_ body end_
  | test _ label body end_ ih => exact .test (ih rfl) label body end_
  | classDefinition _ name members end_ ih => exact .classDefinition (ih rfl) name members end_
  | function _ ih => exact .function (ih rfl)
  | plain _ ih => exact .plain (ih rfl)
  | functionStatement _ name literal ih => exact .functionStatement (ih rfl) name literal
  | _ => cases starts

/-- Neither do statements that go on to the end. -/
theorem Reads.statements_reline {list : List Stmt} {behind : Nat}
    (h : Reads last c (.statements [] list) ⟨behind, []⟩)
    (line : Nat) : ∃ behind, Reads last ⟨line, c.ahead⟩ (.statements [] list) ⟨behind, []⟩ := by
  cases h with
  | noStatements stops => exact ⟨line, .noStatements stops⟩
  | someStatements first rest => exact ⟨behind, .someStatements (first.reline rfl line) rest⟩

/-! ## Statements behind statements -/

/-- Statements that go on to the end go on to others that follow there. -/
theorem Reads.statements_append {bound lines : Nat} {more : List Token} {list others : List Stmt}
    {behind : Nat}
    (apart : Apart bound lines more) (last' : Token)
    (h : Reads last c (.statements [] list) ⟨behind, []⟩)
    (within : c.Within bound)
    (follow : ∀ line, ∃ behind, Reads last' ⟨line, more⟩ (.statements [] others) ⟨behind, []⟩) :
    ∃ behind, Reads last' (c.moved lines more) (.statements [] (Stmt.retokenAll (Token.down lines) list ++ others))
      ⟨behind, []⟩ := by
  induction list generalizing c with
  | nil =>
    cases h with
    | noStatements => exact follow _
  | cons first list ih =>
    cases h with
    | someStatements head rest =>
      obtain ⟨behind, reads⟩ := ih rest (head.within rfl within)
      exact ⟨behind, .someStatements (head.moved apart last' within trivial) reads⟩

/-- Tokens on later lines stand apart, if they start with no minus and can be read as
    statements. -/
theorem Reads.apart {bound : Nat} {list : List Stmt} (h : Reads last c (.statements [] list) c')
    (later : ∀ t ∈ c.ahead, bound < t.line) (noMinus : ∀ t ∈ c.ahead.head?, t.kind ≠ .minus) :
    Apart bound 0 c.ahead := by
  intro line early min
  cases h with
  | noStatements stops => rw [Place.stops_nil stops]; rfl
  | someStatements first rest =>
    obtain ⟨t, ts, ahead, starts⟩ := first.statement_starts
    rw [ahead] at later noMinus ⊢
    have below : line < t.line := Nat.lt_of_le_of_lt early (later t List.mem_cons_self)
    have fresh := (isFresh_or_minus starts).resolve_right (noMinus t rfl)
    exact Place.ends_fresh fresh below min

end Lantern.Grammar

namespace Lantern

open Grammar

theorem scan_within (source : String) : (scan source).place.Within (scan source).last.line := by
  obtain ⟨tokens, -⟩ := (Scanner.ofSource source).drain_lines
  refine ⟨?_, fun t member => (tokens t member).2⟩
  show ((scan source).tokens.headD (scan source).last).line ≤ (scan source).last.line
  cases ahead : (scan source).tokens with
  | nil => exact Nat.le_refl _
  | cons t ts => exact (tokens t (ahead ▸ List.mem_cons_self)).2

/-- Statements do not see where the tokens before them stood, so a stream parses to what
    its tokens read as. -/
theorem parse_of_ahead {stream : Stream} {c : Place} {list : List Stmt} {line : Nat}
    (atLast : stream.last.kind = .eof)
    (reads : Reads stream.last c (.statements [] list) ⟨line, []⟩)
    (ahead : c.ahead = stream.tokens) :
    (parse stream).errors = [] ∧ (parse stream).program.statements = list := by
  obtain ⟨_, relined⟩ := reads.statements_reline stream.place.line
  rw [ahead] at relined
  exact parse_of_reads atLast relined

theorem parse_of_no_tokens {source : String} (none : (scan source).tokens = []) :
    (parseSource source).errors = [] ∧ (parseSource source).program.statements = [] :=
  parse_of_ahead (scan_last source) (c := ⟨0, []⟩) (.noStatements rfl) none.symm

/-- The statements of a source can be read further down too, whatever the line before. -/
theorem reads_down {source : String} (clean : (parseSource source).errors = []) (lines line : Nat) :
    ∃ behind, Reads ((scan source).last.down lines) ⟨line, (scan source).tokens.map (Token.down lines)⟩
      (.statements [] (Stmt.retokenAll (Token.down lines) (parseSource source).program.statements)) ⟨behind, []⟩ := by
  obtain ⟨behind, reads⟩ := parse_reads (scan_last source) clean
  have alone : Apart (scan source).last.line lines [] := fun _ _ _ => rfl
  have nothing (line : Nat) :
      ∃ behind, Reads ((scan source).last.down lines) ⟨line, []⟩ (.statements [] []) ⟨behind, []⟩ :=
    ⟨line, .noStatements rfl⟩
  obtain ⟨after, moved⟩ := reads.statements_append alone _ (scan_within source) nothing
  rw [List.append_nil] at moved
  obtain ⟨behind, relined⟩ := moved.statements_reline line
  have ahead : ((scan source).place.moved lines []).ahead = (scan source).tokens.map (Token.down lines) := List.append_nil _
  rw [ahead] at relined
  exact ⟨behind, relined⟩

/-- Below the last line of another source it stands apart from that. -/
theorem down_apart {source : String} (clean : (parseSource source).errors = [])
    (noMinus : ∀ t ∈ (scan source).tokens.head?, t.kind ≠ .minus) (lines : Nat) :
    Apart lines 0 ((scan source).tokens.map (Token.down lines)) := by
  obtain ⟨behind, reads⟩ := reads_down clean lines 0
  refine reads.apart ?_ ?_
  · intro t member
    obtain ⟨u, here, rfl⟩ := List.mem_map.1 member
    have low : 1 ≤ u.line := ((Scanner.ofSource source).drain_lines.1 u here).1
    exact Nat.lt_add_of_pos_left low
  · intro t member
    rw [List.head?_map] at member
    obtain ⟨u, here, rfl⟩ := Option.map_eq_some_iff.1 member
    exact noMinus u here

/-- A source behind another one, on a line of its own and not starting with a minus: if
    both are free of syntax errors, so are the two together, and their statements are
    those of both. -/
theorem parse_sequel {source more : String} (clean : (parseSource source).errors = [])
    (clean' : (parseSource more).errors = [])
    (noMinus : ∀ t ∈ (scan more).tokens.head?, t.kind ≠ .minus) :
    (parseSource (source ++ "\n" ++ more)).errors = [] ∧
      (parseSource (source ++ "\n" ++ more)).program.statements = (parseSource source).program.statements ++
        Stmt.retokenAll (Token.down (scan source).last.line) (parseSource more).program.statements := by
  obtain ⟨behind, reads⟩ := parse_reads (scan_last source) clean
  have joined := scan_sequel (reads.legal rfl) more
  have ends := scan_last (source ++ "\n" ++ more)
  have within := scan_within source
  rw [show parseSource (source ++ "\n" ++ more) = parse (scan (source ++ "\n" ++ more)) from rfl]
  generalize (scan source).last.line = lines at joined within ⊢
  rw [joined] at ends ⊢
  -- the first source stays where it is
  obtain ⟨after, both⟩ := reads.statements_append (down_apart clean' noMinus lines) _ within (reads_down clean' lines)
  have still : Token.down 0 = id := rfl
  rw [still, Stmt.retokenAll_id] at both
  refine parse_of_ahead ends both ?_
  rw [Place.moved, still, List.map_id]
  rfl

/-! ## Many sources -/

def statementsOf (texts : List String) : List Stmt :=
  texts.flatMap fun text => (parseSource text).program.statements

theorem scan_empty : (scan "").tokens = [] := by
  have written : scan "" = ⟨Mark.tokens 1 [], .eof 1⟩ := scan_written rfl trivial
  rw [written]
  rfl

theorem intercalate_eq_foldl (between first : String) (texts : List String) :
    between.intercalate (first :: texts) = texts.foldl (fun before text => before ++ between ++ text) first := by
  induction texts generalizing first with
  | nil => rfl
  | cons text texts ih => exact ih _

theorem parse_foldl {first : String} {texts : List String} (clean : (parseSource first).errors = [])
    (cleanAll : ∀ text ∈ texts, (parseSource text).errors = [])
    (noMinus : ∀ text ∈ texts, ∀ t ∈ (scan text).tokens.head?, t.kind ≠ .minus) :
    let joined := parseSource (texts.foldl (fun before text => before ++ "\n" ++ text) first)
    joined.errors = [] ∧ Stmt.bareAll joined.program.statements = Stmt.bareAll (statementsOf (first :: texts)) := by
  induction texts generalizing first with
  | nil => exact ⟨clean, by simp [statementsOf]⟩
  | cons text texts ih =>
    obtain ⟨here, later⟩ := List.forall_mem_cons.1 cleanAll
    obtain ⟨fresh, later'⟩ := List.forall_mem_cons.1 noMinus
    obtain ⟨both, statements⟩ := parse_sequel clean here fresh
    obtain ⟨all, bare⟩ := ih both later later'
    refine ⟨all, bare.trans ?_⟩
    simp only [statementsOf, List.flatMap_cons, statements, Stmt.bareAll_append, Stmt.bareAll_retokenAll, List.append_assoc]

/-- Sources free of syntax errors, of which none but the first starts with a minus: put
    together line by line they are free of syntax errors, and come to the statements of
    all of them, up to the lines the tokens stand on. -/
theorem parse_joined {texts : List String} (clean : ∀ text ∈ texts, (parseSource text).errors = [])
    (noMinus : ∀ text ∈ texts.tail, ∀ t ∈ (scan text).tokens.head?, t.kind ≠ .minus) :
    let joined := parseSource ("\n".intercalate texts)
    joined.errors = [] ∧ Stmt.bareAll joined.program.statements = Stmt.bareAll (statementsOf texts) := by
  cases texts with
  | nil =>
    obtain ⟨clean, nothing⟩ := parse_of_no_tokens scan_empty
    exact ⟨clean, congrArg Stmt.bareAll nothing⟩
  | cons first texts =>
    obtain ⟨here, later⟩ := List.forall_mem_cons.1 clean
    rw [intercalate_eq_foldl]
    exact parse_foldl here later noMinus

end Lantern
