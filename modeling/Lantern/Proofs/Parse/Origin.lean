/-
  Lantern.Proofs.Parse.Origin — where the tokens in nodes and errors come from.

  A stream ends with an end token, and what line that one stands on depends on where the
  stream comes from: a list of tokens ends where its last token starts, a text on its
  last line. The parser passes the end token on like any other. It is the token of an
  empty block, and the one an error is about. But a block at the end of the input is
  never closed, so no node that survives holds it, and no decision looks at its line. So
  two streams with the same tokens give the same program and the same errors, but for
  the lines of those errors that are about the end.
  - `ParseError.About`: which token an error is about.
  - `allRooted`: every production builds nodes of tokens that were ahead, and complains
    about these or about the end.
  - `parse_ends`: streams that differ in the line of the end token only.
  - `parse_prepared`: a text, and the list of its tokens.
-/

import Lantern.Proofs.Parse.Abreast
import Lantern.Proofs.Parse.Charge
import Lantern.Proofs.Token.Split

namespace Lantern

open Grammar

/-! ## What an error is about -/

inductive ParseError.About : ParseError → Token → Prop
  | unexpected (expected : Kind) (found : Token) : About (.unexpected expected found) found
  | noExpression (found : Token) : About (.noExpression found) found
  | badInteger (found : Token) : About (.badInteger found) found
  | noName (found : Token) : About (.noName found) found
  | noClassName (found : Token) : About (.noClassName found) found
  | noTestLabel (found : Token) : About (.noTestLabel found) found
  | notAMethod (found : Token) : About (.notAMethod found) found
  | badTarget (target : Expr) : About (.badTarget target) target.token

theorem ParseError.About.line_eq {e : ParseError} {t : Token} (about : e.About t) :
    e.line = t.line := by
  cases about <;> rfl

/-- With other lines on the tokens, there is the same error about the same token. -/
theorem ParseError.About.reline {g : Token → Token} (relines : Relines g) {e : ParseError}
    {t : Token} (about : e.About t) :
    ∃ e' : ParseError, e'.About (g t) ∧ e.Moved g e' := by
  cases about with
  | unexpected expected => exact ⟨_, .unexpected expected _, moved_unexpected relines expected t⟩
  | noExpression => exact ⟨_, .noExpression _, moved_noExpression relines t⟩
  | badInteger => exact ⟨_, .badInteger _, moved_badInteger relines t⟩
  | noName => exact ⟨_, .noName _, moved_noName relines t⟩
  | noClassName => exact ⟨_, .noClassName _, moved_noClassName relines t⟩
  | noTestLabel => exact ⟨_, .noTestLabel _, moved_noTestLabel relines t⟩
  | notAMethod => exact ⟨_, .notAMethod _, moved_notAMethod relines t⟩
  | badTarget target =>
    have about := ParseError.About.badTarget (target.retoken g)
    rw [Expr.retoken_token] at about
    exact ⟨_, about, moved_badTarget target⟩

def Token.onLine (line : Nat) (t : Token) : Token := { t with line }

theorem relines_onLine (line : Nat) : Relines (Token.onLine line) := ⟨fun _ => rfl, fun _ => rfl⟩

/-- An error does not look at the line of its token but to repeat it. -/
theorem ParseError.About.onLine {e : ParseError} {t : Token} (about : e.About t) (line : Nat) :
    ParseError.About { e with line } (t.onLine line) := by
  obtain ⟨e', about', kind, message, -⟩ := about.reline (relines_onLine line)
  have line' : e'.line = line := about'.line_eq
  have same : e' = { e with line } := by
    obtain ⟨_, _, _⟩ := e'
    simp only at kind message line'
    rw [kind, message, line']
  rw [← same]
  exact about'

/-! ## Tokens that are left alone -/

/-- Ahead are tokens that `g` leaves alone, and every error is about such a token or
    about the end token. -/
structure Parser.Rooted (g : Token → Token) (last : Token) (s : Parser) : Prop where
  atEnd : s.cursor.last = last
  ahead : ∀ t ∈ s.cursor.ahead, g t = t
  errors : ∀ e ∈ s.errors.toList, ∃ t : Token, (g t = t ∨ t = last) ∧ e.About t

def Reply.Rooted {α : Type} (g : Token → Token) (last : Token) (s : Parser)
    (R : α → Parser → Prop) : Reply α → Prop
  | .built node s' => s'.Rooted g last ∧ (s.cursor.ahead = [] → s'.cursor.ahead = []) ∧ R node s'
  | .gaveUp s' => s'.Rooted g last ∧ (s.cursor.ahead = [] → s'.cursor.ahead = [])
  | .exhausted => True

variable {g : Token → Token} {last : Token}

theorem Parser.Rooted.push {s : Parser} (rooted : s.Rooted g last) {e : ParseError} {t : Token}
    (about : e.About t)
    (here : g t = t ∨ t = last) : Parser.Rooted g last { s with errors := s.errors.push e } := by
  refine ⟨rooted.atEnd, rooted.ahead, fun e' member => ?_⟩
  rw [Array.toList_push] at member
  rcases List.mem_append.1 member with old | new
  · exact rooted.errors e' old
  · rw [List.mem_singleton.1 new]
    exact ⟨t, here, about⟩

/-- The current token is left alone or is the end token. -/
theorem Parser.Rooted.current {s : Parser} (rooted : s.Rooted g last) :
    g s.cursor.current = s.cursor.current ∨ s.cursor.current = last := by
  rcases ahead : s.cursor.ahead with _ | ⟨t, ts⟩
  · exact .inr (by simp [Cursor.current, ahead, rooted.atEnd])
  · have current : s.cursor.current = t := by simp [Cursor.current, ahead]
    rw [current]
    exact .inl (rooted.ahead t (by simp [ahead]))

theorem Parser.Rooted.passed {s : Parser} (rooted : s.Rooted g last) {t : Token} {ts : List Token}
    (ahead : s.cursor.ahead = t :: ts) : s.passed.Rooted g last ∧ g t = t := by
  have all := rooted.ahead
  rw [ahead] at all
  obtain ⟨here, later⟩ := List.forall_mem_cons.1 all
  rw [passed_eq ahead]
  exact ⟨⟨rooted.atEnd, later, rooted.errors⟩, here⟩

theorem Parser.Rooted.sought {s : Parser} (rooted : s.Rooted g last) (kinds : List Kind) :
    Parser.Rooted g last { s with cursor := (s.cursor.seek kinds).2 } := by
  have seeks : (s.cursor.seek kinds).2.last = s.cursor.last ∧
      ∀ t ∈ (s.cursor.seek kinds).2.ahead, t ∈ s.cursor.ahead := by
    generalize s.cursor = cursor
    fun_induction Cursor.seek kinds cursor with
    | case1 cursor none => exact ⟨rfl, fun _ => id⟩
    | case2 cursor token more ahead found => exact ⟨rfl, fun _ => id⟩
    | case3 cursor token more ahead other ih =>
      refine ⟨ih.1, fun t member => ?_⟩
      rw [ahead]
      exact List.mem_cons_of_mem _ (ih.2 t member)
  exact ⟨seeks.1.trans rooted.atEnd, fun t member => rooted.ahead t (seeks.2 t member), rooted.errors⟩

namespace Reply

variable {α β : Type} {s : Parser} {R : α → Parser → Prop} {Q : β → Parser → Prop}

theorem rooted_done {node : α} (rooted : s.Rooted g last) (holds : R node s) :
    ((pure node : Production α) s).Rooted g last s R := ⟨rooted, id, holds⟩

theorem rooted_fail (rooted : s.Rooted g last) {e : ParseError} {t : Token} (about : e.About t)
    (here : g t = t ∨ t = last) : ((Production.fail e : Production α) s).Rooted g last s R :=
  ⟨rooted.push about here, id⟩

theorem Rooted.after {reply : Reply β} {s' : Parser}
    (ends : s.cursor.ahead = [] → s'.cursor.ahead = [])
    (h : reply.Rooted g last s' Q) : reply.Rooted g last s Q := by
  cases reply with
  | built node s'' => exact ⟨h.1, fun none => h.2.1 (ends none), h.2.2⟩
  | gaveUp s'' => exact ⟨h.1, fun none => h.2 (ends none)⟩
  | exhausted => trivial

/-- Two productions in a row. -/
theorem Rooted.bind {p : Production α} {f : α → Production β} (hp : (p s).Rooted g last s R)
    (hf : ∀ node s', s'.Rooted g last → (s.cursor.ahead = [] → s'.cursor.ahead = []) → R node s' →
      (f node s').Rooted g last s' Q) :
    ((p >>= f) s).Rooted g last s Q := by
  change (Production.andThen p f s).Rooted g last s Q
  unfold Production.andThen
  cases first : p s with
  | built node s' =>
    rw [first] at hp
    exact Rooted.after hp.2.1 (hf node s' hp.1 hp.2.1 hp.2.2)
  | gaveUp s' => rw [first] at hp; exact hp
  | exhausted => trivial

/-- Passing a token that is known to be next. -/
theorem Rooted.pass {f : Token → Production β} (rooted : s.Rooted g last) {t : Token}
    {ts : List Token}
    (ahead : s.cursor.ahead = t :: ts)
    (hf : s.passed.Rooted g last → g t = t → (f t s.passed).Rooted g last s.passed Q) :
    ((Production.advance >>= f) s).Rooted g last s Q := by
  obtain ⟨passed, fixed⟩ := rooted.passed ahead
  rw [Production.advance_bind ahead]
  exact Rooted.after (fun none => by rw [none] at ahead; cases ahead) (hf passed fixed)

theorem Rooted.attempt {p : Production α} (hp : (p s).Rooted g last s R) :
    (Production.attempt p s).Rooted g last s fun node? s' => ∀ node ∈ node?, R node s' := by
  unfold Production.attempt
  cases tried : p s with
  | built node s' =>
    rw [tried] at hp
    refine ⟨hp.1, hp.2.1, fun _ here => ?_⟩
    cases here
    exact hp.2.2
  | gaveUp s' =>
    rw [tried] at hp
    exact ⟨hp.1, hp.2, fun _ here => nomatch here⟩
  | exhausted => trivial

end Reply

/-! ## The productions -/

namespace Grammar

open Production Reply

def Roots {α : Type} (g : Token → Token) (last : Token) (p : Production α) (R : α → Parser → Prop) :
    Prop :=
  ∀ s : Parser, s.Rooted g last → (p s).Rooted g last s R

theorem expect_rooted {s : Parser} (rooted : s.Rooted g last) {kind : Kind}
    (atLast : last.kind ≠ kind) :
    (expect kind s).Rooted g last s fun _ _ => s.cursor.ahead ≠ [] := by
  unfold expect
  rw [ask_bind]
  by_cases eq : s.cursor.current.kind = kind
  · rw [if_pos (by simpa using eq)]
    obtain ⟨t, ts, ahead, -⟩ := ahead_of_current rooted.atEnd atLast eq
    have passed := (rooted.passed ahead).1
    rw [Parser.passed_eq ahead] at passed
    simp only [advance, Cursor.advance, ahead]
    exact ⟨passed, fun none => (by rw [none] at ahead; cases ahead), List.cons_ne_nil _ _⟩
  · rw [if_neg (by simpa using eq)]
    exact rooted_fail rooted (.unexpected kind _) rooted.current

theorem ofToken_fixed {t : Token} (fixed : g t = t) :
    (Identifier.ofToken t).retoken g = .ofToken t := by
  rw [Identifier.retoken, Identifier.ofToken, fixed]

theorem identifier_rooted {s : Parser} (rooted : s.Rooted g last) (atLast : last.kind = .eof) :
    (identifier s).Rooted g last s fun name _ => name.retoken g = name := by
  unfold identifier
  rw [ask_bind]
  by_cases eq : s.cursor.current.kind = .ident
  · rw [if_pos (by simpa using eq)]
    obtain ⟨t, ts, ahead, -⟩ := ahead_of_current rooted.atEnd (by simp [atLast]) eq
    exact Rooted.pass rooted ahead fun passed fixed => rooted_done passed (ofToken_fixed fixed)
  · rw [if_neg (by simpa using eq)]
    exact rooted_fail rooted (.noName _) rooted.current

theorem ensureProgress_rooted (consumed : Nat) {s : Parser} (rooted : s.Rooted g last) :
    (ensureProgress consumed s).Rooted g last s fun _ _ => True := by
  unfold ensureProgress
  rw [ask_bind]
  split
  · rcases ahead : s.cursor.ahead with _ | ⟨t, ts⟩
    · rw [advance_bind_atEnd rfl ahead]
      exact rooted_done rooted trivial
    · exact Rooted.pass rooted ahead fun passed _ => rooted_done passed trivial
  · exact rooted_done rooted trivial

/-- All productions build nodes of tokens that are left alone. What holds blocks that
    are still open may hold the end token instead, but only where nothing is left to
    close them. -/
structure AllRooted (g : Token → Token) (last : Token) (bound : Nat) : Prop where
  moreParameters : Roots g last (Grammar.moreParameters bound) fun names _ => names.map (Identifier.retoken g) = names
  expression (min : Precedence) : Roots g last (Grammar.expression bound min) fun e _ => e.retoken g = e
  operand : Roots g last (Grammar.operand bound) fun e _ => e.retoken g = e
  climb (min : Precedence) {left : Expr} (fixed : left.retoken g = left) :
    Roots g last (Grammar.climb bound min left) fun e _ => e.retoken g = e
  extension {left : Expr} (fixed : left.retoken g = left) :
    Roots g last (Grammar.extension bound left) fun e _ => e.retoken g = e
  expressions (close : Kind) (bracket : close = .rparen ∨ close = .rbracket) :
    Roots g last (Grammar.expressions bound close) fun es _ => Expr.retokenAll g es = es
  moreExpressions (close : Kind) (bracket : close = .rparen ∨ close = .rbracket) :
    Roots g last (Grammar.moreExpressions bound close) fun es _ => Expr.retokenAll g es = es
  elifs : Roots g last (Grammar.elifs bound) fun arms s' => Elif.retokenAll g arms = arms ∨ s'.cursor.ahead = []
  otherwise : Roots g last (Grammar.otherwise bound) fun arm s' => Block.retokenElse g arm = arm ∨ s'.cursor.ahead = []
  block (close : List Kind) :
    Roots g last (Grammar.block bound close) fun body s' => body.retoken g = body ∨ s'.cursor.ahead = []
  statements (close : List Kind) : Roots g last (Grammar.statements bound close) fun list _ => Stmt.retokenAll g list = list
  statement {s : Parser} (rooted : s.Rooted g last) (ahead : s.cursor.ahead ≠ []) :
    (Grammar.statement bound s).Rooted g last s fun statement _ => statement.retoken g = statement
  functionStatement {s : Parser} (rooted : s.Rooted g last) (ahead : s.cursor.ahead ≠ []) :
    (Grammar.functionStatement bound s).Rooted g last s fun definition _ => definition.retoken g = definition
  functionLiteral : Roots g last (Grammar.functionLiteral bound) fun literal _ => literal.retoken g = literal
  methods : Roots g last (Grammar.methods bound) fun members _ => FunctionStatement.retokenAll g members = members

section

variable {bound : Nat} (atLast : last.kind = .eof) (ih : AllRooted g last bound)
include atLast ih

theorem moreParameters_rooted :
    Roots g last (Grammar.moreParameters (bound + 1)) fun names _ => names.map (Identifier.retoken g) = names := by
  intro s rooted
  unfold Grammar.moreParameters
  rw [ask_bind, check_eq_shows rooted.atEnd (by simp [atLast])]
  by_cases comma : s.place.shows .comma
  · obtain ⟨t, ts, ahead, -⟩ := Place.shows_inv comma
    rw [if_pos comma]
    refine Rooted.pass rooted ahead fun rooted₁ _ => ?_
    refine Rooted.bind (identifier_rooted rooted₁ atLast) fun name s₂ rooted₂ _ fixed => ?_
    refine Rooted.bind (ih.moreParameters s₂ rooted₂) fun names s₃ rooted₃ _ rest => ?_
    exact rooted_done rooted₃ (by rw [List.map_cons, fixed, rest])
  · rw [if_neg comma]
    refine Rooted.bind (expect_rooted rooted (by simp [atLast])) fun _ s₂ rooted₂ _ _ => ?_
    exact rooted_done rooted₂ rfl

theorem parameters_rooted :
    Roots g last (Grammar.parameters bound) fun names _ => names.map (Identifier.retoken g) = names := by
  intro s rooted
  unfold Grammar.parameters
  refine Rooted.bind (expect_rooted rooted (by simp [atLast])) fun _ s₁ rooted₁ _ _ => ?_
  rw [ask_bind, check_eq_shows rooted₁.atEnd (by simp [atLast])]
  by_cases close : s₁.place.shows .rparen
  · obtain ⟨t, ts, ahead, -⟩ := Place.shows_inv close
    rw [if_pos close]
    exact Rooted.pass rooted₁ ahead fun rooted₂ _ => rooted_done rooted₂ rfl
  · rw [if_neg close]
    refine Rooted.bind (identifier_rooted rooted₁ atLast) fun name s₂ rooted₂ _ fixed => ?_
    refine Rooted.bind (ih.moreParameters s₂ rooted₂) fun names s₃ rooted₃ _ rest => ?_
    exact rooted_done rooted₃ (by rw [List.map_cons, fixed, rest])

omit atLast in
theorem expression_rooted (min : Precedence) :
    Roots g last (Grammar.expression (bound + 1) min) fun e _ => e.retoken g = e := by
  intro s rooted
  unfold Grammar.expression
  exact Rooted.bind (ih.operand s rooted) fun left s₁ rooted₁ _ fixed => ih.climb min fixed s₁ rooted₁

omit atLast in
theorem climb_rooted (min : Precedence) {left : Expr} (fixed : left.retoken g = left) :
    Roots g last (Grammar.climb (bound + 1) min left) fun e _ => e.retoken g = e := by
  intro s rooted
  unfold Grammar.climb
  rw [ask_bind]
  split
  · exact Rooted.bind (ih.extension fixed s rooted) fun wider s₁ rooted₁ _ wide => ih.climb min wide s₁ rooted₁
  · exact rooted_done rooted fixed

theorem expressions_rooted (close : Kind) (bracket : close = .rparen ∨ close = .rbracket) :
    Roots g last (Grammar.expressions (bound + 1) close) fun es _ => Expr.retokenAll g es = es := by
  intro s rooted
  unfold Grammar.expressions
  rw [ask_bind, check_eq_shows rooted.atEnd (by rcases bracket with rfl | rfl <;> simp [atLast])]
  by_cases closed : s.place.shows close
  · obtain ⟨t, ts, ahead, -⟩ := Place.shows_inv closed
    rw [if_pos closed]
    exact Rooted.pass rooted ahead fun rooted₁ _ => rooted_done rooted₁ rfl
  · rw [if_neg closed]
    refine Rooted.bind (ih.expression .lowest s rooted) fun first s₁ rooted₁ _ fixed => ?_
    refine Rooted.bind (ih.moreExpressions close bracket s₁ rooted₁) fun more s₂ rooted₂ _ rest => ?_
    exact rooted_done rooted₂ (by rw [Expr.retokenAll, fixed, rest])

theorem moreExpressions_rooted (close : Kind) (bracket : close = .rparen ∨ close = .rbracket) :
    Roots g last (Grammar.moreExpressions (bound + 1) close) fun es _ => Expr.retokenAll g es = es := by
  intro s rooted
  unfold Grammar.moreExpressions
  rw [ask_bind, check_eq_shows rooted.atEnd (by simp [atLast])]
  by_cases comma : s.place.shows .comma
  · obtain ⟨t, ts, ahead, -⟩ := Place.shows_inv comma
    rw [if_pos comma]
    refine Rooted.pass rooted ahead fun rooted₁ _ => ?_
    refine Rooted.bind (ih.expression .lowest _ rooted₁) fun next s₂ rooted₂ _ fixed => ?_
    refine Rooted.bind (ih.moreExpressions close bracket s₂ rooted₂) fun more s₃ rooted₃ _ rest => ?_
    exact rooted_done rooted₃ (by rw [Expr.retokenAll, fixed, rest])
  · rw [if_neg comma]
    refine Rooted.bind (expect_rooted rooted ?_) fun _ s₁ rooted₁ _ _ => ?_
    · rcases bracket with rfl | rfl <;> simp [atLast]
    · exact rooted_done rooted₁ rfl

theorem operand_rooted : Roots g last (Grammar.operand (bound + 1)) fun e _ => e.retoken g = e := by
  intro s rooted
  unfold Grammar.operand
  rw [ask_bind]
  rcases ahead : s.cursor.ahead with _ | ⟨t, ts⟩
  · have current : s.cursor.current = last := by simp [Cursor.current, ahead, rooted.atEnd]
    rw [current, atLast]
    dsimp only
    rw [advance_bind_atEnd rooted.atEnd ahead]
    exact rooted_fail rooted (.noExpression last) (.inr rfl)
  · have current : s.cursor.current = t := by simp [Cursor.current, ahead]
    rw [current]
    cases kind : t.kind
    case ident =>
      refine Rooted.pass rooted ahead fun rooted₁ fixed => ?_
      exact rooted_done rooted₁ (by rw [Expr.retoken, ofToken_fixed fixed])
    case int =>
      unfold integer
      refine Rooted.pass rooted ahead fun rooted₁ fixed => ?_
      cases Text.decimal? t.text with
      | some value => exact rooted_done rooted₁ (by rw [Expr.retoken, fixed])
      | none => exact rooted_fail rooted₁ (.badInteger t) (.inl fixed)
    case str | trueWord | falseWord =>
      refine Rooted.pass rooted ahead fun rooted₁ fixed => ?_
      exact rooted_done rooted₁ (by rw [Expr.retoken, fixed])
    case minus | bang =>
      refine Rooted.pass rooted ahead fun rooted₁ fixed => ?_
      refine Rooted.bind (ih.expression .unary _ rooted₁) fun e s₂ rooted₂ _ inner => ?_
      exact rooted_done rooted₂ (by rw [Expr.retoken, fixed, inner])
    case lparen =>
      refine Rooted.pass rooted ahead fun rooted₁ _ => ?_
      refine Rooted.bind (ih.expression .lowest _ rooted₁) fun e s₂ rooted₂ _ inner => ?_
      refine Rooted.bind (expect_rooted rooted₂ (by simp [atLast])) fun _ s₃ rooted₃ _ _ => ?_
      exact rooted_done rooted₃ inner
    case lbracket =>
      refine Rooted.pass rooted ahead fun rooted₁ fixed => ?_
      refine Rooted.bind (ih.expressions .rbracket (.inr rfl) _ rooted₁) fun es s₂ rooted₂ _ elements => ?_
      exact rooted_done rooted₂ (by rw [Expr.retoken, fixed, elements])
    case ifWord =>
      refine Rooted.pass rooted ahead fun rooted₁ fixed => ?_
      refine Rooted.bind (ih.expression .lowest _ rooted₁) fun condition s₂ rooted₂ _ tested => ?_
      refine Rooted.bind (expect_rooted rooted₂ (by simp [atLast])) fun _ s₃ rooted₃ _ _ => ?_
      refine Rooted.bind (ih.block armEnd s₃ rooted₃) fun consequence s₄ rooted₄ _ body => ?_
      refine Rooted.bind (ih.elifs s₄ rooted₄) fun arms s₅ rooted₅ ends₅ more => ?_
      refine Rooted.bind (ih.otherwise s₅ rooted₅) fun alternative s₆ rooted₆ ends₆ other => ?_
      refine Rooted.bind (expect_rooted rooted₆ (by simp [atLast])) fun _ s₇ rooted₇ _ inside => ?_
      -- the word that closes the conditional is there, so no arm was read at the end
      have body := body.resolve_right fun none => inside (ends₆ (ends₅ none))
      have more := more.resolve_right fun none => inside (ends₆ none)
      have other := other.resolve_right inside
      exact rooted_done rooted₇ (by rw [Expr.retoken, fixed, tested, body, more, other])
    case fnWord =>
      refine Rooted.pass rooted ahead fun rooted₁ fixed => ?_
      refine Rooted.bind (ih.functionLiteral _ rooted₁) fun literal s₂ rooted₂ _ function => ?_
      exact rooted_done rooted₂ (by rw [Expr.retoken, fixed, function])
    all_goals
      refine Rooted.pass rooted ahead fun rooted₁ fixed => ?_
      exact rooted_fail rooted₁ (.noExpression t) (.inl fixed)

omit atLast ih in
theorem target?_fixed {left : Expr} (fixed : left.retoken g = left) {target : Target}
    (found : target? left = some target) :
    target.retoken g = target := by
  have changed := target?_retoken_eq (g := g) left
  rw [fixed, found] at changed
  exact (Option.some.inj changed).symm

theorem extension_rooted {left : Expr} (fixed : left.retoken g = left) :
    Roots g last (Grammar.extension (bound + 1) left) fun e _ => e.retoken g = e := by
  intro s rooted
  unfold Grammar.extension
  rcases ahead : s.cursor.ahead with _ | ⟨t, ts⟩
  · rw [advance_bind_atEnd rooted.atEnd ahead, atLast]
    exact ⟨rooted, id⟩
  · refine Rooted.pass rooted ahead fun rooted₁ here => ?_
    cases kind : t.kind
    case assign =>
      refine Rooted.bind (ih.expression .lowest _ rooted₁) fun value s₂ rooted₂ _ right => ?_
      cases found : target? left with
      | some target =>
        exact rooted_done rooted₂ (by rw [Expr.retoken, here, target?_fixed fixed found, right])
      | none =>
        have token := Expr.retoken_token (g := g) left
        rw [fixed] at token
        exact rooted_fail rooted₂ (.badTarget left) (.inl token.symm)
    case lparen =>
      refine Rooted.bind (ih.expressions .rparen (.inl rfl) _ rooted₁) fun es s₂ rooted₂ _ arguments => ?_
      exact rooted_done rooted₂ (by rw [Expr.retoken, here, fixed, arguments])
    case lbracket =>
      refine Rooted.bind (ih.expression .lowest _ rooted₁) fun position s₂ rooted₂ _ inner => ?_
      refine Rooted.bind (expect_rooted rooted₂ (by simp [atLast])) fun _ s₃ rooted₃ _ _ => ?_
      exact rooted_done rooted₃ (by rw [Expr.retoken, here, fixed, inner])
    case dot =>
      refine Rooted.bind (identifier_rooted rooted₁ atLast) fun name s₂ rooted₂ _ named => ?_
      exact rooted_done rooted₂ (by rw [Expr.retoken, here, fixed, named])
    all_goals
      dsimp only
      generalize InfixOp.ofKind? _ = op?
      cases op? with
      | some op =>
        refine Rooted.bind (ih.expression _ _ rooted₁) fun right s₂ rooted₂ _ inner => ?_
        exact rooted_done rooted₂ (by rw [Expr.retoken, here, fixed, inner])
      | none => exact ⟨rooted₁, id⟩

theorem elifs_rooted :
    Roots g last (Grammar.elifs (bound + 1)) fun arms s' => Elif.retokenAll g arms = arms ∨ s'.cursor.ahead = [] := by
  intro s rooted
  unfold Grammar.elifs
  rw [ask_bind, check_eq_shows rooted.atEnd (by simp [atLast])]
  by_cases word : s.place.shows .elifWord
  · obtain ⟨t, ts, ahead, -⟩ := Place.shows_inv word
    rw [if_pos word]
    refine Rooted.pass rooted ahead fun rooted₁ _ => ?_
    refine Rooted.bind (ih.expression .lowest _ rooted₁) fun condition s₂ rooted₂ _ tested => ?_
    refine Rooted.bind (expect_rooted rooted₂ (by simp [atLast])) fun _ s₃ rooted₃ _ _ => ?_
    refine Rooted.bind (ih.block armEnd s₃ rooted₃) fun arm s₄ rooted₄ _ body => ?_
    refine Rooted.bind (ih.elifs s₄ rooted₄) fun arms s₅ rooted₅ ends₅ more => ?_
    refine rooted_done rooted₅ ?_
    rcases body with body | none
    · rcases more with more | none
      · exact .inl (by rw [Elif.retokenAll, tested, body, more])
      · exact .inr none
    · exact .inr (ends₅ none)
  · rw [if_neg word]
    exact rooted_done rooted (.inl rfl)

theorem otherwise_rooted :
    Roots g last (Grammar.otherwise (bound + 1)) fun arm s' => Block.retokenElse g arm = arm ∨ s'.cursor.ahead = [] := by
  intro s rooted
  unfold Grammar.otherwise
  rw [ask_bind, check_eq_shows rooted.atEnd (by simp [atLast])]
  by_cases word : s.place.shows .elseWord
  · obtain ⟨t, ts, ahead, -⟩ := Place.shows_inv word
    rw [if_pos word]
    refine Rooted.pass rooted ahead fun rooted₁ _ => ?_
    refine Rooted.bind (ih.block bodyEnd _ rooted₁) fun arm s₂ rooted₂ _ body => ?_
    exact rooted_done rooted₂ (body.imp_left fun body => by rw [Block.retokenElse, body])
  · rw [if_neg word]
    exact rooted_done rooted (.inl rfl)

omit atLast in
theorem block_rooted (close : List Kind) :
    Roots g last (Grammar.block (bound + 1) close) fun body s' => body.retoken g = body ∨ s'.cursor.ahead = [] := by
  intro s rooted
  unfold Grammar.block
  rw [ask_bind]
  refine Rooted.bind (ih.statements close s rooted) fun list s₁ rooted₁ ends₁ fixed => ?_
  refine rooted_done rooted₁ ?_
  rcases ahead : s.cursor.ahead with _ | ⟨t, ts⟩
  · exact .inr (ends₁ ahead)
  · have current : s.cursor.current = t := by simp [Cursor.current, ahead]
    have here : g t = t := rooted.ahead t (by simp [ahead])
    exact .inl (by rw [Block.retoken, current, here, fixed])

omit atLast in
theorem statements_rooted (close : List Kind) :
    Roots g last (Grammar.statements (bound + 1) close) fun list _ => Stmt.retokenAll g list = list := by
  intro s rooted
  unfold Grammar.statements
  rw [ask_bind, stops_eq]
  by_cases stop : s.place.stops close
  · rw [if_pos stop]
    exact rooted_done rooted rfl
  · rw [if_neg stop, ask_bind]
    have attempted := (ih.statement rooted (Place.ahead_ne_nil stop)).attempt
    refine Rooted.bind attempted fun first? s₁ rooted₁ _ fixed => ?_
    cases first? with
    | some first =>
      refine Rooted.bind (ih.statements close s₁ rooted₁) fun list s₂ rooted₂ _ rest => ?_
      exact rooted_done rooted₂ (by rw [Stmt.retokenAll, fixed first rfl, rest])
    | none => exact Rooted.bind (ensureProgress_rooted _ rooted₁) fun _ s₂ rooted₂ _ _ => ih.statements close s₂ rooted₂

theorem functionStatement_rooted {s : Parser} (rooted : s.Rooted g last)
    (ahead : s.cursor.ahead ≠ []) :
    (Grammar.functionStatement (bound + 1) s).Rooted g last s fun definition _ => definition.retoken g = definition := by
  obtain ⟨t, ts, ahead⟩ := List.exists_cons_of_ne_nil ahead
  unfold Grammar.functionStatement
  refine Rooted.pass rooted ahead fun rooted₁ fixed => ?_
  refine Rooted.bind (identifier_rooted rooted₁ atLast) fun name s₂ rooted₂ _ named => ?_
  refine Rooted.bind (ih.functionLiteral s₂ rooted₂) fun literal s₃ rooted₃ _ function => ?_
  exact rooted_done rooted₃ (by rw [FunctionStatement.retoken, fixed, named, function])

theorem functionLiteral_rooted :
    Roots g last (Grammar.functionLiteral (bound + 1)) fun literal _ => literal.retoken g = literal := by
  intro s rooted
  unfold Grammar.functionLiteral
  refine Rooted.bind (parameters_rooted atLast ih s rooted) fun names s₁ rooted₁ _ named => ?_
  refine Rooted.bind (ih.block bodyEnd s₁ rooted₁) fun body s₂ rooted₂ _ fixed => ?_
  refine Rooted.bind (expect_rooted rooted₂ (by simp [atLast])) fun _ s₃ rooted₃ _ inside => ?_
  exact rooted_done rooted₃ (by rw [FunctionLiteral.retoken, named, fixed.resolve_right inside])

theorem statement_rooted {s : Parser} (rooted : s.Rooted g last) (ahead : s.cursor.ahead ≠ []) :
    (Grammar.statement (bound + 1) s).Rooted g last s fun statement _ => statement.retoken g = statement := by
  obtain ⟨t, ts, ahead⟩ := List.exists_cons_of_ne_nil ahead
  have current : s.cursor.current = t := by simp [Cursor.current, ahead]
  unfold Grammar.statement
  rw [ask_bind, current]
  -- a statement that starts with none of the four words
  have other : ((do
      if ← ask startsFunction then
        return Stmt.function (← Grammar.functionStatement bound)
      else
        return Stmt.expression t (← Grammar.expression bound .lowest) : Production Stmt) s).Rooted g last s
        fun statement _ => statement.retoken g = statement := by
    rw [ask_bind]
    by_cases starts : startsFunction s.cursor
    · rw [if_pos starts]
      refine Rooted.bind (ih.functionStatement rooted (by simp [ahead])) fun definition s₁ rooted₁ _ fixed => ?_
      exact rooted_done rooted₁ (by rw [Stmt.retoken, fixed])
    · rw [if_neg starts]
      refine Rooted.bind (ih.expression .lowest s rooted) fun value s₁ rooted₁ _ fixed => ?_
      exact rooted_done rooted₁ (by rw [Stmt.retoken, (rooted.passed ahead).2, fixed])
  cases kind : t.kind
  case returnWord =>
    refine Rooted.pass rooted ahead fun rooted₁ here => ?_
    refine Rooted.bind (ih.expression .lowest _ rooted₁) fun value s₂ rooted₂ _ fixed => ?_
    exact rooted_done rooted₂ (by rw [Stmt.retoken, here, fixed])
  case whileWord =>
    refine Rooted.pass rooted ahead fun rooted₁ here => ?_
    refine Rooted.bind (ih.expression .lowest _ rooted₁) fun condition s₂ rooted₂ _ tested => ?_
    refine Rooted.bind (expect_rooted rooted₂ (by simp [atLast])) fun _ s₃ rooted₃ _ _ => ?_
    refine Rooted.bind (ih.block bodyEnd s₃ rooted₃) fun body s₄ rooted₄ _ fixed => ?_
    refine Rooted.bind (expect_rooted rooted₄ (by simp [atLast])) fun _ s₅ rooted₅ _ inside => ?_
    exact rooted_done rooted₅ (by rw [Stmt.retoken, here, tested, fixed.resolve_right inside])
  case testWord =>
    refine Rooted.pass rooted ahead fun rooted₁ here => ?_
    rw [ask_bind]
    by_cases labelled : s.passed.cursor.current.kind = .str
    · obtain ⟨label, ls, ahead₁, -⟩ := ahead_of_current rooted₁.atEnd (by rw [atLast]; decide) labelled
      rw [if_pos (by simpa using labelled)]
      refine Rooted.pass rooted₁ ahead₁ fun rooted₂ _ => ?_
      refine Rooted.bind (ih.block bodyEnd _ rooted₂) fun body s₃ rooted₃ _ fixed => ?_
      refine Rooted.bind (expect_rooted rooted₃ (by simp [atLast])) fun _ s₄ rooted₄ _ inside => ?_
      exact rooted_done rooted₄ (by rw [Stmt.retoken, here, fixed.resolve_right inside])
    · rw [if_neg (by simpa using labelled)]
      exact rooted_fail rooted₁ (.noTestLabel _) rooted₁.current
  case classWord =>
    refine Rooted.pass rooted ahead fun rooted₁ here => ?_
    rw [ask_bind]
    by_cases named : s.passed.cursor.current.kind = .ident
    · obtain ⟨name, ls, ahead₁, current₁⟩ := ahead_of_current rooted₁.atEnd (by rw [atLast]; decide) named
      rw [if_pos (by simpa using named), current₁]
      refine Rooted.pass rooted₁ ahead₁ fun rooted₂ fixed => ?_
      refine Rooted.bind (ih.methods _ rooted₂) fun members s₃ rooted₃ _ all => ?_
      refine Rooted.bind (expect_rooted rooted₃ (by simp [atLast])) fun _ s₄ rooted₄ _ _ => ?_
      exact rooted_done rooted₄ (by rw [Stmt.retoken, here, ofToken_fixed fixed, all])
    · rw [if_neg (by simpa using named)]
      exact rooted_fail rooted₁ (.noClassName _) rooted₁.current
  all_goals exact other

omit atLast in
theorem methods_rooted :
    Roots g last (Grammar.methods (bound + 1)) fun members _ => FunctionStatement.retokenAll g members = members := by
  intro s rooted
  unfold Grammar.methods
  rw [ask_bind, atEnd_or_endWord]
  by_cases stop : s.place.stops [.endWord]
  · rw [if_pos stop]
    exact rooted_done rooted rfl
  rw [if_neg stop, ask_bind]
  by_cases starts : startsFunction s.cursor
  · rw [if_pos starts, ask_bind]
    have attempted := (ih.functionStatement rooted (Place.ahead_ne_nil stop)).attempt
    refine Rooted.bind attempted fun method? s₁ rooted₁ _ fixed => ?_
    cases method? with
    | some method =>
      refine Rooted.bind (ih.methods s₁ rooted₁) fun members s₂ rooted₂ _ rest => ?_
      exact rooted_done rooted₂ (by rw [FunctionStatement.retokenAll, fixed method rfl, rest])
    | none => exact Rooted.bind (ensureProgress_rooted _ rooted₁) fun _ s₂ rooted₂ _ _ => ih.methods s₂ rooted₂
  · rw [if_neg starts, ask_bind]
    obtain ⟨t, ts, ahead⟩ := List.exists_cons_of_ne_nil (Place.ahead_ne_nil stop)
    have recorded := rooted.push (.notAMethod s.cursor.current) rooted.current
    have sought := (recorded.passed ahead).1.sought memberStart
    refine Rooted.after (fun none => ?_) (ih.methods _ sought)
    rw [none] at ahead
    cases ahead

end

/-- All productions stay rooted. -/
theorem allRooted (atLast : last.kind = .eof) (bound : Nat) : AllRooted g last bound := by
  induction bound with
  | zero => constructor <;> intros <;> first | trivial | (intro s _; trivial)
  | succ bound ih =>
    exact ⟨moreParameters_rooted atLast ih, expression_rooted ih, operand_rooted atLast ih, climb_rooted ih,
      extension_rooted atLast ih, expressions_rooted atLast ih, moreExpressions_rooted atLast ih, elifs_rooted atLast ih,
      otherwise_rooted atLast ih, block_rooted ih, statements_rooted ih, statement_rooted atLast ih,
      functionStatement_rooted atLast ih, functionLiteral_rooted atLast ih, methods_rooted ih⟩

end Grammar

/-! ## Whole streams -/

/-- The parser that starts on a stream is rooted, if `g` leaves the tokens of the stream
    alone. -/
theorem Parser.rooted_ofStream {stream : Stream} (fixed : ∀ t ∈ stream.tokens, g t = t) :
    (Parser.ofStream stream).Rooted g stream.last := ⟨rfl, fixed, fun _ none => nomatch none⟩

/-- What a whole stream parses to is rooted in its tokens. -/
theorem parse_rooted {stream : Stream} (atLast : stream.last.kind = .eof)
    (fixed : ∀ t ∈ stream.tokens, g t = t) :
    Stmt.retokenAll g (parse stream).program.statements = (parse stream).program.statements ∧
      ∀ e ∈ (parse stream).errors, ∃ t, (g t = t ∨ t = stream.last) ∧ e.About t := by
  obtain ⟨list, behind, built⟩ := statements_built [] atLast (Parser.ofStream stream).enough_bound
  have rooted := (allRooted atLast (Parser.ofStream stream).bound).statements [] _ (Parser.rooted_ofStream fixed)
  rw [built] at rooted
  rw [parse_of_built built]
  exact ⟨rooted.2.2, rooted.1.errors⟩

/-- The token, on the next line unless it is one of these. -/
def Token.movedUnless (tokens : List Token) (t : Token) : Token :=
  if t ∈ tokens then t else { t with line := t.line + 1 }

theorem Token.movedUnless_eq_self {tokens : List Token} {t : Token} :
    t.movedUnless tokens = t ↔ t ∈ tokens := by
  constructor
  · intro fixed
    by_contra other
    have line := congrArg Token.line fixed
    rw [Token.movedUnless, if_neg other] at line
    exact Nat.succ_ne_self t.line line
  · intro here
    rw [Token.movedUnless, if_pos here]

/-- Every error is about a token of the stream or about its end. -/
theorem parse_about {stream : Stream} (atLast : stream.last.kind = .eof) {e : ParseError}
    (member : e ∈ (parse stream).errors) :
    (∃ t ∈ stream.tokens, e.About t) ∨ e.About stream.last := by
  -- the tokens of the stream are those that stay where they are
  have rooted := parse_rooted (g := Token.movedUnless stream.tokens) atLast fun t here => Token.movedUnless_eq_self.2 here
  obtain ⟨t, fixed | rfl, about⟩ := rooted.2 e member
  · exact .inl ⟨t, Token.movedUnless_eq_self.1 fixed, about⟩
  · exact .inr about

/-! ## The line of the end -/

/-- The line, where none is put on this one. -/
def endingOn (last line : Nat) : Nat := if line = 0 then last else line

def Token.endingOn (last : Nat) (t : Token) : Token := t.onLine (Lantern.endingOn last t.line)

theorem relines_endingOn (last : Nat) : Relines (Token.endingOn last) :=
  ⟨fun _ => rfl, fun _ => rfl⟩

theorem Token.endingOn_of_pos {t : Token} (low : 1 ≤ t.line) (last : Nat) :
    t.endingOn last = t := by
  have line : Lantern.endingOn last t.line = t.line := if_neg (Nat.pos_iff_ne_zero.1 low)
  rw [Token.endingOn, line, Token.onLine]

/-- Which line the end token stands on shows in the lines of the errors that are about
    it and nowhere else. -/
theorem parse_ends {tokens : List Token} (low : ∀ t ∈ tokens, 1 ≤ t.line) (last : Nat) :
    parse ⟨tokens, .eof last⟩ = ⟨(parse ⟨tokens, .eof 0⟩).program,
      (parse ⟨tokens, .eof 0⟩).errors.map fun e => { e with line := endingOn last e.line }⟩ := by
  rcases ahead : tokens with _ | ⟨first, rest⟩
  · rfl
  rw [← ahead]
  have fixed (t : Token) (here : t ∈ tokens) : t.endingOn last = t := Token.endingOn_of_pos (low t here) last
  let unmarked : Parser := .ofStream ⟨tokens, .eof 0⟩
  let marked : Parser := .ofStream ⟨tokens, .eof last⟩
  have beside : unmarked.Beside (Token.endingOn last) 0 0 marked := by
    refine ⟨⟨?_, fun t here => by rw [fixed t here]; rfl, rfl, ?_, rfl⟩, .nil⟩
    · exact ((List.map_congr_left fixed).trans (List.map_id tokens)).symm
    · simp [unmarked, marked, Parser.ofStream, Cursor.ofStream, ahead]
  obtain ⟨list, behind, built⟩ := statements_built [] rfl unmarked.enough_bound
  obtain ⟨list', behind', built'⟩ := statements_built [] rfl marked.enough_bound
  have replies := (allAbreast (relines_endingOn last) 0 0 unmarked.bound marked.bound).statements [] _ _ beside
  rw [built, built'] at replies
  obtain ⟨rfl, besideEnd⟩ := replies
  have atLast : (Stream.mk tokens (.eof 0)).last.kind = .eof := rfl
  have same := (parse_rooted atLast fixed).1
  rw [parse_of_built built] at same
  rw [parse_of_built built, parse_of_built built', moved_map (endingOn last) (fun _ => rfl) besideEnd.errors]
  exact congrArg (fun list => (⟨⟨list⟩, _⟩ : Parsed)) same

end Lantern
