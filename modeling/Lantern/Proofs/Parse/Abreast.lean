/-
  Lantern.Proofs.Parse.Abreast — two parsers abreast of each other.

  A parser compares kinds and texts of tokens, and the lines of brackets with those of
  the tokens before them. It counts tokens only to see whether the count has changed. So
  two parsers go the same way if the second one has the tokens of the first with their
  lines moved down all by the same number, and counts from another number on
  (`Parser.Beside`). The end token may move as it likes. This holds for malformed input
  as well: both give up where one does, with the same error about the same token
  (`ParseError.Moved`). Neither sees its bound on the recursion, unless it is used up.
  - `Abreast.bind` and so on: each step of a production keeps two parsers abreast.
  - `allAbreast`: so do all productions, and the second builds the node of the first
    with its tokens changed.
-/

import Lantern.Proofs.Parse.Soundness
import Lantern.Proofs.Syntax.Layout
import Lantern.Proofs.Syntax.Retoken
import Mathlib.Data.List.Forall2

namespace Lantern

/-! ## Changing tokens -/

structure Relines (g : Token → Token) : Prop where
  kind (t : Token) : (g t).kind = t.kind
  text (t : Token) : (g t).text = t.text

/-- The same error about the same token, which has been changed. -/
def ParseError.Moved (g : Token → Token) (e e' : ParseError) : Prop :=
  e'.kind = e.kind ∧ e'.message = e.message ∧ ∃ t : Token, e.line = t.line ∧ e'.line = (g t).line

section

variable {g : Token → Token}

/-- Where the change of a line depends on the line alone, so does the change of an error. -/
theorem moved_map (line : Nat → Nat) (lines : ∀ t, (g t).line = line t.line)
    {errors errors' : List ParseError}
    (moved : List.Forall₂ (ParseError.Moved g) errors errors') :
    errors' = errors.map fun e => { e with line := line e.line } := by
  induction moved with
  | nil => rfl
  | @cons e e' _ _ moved _ ih =>
    obtain ⟨kind, message, t, here, there⟩ := moved
    have same : e' = { e with line := line e.line } := by
      obtain ⟨_, _, _⟩ := e'
      simp only at kind message there
      rw [kind, message, there, lines, here]
    rw [ih, same]
    rfl

@[simp] theorem Expr.retoken_token (e : Expr) : (e.retoken g).token = g e.token := by
  cases e <;> simp [Expr.retoken, Expr.token, Identifier.retoken]

@[simp] theorem Expr.retoken_kindName (e : Expr) : (e.retoken g).kindName = e.kindName := by
  cases e <;> simp [Expr.retoken, Expr.kindName]

@[simp] theorem Expr.retoken_render (e : Expr) : (e.retoken g).render = e.render := by
  have bare : (e.retoken g).bare = e.bare := by
    have same := Expr.retoken_bare (g := id) e
    rw [Expr.retoken_id] at same
    rw [Expr.retoken_bare, same]
  rw [← String.toList_inj, Expr.toList_render, Expr.toList_render, ← Expr.marks_bare, bare, Expr.marks_bare]

theorem target?_retoken_eq (left : Expr) :
    Grammar.target? (left.retoken g) = (Grammar.target? left).map (Target.retoken g) := by
  cases left <;> simp [Expr.retoken, Grammar.target?, Target.retoken]

variable (relines : Relines g)
include relines

theorem Relines.describe (t : Token) : (g t).describe = t.describe := by
  unfold Token.describe
  rw [relines.kind, relines.text]

omit relines in
theorem moved_of_line {kind : ParseErrorKind} {message message' : String} (t : Token)
    (same : message' = message) :
    ParseError.Moved g ⟨kind, message, t.line⟩ ⟨kind, message', (g t).line⟩ :=
  ⟨rfl, same, t, rfl, rfl⟩

theorem moved_unexpected (kind : Kind) (t : Token) :
    ParseError.Moved g (.unexpected kind t) (.unexpected kind (g t)) :=
  moved_of_line t (by rw [relines.describe])

theorem moved_noExpression (t : Token) :
    ParseError.Moved g (.noExpression t) (.noExpression (g t)) :=
  moved_of_line t (by rw [relines.describe])

theorem moved_badInteger (t : Token) : ParseError.Moved g (.badInteger t) (.badInteger (g t)) :=
  moved_of_line t (by rw [relines.text])

theorem moved_noName (t : Token) : ParseError.Moved g (.noName t) (.noName (g t)) :=
  moved_of_line t (by rw [relines.describe])

theorem moved_noClassName (t : Token) : ParseError.Moved g (.noClassName t) (.noClassName (g t)) :=
  moved_of_line t (by rw [relines.describe])

theorem moved_noTestLabel (t : Token) : ParseError.Moved g (.noTestLabel t) (.noTestLabel (g t)) :=
  moved_of_line t (by rw [relines.describe])

theorem moved_notAMethod (t : Token) : ParseError.Moved g (.notAMethod t) (.notAMethod (g t)) :=
  moved_of_line t (by rw [relines.describe])

omit relines in
theorem moved_badTarget (left : Expr) :
    ParseError.Moved g (.badTarget left) (.badTarget (left.retoken g)) := by
  rw [ParseError.badTarget, ParseError.badTarget, Expr.retoken_token]
  exact moved_of_line _ (by rw [Expr.retoken_render, Expr.retoken_kindName])

end

/-! ## Cursors and parsers side by side -/

/-- The second cursor stands where the first does: its tokens are those of the first
    with their lines moved down, and it has passed so many more. -/
structure Cursor.Beside (g : Token → Token) (lines more : Nat) (c c' : Cursor) : Prop where
  ahead : c'.ahead = c.ahead.map g
  down : ∀ t ∈ c.ahead, (g t).line = t.line + lines
  last : c'.last = g c.last
  line : c'.previousLine = c.previousLine + lines
  consumed : c'.consumed = c.consumed + more

structure Parser.Beside (g : Token → Token) (lines more : Nat) (s s' : Parser) : Prop where
  cursor : s.cursor.Beside g lines more s'.cursor
  errors : List.Forall₂ (ParseError.Moved g) s.errors.toList s'.errors.toList

namespace Cursor.Beside

variable {g : Token → Token} {lines more : Nat} {c c' : Cursor} (beside : c.Beside g lines more c')
include beside

theorem current : c'.current = g c.current := by
  rw [Cursor.current, Cursor.current, beside.ahead, beside.last]
  cases c.ahead <;> rfl

theorem atEnd : c'.atEnd = c.atEnd := by
  rw [Cursor.atEnd, Cursor.atEnd, beside.ahead, List.isEmpty_map]

/-- A token opens a line in both or in none. -/
theorem onNewLine (inside : c.ahead ≠ []) : c'.onNewLine = c.onNewLine := by
  obtain ⟨t, ts, ahead⟩ := List.exists_cons_of_ne_nil inside
  have current : c.current = t := by simp [Cursor.current, ahead]
  have down := beside.down t (by simp [ahead])
  rw [Cursor.onNewLine, Cursor.onNewLine, beside.current, beside.line, current, down]
  simp

theorem advance : c'.advance.1 = g c.advance.1 ∧ c.advance.2.Beside g lines more c'.advance.2 := by
  have ahead' := beside.ahead
  unfold Cursor.advance
  cases ahead : c.ahead with
  | nil =>
    rw [ahead] at ahead'
    simp only [ahead', List.map_nil]
    exact ⟨beside.last, beside⟩
  | cons t ts =>
    rw [ahead] at ahead'
    have down := beside.down
    rw [ahead] at down
    obtain ⟨here, later⟩ := List.forall_mem_cons.1 down
    simp only [ahead', List.map_cons]
    exact ⟨trivial, rfl, later, beside.last, here, by simp only [beside.consumed]; omega⟩

variable (relines : Relines g)
include relines

theorem kind : c'.kind = c.kind := by
  rw [Cursor.kind, Cursor.kind, beside.current, relines.kind]

theorem check (kind : Kind) : c'.check kind = c.check kind := by
  rw [Cursor.check, Cursor.check, beside.kind relines]

theorem peekKind : c'.peekKind = c.peekKind := by
  rw [Cursor.peekKind, Cursor.peekKind, beside.ahead, beside.last, ← relines.kind (c.ahead.tail.headD c.last)]
  rcases c.ahead with _ | ⟨_, _ | ⟨_, _⟩⟩ <;> rfl

theorem seek (kinds : List Kind) :
    (c'.seek kinds).1 = (c.seek kinds).1 ∧ (c.seek kinds).2.Beside g lines more
    (c'.seek kinds).2 := by
  fun_induction Cursor.seek kinds c generalizing c' with
  | case1 c ahead =>
    have ahead' := beside.ahead
    rw [ahead] at ahead'
    rw [Cursor.seek.eq_def]
    split
    · exact ⟨rfl, beside⟩
    · next t ts eq => rw [eq] at ahead'; cases ahead'
  | case2 c t ts ahead found =>
    have ahead' := beside.ahead
    rw [ahead] at ahead'
    rw [Cursor.seek.eq_def]
    split
    · next eq => rw [eq] at ahead'; cases ahead'
    · next u us eq =>
      rw [eq] at ahead'
      obtain ⟨rfl, rfl⟩ := List.cons.inj ahead'
      rw [relines.kind, if_pos found]
      exact ⟨rfl, beside⟩
  | case3 c t ts ahead other ih =>
    have ahead' := beside.ahead
    rw [ahead] at ahead'
    have passed := beside.advance.2
    rw [Cursor.seek.eq_def]
    split
    · next eq => rw [eq] at ahead'; cases ahead'
    · next u us eq =>
      simp only [Cursor.advance, ahead, eq] at passed
      rw [eq] at ahead'
      obtain ⟨rfl, rfl⟩ := List.cons.inj ahead'
      rw [relines.kind, if_neg other]
      exact ih passed

end Cursor.Beside

theorem Parser.Beside.push {g : Token → Token} {lines more : Nat} {s s' : Parser}
    (beside : s.Beside g lines more s')
    {e e' : ParseError} (moved : e.Moved g e') :
    Parser.Beside g lines more { s with errors := s.errors.push e } { s' with errors := s'.errors.push e' } := by
  refine ⟨beside.cursor, ?_⟩
  rw [Array.toList_push, Array.toList_push]
  exact List.rel_append beside.errors (.cons moved .nil)

/-! ## Productions side by side -/

/-- The second reply is the first one, with its node changed by `f`. A reply that used
    up its bound can be beside any other. -/
def Reply.Beside {α β : Type} (g : Token → Token) (lines more : Nat) (f : α → β) :
    Reply α → Reply β → Prop
  | .exhausted, _ => True
  | _, .exhausted => True
  | .built a s, .built b s' => b = f a ∧ s.Beside g lines more s'
  | .gaveUp s, .gaveUp s' => s.Beside g lines more s'
  | _, _ => False

theorem Reply.beside_exhausted {α β : Type} {g : Token → Token} {lines more : Nat} {f : α → β}
    (reply : Reply α) :
    reply.Beside g lines more f .exhausted := by
  cases reply <;> trivial

def Abreast {α β : Type} (g : Token → Token) (lines more : Nat) (f : α → β) (p : Production α)
    (p' : Production β) : Prop :=
  ∀ s s' : Parser, s.Beside g lines more s' → Reply.Beside g lines more f (p s) (p' s')

namespace Abreast

open Production

variable {g : Token → Token} {lines more : Nat} {α β γ δ : Type}

theorem stop_left {f : α → β} {p' : Production β} : Abreast g lines more f stop p' :=
  fun _ _ _ => trivial

theorem stop_right {f : α → β} {p : Production α} : Abreast g lines more f p stop := by
  exact fun s _ _ => (p s).beside_exhausted

theorem done {f : α → β} {a : α} {b : β} (eq : b = f a) :
    Abreast g lines more f (pure a) (pure b) :=
  fun _ _ beside => ⟨eq, beside⟩

theorem bind {f : α → β} {h : γ → δ} {p : Production α} {p' : Production β} {k : α → Production γ}
    {k' : β → Production δ}
    (first : Abreast g lines more f p p') (next : ∀ a, Abreast g lines more h (k a) (k' (f a))) :
    Abreast g lines more h (p >>= k) (p' >>= k') := by
  intro s s' beside
  have replies := first s s' beside
  change Reply.Beside g lines more h (andThen p k s) (andThen p' k' s')
  unfold andThen
  cases built : p s with
  | exhausted => trivial
  | built a s₁ =>
    cases built' : p' s' with
    | built b s₁' =>
      rw [built, built'] at replies
      obtain ⟨rfl, beside₁⟩ := replies
      exact next a s₁ s₁' beside₁
    | gaveUp s₁' => rw [built, built'] at replies; exact replies.elim
    | exhausted => exact (k a s₁).beside_exhausted
  | gaveUp s₁ =>
    cases built' : p' s' with
    | built b s₁' => rw [built, built'] at replies; exact replies.elim
    | gaveUp s₁' => rw [built, built'] at replies; exact replies
    | exhausted => trivial

theorem attempt {f : α → β} {p : Production α} {p' : Production β}
    (first : Abreast g lines more f p p') :
    Abreast g lines more (Option.map f) (Production.attempt p) (Production.attempt p') := by
  intro s s' beside
  have replies := first s s' beside
  unfold Production.attempt
  cases built : p s with
  | exhausted => trivial
  | built a s₁ =>
    cases built' : p' s' with
    | built b s₁' =>
      rw [built, built'] at replies
      exact ⟨congrArg some replies.1, replies.2⟩
    | gaveUp s₁' => rw [built, built'] at replies; exact replies.elim
    | exhausted => trivial
  | gaveUp s₁ =>
    cases built' : p' s' with
    | built b s₁' => rw [built, built'] at replies; exact replies.elim
    | gaveUp s₁' => rw [built, built'] at replies; exact ⟨rfl, replies⟩
    | exhausted => trivial

theorem asks {f : α → β} {question : Cursor → α} {question' : Cursor → β}
    (same : ∀ c c' : Cursor, c.Beside g lines more c' → question' c' = f (question c)) :
    Abreast g lines more f (ask question) (ask question') :=
  fun _ _ beside => ⟨same _ _ beside.cursor, beside⟩

/-- A question that both answer alike. -/
theorem choose {f : α → β} {question : Cursor → Bool} {a b : Production α} {a' b' : Production β}
    (same : ∀ c c' : Cursor, c.Beside g lines more c' → question c' = question c)
    (yes : Abreast g lines more f a a')
    (no : Abreast g lines more f b b') :
    Abreast g lines more f (ask question >>= fun answer => if answer = true then a else b)
      (ask question >>= fun answer => if answer = true then a' else b') := by
  refine bind (asks (f := id) same) fun answer => ?_
  cases answer
  · exact no
  · exact yes

theorem current {f : α → β} {k : Token → Production α} {k' : Token → Production β}
    (next : ∀ t, Abreast g lines more f (k t) (k' (g t))) :
    Abreast g lines more f (ask Cursor.current >>= k) (ask Cursor.current >>= k') :=
  bind (asks fun _ _ beside => beside.current) next

theorem fail {f : α → β} {e e' : ParseError} (moved : e.Moved g e') :
    Abreast g lines more f (Production.fail e) (Production.fail e') :=
  fun _ _ beside => beside.push moved

theorem giveUp {f : α → β} : Abreast g lines more f Production.giveUp Production.giveUp :=
  fun _ _ beside => beside

theorem record {e e' : ParseError} (moved : e.Moved g e') :
    Abreast g lines more id (Production.record e) (Production.record e') :=
  fun _ _ beside => ⟨rfl, beside.push moved⟩

theorem advance : Abreast g lines more g Production.advance Production.advance := by
  intro s s' beside
  obtain ⟨token, cursor⟩ := beside.cursor.advance
  exact ⟨token, cursor, beside.errors⟩

theorem ensureProgress (consumed : Nat) :
    Abreast g lines more id (Production.ensureProgress consumed) (Production.ensureProgress (consumed + more)) := by
  refine bind (f := (· + more)) (asks fun _ _ beside => beside.consumed) fun now => ?_
  by_cases stalled : now = consumed
  · rw [if_pos (by simp [stalled]), if_pos (by simp [stalled])]
    exact bind advance fun _ => done rfl
  · rw [if_neg (by simpa using stalled), if_neg (by simpa using stalled)]
    exact done rfl

variable (relines : Relines g)
include relines

theorem check {f : α → β} (kind : Kind) {a b : Production α} {a' b' : Production β}
    (yes : Abreast g lines more f a a')
    (no : Abreast g lines more f b b') :
    Abreast g lines more f (ask (·.check kind) >>= fun answer => if answer = true then a else b)
      (ask (·.check kind) >>= fun answer => if answer = true then a' else b') :=
  choose (fun _ _ beside => beside.check relines kind) yes no

theorem seek (kinds : List Kind) :
    Abreast g lines more id (Production.seek kinds) (Production.seek kinds) := by
  intro s s' beside
  obtain ⟨found, cursor⟩ := beside.cursor.seek relines kinds
  exact ⟨found, cursor, beside.errors⟩

theorem expect (kind : Kind) :
    Abreast g lines more g (Production.expect kind) (Production.expect kind) := by
  refine current fun t => ?_
  rw [relines.kind]
  split
  · exact advance
  · exact fail (moved_unexpected relines kind t)

theorem identifier :
    Abreast g lines more (Identifier.retoken g) Production.identifier Production.identifier := by
  refine current fun t => ?_
  rw [relines.kind]
  split
  · refine bind advance fun t => done ?_
    rw [Identifier.ofToken, Identifier.ofToken, Identifier.retoken, relines.text]
  · exact fail (moved_noName relines t)

end Abreast

/-! ## All productions -/

namespace Grammar

open Production

structure AllAbreast (g : Token → Token) (lines more bound bound' : Nat) : Prop where
  moreParameters : Abreast g lines more (List.map (Identifier.retoken g)) (Grammar.moreParameters bound)
    (Grammar.moreParameters bound')
  expression (min : Precedence) :
    Abreast g lines more (Expr.retoken g) (Grammar.expression bound min) (Grammar.expression bound' min)
  operand : Abreast g lines more (Expr.retoken g) (Grammar.operand bound) (Grammar.operand bound')
  climb (min : Precedence) (left : Expr) :
    Abreast g lines more (Expr.retoken g) (Grammar.climb bound min left) (Grammar.climb bound' min (left.retoken g))
  extension (left : Expr) :
    Abreast g lines more (Expr.retoken g) (Grammar.extension bound left) (Grammar.extension bound' (left.retoken g))
  expressions (close : Kind) :
    Abreast g lines more (Expr.retokenAll g) (Grammar.expressions bound close) (Grammar.expressions bound' close)
  moreExpressions (close : Kind) :
    Abreast g lines more (Expr.retokenAll g) (Grammar.moreExpressions bound close) (Grammar.moreExpressions bound' close)
  elifs : Abreast g lines more (Elif.retokenAll g) (Grammar.elifs bound) (Grammar.elifs bound')
  otherwise : Abreast g lines more (Block.retokenElse g) (Grammar.otherwise bound) (Grammar.otherwise bound')
  block (close : List Kind) :
    Abreast g lines more (Block.retoken g) (Grammar.block bound close) (Grammar.block bound' close)
  statements (close : List Kind) :
    Abreast g lines more (Stmt.retokenAll g) (Grammar.statements bound close) (Grammar.statements bound' close)
  statement : Abreast g lines more (Stmt.retoken g) (Grammar.statement bound) (Grammar.statement bound')
  functionStatement :
    Abreast g lines more (FunctionStatement.retoken g) (Grammar.functionStatement bound) (Grammar.functionStatement bound')
  functionLiteral :
    Abreast g lines more (FunctionLiteral.retoken g) (Grammar.functionLiteral bound) (Grammar.functionLiteral bound')
  methods : Abreast g lines more (FunctionStatement.retokenAll g) (Grammar.methods bound) (Grammar.methods bound')

section

variable {g : Token → Token} {lines more bound bound' : Nat} (relines : Relines g)

theorem extends?_beside (min : Precedence) {c c' : Cursor} (beside : c.Beside g lines more c')
    (relines : Relines g) :
    extends? min c' = extends? min c := by
  unfold extends?
  rw [beside.atEnd, beside.kind relines]
  by_cases inside : c.ahead = []
  · simp [Cursor.atEnd, inside]
  · rw [beside.onNewLine inside]

include relines

theorem startsFunction_beside {c c' : Cursor} (beside : c.Beside g lines more c') :
    startsFunction c' = startsFunction c := by
  rw [startsFunction, startsFunction, beside.kind relines, beside.peekKind relines]

theorem ofToken_retoken (t : Token) :
    Identifier.ofToken (g t) = (Identifier.ofToken t).retoken g := by
  rw [Identifier.ofToken, Identifier.ofToken, Identifier.retoken, relines.text]

variable (ih : AllAbreast g lines more bound bound')
include ih

theorem moreParameters_abreast :
    Abreast g lines more (List.map (Identifier.retoken g)) (Grammar.moreParameters (bound + 1))
    (Grammar.moreParameters (bound' + 1)) := by
  unfold Grammar.moreParameters
  refine .check relines .comma ?_ ?_
  · refine .bind .advance fun _ => ?_
    refine .bind (.identifier relines) fun name => ?_
    exact .bind ih.moreParameters fun names => .done rfl
  · exact .bind (.expect relines _) fun _ => .done rfl

theorem parameters_abreast :
    Abreast g lines more (List.map (Identifier.retoken g)) (Grammar.parameters bound)
    (Grammar.parameters bound') := by
  unfold Grammar.parameters
  refine .bind (.expect relines _) fun _ => ?_
  refine .check relines .rparen ?_ ?_
  · exact .bind .advance fun _ => .done rfl
  · refine .bind (.identifier relines) fun name => ?_
    exact .bind ih.moreParameters fun names => .done rfl

omit relines in
theorem expression_abreast (min : Precedence) :
    Abreast g lines more (Expr.retoken g) (Grammar.expression (bound + 1) min) (Grammar.expression (bound' + 1) min) := by
  unfold Grammar.expression
  exact .bind ih.operand fun left => ih.climb min left

theorem climb_abreast (min : Precedence) (left : Expr) :
    Abreast g lines more (Expr.retoken g) (Grammar.climb (bound + 1) min left)
      (Grammar.climb (bound' + 1) min (left.retoken g)) := by
  unfold Grammar.climb
  refine .choose (fun _ _ beside => extends?_beside min beside relines) ?_ (.done rfl)
  exact .bind (ih.extension left) fun wider => ih.climb min wider

theorem expressions_abreast (close : Kind) :
    Abreast g lines more (Expr.retokenAll g) (Grammar.expressions (bound + 1) close)
      (Grammar.expressions (bound' + 1) close) := by
  unfold Grammar.expressions
  refine .check relines close ?_ ?_
  · exact .bind .advance fun _ => .done rfl
  · refine .bind (ih.expression _) fun first => ?_
    exact .bind (ih.moreExpressions close) fun rest => .done rfl

theorem moreExpressions_abreast (close : Kind) :
    Abreast g lines more (Expr.retokenAll g) (Grammar.moreExpressions (bound + 1) close)
      (Grammar.moreExpressions (bound' + 1) close) := by
  unfold Grammar.moreExpressions
  refine .check relines .comma ?_ ?_
  · refine .bind .advance fun _ => ?_
    refine .bind (ih.expression _) fun next => ?_
    exact .bind (ih.moreExpressions close) fun rest => .done rfl
  · exact .bind (.expect relines close) fun _ => .done rfl

theorem operand_abreast : Abreast g lines more (Expr.retoken g) (Grammar.operand (bound + 1)) (Grammar.operand (bound' + 1)) := by
  unfold Grammar.operand
  refine .current fun t => ?_
  rw [relines.kind]
  cases t.kind
  case ident => exact .bind .advance fun t => .done (by rw [ofToken_retoken relines]; rfl)
  case int =>
    refine .bind .advance fun t => ?_
    rw [relines.text]
    cases Text.decimal? t.text with
    | some value => exact .done rfl
    | none => exact .fail (moved_badInteger relines t)
  case str => exact .bind .advance fun t => .done (by rw [relines.text]; rfl)
  case trueWord | falseWord => exact .bind .advance fun t => .done rfl
  case minus | bang =>
    refine .bind .advance fun t => ?_
    exact .bind (ih.expression _) fun operand => .done rfl
  case lparen =>
    refine .bind .advance fun _ => ?_
    refine .bind (ih.expression _) fun inner => ?_
    exact .bind (.expect relines _) fun _ => .done rfl
  case lbracket =>
    refine .bind .advance fun t => ?_
    exact .bind (ih.expressions _) fun elements => .done rfl
  case ifWord =>
    refine .bind .advance fun t => ?_
    refine .bind (ih.expression _) fun condition => ?_
    refine .bind (.expect relines _) fun _ => ?_
    refine .bind (ih.block _) fun consequence => ?_
    refine .bind ih.elifs fun arms => ?_
    refine .bind ih.otherwise fun alternative => ?_
    exact .bind (.expect relines _) fun _ => .done rfl
  case fnWord =>
    refine .bind .advance fun t => ?_
    exact .bind ih.functionLiteral fun literal => .done rfl
  all_goals exact .bind .advance fun t => .fail (moved_noExpression relines t)

theorem extension_abreast (left : Expr) :
    Abreast g lines more (Expr.retoken g) (Grammar.extension (bound + 1) left)
      (Grammar.extension (bound' + 1) (left.retoken g)) := by
  unfold Grammar.extension
  refine .bind .advance fun t => ?_
  rw [relines.kind]
  cases kind : t.kind
  case assign =>
    refine .bind (ih.expression _) fun value => ?_
    rw [target?_retoken_eq]
    cases target? left with
    | some target => exact .done rfl
    | none => exact .fail (moved_badTarget left)
  case lparen => exact .bind (ih.expressions _) fun arguments => .done rfl
  case lbracket =>
    refine .bind (ih.expression _) fun position => ?_
    exact .bind (.expect relines _) fun _ => .done rfl
  case dot => exact .bind (.identifier relines) fun name => .done rfl
  all_goals
    dsimp only
    generalize InfixOp.ofKind? _ = op?
    cases op? with
    | some op => exact .bind (ih.expression _) fun right => .done rfl
    | none => exact .giveUp

theorem elifs_abreast : Abreast g lines more (Elif.retokenAll g) (Grammar.elifs (bound + 1)) (Grammar.elifs (bound' + 1)) := by
  unfold Grammar.elifs
  refine .check relines .elifWord ?_ (.done rfl)
  refine .bind .advance fun _ => ?_
  refine .bind (ih.expression _) fun condition => ?_
  refine .bind (.expect relines _) fun _ => ?_
  refine .bind (ih.block _) fun arm => ?_
  exact .bind ih.elifs fun arms => .done rfl

theorem otherwise_abreast :
    Abreast g lines more (Block.retokenElse g) (Grammar.otherwise (bound + 1)) (Grammar.otherwise (bound' + 1)) := by
  unfold Grammar.otherwise
  refine .check relines .elseWord ?_ (.done rfl)
  refine .bind .advance fun _ => ?_
  exact .bind (ih.block _) fun arm => .done rfl

omit relines in
theorem block_abreast (close : List Kind) :
    Abreast g lines more (Block.retoken g) (Grammar.block (bound + 1) close) (Grammar.block (bound' + 1) close) := by
  unfold Grammar.block
  refine .current fun t => ?_
  exact .bind (ih.statements close) fun list => .done rfl

theorem statements_abreast (close : List Kind) :
    Abreast g lines more (Stmt.retokenAll g) (Grammar.statements (bound + 1) close)
      (Grammar.statements (bound' + 1) close) := by
  unfold Grammar.statements
  refine .choose (fun c c' beside => ?_) (.done rfl) ?_
  · rw [beside.atEnd, beside.kind relines]
  · refine .bind (f := (· + more)) (.asks fun _ _ beside => beside.consumed) fun consumed => ?_
    refine .bind ih.statement.attempt fun first? => ?_
    cases first? with
    | some first => exact .bind (ih.statements close) fun rest => .done rfl
    | none => exact .bind (.ensureProgress consumed) fun _ => ih.statements close

theorem functionStatement_abreast :
    Abreast g lines more (FunctionStatement.retoken g) (Grammar.functionStatement (bound + 1))
      (Grammar.functionStatement (bound' + 1)) := by
  unfold Grammar.functionStatement
  refine .bind .advance fun t => ?_
  refine .bind (.identifier relines) fun name => ?_
  exact .bind ih.functionLiteral fun literal => .done rfl

theorem functionLiteral_abreast :
    Abreast g lines more (FunctionLiteral.retoken g) (Grammar.functionLiteral (bound + 1))
      (Grammar.functionLiteral (bound' + 1)) := by
  unfold Grammar.functionLiteral
  refine .bind (parameters_abreast relines ih) fun names => ?_
  refine .bind (ih.block _) fun body => ?_
  exact .bind (.expect relines _) fun _ => .done rfl

theorem statement_abreast :
    Abreast g lines more (Stmt.retoken g) (Grammar.statement (bound + 1)) (Grammar.statement (bound' + 1)) := by
  unfold Grammar.statement
  refine .current fun t => ?_
  rw [relines.kind]
  cases t.kind
  case returnWord =>
    refine .bind .advance fun word => ?_
    exact .bind (ih.expression _) fun value => .done rfl
  case whileWord =>
    refine .bind .advance fun word => ?_
    refine .bind (ih.expression _) fun condition => ?_
    refine .bind (.expect relines _) fun _ => ?_
    refine .bind (ih.block _) fun body => ?_
    exact .bind (.expect relines _) fun _ => .done rfl
  case testWord =>
    refine .bind .advance fun word => ?_
    refine .current fun label => ?_
    rw [relines.kind]
    split
    · refine .bind .advance fun _ => ?_
      refine .bind (ih.block _) fun body => ?_
      exact .bind (.expect relines _) fun _ => .done (by rw [relines.text]; rfl)
    · exact .fail (moved_noTestLabel relines label)
  case classWord =>
    refine .bind .advance fun word => ?_
    refine .current fun name => ?_
    rw [relines.kind]
    split
    · refine .bind .advance fun _ => ?_
      refine .bind ih.methods fun members => ?_
      exact .bind (.expect relines _) fun _ => .done (by rw [ofToken_retoken relines]; rfl)
    · exact .fail (moved_noClassName relines name)
  all_goals
    refine .choose (fun _ _ beside => startsFunction_beside relines beside) ?_ ?_
    · exact .bind ih.functionStatement fun definition => .done rfl
    · exact .bind (ih.expression _) fun value => .done rfl

theorem methods_abreast :
    Abreast g lines more (FunctionStatement.retokenAll g) (Grammar.methods (bound + 1)) (Grammar.methods (bound' + 1)) := by
  unfold Grammar.methods
  refine .choose (fun c c' beside => ?_) (.done rfl) ?_
  · rw [beside.atEnd, beside.check relines]
  refine .choose (fun _ _ beside => startsFunction_beside relines beside) ?_ ?_
  · refine .bind (f := (· + more)) (.asks fun _ _ beside => beside.consumed) fun consumed => ?_
    refine .bind ih.functionStatement.attempt fun method? => ?_
    cases method? with
    | some method => exact .bind ih.methods fun members => .done rfl
    | none => exact .bind (.ensureProgress consumed) fun _ => ih.methods
  · refine .current fun t => ?_
    refine .bind (.record (moved_notAMethod relines t)) fun _ => ?_
    refine .bind .advance fun _ => ?_
    exact .bind (.seek relines _) fun _ => ih.methods

end

/-- All productions keep two parsers abreast. -/
theorem allAbreast {g : Token → Token} (relines : Relines g) (lines more bound bound' : Nat) :
    AllAbreast g lines more bound bound' := by
  induction bound generalizing bound' with
  | zero => constructor <;> intros <;> exact .stop_left
  | succ bound ih =>
    cases bound' with
    | zero => constructor <;> intros <;> exact .stop_right
    | succ bound' =>
      have ih := ih bound'
      exact ⟨moreParameters_abreast relines ih, expression_abreast ih, operand_abreast relines ih, climb_abreast relines ih,
        extension_abreast relines ih, expressions_abreast relines ih, moreExpressions_abreast relines ih,
        elifs_abreast relines ih, otherwise_abreast relines ih, block_abreast ih, statements_abreast relines ih,
        statement_abreast relines ih, functionStatement_abreast relines ih, functionLiteral_abreast relines ih,
        methods_abreast relines ih⟩

end Grammar

end Lantern
