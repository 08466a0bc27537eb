/-
  Lantern.Proofs.Parse.Completeness — what can be read is built, and nothing else can be
  read there.

  `Builds last c p node c'` says that the production `p`, on any parser that stands at
  `c`, builds `node` without an error and stands at `c'` then. Each constructor of
  `Reads` is a run of the production it belongs to (`Reads.runs`), under the same bound
  the productions keep their promises under.

  Main statements:

  - `parse_of_reads`: a stream that can be read as statements parses to them without an
    error.
  - `parse_iff`: the parser accepts a stream exactly if it can be read, and the relation
    leaves no choice of what is read.
-/

import Lantern.Proofs.Parse.Soundness

namespace Lantern.Grammar

open Production

/-- From `c` on, `p` builds `node` without an error and stands at `c'` then. -/
def Builds {α : Type} (last : Token) (c : Place) (p : Production α) (node : α) (c' : Place) :
    Prop :=
  ∀ s : Parser, s.cursor.last = last → s.place = c →
    ∃ s', p s = .built node s' ∧ s'.cursor.last = last ∧ s'.place = c' ∧ s'.errors = s.errors

variable {last : Token} {c c₁ c' : Place}

namespace Builds

variable {α β : Type}

theorem done (node : α) : Builds last c (pure node) node c :=
  fun s hlast place => ⟨s, rfl, hlast, place, rfl⟩

theorem bind {p : Production α} {f : α → Production β} {a : α} {b : β} (hp : Builds last c p a c₁)
    (hf : Builds last c₁ (f a) b c') : Builds last c (p >>= f) b c' := by
  intro s hlast place
  obtain ⟨s₁, run, hlast₁, place₁, clean₁⟩ := hp s hlast place
  obtain ⟨s₂, run', hlast₂, place₂, clean₂⟩ := hf s₁ hlast₁ place₁
  exact ⟨s₂, (Reply.bind_built run).trans run', hlast₂, place₂, clean₂.trans clean₁⟩

theorem attempt {p : Production α} {a : α} (hp : Builds last c p a c') :
    Builds last c (Production.attempt p) (some a) c' := by
  intro s hlast place
  obtain ⟨s', run, rest⟩ := hp s hlast place
  exact ⟨s', by rw [Production.attempt, run], rest⟩

/-! ## Looking ahead -/

theorem asks {question : Cursor → α} {answer : α}
    (h : ∀ s : Parser, s.cursor.last = last → s.place = c → question s.cursor = answer) :
    Builds last c (ask question) answer c :=
  fun s hlast place => ⟨s, by rw [ask, h s hlast place], hlast, place, rfl⟩

/-- A question whose answer does not matter. -/
theorem asking {question : Cursor → α} {f : α → Production β} {b : β}
    (hf : ∀ answer, Builds last c (f answer) b c') :
    Builds last c (ask question >>= f) b c' :=
  fun s hlast place => hf (question s.cursor) s hlast place

theorem checks {kind : Kind} (atLast : last.kind ≠ kind) :
    Builds last c (ask (·.check kind)) (c.shows kind) c :=
  asks fun _ hlast place => by rw [check_eq_shows hlast atLast, place]

theorem extended (min : Precedence) :
    Builds last c (ask (Grammar.extends? min)) (c.extends? min) c :=
  asks fun _ _ place => by rw [extends_eq, place]

theorem stopped (close : List Kind) :
    Builds last c (ask fun cursor => cursor.atEnd || close.contains cursor.kind) (c.stops close) c :=
  asks fun _ _ place => by rw [stops_eq, place]

theorem ended : Builds last c (ask fun cursor => cursor.atEnd || cursor.check .endWord) (c.stops [.endWord]) c :=
  asks fun _ _ place => by rw [← place, atEnd_or_endWord]

theorem current : Builds last c (ask Cursor.current) (c.ahead.headD last) c :=
  asks fun s hlast place => by rw [← place, ← hlast]; rfl

theorem starts (line : Nat) (t : Token) (ts : List Token) :
    Builds last ⟨line, t :: ts⟩ (ask startsFunction) (t.kind == .fnWord && (ts.headD last).kind == .ident)
      ⟨line, t :: ts⟩ := by
  refine asks fun s hlast place => ?_
  have ahead : s.cursor.ahead = t :: ts := congrArg Place.ahead place
  simp [startsFunction, Cursor.kind, Cursor.current, Cursor.peekKind, ahead, hlast]

/-! ## Passing tokens -/

variable {kind : Kind} {t : Token}

theorem advance (h : Reads last c (.token kind t) c') : Builds last c Production.advance t c' := by
  intro s hlast place
  cases h with
  | token line ts eq =>
    have ahead : s.cursor.ahead = t :: ts := congrArg Place.ahead place
    refine ⟨s.passed, ?_, ?_, ?_, rfl⟩
    · simp only [Production.advance, Parser.passed_eq ahead, Cursor.advance, ahead]
    · rw [Parser.passed_eq ahead]; exact hlast
    · rw [Parser.passed_eq ahead]; rfl

theorem shown (h : Reads last c (.token kind t) c') : Builds last c (ask Cursor.current) t c := by
  have here : Builds last c (ask Cursor.current) (c.ahead.headD last) c := current
  rw [h.token_inv.2.1, List.headD_cons] at here
  exact here

theorem expect (h : Reads last c (.token kind t) c') :
    Builds last c (Production.expect kind) t c' := by
  unfold Production.expect
  refine bind (shown h) ?_
  rw [if_pos (by simpa using h.token_inv.1)]
  exact advance h

theorem identifier (h : Reads last c (.token .ident t) c') :
    Builds last c Production.identifier (.ofToken t) c' := by
  unfold Production.identifier
  refine bind (shown h) ?_
  rw [if_pos (by simpa using h.token_inv.1)]
  exact bind (advance h) (done _)

end Builds

theorem Reads.shows (h : Reads last c (.token kind t) c') (other : Kind) :
    c.shows other = (kind == other) := by
  obtain ⟨eq, ahead, -⟩ := h.token_inv
  simp [Place.shows, ahead, eq]

/-! ## How far a reading gets -/

def Phrase.least : Phrase → Nat
  | .elifs _ | .otherwise _ | .block .. | .statements .. | .methods _ => 0
  | _ => 1

theorem Reads.shorter {φ : Phrase} (h : Reads last c φ c') :
    c'.ahead.length + φ.least ≤ c.ahead.length := by
  induction h <;> simp only [Phrase.least, List.length_cons] at * <;> omega

/-- What a statement starts with closes no block. -/
theorem not_closesBlock {kind : Kind} (starts : kind ∈ statementStart) :
    kind.closesBlock = false := by
  revert kind
  decide

/-! ## The productions -/

/-- What a reading of the phrase comes to as a run: its production builds the node under
    every bound that is enough. A spine is the exception: it is an expression that still
    has to be climbed. -/
def Phrase.Runs (last : Token) (c c' : Place) : Phrase → Prop
  | .token .. => True
  | .moreParameters names =>
    ∀ bound, 8 * c.ahead.length + 1 ≤ bound → Builds last c (Grammar.moreParameters bound) names c'
  | .parameters names => ∀ bound, 8 * c.ahead.length + 1 ≤ bound → Builds last c (Grammar.parameters bound) names c'
  | .operand e => ∀ bound, 8 * c.ahead.length + 1 ≤ bound → Builds last c (Grammar.operand bound) e c'
  | .climbing min e =>
    ∀ bound, 8 * c.ahead.length + 3 ≤ bound → ∃ left, 8 * c'.ahead.length + 2 ≤ left ∧
      ∀ wider c₁, Builds last c' (Grammar.climb left min e) wider c₁ → Builds last c (Grammar.expression bound min) wider c₁
  | .expression min e => ∀ bound, 8 * c.ahead.length + 3 ≤ bound → Builds last c (Grammar.expression bound min) e c'
  | .extension left e => ∀ bound, 8 * c.ahead.length + 1 ≤ bound → Builds last c (Grammar.extension bound left) e c'
  | .expressions close es => close = .rparen ∨ close = .rbracket →
    ∀ bound, 8 * c.ahead.length + 4 ≤ bound → Builds last c (Grammar.expressions bound close) es c'
  | .moreExpressions close es =>
    ∀ bound, 8 * c.ahead.length + 1 ≤ bound → Builds last c (Grammar.moreExpressions bound close) es c'
  | .elifs arms => ∀ bound, 8 * c.ahead.length + 1 ≤ bound → Builds last c (Grammar.elifs bound) arms c'
  | .otherwise arm => ∀ bound, 8 * c.ahead.length + 1 ≤ bound → Builds last c (Grammar.otherwise bound) arm c'
  | .block close body => close.all Kind.closesBlock →
    ∀ bound, 8 * c.ahead.length + 6 ≤ bound → Builds last c (Grammar.block bound close) body c'
  | .statements close list => close.all Kind.closesBlock →
    ∀ bound, 8 * c.ahead.length + 5 ≤ bound → Builds last c (Grammar.statements bound close) list c'
  | .statement s => ∀ bound, 8 * c.ahead.length + 4 ≤ bound → Builds last c (Grammar.statement bound) s c'
  | .functionStatement f => ∀ bound, 8 * c.ahead.length + 3 ≤ bound → Builds last c (Grammar.functionStatement bound) f c'
  | .functionLiteral f => ∀ bound, 8 * c.ahead.length + 2 ≤ bound → Builds last c (Grammar.functionLiteral bound) f c'
  | .methods members => ∀ bound, 8 * c.ahead.length + 4 ≤ bound → Builds last c (Grammar.methods bound) members c'

/-- Some bound is left behind every production that can be entered. -/
theorem exists_left {need bound : Nat} (enough : need + 1 ≤ bound) :
    ∃ left, bound = left + 1 ∧ need ≤ left :=
  ⟨bound - 1, by omega, by omega⟩

/-! ### Operands -/

/-- The operands of one token. -/
theorem operand_runs {kind : Kind} {t : Token} {e : Expr} (token : Reads last c (.token kind t) c')
    (literal : (kind = .ident ∧ e = .identifier (.ofToken t)) ∨ (kind = .str ∧ e = .string t t.text) ∨
      (kind = .trueWord ∧ e = .boolean t true) ∨ (kind = .falseWord ∧ e = .boolean t false)) :
    Phrase.Runs last c c' (.operand e) := by
  intro bound enough
  obtain ⟨bound, rfl, left⟩ := exists_left enough
  unfold Grammar.operand
  refine .bind (.shown token) ?_
  rw [token.token_inv.1]
  rcases literal with ⟨rfl, rfl⟩ | ⟨rfl, rfl⟩ | ⟨rfl, rfl⟩ | ⟨rfl, rfl⟩
  all_goals exact .bind (.advance token) (.done _)

theorem integer_runs {t : Token} {value : Int64} (token : Reads last c (.token .int t) c')
    (number : Text.decimal? t.text = some value) :
    Phrase.Runs last c c' (.operand (.integer t value)) := by
  intro bound enough
  obtain ⟨bound, rfl, left⟩ := exists_left enough
  unfold Grammar.operand
  refine .bind (.shown token) ?_
  rw [token.token_inv.1]
  refine .bind (.advance token) ?_
  rw [number]
  exact .done _

theorem unary_runs {kind : Kind} {t : Token} {op : PrefixOp} {e : Expr}
    (token : Reads last c (.token kind t) c₁)
    (prefixed : (kind = .minus ∧ op = .neg) ∨ (kind = .bang ∧ op = .not))
    (operand : Phrase.Runs last c₁ c' (.expression .unary e)) :
    Phrase.Runs last c c' (.operand (.unary t op e)) := by
  intro bound enough
  obtain ⟨bound, rfl, left⟩ := exists_left enough
  have shorter := token.shorter
  simp only [Phrase.least] at shorter
  unfold Grammar.operand
  refine .bind (.shown token) ?_
  rw [token.token_inv.1]
  rcases prefixed with ⟨rfl, rfl⟩ | ⟨rfl, rfl⟩
  all_goals exact .bind (.advance token) (.bind (operand bound (by omega)) (.done _))

theorem group_runs {c₂ : Place} {t u : Token} {e : Expr}
    (open_ : Reads last c (.token .lparen t) c₁)
    (inner : Phrase.Runs last c₁ c₂ (.expression .lowest e))
    (close : Reads last c₂ (.token .rparen u) c') :
    Phrase.Runs last c c' (.operand e) := by
  intro bound enough
  obtain ⟨bound, rfl, left⟩ := exists_left enough
  have shorter := open_.shorter
  simp only [Phrase.least] at shorter
  unfold Grammar.operand
  refine .bind (.shown open_) ?_
  rw [open_.token_inv.1]
  exact .bind (.advance open_) (.bind (inner bound (by omega)) (.bind (.expect close) (.done _)))

theorem array_runs {t : Token} {es : List Expr} (open_ : Reads last c (.token .lbracket t) c₁)
    (elements : Phrase.Runs last c₁ c' (.expressions .rbracket es)) :
    Phrase.Runs last c c' (.operand (.array t es)) := by
  intro bound enough
  obtain ⟨bound, rfl, left⟩ := exists_left enough
  have shorter := open_.shorter
  simp only [Phrase.least] at shorter
  unfold Grammar.operand
  refine .bind (.shown open_) ?_
  rw [open_.token_inv.1]
  exact .bind (.advance open_) (.bind (elements (Or.inr rfl) bound (by omega)) (.done _))

theorem conditional_runs {c₂ c₃ c₄ c₅ c₆ : Place} {t u v : Token} {condition : Expr}
    {consequence : Block}
    {arms : List Elif} {alternative : Option Block} (word : Reads last c (.token .ifWord t) c₁)
    (tested : Reads last c₁ (.expression .lowest condition) c₂)
    (condition_runs : Phrase.Runs last c₁ c₂ (.expression .lowest condition))
    (then_ : Reads last c₂ (.token .thenWord u) c₃)
    (body : Reads last c₃ (.block armEnd consequence) c₄)
    (body_runs : Phrase.Runs last c₃ c₄ (.block armEnd consequence))
    (rest : Reads last c₄ (.elifs arms) c₅)
    (rest_runs : Phrase.Runs last c₄ c₅ (.elifs arms))
    (final_runs : Phrase.Runs last c₅ c₆ (.otherwise alternative))
    (end_ : Reads last c₆ (.token .endWord v) c') :
    Phrase.Runs last c c' (.operand (.conditional t condition consequence arms alternative)) := by
  intro bound enough
  obtain ⟨bound, rfl, left⟩ := exists_left enough
  have := word.shorter
  have := tested.shorter
  have := then_.shorter
  have := body.shorter
  have := rest.shorter
  simp only [Phrase.least] at *
  unfold Grammar.operand
  refine .bind (.shown word) ?_
  rw [word.token_inv.1]
  refine .bind (.advance word) (.bind (condition_runs bound (by omega)) (.bind (.expect then_) ?_))
  refine .bind (body_runs rfl bound (by omega)) (.bind (rest_runs bound (by omega)) ?_)
  exact .bind (final_runs bound (by omega)) (.bind (.expect end_) (.done _))

theorem lambda_runs {t : Token} {literal : FunctionLiteral}
    (word : Reads last c (.token .fnWord t) c₁)
    (body : Phrase.Runs last c₁ c' (.functionLiteral literal)) :
    Phrase.Runs last c c' (.operand (.lambda t literal)) := by
  intro bound enough
  obtain ⟨bound, rfl, left⟩ := exists_left enough
  have shorter := word.shorter
  simp only [Phrase.least] at shorter
  unfold Grammar.operand
  refine .bind (.shown word) ?_
  rw [word.token_inv.1]
  exact .bind (.advance word) (.bind (body bound (by omega)) (.done _))

/-! ### Spines and extensions -/

theorem start_runs {min : Precedence} {e : Expr} (first : Reads last c (.operand e) c')
    (runs : Phrase.Runs last c c' (.operand e)) : Phrase.Runs last c c' (.climbing min e) := by
  intro bound enough
  obtain ⟨bound, rfl, left⟩ := exists_left enough
  have shorter := first.shorter
  simp only [Phrase.least] at shorter
  refine ⟨bound, by omega, fun wider c₁ climbs => ?_⟩
  unfold Grammar.expression
  exact .bind (runs bound (by omega)) climbs

theorem climb_runs {min : Precedence} {e wider : Expr}
    (spine : Phrase.Runs last c c₁ (.climbing min e))
    (more : c₁.extends? min)
    (extension : Reads last c₁ (.extension e wider) c')
    (runs : Phrase.Runs last c₁ c' (.extension e wider)) :
    Phrase.Runs last c c' (.climbing min wider) := by
  intro bound enough
  obtain ⟨bound', left, climbs⟩ := spine bound enough
  obtain ⟨bound', rfl, left⟩ := exists_left left
  have shorter := extension.shorter
  simp only [Phrase.least] at shorter
  refine ⟨bound', by omega, fun widest c₂ rest => climbs widest c₂ ?_⟩
  unfold Grammar.climb
  refine .bind (.extended min) ?_
  rw [if_pos more]
  exact .bind (runs bound' (by omega)) rest

theorem expression_runs {min : Precedence} {e : Expr}
    (spine : Phrase.Runs last c c' (.climbing min e))
    (noMore : c'.extends? min = false) : Phrase.Runs last c c' (.expression min e) := by
  intro bound enough
  obtain ⟨bound', left, climbs⟩ := spine bound enough
  obtain ⟨bound', rfl, left⟩ := exists_left left
  refine climbs e c' ?_
  unfold Grammar.climb
  refine .bind (.extended min) ?_
  rw [noMore]
  exact .done _

theorem assignment_runs {t : Token} {left value : Expr} {target : Target}
    (token : Reads last c (.token .assign t) c₁)
    (runs : Phrase.Runs last c₁ c' (.expression .lowest value))
    (found : target? left = some target) :
    Phrase.Runs last c c' (.extension left (.assignment t target value)) := by
  intro bound enough
  obtain ⟨bound, rfl, left⟩ := exists_left enough
  have shorter := token.shorter
  simp only [Phrase.least] at shorter
  unfold Grammar.extension
  refine .bind (.advance token) ?_
  rw [token.token_inv.1]
  refine .bind (runs bound (by omega)) ?_
  rw [found]
  exact .done _

theorem call_runs {t : Token} {left : Expr} {arguments : List Expr}
    (token : Reads last c (.token .lparen t) c₁)
    (runs : Phrase.Runs last c₁ c' (.expressions .rparen arguments)) :
    Phrase.Runs last c c' (.extension left (.call t left arguments)) := by
  intro bound enough
  obtain ⟨bound, rfl, left⟩ := exists_left enough
  have shorter := token.shorter
  simp only [Phrase.least] at shorter
  unfold Grammar.extension
  refine .bind (.advance token) ?_
  rw [token.token_inv.1]
  exact .bind (runs (Or.inl rfl) bound (by omega)) (.done _)

theorem index_runs {c₂ : Place} {t u : Token} {left position : Expr}
    (token : Reads last c (.token .lbracket t) c₁)
    (runs : Phrase.Runs last c₁ c₂ (.expression .lowest position))
    (close : Reads last c₂ (.token .rbracket u) c') :
    Phrase.Runs last c c' (.extension left (.index t left position)) := by
  intro bound enough
  obtain ⟨bound, rfl, left⟩ := exists_left enough
  have shorter := token.shorter
  simp only [Phrase.least] at shorter
  unfold Grammar.extension
  refine .bind (.advance token) ?_
  rw [token.token_inv.1]
  exact .bind (runs bound (by omega)) (.bind (.expect close) (.done _))

theorem field_runs {t u : Token} {left : Expr} (token : Reads last c (.token .dot t) c₁)
    (name : Reads last c₁ (.token .ident u) c') :
    Phrase.Runs last c c' (.extension left (.field t left (.ofToken u))) := by
  intro bound enough
  obtain ⟨bound, rfl, left⟩ := exists_left enough
  unfold Grammar.extension
  refine .bind (.advance token) ?_
  rw [token.token_inv.1]
  exact .bind (.identifier name) (.done _)

theorem binary_runs {kind : Kind} {t : Token} {left right : Expr} {op : InfixOp}
    (token : Reads last c (.token kind t) c₁)
    (writes : InfixOp.ofKind? kind = some op)
    (runs : Phrase.Runs last c₁ c' (.expression (.of kind) right)) :
    Phrase.Runs last c c' (.extension left (.binary t left op right)) := by
  intro bound enough
  obtain ⟨bound, rfl, left⟩ := exists_left enough
  have shorter := token.shorter
  simp only [Phrase.least] at shorter
  have rest := runs bound (by omega)
  unfold Grammar.extension
  refine .bind (.advance token) ?_
  rw [token.token_inv.1]
  cases kind
  all_goals first
    | cases writes; done
    | (cases writes; exact .bind rest (.done _))

/-! ### Lists

A check for a token answers the same at the end as for any other token that is not next,
since the last token is none a production asks for. -/

theorem Builds.checked {kind : Kind} (atLast : last.kind = .eof) (isToken : kind ≠ .eof) :
    Builds last c (ask (·.check kind)) (c.shows kind) c :=
  .checks fun eq => isToken (eq ▸ atLast)

section

variable (atLast : last.kind = .eof)
include atLast

theorem lastParameter_runs {t : Token} (close : Reads last c (.token .rparen t) c') :
    Phrase.Runs last c c' (.moreParameters []) := by
  intro bound enough
  obtain ⟨bound, rfl, left⟩ := exists_left enough
  unfold Grammar.moreParameters
  refine .bind (.checked atLast (by decide)) ?_
  rw [close.shows]
  exact .bind (.expect close) (.done _)

theorem nextParameter_runs {c₂ : Place} {comma t : Token} {names : List Identifier}
    (token : Reads last c (.token .comma comma) c₁)
    (name : Reads last c₁ (.token .ident t) c₂)
    (rest : Phrase.Runs last c₂ c' (.moreParameters names)) :
    Phrase.Runs last c c' (.moreParameters (.ofToken t :: names)) := by
  intro bound enough
  obtain ⟨bound, rfl, left⟩ := exists_left enough
  have := token.shorter
  have := name.shorter
  simp only [Phrase.least] at *
  unfold Grammar.moreParameters
  refine .bind (.checked atLast (by decide)) ?_
  rw [token.shows]
  exact .bind (.advance token) (.bind (.identifier name) (.bind (rest bound (by omega)) (.done _)))

theorem noParameters_runs {t u : Token} (open_ : Reads last c (.token .lparen t) c₁)
    (close : Reads last c₁ (.token .rparen u) c') : Phrase.Runs last c c' (.parameters []) := by
  intro bound enough
  unfold Grammar.parameters
  refine .bind (.expect open_) (.bind (.checked atLast (by decide)) ?_)
  rw [close.shows]
  exact .bind (.advance close) (.done _)

theorem someParameters_runs {c₂ : Place} {t u : Token} {names : List Identifier}
    (open_ : Reads last c (.token .lparen t) c₁)
    (name : Reads last c₁ (.token .ident u) c₂)
    (rest : Phrase.Runs last c₂ c' (.moreParameters names)) :
    Phrase.Runs last c c' (.parameters (.ofToken u :: names)) := by
  intro bound enough
  have := open_.shorter
  have := name.shorter
  simp only [Phrase.least] at *
  unfold Grammar.parameters
  refine .bind (.expect open_) (.bind (.checked atLast (by decide)) ?_)
  rw [name.shows]
  exact .bind (.identifier name) (.bind (rest bound (by omega)) (.done _))

theorem noExpressions_runs {close : Kind} {t : Token} (token : Reads last c (.token close t) c') :
    Phrase.Runs last c c' (.expressions close []) := by
  intro bracket bound enough
  obtain ⟨bound, rfl, left⟩ := exists_left enough
  unfold Grammar.expressions
  refine .bind (.checked atLast (by rcases bracket with rfl | rfl <;> decide)) ?_
  rw [token.shows, beq_self_eq_true]
  exact .bind (.advance token) (.done _)

theorem someExpressions_runs {close : Kind} {e : Expr} {es : List Expr}
    (first : Reads last c (.expression .lowest e) c₁)
    (runs : Phrase.Runs last c c₁ (.expression .lowest e))
    (rest : Phrase.Runs last c₁ c' (.moreExpressions close es)) :
    Phrase.Runs last c c' (.expressions close (e :: es)) := by
  intro bracket bound enough
  obtain ⟨bound, rfl, left⟩ := exists_left enough
  have shorter := first.shorter
  simp only [Phrase.least] at shorter
  have opens := first.opens rfl
  -- no expression starts with a closing bracket
  have open_ : c.shows close = false := by
    unfold Place.opens at opens
    unfold Place.shows
    split
    · rfl
    · next ahead =>
      rw [ahead] at opens
      simp only [Bool.and_eq_true] at opens
      generalize Token.kind _ = kind at opens
      rcases bracket with rfl | rfl <;> cases kind <;> first | rfl | simp [operandStart] at opens
  unfold Grammar.expressions
  refine .bind (.checked atLast (by rcases bracket with rfl | rfl <;> decide)) ?_
  rw [open_]
  exact .bind (runs bound (by omega)) (.bind (rest bound (by omega)) (.done _))

theorem lastExpression_runs {close : Kind} {t : Token}
    (bracket : close = .rparen ∨ close = .rbracket)
    (token : Reads last c (.token close t) c') :
    Phrase.Runs last c c' (.moreExpressions close []) := by
  intro bound enough
  obtain ⟨bound, rfl, left⟩ := exists_left enough
  unfold Grammar.moreExpressions
  refine .bind (.checked atLast (by decide)) ?_
  rw [token.shows, show (close == .comma) = false by rcases bracket with rfl | rfl <;> rfl]
  exact .bind (.expect token) (.done _)

theorem nextExpression_runs {c₂ : Place} {close : Kind} {t : Token} {e : Expr} {es : List Expr}
    (token : Reads last c (.token .comma t) c₁) (next : Reads last c₁ (.expression .lowest e) c₂)
    (runs : Phrase.Runs last c₁ c₂ (.expression .lowest e))
    (rest : Phrase.Runs last c₂ c' (.moreExpressions close es)) :
    Phrase.Runs last c c' (.moreExpressions close (e :: es)) := by
  intro bound enough
  obtain ⟨bound, rfl, left⟩ := exists_left enough
  have := token.shorter
  have := next.shorter
  simp only [Phrase.least] at *
  unfold Grammar.moreExpressions
  refine .bind (.checked atLast (by decide)) ?_
  rw [token.shows]
  exact .bind (.advance token) (.bind (runs bound (by omega)) (.bind (rest bound (by omega)) (.done _)))

/-! ### The arms of a conditional -/

theorem noElifs_runs (ends : c.shows .elifWord = false) : Phrase.Runs last c c (.elifs []) := by
  intro bound enough
  obtain ⟨bound, rfl, left⟩ := exists_left enough
  unfold Grammar.elifs
  refine .bind (.checked atLast (by decide)) ?_
  rw [ends]
  exact .done _

theorem someElifs_runs {c₂ c₃ c₄ : Place} {t u : Token} {condition : Expr} {arm : Block}
    {arms : List Elif}
    (word : Reads last c (.token .elifWord t) c₁)
    (tested : Reads last c₁ (.expression .lowest condition) c₂)
    (condition_runs : Phrase.Runs last c₁ c₂ (.expression .lowest condition))
    (then_ : Reads last c₂ (.token .thenWord u) c₃)
    (body : Reads last c₃ (.block armEnd arm) c₄)
    (body_runs : Phrase.Runs last c₃ c₄ (.block armEnd arm))
    (rest : Phrase.Runs last c₄ c' (.elifs arms)) :
    Phrase.Runs last c c' (.elifs (⟨condition, arm⟩ :: arms)) := by
  intro bound enough
  obtain ⟨bound, rfl, left⟩ := exists_left enough
  have := word.shorter
  have := tested.shorter
  have := then_.shorter
  have := body.shorter
  simp only [Phrase.least] at *
  unfold Grammar.elifs
  refine .bind (.checked atLast (by decide)) ?_
  rw [word.shows]
  refine .bind (.advance word) (.bind (condition_runs bound (by omega)) (.bind (.expect then_) ?_))
  exact .bind (body_runs rfl bound (by omega)) (.bind (rest bound (by omega)) (.done _))

theorem noOtherwise_runs (ends : c.shows .elseWord = false) :
    Phrase.Runs last c c (.otherwise none) := by
  intro bound enough
  obtain ⟨bound, rfl, left⟩ := exists_left enough
  unfold Grammar.otherwise
  refine .bind (.checked atLast (by decide)) ?_
  rw [ends]
  exact .done _

theorem someOtherwise_runs {t : Token} {arm : Block} (word : Reads last c (.token .elseWord t) c₁)
    (body_runs : Phrase.Runs last c₁ c' (.block bodyEnd arm)) :
    Phrase.Runs last c c' (.otherwise (some arm)) := by
  intro bound enough
  obtain ⟨bound, rfl, left⟩ := exists_left enough
  have shorter := word.shorter
  simp only [Phrase.least] at shorter
  unfold Grammar.otherwise
  refine .bind (.checked atLast (by decide)) ?_
  rw [word.shows]
  exact .bind (.advance word) (.bind (body_runs rfl bound (by omega)) (.done _))

end

/-! ### Statements -/

theorem block_runs {close : List Kind} {list : List Stmt}
    (runs : Phrase.Runs last c c' (.statements close list)) :
    Phrase.Runs last c c' (.block close ⟨c.ahead.headD last, list⟩) := by
  intro closes bound enough
  obtain ⟨bound, rfl, left⟩ := exists_left enough
  unfold Grammar.block
  exact .bind .current (.bind (runs closes bound (by omega)) (.done _))

theorem noStatements_runs {close : List Kind} (stops : c.stops close) :
    Phrase.Runs last c c (.statements close []) := by
  intro closes bound enough
  obtain ⟨bound, rfl, left⟩ := exists_left enough
  unfold Grammar.statements
  refine .bind (.stopped close) ?_
  rw [stops]
  exact .done _

theorem someStatements_runs {close : List Kind} {first : Stmt} {list : List Stmt}
    (head : Reads last c (.statement first) c₁)
    (runs : Phrase.Runs last c c₁ (.statement first))
    (rest : Phrase.Runs last c₁ c' (.statements close list)) :
    Phrase.Runs last c c' (.statements close (first :: list)) := by
  intro closes bound enough
  obtain ⟨bound, rfl, left⟩ := exists_left enough
  have shorter := head.shorter
  simp only [Phrase.least] at shorter
  have goesOn : c.stops close = false := by
    obtain ⟨t, ts, ahead, starts⟩ := head.statement_starts
    simp only [Place.stops, ahead]
    rw [List.contains_eq_mem, decide_eq_false_iff_not]
    intro mem
    rw [List.all_eq_true] at closes
    exact absurd (closes _ mem) (by simp [not_closesBlock starts])
  unfold Grammar.statements
  refine .bind (.stopped close) ?_
  rw [goesOn]
  refine .asking fun _ => ?_
  exact .bind (.attempt (runs bound (by omega))) (.bind (rest closes bound (by omega)) (.done _))

theorem functionStatement_runs {c₂ : Place} {t name : Token} {literal : FunctionLiteral}
    (word : Reads last c (.token .fnWord t) c₁)
    (named : Reads last c₁ (.token .ident name) c₂)
    (runs : Phrase.Runs last c₂ c' (.functionLiteral literal)) :
    Phrase.Runs last c c' (.functionStatement ⟨t, .ofToken name, literal⟩) := by
  intro bound enough
  obtain ⟨bound, rfl, left⟩ := exists_left enough
  have := word.shorter
  have := named.shorter
  simp only [Phrase.least] at *
  unfold Grammar.functionStatement
  exact .bind (.advance word) (.bind (.identifier named) (.bind (runs bound (by omega)) (.done _)))

theorem functionLiteral_runs {c₂ : Place} {t : Token} {names : List Identifier} {body : Block}
    (parameters : Reads last c (.parameters names) c₁)
    (parameters_runs : Phrase.Runs last c c₁ (.parameters names))
    (body_runs : Phrase.Runs last c₁ c₂ (.block bodyEnd body))
    (end_ : Reads last c₂ (.token .endWord t) c') :
    Phrase.Runs last c c' (.functionLiteral ⟨names, body⟩) := by
  intro bound enough
  obtain ⟨bound, rfl, left⟩ := exists_left enough
  have shorter := parameters.shorter
  simp only [Phrase.least] at shorter
  unfold Grammar.functionLiteral
  exact .bind (parameters_runs bound (by omega)) (.bind (body_runs rfl bound (by omega)) (.bind (.expect end_) (.done _)))

theorem returning_runs {t : Token} {value : Expr} (word : Reads last c (.token .returnWord t) c₁)
    (runs : Phrase.Runs last c₁ c' (.expression .lowest value)) :
    Phrase.Runs last c c' (.statement (.returning t value)) := by
  intro bound enough
  obtain ⟨bound, rfl, left⟩ := exists_left enough
  have shorter := word.shorter
  simp only [Phrase.least] at shorter
  unfold Grammar.statement
  refine .bind (.shown word) ?_
  rw [word.token_inv.1]
  exact .bind (.advance word) (.bind (runs bound (by omega)) (.done _))

theorem whileLoop_runs {c₂ c₃ c₄ : Place} {t u v : Token} {condition : Expr} {body : Block}
    (word : Reads last c (.token .whileWord t) c₁)
    (tested : Reads last c₁ (.expression .lowest condition) c₂)
    (condition_runs : Phrase.Runs last c₁ c₂ (.expression .lowest condition))
    (then_ : Reads last c₂ (.token .thenWord u) c₃)
    (body_runs : Phrase.Runs last c₃ c₄ (.block bodyEnd body))
    (end_ : Reads last c₄ (.token .endWord v) c') :
    Phrase.Runs last c c' (.statement (.whileLoop t condition body)) := by
  intro bound enough
  obtain ⟨bound, rfl, left⟩ := exists_left enough
  have := word.shorter
  have := tested.shorter
  have := then_.shorter
  simp only [Phrase.least] at *
  unfold Grammar.statement
  refine .bind (.shown word) ?_
  rw [word.token_inv.1]
  refine .bind (.advance word) (.bind (condition_runs bound (by omega)) (.bind (.expect then_) ?_))
  exact .bind (body_runs rfl bound (by omega)) (.bind (.expect end_) (.done _))

theorem test_runs {c₂ c₃ : Place} {t label v : Token} {body : Block}
    (word : Reads last c (.token .testWord t) c₁)
    (labelled : Reads last c₁ (.token .str label) c₂)
    (body_runs : Phrase.Runs last c₂ c₃ (.block bodyEnd body))
    (end_ : Reads last c₃ (.token .endWord v) c') :
    Phrase.Runs last c c' (.statement (.test t label.text body)) := by
  intro bound enough
  obtain ⟨bound, rfl, left⟩ := exists_left enough
  have := word.shorter
  have := labelled.shorter
  simp only [Phrase.least] at *
  unfold Grammar.statement
  refine .bind (.shown word) ?_
  rw [word.token_inv.1]
  refine .bind (.advance word) (.bind (.shown labelled) ?_)
  rw [if_pos (by simpa using labelled.token_inv.1)]
  exact .bind (.advance labelled) (.bind (body_runs rfl bound (by omega)) (.bind (.expect end_) (.done _)))

theorem classDefinition_runs {c₂ c₃ : Place} {t name v : Token} {members : List FunctionStatement}
    (word : Reads last c (.token .classWord t) c₁) (named : Reads last c₁ (.token .ident name) c₂)
    (members_runs : Phrase.Runs last c₂ c₃ (.methods members))
    (end_ : Reads last c₃ (.token .endWord v) c') :
    Phrase.Runs last c c' (.statement (.classDefinition t (.ofToken name) members)) := by
  intro bound enough
  obtain ⟨bound, rfl, left⟩ := exists_left enough
  have := word.shorter
  have := named.shorter
  simp only [Phrase.least] at *
  unfold Grammar.statement
  refine .bind (.shown word) ?_
  rw [word.token_inv.1]
  refine .bind (.advance word) (.bind (.shown named) ?_)
  rw [if_pos (by simpa using named.token_inv.1)]
  exact .bind (.advance named) (.bind (members_runs bound (by omega)) (.bind (.expect end_) (.done _)))

/-- A named function starts with its word and its name. -/
theorem Reads.functionStatement_starts {definition : FunctionStatement}
    (h : Reads last c (.functionStatement definition) c') :
    ∃ line t u ts, c = ⟨line, t :: u :: ts⟩ ∧ t.kind = .fnWord ∧ u.kind = .ident := by
  cases h with
  | functionStatement word name _ =>
    cases word with
    | token line _ isWord => cases name with
      | token _ _ isName => exact ⟨_, _, _, _, rfl, isWord, isName⟩

theorem function_runs {definition : FunctionStatement}
    (reads : Reads last c (.functionStatement definition) c')
    (runs : Phrase.Runs last c c' (.functionStatement definition)) :
    Phrase.Runs last c c' (.statement (.function definition)) := by
  intro bound enough
  obtain ⟨bound, rfl, left⟩ := exists_left enough
  have built := runs bound (by omega)
  obtain ⟨line, t, u, ts, rfl, isWord, isName⟩ := reads.functionStatement_starts
  unfold Grammar.statement
  refine .bind .current ?_
  simp only [List.headD_cons, isWord]
  refine .bind (.starts line t (u :: ts)) ?_
  simp only [List.headD_cons, isWord, isName, beq_self_eq_true, Bool.and_self, if_true]
  exact .bind built (.done _)

theorem plain_runs {line : Nat} {t : Token} {ts : List Token} {e : Expr}
    (reads : Reads last ⟨line, t :: ts⟩ (.expression .lowest e) c')
    (runs : Phrase.Runs last ⟨line, t :: ts⟩ c' (.expression .lowest e)) :
    Phrase.Runs last ⟨line, t :: ts⟩ c' (.statement (.expression t e)) := by
  intro bound enough
  obtain ⟨bound, rfl, left⟩ := exists_left enough
  have built := runs bound (by omega)
  have opens := reads.opens rfl
  simp only [Place.opens, Bool.and_eq_true] at opens
  obtain ⟨starts, lambda⟩ := opens
  have rest : Builds last ⟨line, t :: ts⟩ (do
      if ← ask startsFunction then
        return Stmt.function (← Grammar.functionStatement bound)
      else
        return Stmt.expression t (← Grammar.expression bound .lowest)) (.expression t e) c' := by
    refine .bind (.starts line t ts) ?_
    -- a function that is an expression has no name
    have unnamed : (t.kind == .fnWord && (ts.headD last).kind == .ident) = false := by
      cases ts with
      | nil => simp_all
      | cons u us =>
        simp only [List.headD_cons, Bool.and_eq_false_iff, beq_eq_false_iff_ne]
        by_cases word : t.kind = .fnWord
        · have paren : u.kind = .lparen := by simpa [word] using lambda
          exact Or.inr (by simp [paren])
        · exact Or.inl word
    rw [unnamed]
    exact .bind built (.done _)
  unfold Grammar.statement
  refine .bind .current ?_
  simp only [List.headD_cons]
  generalize t.kind = kind at *
  cases kind
  all_goals first
    | exact rest
    | simp [operandStart] at starts

/-! ### Classes -/

theorem noMethods_runs (stops : c.stops [.endWord]) : Phrase.Runs last c c (.methods []) := by
  intro bound enough
  obtain ⟨bound, rfl, left⟩ := exists_left enough
  unfold Grammar.methods
  refine .bind .ended ?_
  rw [stops]
  exact .done _

theorem someMethods_runs {method : FunctionStatement} {members : List FunctionStatement}
    (head : Reads last c (.functionStatement method) c₁)
    (runs : Phrase.Runs last c c₁ (.functionStatement method))
    (rest : Phrase.Runs last c₁ c' (.methods members)) :
    Phrase.Runs last c c' (.methods (method :: members)) := by
  intro bound enough
  obtain ⟨bound, rfl, left⟩ := exists_left enough
  have shorter := head.shorter
  simp only [Phrase.least] at shorter
  have built := runs bound (by omega)
  have more := rest bound (by omega)
  obtain ⟨line, t, u, ts, rfl, isWord, isName⟩ := head.functionStatement_starts
  unfold Grammar.methods
  refine .bind .ended ?_
  simp only [Place.stops, isWord]
  refine .bind (.starts line t (u :: ts)) ?_
  simp only [List.headD_cons, isWord, isName, beq_self_eq_true, Bool.and_self, if_true]
  refine .asking fun _ => ?_
  exact .bind (.attempt built) (.bind more (.done _))

/-! ## Every reading is a run -/

theorem Reads.runs (atLast : last.kind = .eof) {φ : Phrase} (h : Reads last c φ c') :
    φ.Runs last c c' := by
  induction h with
  | token => trivial
  | lastParameter close => exact lastParameter_runs atLast close
  | nextParameter comma name _ _ _ rest => exact nextParameter_runs atLast comma name rest
  | noParameters open_ close => exact noParameters_runs atLast open_ close
  | someParameters open_ name _ _ _ rest => exact someParameters_runs atLast open_ name rest
  | identifier token => exact operand_runs token (by simp)
  | integer token number => exact integer_runs token number
  | string token => exact operand_runs token (by simp)
  | truth token => exact operand_runs token (by simp)
  | falsity token => exact operand_runs token (by simp)
  | negation token _ _ operand => exact unary_runs token (by simp) operand
  | complement token _ _ operand => exact unary_runs token (by simp) operand
  | group open_ _ close _ inner _ => exact group_runs open_ inner close
  | array open_ _ _ elements => exact array_runs open_ elements
  | conditional word tested then_ body arms _ end_ _ tested_ih _ body_ih arms_ih otherwise_ih _ =>
    exact conditional_runs word tested tested_ih then_ body body_ih arms arms_ih otherwise_ih end_
  | lambda word _ _ literal => exact lambda_runs word literal
  | start first ih => exact start_runs first ih
  | climb _ more extension spine_ih extension_ih => exact climb_runs spine_ih more extension extension_ih
  | expression _ noMore spine_ih => exact expression_runs spine_ih noMore
  | assignment token _ found _ value => exact assignment_runs token value found
  | call token _ _ arguments => exact call_runs token arguments
  | index token _ close _ position _ => exact index_runs token position close
  | field token name => exact field_runs token name
  | binary token writes _ _ right => exact binary_runs token writes right
  | noExpressions _ token => exact noExpressions_runs atLast token
  | someExpressions first _ first_ih rest => exact someExpressions_runs atLast first first_ih rest
  | lastExpression bracket token => exact lastExpression_runs atLast bracket token
  | nextExpression comma next _ _ next_ih rest => exact nextExpression_runs atLast comma next next_ih rest
  | noElifs ends => exact noElifs_runs atLast ends
  | someElifs word tested then_ body _ _ tested_ih _ body_ih rest =>
    exact someElifs_runs atLast word tested tested_ih then_ body body_ih rest
  | noOtherwise ends => exact noOtherwise_runs atLast ends
  | someOtherwise word _ _ body => exact someOtherwise_runs atLast word body
  | block _ ih => exact block_runs ih
  | noStatements stops => exact noStatements_runs stops
  | someStatements head _ head_ih rest => exact someStatements_runs head head_ih rest
  | returning word _ _ value => exact returning_runs word value
  | whileLoop word tested then_ _ end_ _ tested_ih _ body _ => exact whileLoop_runs word tested tested_ih then_ body end_
  | test word label _ end_ _ _ body _ => exact test_runs word label body end_
  | classDefinition word name _ end_ _ _ members _ => exact classDefinition_runs word name members end_
  | function definition ih => exact function_runs definition ih
  | plain value ih => exact plain_runs value ih
  | functionStatement word name _ _ _ literal => exact functionStatement_runs word name literal
  | functionLiteral parameters _ end_ parameters_ih body _ => exact functionLiteral_runs parameters parameters_ih body end_
  | noMethods stops => exact noMethods_runs stops
  | someMethods head _ head_ih rest => exact someMethods_runs head head_ih rest

end Lantern.Grammar

namespace Lantern

open Grammar

theorem parse_of_reads {stream : Stream} {list : List Stmt} {line : Nat}
    (atLast : stream.last.kind = .eof)
    (reads : Reads stream.last stream.place (.statements [] list) ⟨line, []⟩) :
    (parse stream).errors = [] ∧ (parse stream).program.statements = list := by
  obtain ⟨behind, run, -, -, clean⟩ := reads.runs atLast rfl (Parser.ofStream stream).bound
    (by simp only [Parser.bound, Stream.place, Cursor.place, Parser.ofStream]; omega) (.ofStream stream) rfl rfl
  have empty : behind.errors.toList = [] := by rw [clean]; rfl
  simp only [parse, Parser.program, Parser.run, run]
  exact ⟨empty, rfl⟩

theorem parse_iff {stream : Stream} {list : List Stmt} (atLast : stream.last.kind = .eof) :
    (parse stream).errors = [] ∧ (parse stream).program.statements = list ↔
      ∃ line, Reads stream.last stream.place (.statements [] list) ⟨line, []⟩ := by
  constructor
  · rintro ⟨clean, rfl⟩
    exact parse_reads atLast clean
  · rintro ⟨line, reads⟩
    exact parse_of_reads atLast reads

end Lantern
