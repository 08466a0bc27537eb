/-
  Lantern.Proofs.Parse.Reading — the grammar as a relation.

  `Reads last c φ c'` says that from the place `c` on the phrase `φ` can be read without
  an error, and that the place behind it is `c'`. A phrase names what is read together
  with the node it leaves, so one relation covers all productions and one induction all
  of its cases. No bound, no count and no error shows in it: it is what the productions
  come to when nothing goes wrong.

  Expressions are read left to right in a spine: an operand, then one extension after
  the other (`climbing`), as long as the next token binds tighter than the level asked
  for. `expression` is a spine that cannot be extended further. A block keeps the token
  it starts at, which behind the last token is `last`.

  `Reads.opens`: what an expression can start with, and so what it cannot;
  `Reads.statement_starts`: the same of statements. `Reads.along`: a law from place to
  place that holds across single tokens holds across readings.
-/

import Lantern.Parse.Grammar

namespace Lantern

theorem Precedence.below_lowest (min : Precedence) : min.below .lowest = false := by
  simp [Precedence.below, Precedence.level]

/-- Behind an operand, what is no operator, bracket, dot or `=` does not bind. -/
theorem Precedence.of_loose {kind : Kind} (noOperator : InfixOp.ofKind? kind = none)
    (noMark : kind ≠ .assign ∧ kind ≠ .lparen ∧ kind ≠ .lbracket ∧ kind ≠ .dot) :
    Precedence.of kind = .lowest := by
  cases kind <;> first | rfl | exact absurd noOperator (by decide) | exact absurd noMark (by decide)

end Lantern

namespace Lantern.Grammar

/-! ## Places -/

/-- A place among the tokens: those ahead, and the line of the one before. -/
structure Place where
  line : Nat
  ahead : List Token

namespace Place

def extends? (min : Precedence) (place : Place) : Bool :=
  match place.ahead with
  | [] => false
  | token :: _ =>
    min.below (.of token.kind) && !((token.kind == .lparen || token.kind == .lbracket) && place.line < token.line)

def stops (close : List Kind) (place : Place) : Bool :=
  match place.ahead with
  | [] => true
  | token :: _ => close.contains token.kind

def shows (kind : Kind) (place : Place) : Bool :=
  match place.ahead with
  | [] => false
  | token :: _ => token.kind == kind

end Place

inductive Phrase where
  | token (kind : Kind) (token : Token)
  | moreParameters (names : List Identifier)
  | parameters (names : List Identifier)
  | operand (e : Expr)
  | climbing (min : Precedence) (e : Expr)
  | expression (min : Precedence) (e : Expr)
  | extension (left e : Expr)
  | expressions (close : Kind) (es : List Expr)
  | moreExpressions (close : Kind) (es : List Expr)
  | elifs (arms : List Elif)
  | otherwise (alternative : Option Block)
  | block (close : List Kind) (body : Block)
  | statements (close : List Kind) (list : List Stmt)
  | statement (s : Stmt)
  | functionStatement (definition : FunctionStatement)
  | functionLiteral (literal : FunctionLiteral)
  | methods (members : List FunctionStatement)

/-! ## The relation -/

inductive Reads (last : Token) : Place → Phrase → Place → Prop
  | token {kind : Kind} (line : Nat) {t : Token} (ts : List Token) :
      t.kind = kind → Reads last ⟨line, t :: ts⟩ (.token kind t) ⟨t.line, ts⟩
  -- parameter lists
  | lastParameter {c c' : Place} {t : Token} : Reads last c (.token .rparen t) c' → Reads last c (.moreParameters []) c'
  | nextParameter {c c₁ c₂ c' : Place} {comma t : Token} {names : List Identifier} :
      Reads last c (.token .comma comma) c₁ → Reads last c₁ (.token .ident t) c₂ →
      Reads last c₂ (.moreParameters names) c' → Reads last c (.moreParameters (.ofToken t :: names)) c'
  | noParameters {c c₁ c' : Place} {t u : Token} :
      Reads last c (.token .lparen t) c₁ → Reads last c₁ (.token .rparen u) c' → Reads last c (.parameters []) c'
  | someParameters {c c₁ c₂ c' : Place} {t u : Token} {names : List Identifier} :
      Reads last c (.token .lparen t) c₁ → Reads last c₁ (.token .ident u) c₂ →
      Reads last c₂ (.moreParameters names) c' → Reads last c (.parameters (.ofToken u :: names)) c'
  -- operands
  | identifier {c c' : Place} {t : Token} :
      Reads last c (.token .ident t) c' → Reads last c (.operand (.identifier (.ofToken t))) c'
  | integer {c c' : Place} {t : Token} {value : Int64} :
      Reads last c (.token .int t) c' → Text.decimal? t.text = some value → Reads last c (.operand (.integer t value)) c'
  | string {c c' : Place} {t : Token} : Reads last c (.token .str t) c' → Reads last c (.operand (.string t t.text)) c'
  | truth {c c' : Place} {t : Token} :
      Reads last c (.token .trueWord t) c' → Reads last c (.operand (.boolean t true)) c'
  | falsity {c c' : Place} {t : Token} :
      Reads last c (.token .falseWord t) c' → Reads last c (.operand (.boolean t false)) c'
  | negation {c c₁ c' : Place} {t : Token} {e : Expr} :
      Reads last c (.token .minus t) c₁ → Reads last c₁ (.expression .unary e) c' →
      Reads last c (.operand (.unary t .neg e)) c'
  | complement {c c₁ c' : Place} {t : Token} {e : Expr} :
      Reads last c (.token .bang t) c₁ → Reads last c₁ (.expression .unary e) c' →
      Reads last c (.operand (.unary t .not e)) c'
  | group {c c₁ c₂ c' : Place} {t u : Token} {e : Expr} :
      Reads last c (.token .lparen t) c₁ → Reads last c₁ (.expression .lowest e) c₂ →
      Reads last c₂ (.token .rparen u) c' → Reads last c (.operand e) c'
  | array {c c₁ c' : Place} {t : Token} {es : List Expr} :
      Reads last c (.token .lbracket t) c₁ → Reads last c₁ (.expressions .rbracket es) c' →
      Reads last c (.operand (.array t es)) c'
  | conditional {c c₁ c₂ c₃ c₄ c₅ c₆ c' : Place} {t u v : Token} {condition : Expr} {consequence : Block} {arms : List Elif}
      {alternative : Option Block} :
      Reads last c (.token .ifWord t) c₁ → Reads last c₁ (.expression .lowest condition) c₂ →
      Reads last c₂ (.token .thenWord u) c₃ → Reads last c₃ (.block armEnd consequence) c₄ →
      Reads last c₄ (.elifs arms) c₅ → Reads last c₅ (.otherwise alternative) c₆ →
      Reads last c₆ (.token .endWord v) c' →
      Reads last c (.operand (.conditional t condition consequence arms alternative)) c'
  | lambda {c c₁ c' : Place} {t : Token} {literal : FunctionLiteral} :
      Reads last c (.token .fnWord t) c₁ → Reads last c₁ (.functionLiteral literal) c' →
      Reads last c (.operand (.lambda t literal)) c'
  -- spines
  | start {c c' : Place} {min : Precedence} {e : Expr} : Reads last c (.operand e) c' → Reads last c (.climbing min e) c'
  | climb {c c₁ c' : Place} {min : Precedence} {left e : Expr} :
      Reads last c (.climbing min left) c₁ → c₁.extends? min → Reads last c₁ (.extension left e) c' →
      Reads last c (.climbing min e) c'
  | expression {c c' : Place} {min : Precedence} {e : Expr} :
      Reads last c (.climbing min e) c' → c'.extends? min = false → Reads last c (.expression min e) c'
  -- extensions
  | assignment {c c₁ c' : Place} {t : Token} {left value : Expr} {target : Target} :
      Reads last c (.token .assign t) c₁ → Reads last c₁ (.expression .lowest value) c' → target? left = some target →
      Reads last c (.extension left (.assignment t target value)) c'
  | call {c c₁ c' : Place} {t : Token} {left : Expr} {arguments : List Expr} :
      Reads last c (.token .lparen t) c₁ → Reads last c₁ (.expressions .rparen arguments) c' →
      Reads last c (.extension left (.call t left arguments)) c'
  | index {c c₁ c₂ c' : Place} {t u : Token} {left position : Expr} :
      Reads last c (.token .lbracket t) c₁ → Reads last c₁ (.expression .lowest position) c₂ →
      Reads last c₂ (.token .rbracket u) c' → Reads last c (.extension left (.index t left position)) c'
  | field {c c₁ c' : Place} {t u : Token} {left : Expr} :
      Reads last c (.token .dot t) c₁ → Reads last c₁ (.token .ident u) c' →
      Reads last c (.extension left (.field t left (.ofToken u))) c'
  | binary {c c₁ c' : Place} {kind : Kind} {t : Token} {left right : Expr} {op : InfixOp} :
      Reads last c (.token kind t) c₁ → InfixOp.ofKind? kind = some op → Reads last c₁ (.expression (.of kind) right) c' →
      Reads last c (.extension left (.binary t left op right)) c'
  -- lists of expressions
  | noExpressions {c c' : Place} {close : Kind} {t : Token} :
      close = .rparen ∨ close = .rbracket → Reads last c (.token close t) c' → Reads last c (.expressions close []) c'
  | someExpressions {c c₁ c' : Place} {close : Kind} {e : Expr} {es : List Expr} :
      Reads last c (.expression .lowest e) c₁ → Reads last c₁ (.moreExpressions close es) c' →
      Reads last c (.expressions close (e :: es)) c'
  | lastExpression {c c' : Place} {close : Kind} {t : Token} :
      close = .rparen ∨ close = .rbracket → Reads last c (.token close t) c' → Reads last c (.moreExpressions close []) c'
  | nextExpression {c c₁ c₂ c' : Place} {close : Kind} {t : Token} {e : Expr} {es : List Expr} :
      Reads last c (.token .comma t) c₁ → Reads last c₁ (.expression .lowest e) c₂ →
      Reads last c₂ (.moreExpressions close es) c' → Reads last c (.moreExpressions close (e :: es)) c'
  -- the arms of a conditional
  | noElifs {c : Place} : c.shows .elifWord = false → Reads last c (.elifs []) c
  | someElifs {c c₁ c₂ c₃ c₄ c' : Place} {t u : Token} {condition : Expr} {arm : Block} {arms : List Elif} :
      Reads last c (.token .elifWord t) c₁ → Reads last c₁ (.expression .lowest condition) c₂ →
      Reads last c₂ (.token .thenWord u) c₃ → Reads last c₃ (.block armEnd arm) c₄ → Reads last c₄ (.elifs arms) c' →
      Reads last c (.elifs (⟨condition, arm⟩ :: arms)) c'
  | noOtherwise {c : Place} : c.shows .elseWord = false → Reads last c (.otherwise none) c
  | someOtherwise {c c₁ c' : Place} {t : Token} {arm : Block} :
      Reads last c (.token .elseWord t) c₁ → Reads last c₁ (.block bodyEnd arm) c' → Reads last c (.otherwise (some arm)) c'
  -- blocks
  | block {c c' : Place} {close : List Kind} {list : List Stmt} :
      Reads last c (.statements close list) c' → Reads last c (.block close ⟨c.ahead.headD last, list⟩) c'
  | noStatements {c : Place} {close : List Kind} : c.stops close → Reads last c (.statements close []) c
  | someStatements {c c₁ c' : Place} {close : List Kind} {first : Stmt} {list : List Stmt} :
      Reads last c (.statement first) c₁ → Reads last c₁ (.statements close list) c' →
      Reads last c (.statements close (first :: list)) c'
  -- statements
  | returning {c c₁ c' : Place} {t : Token} {value : Expr} :
      Reads last c (.token .returnWord t) c₁ → Reads last c₁ (.expression .lowest value) c' →
      Reads last c (.statement (.returning t value)) c'
  | whileLoop {c c₁ c₂ c₃ c₄ c' : Place} {t u v : Token} {condition : Expr} {body : Block} :
      Reads last c (.token .whileWord t) c₁ → Reads last c₁ (.expression .lowest condition) c₂ →
      Reads last c₂ (.token .thenWord u) c₃ → Reads last c₃ (.block bodyEnd body) c₄ →
      Reads last c₄ (.token .endWord v) c' → Reads last c (.statement (.whileLoop t condition body)) c'
  | test {c c₁ c₂ c₃ c' : Place} {t label v : Token} {body : Block} :
      Reads last c (.token .testWord t) c₁ → Reads last c₁ (.token .str label) c₂ → Reads last c₂ (.block bodyEnd body) c₃ →
      Reads last c₃ (.token .endWord v) c' → Reads last c (.statement (.test t label.text body)) c'
  | classDefinition {c c₁ c₂ c₃ c' : Place} {t name v : Token} {members : List FunctionStatement} :
      Reads last c (.token .classWord t) c₁ → Reads last c₁ (.token .ident name) c₂ → Reads last c₂ (.methods members) c₃ →
      Reads last c₃ (.token .endWord v) c' → Reads last c (.statement (.classDefinition t (.ofToken name) members)) c'
  | function {c c' : Place} {definition : FunctionStatement} :
      Reads last c (.functionStatement definition) c' → Reads last c (.statement (.function definition)) c'
  | plain {line : Nat} {t : Token} {ts : List Token} {c' : Place} {e : Expr} :
      Reads last ⟨line, t :: ts⟩ (.expression .lowest e) c' →
      Reads last ⟨line, t :: ts⟩ (.statement (.expression t e)) c'
  -- functions and classes
  | functionStatement {c c₁ c₂ c' : Place} {t name : Token} {literal : FunctionLiteral} :
      Reads last c (.token .fnWord t) c₁ → Reads last c₁ (.token .ident name) c₂ → Reads last c₂ (.functionLiteral literal) c' →
      Reads last c (.functionStatement ⟨t, .ofToken name, literal⟩) c'
  | functionLiteral {c c₁ c₂ c' : Place} {t : Token} {names : List Identifier} {body : Block} :
      Reads last c (.parameters names) c₁ → Reads last c₁ (.block bodyEnd body) c₂ → Reads last c₂ (.token .endWord t) c' →
      Reads last c (.functionLiteral ⟨names, body⟩) c'
  | noMethods {c : Place} : c.stops [.endWord] → Reads last c (.methods []) c
  | someMethods {c c₁ c' : Place} {method : FunctionStatement} {members : List FunctionStatement} :
      Reads last c (.functionStatement method) c₁ → Reads last c₁ (.methods members) c' →
      Reads last c (.methods (method :: members)) c'

/-! ## What starts an expression -/

def operandStart : List Kind :=
  [.ident, .int, .str, .trueWord, .falseWord, .minus, .bang, .lparen, .lbracket, .ifWord, .fnWord]

/-- Whether an expression can start here: behind `fn` there has to be a parameter list. -/
def Place.opens (place : Place) : Bool :=
  match place.ahead with
  | [] => false
  | token :: more => operandStart.contains token.kind && (token.kind != .fnWord || (more.head?.map (·.kind)) == some .lparen)

def Phrase.isExpression : Phrase → Bool
  | .operand _ | .climbing .. | .expression .. => true
  | _ => false

variable {last : Token}

theorem Reads.token_inv {c c' : Place} {kind : Kind} {t : Token}
    (h : Reads last c (.token kind t) c') :
    t.kind = kind ∧ c.ahead = t :: c'.ahead ∧ c'.line = t.line := by
  cases h with
  | token line ts eq => exact ⟨eq, rfl, rfl⟩

theorem Reads.parameters_shows {c c' : Place} {names : List Identifier}
    (h : Reads last c (.parameters names) c') :
    c.shows .lparen := by
  cases h with
  | noParameters open_ _ => obtain ⟨kind, ahead, -⟩ := open_.token_inv; simp [Place.shows, ahead, kind]
  | someParameters open_ _ _ => obtain ⟨kind, ahead, -⟩ := open_.token_inv; simp [Place.shows, ahead, kind]

theorem Reads.opens {c c' : Place} {φ : Phrase} (h : Reads last c φ c')
    (isExpression : φ.isExpression) : c.opens := by
  induction h with
  | start _ ih => exact ih rfl
  | climb _ _ _ ih _ => exact ih rfl
  | expression _ _ ih => exact ih rfl
  | lambda word literal =>
    obtain ⟨kind, ahead, -⟩ := word.token_inv
    cases literal with
    | functionLiteral parameters _ _ =>
      have shows := parameters.parameters_shows
      unfold Place.shows at shows
      split at shows
      · cases shows
      · next ahead' => simp_all [Place.opens, operandStart]
  | identifier word | string word | truth word | falsity word =>
    obtain ⟨kind, ahead, -⟩ := word.token_inv
    simp [Place.opens, operandStart, ahead, kind]
  | integer word _ | negation word _ | complement word _ | array word _ =>
    obtain ⟨kind, ahead, -⟩ := word.token_inv
    simp [Place.opens, operandStart, ahead, kind]
  | group word _ _ =>
    obtain ⟨kind, ahead, -⟩ := word.token_inv
    simp [Place.opens, operandStart, ahead, kind]
  | conditional word _ _ _ _ _ _ =>
    obtain ⟨kind, ahead, -⟩ := word.token_inv
    simp [Place.opens, operandStart, ahead, kind]
  | _ => cases isExpression

/-! ## Where statements start and end -/

def statementStart : List Kind := [.returnWord, .whileWord, .testWord, .classWord] ++ operandStart

theorem Reads.statement_starts {c c' : Place} {s : Stmt} (h : Reads last c (.statement s) c') :
    ∃ t ts, c.ahead = t :: ts ∧ t.kind ∈ statementStart := by
  cases h with
  | returning word | whileLoop word | test word | classDefinition word =>
    obtain ⟨kind, ahead, -⟩ := word.token_inv
    exact ⟨_, _, ahead, by rw [kind]; decide⟩
  | function definition => cases definition with
    | functionStatement word =>
      obtain ⟨kind, ahead, -⟩ := word.token_inv
      exact ⟨_, _, ahead, by rw [kind]; decide⟩
  | plain value =>
    have opens := value.opens rfl
    simp only [Place.opens, Bool.and_eq_true, List.contains_iff_mem] at opens
    exact ⟨_, _, rfl, List.mem_append_right _ opens.1⟩

theorem Reads.statements_stops {c c' : Place} {close : List Kind} {list : List Stmt}
    (h : Reads last c (.statements close list) c') : c'.stops close := by
  induction list generalizing c with
  | nil => cases h with
    | noStatements stops => exact stops
  | cons _ _ ih => cases h with
    | someStatements _ rest => exact ih rest

/-- Where nothing closes statements, they go on to the end. -/
theorem Place.stops_nil {c : Place} (h : c.stops []) : c.ahead = [] := by
  unfold Place.stops at h
  split at h
  · assumption
  · cases h

/-! ## Across a reading -/

/-- All phrases but a single token of a kind that is no part of others, or only with its
    value. -/
def Phrase.isPart : Phrase → Bool
  | .token .illegal _ | .token .int _ => false
  | _ => true

theorem isPart_of_ofKind? {kind : Kind} {t : Token} {op : InfixOp}
    (writes : InfixOp.ofKind? kind = some op) :
    (Phrase.token kind t).isPart := by
  cases kind <;> first | rfl | cases writes

/-- What holds across every token that is passed holds across a whole reading. -/
theorem Reads.along {T : Place → Place → Prop} (refl : ∀ c, T c c)
    (trans : ∀ {a b d}, T a b → T b d → T a d)
    (token : ∀ line t ts, t.kind ≠ .illegal → t.kind ≠ .int → T ⟨line, t :: ts⟩ ⟨t.line, ts⟩)
    (number : ∀ line t ts value, t.kind = .int → Text.decimal? t.text = some value → T ⟨line, t :: ts⟩ ⟨t.line, ts⟩)
    {c c' : Place} {φ : Phrase} (h : Reads last c φ c') (isPart : φ.isPart) : T c c' := by
  induction h with
  | token line ts eq =>
    subst eq
    refine token line _ ts ?_ ?_ <;> intro eq <;> simp [Phrase.isPart, eq] at isPart
  | integer word value => cases word with
    | token line ts eq => exact number line _ ts _ eq value
  | binary _ writes _ ih₁ ih₂ => exact trans (ih₁ (isPart_of_ofKind? writes)) (ih₂ rfl)
  | noExpressions bracket _ ih | lastExpression bracket _ ih => rcases bracket with rfl | rfl <;> exact ih rfl
  | noElifs | noOtherwise | noStatements | noMethods => exact refl _
  | lastParameter _ ih | identifier _ ih | string _ ih | truth _ ih | falsity _ ih => exact ih rfl
  | start _ ih | expression _ _ ih | block _ ih | function _ ih | plain _ ih => exact ih rfl
  | noParameters _ _ ih₁ ih₂ | negation _ _ ih₁ ih₂ | complement _ _ ih₁ ih₂ | array _ _ ih₁ ih₂
  | lambda _ _ ih₁ ih₂ | climb _ _ _ ih₁ ih₂ | assignment _ _ _ ih₁ ih₂ | call _ _ ih₁ ih₂ | field _ _ ih₁ ih₂
  | someExpressions _ _ ih₁ ih₂ | someOtherwise _ _ ih₁ ih₂ | someStatements _ _ ih₁ ih₂ | returning _ _ ih₁ ih₂
  | someMethods _ _ ih₁ ih₂ =>
    exact trans (ih₁ rfl) (ih₂ rfl)
  | nextParameter _ _ _ ih₁ ih₂ ih₃ | someParameters _ _ _ ih₁ ih₂ ih₃ | group _ _ _ ih₁ ih₂ ih₃ | index _ _ _ ih₁ ih₂ ih₃
  | nextExpression _ _ _ ih₁ ih₂ ih₃ | functionStatement _ _ _ ih₁ ih₂ ih₃ | functionLiteral _ _ _ ih₁ ih₂ ih₃ =>
    exact trans (ih₁ rfl) (trans (ih₂ rfl) (ih₃ rfl))
  | test _ _ _ _ ih₁ ih₂ ih₃ ih₄ | classDefinition _ _ _ _ ih₁ ih₂ ih₃ ih₄ =>
    exact trans (ih₁ rfl) (trans (ih₂ rfl) (trans (ih₃ rfl) (ih₄ rfl)))
  | someElifs _ _ _ _ _ ih₁ ih₂ ih₃ ih₄ ih₅ | whileLoop _ _ _ _ _ ih₁ ih₂ ih₃ ih₄ ih₅ =>
    exact trans (ih₁ rfl) (trans (ih₂ rfl) (trans (ih₃ rfl) (trans (ih₄ rfl) (ih₅ rfl))))
  | conditional _ _ _ _ _ _ _ ih₁ ih₂ ih₃ ih₄ ih₅ ih₆ ih₇ =>
    exact trans (ih₁ rfl) (trans (ih₂ rfl) (trans (ih₃ rfl) (trans (ih₄ rfl) (trans (ih₅ rfl)
      (trans (ih₆ rfl) (ih₇ rfl))))))

end Lantern.Grammar
