/-
  Lantern.Proofs.Parse.Yield — no token is lost, made up or moved.

  The sense of a token is what of it outlives formatting: its kind, the text of a name
  or a string, the value of a number; parentheses have none. A reading takes off the
  tokens ahead, up to their sense, what the layout of its node is made of
  (`Reads.senses`), so that the layout of a parsed program and its source agree token
  for token. To have the canonical text scan as that layout, the parsed program has to
  be lexically well formed, which it gets from the tokens it was read from
  (`Reads.lexical`).

  Main statement:

  - `tokens_kept`: the tokens of a source that parses without an error and of the
    canonical text of its program agree one by one, parentheses apart.
-/

import Mathlib.Data.List.Forall2
import Lantern.Proofs.Parse.Completeness
import Lantern.Proofs.Syntax.Layout

namespace Lantern

open Grammar

/-! ## What outlives formatting -/

/-- Parentheses group or hold arguments, and formatting adds and drops those that group. -/
def Kind.isRound : Kind → Bool
  | .lparen | .rparen => true
  | _ => false

/-- Two tokens that mean the same: of one kind, with one text if they are names or
    strings, and one value if they are numbers. -/
structure Token.Agrees (t u : Token) : Prop where
  kind : t.kind = u.kind
  text : t.kind = .ident ∨ t.kind = .str → t.text = u.text
  value : t.kind = .int → ∃ value, Text.decimal? t.text = some value ∧ Text.decimal? u.text = some value

def sense (kind : Kind) (text : String) : Kind × String × Option Int64 :=
  match kind with
  | .ident | .str => (kind, text, none)
  | .int => (kind, "", Text.decimal? text)
  | _ => (kind, "", none)

theorem sense_kind (kind : Kind) (text : String) : (sense kind text).1 = kind := by
  unfold sense
  split <;> rfl

theorem sense_fixed {kind : Kind} (fixed : kind.isFixed) (text text' : String) :
    sense kind text = sense kind text' := by
  cases kind <;> first | rfl | cases fixed

def Token.senses (tokens : List Token) : List (Kind × String × Option Int64) :=
  (tokens.filter fun t => !t.kind.isRound).map fun t => sense t.kind t.text

def Mark.senses : List Mark → List (Kind × String × Option Int64)
  | [] => []
  | .token kind text :: marks => if kind.isRound then senses marks else sense kind text :: senses marks
  | _ :: marks => senses marks

theorem Token.senses_cons (t : Token) (ts : List Token) :
    Token.senses (t :: ts) = if t.kind.isRound then Token.senses ts else sense t.kind t.text :: Token.senses ts := by
  cases round : t.kind.isRound <;> simp [Token.senses, round]

theorem Mark.senses_tokens (line : Nat) (marks : List Mark) :
    Token.senses (Mark.tokens line marks) = Mark.senses marks := by
  induction marks generalizing line with
  | nil => rfl
  | cons mark marks ih => cases mark with
    | gap => exact ih line
    | newline => exact ih (line + 1)
    | token kind text => rw [Mark.tokens, Token.senses_cons, Mark.senses, ih]

@[simp] theorem Mark.senses_nil : Mark.senses [] = [] := rfl

@[simp] theorem Mark.senses_gap (marks : List Mark) :
    Mark.senses (.gap :: marks) = Mark.senses marks := rfl

@[simp] theorem Mark.senses_newline (marks : List Mark) :
    Mark.senses (.newline :: marks) = Mark.senses marks := rfl

@[simp] theorem Mark.senses_append (marks more : List Mark) :
    Mark.senses (marks ++ more) = Mark.senses marks ++ Mark.senses more := by
  induction marks with
  | nil => rfl
  | cons mark marks ih => cases mark with
    | gap | newline => exact ih
    | token kind text =>
      simp only [List.cons_append, Mark.senses, ih]
      split <;> rfl

def Grammar.Phrase.marks : Phrase → List Mark
  | .token kind t => [.token kind t.text]
  | .moreParameters names => Identifier.marksMore names ++ [.of .rparen]
  | .parameters names => .of .lparen :: (Identifier.marksAll names ++ [.of .rparen])
  | .operand e | .climbing _ e | .expression _ e | .extension _ e => e.marks
  | .expressions close es => Expr.marksAll es ++ [.of close]
  | .moreExpressions close es => Expr.marksMore es ++ [.of close]
  | .elifs arms => Elif.marksAll arms
  | .otherwise alternative => Block.marksElse alternative
  | .block _ body => body.marks
  | .statements _ list => Stmt.marksLines list
  | .statement s => s.marks
  | .functionStatement f => f.marks
  | .functionLiteral f => f.marks
  | .methods members => FunctionStatement.marksLines members

def Grammar.Phrase.before : Phrase → List Mark
  | .extension left _ => left.marks
  | _ => []

def Kind.senses (kind : Kind) : List (Kind × String × Option Int64) := if kind.isRound then [] else
    [sense kind kind.spelling]

@[simp] theorem Kind.senses_lparen : Kind.senses .lparen = [] := rfl

@[simp] theorem Kind.senses_rparen : Kind.senses .rparen = [] := rfl

@[simp] theorem Mark.senses_of (kind : Kind) (marks : List Mark) :
    Mark.senses (.of kind :: marks) = kind.senses ++ Mark.senses marks := by
  rw [Mark.of, Mark.senses, Kind.senses]
  split <;> rfl

@[simp] theorem Mark.senses_name (name : Identifier) (marks : List Mark) :
    Mark.senses (name.mark :: marks) = (.ident, name.name, none) :: Mark.senses marks := rfl

@[simp] theorem Mark.senses_str (text : String) (marks : List Mark) :
    Mark.senses (.token .str text :: marks) = (.str, text, none) :: Mark.senses marks := rfl

theorem InfixOp.kind_of_ofKind? {kind : Kind} {op : InfixOp} (h : InfixOp.ofKind? kind = some op) :
    op.kind = kind := by
  cases kind <;> cases h <;> rfl

theorem InfixOp.kind_fixed (op : InfixOp) : op.kind.isFixed := by cases op <;> rfl

theorem Target.marks_of_target? {left : Expr} {target : Target} (h : target? left = some target) :
    target.marks = left.marks := by
  cases left <;> cases h <;> rfl

namespace Grammar

variable {last : Token} {c c' : Place} {φ : Phrase} {kind : Kind} {t : Token}

theorem Reads.senses_token (h : Reads last c (.token kind t) c') :
    Token.senses c.ahead = if kind.isRound then Token.senses c'.ahead else sense kind t.text :: Token.senses c'.ahead := by
  obtain ⟨eq, ahead, -⟩ := h.token_inv
  rw [ahead, Token.senses_cons, eq]

theorem Reads.senses_fixed (h : Reads last c (.token kind t) c') (fixed : kind.isFixed) :
    Token.senses c.ahead = kind.senses ++ Token.senses c'.ahead := by
  rw [h.senses_token, sense_fixed fixed t.text kind.spelling, Kind.senses]
  split <;> rfl

theorem Reads.senses_ident (h : Reads last c (.token .ident t) c') :
    Token.senses c.ahead = (.ident, t.text, none) :: Token.senses c'.ahead := h.senses_token

theorem Reads.senses_str (h : Reads last c (.token .str t) c') :
    Token.senses c.ahead = (.str, t.text, none) :: Token.senses c'.ahead := h.senses_token

/-- Up to their sense, the tokens a reading takes off are the layout of its node, behind
    what was read before it. -/
theorem Reads.senses (h : Reads last c φ c') :
    Mark.senses φ.before ++ Token.senses c.ahead = Mark.senses φ.marks ++ Token.senses c'.ahead := by
  induction h with
  | token line ts eq =>
    subst eq
    simp only [Phrase.before, Phrase.marks, Mark.senses, Token.senses_cons, List.nil_append]
    split <;> rfl
  | lastParameter close => exact close.senses_fixed rfl
  | nextParameter comma name _ _ _ rest =>
    simp only [Phrase.before, Phrase.marks, Mark.senses_nil, List.nil_append] at rest ⊢
    rw [comma.senses_fixed rfl, name.senses_ident, rest]
    simp [Identifier.marksMore, Identifier.ofToken]
  | noParameters open_ close =>
    simp only [Phrase.before, Phrase.marks, Mark.senses_nil, List.nil_append]
    rw [open_.senses_fixed rfl, close.senses_fixed rfl]
    rfl
  | someParameters open_ name _ _ _ rest =>
    simp only [Phrase.before, Phrase.marks, Mark.senses_nil, List.nil_append] at rest ⊢
    rw [open_.senses_fixed rfl, name.senses_ident, rest]
    simp [Identifier.marksAll, Identifier.ofToken]
  | identifier token => exact token.senses_token
  | integer token reads =>
    simp only [Phrase.before, Phrase.marks, Mark.senses_nil, List.nil_append]
    rw [token.senses_token]
    change sense .int _ :: _ = sense .int _ :: _
    simp only [sense, reads, Text.decimal?_toString]
    rfl
  | string token => exact token.senses_token
  | truth token => exact token.senses_fixed rfl
  | falsity token => exact token.senses_fixed rfl
  | negation token _ _ operand | complement token _ _ operand =>
    simp only [Phrase.before, Phrase.marks, Mark.senses_nil, List.nil_append] at operand ⊢
    rw [token.senses_fixed rfl, operand]
    simp [Expr.marks, PrefixOp.kind]
  | group open_ _ close _ inner _ =>
    simp only [Phrase.before, Phrase.marks, Mark.senses_nil, List.nil_append] at inner ⊢
    rw [open_.senses_fixed rfl, inner, close.senses_fixed rfl]
    rfl
  | array open_ _ _ elements =>
    simp only [Phrase.before, Phrase.marks, Mark.senses_nil, List.nil_append] at elements ⊢
    rw [open_.senses_fixed rfl, elements]
    simp [Expr.marks]
  | conditional word _ then_ _ _ _ end_ _ tested _ body arms alternative _ =>
    simp only [Phrase.before, Phrase.marks, Mark.senses_nil, List.nil_append] at tested body arms alternative ⊢
    rw [word.senses_fixed rfl, tested, then_.senses_fixed rfl, body, arms, alternative, end_.senses_fixed rfl]
    simp [Expr.marks]
  | lambda word _ _ literal =>
    simp only [Phrase.before, Phrase.marks, Mark.senses_nil, List.nil_append] at literal ⊢
    rw [word.senses_fixed rfl, literal]
    simp [Expr.marks]
  | start _ first => exact first
  | climb _ _ _ spine extension => exact spine.trans extension
  | expression _ _ spine => exact spine
  | assignment token _ found _ value =>
    simp only [Phrase.before, Phrase.marks, Mark.senses_nil, List.nil_append] at value ⊢
    rw [token.senses_fixed rfl, value]
    simp [Expr.marks, Target.marks_of_target? found]
  | call token _ _ arguments =>
    simp only [Phrase.before, Phrase.marks, Mark.senses_nil, List.nil_append] at arguments ⊢
    rw [token.senses_fixed rfl]
    simp [Expr.marks, arguments]
  | index token _ close _ position _ =>
    simp only [Phrase.before, Phrase.marks, Mark.senses_nil, List.nil_append] at position ⊢
    rw [token.senses_fixed rfl, position, close.senses_fixed rfl]
    simp [Expr.marks]
  | field token name =>
    simp only [Phrase.before, Phrase.marks]
    rw [token.senses_fixed rfl, name.senses_ident]
    simp [Expr.marks, Identifier.ofToken]
  | @binary c c₁ c' kind t left right op token writes _ _ value =>
    obtain rfl := InfixOp.kind_of_ofKind? writes
    simp only [Phrase.before, Phrase.marks, Mark.senses_nil, List.nil_append] at value ⊢
    rw [token.senses_fixed op.kind_fixed, value]
    simp [Expr.marks]
  | noExpressions bracket token =>
    simp only [Phrase.before, Phrase.marks, Mark.senses_nil, List.nil_append]
    rw [token.senses_fixed (by rcases bracket with rfl | rfl <;> rfl)]
    simp [Expr.marksAll]
  | someExpressions _ _ first rest =>
    simp only [Phrase.before, Phrase.marks, Mark.senses_nil, List.nil_append] at first rest ⊢
    rw [first, rest]
    simp [Expr.marksAll]
  | lastExpression bracket token =>
    simp only [Phrase.before, Phrase.marks, Mark.senses_nil, List.nil_append]
    rw [token.senses_fixed (by rcases bracket with rfl | rfl <;> rfl)]
    simp [Expr.marksMore]
  | nextExpression comma _ _ _ next rest =>
    simp only [Phrase.before, Phrase.marks, Mark.senses_nil, List.nil_append] at next rest ⊢
    rw [comma.senses_fixed rfl, next, rest]
    simp [Expr.marksMore]
  | noElifs | noOtherwise | noStatements | noMethods => rfl
  | someElifs word _ then_ _ _ _ tested _ body rest =>
    simp only [Phrase.before, Phrase.marks, Mark.senses_nil, List.nil_append] at tested body rest ⊢
    rw [word.senses_fixed rfl, tested, then_.senses_fixed rfl, body, rest]
    simp [Elif.marksAll]
  | someOtherwise word _ _ body =>
    simp only [Phrase.before, Phrase.marks, Mark.senses_nil, List.nil_append] at body ⊢
    rw [word.senses_fixed rfl, body]
    simp [Block.marksElse]
  | block _ list => exact list
  | someStatements _ _ first rest =>
    simp only [Phrase.before, Phrase.marks, Mark.senses_nil, List.nil_append] at first rest ⊢
    rw [first, rest]
    simp [Stmt.marksLines]
  | returning word _ _ value =>
    simp only [Phrase.before, Phrase.marks, Mark.senses_nil, List.nil_append] at value ⊢
    rw [word.senses_fixed rfl, value]
    simp [Stmt.marks]
  | whileLoop word _ then_ _ end_ _ tested _ body _ =>
    simp only [Phrase.before, Phrase.marks, Mark.senses_nil, List.nil_append] at tested body ⊢
    rw [word.senses_fixed rfl, tested, then_.senses_fixed rfl, body, end_.senses_fixed rfl]
    simp [Stmt.marks]
  | test word label _ end_ _ _ body _ =>
    simp only [Phrase.before, Phrase.marks, Mark.senses_nil, List.nil_append] at body ⊢
    rw [word.senses_fixed rfl, label.senses_str, body, end_.senses_fixed rfl]
    simp [Stmt.marks]
  | classDefinition word name _ end_ _ _ members _ =>
    simp only [Phrase.before, Phrase.marks, Mark.senses_nil, List.nil_append] at members ⊢
    rw [word.senses_fixed rfl, name.senses_ident, members, end_.senses_fixed rfl]
    simp [Stmt.marks, Identifier.ofToken]
  | function _ definition => exact definition
  | plain _ value => exact value
  | functionStatement word name _ _ _ literal =>
    simp only [Phrase.before, Phrase.marks, Mark.senses_nil, List.nil_append] at literal ⊢
    rw [word.senses_fixed rfl, name.senses_ident, literal]
    simp [FunctionStatement.marks, Identifier.ofToken]
  | functionLiteral _ _ end_ parameters body _ =>
    simp only [Phrase.before, Phrase.marks, Mark.senses_nil, List.nil_append] at parameters body ⊢
    rw [parameters, body, end_.senses_fixed rfl]
    simp [FunctionLiteral.marks]
  | someMethods _ _ method members =>
    simp only [Phrase.before, Phrase.marks, Mark.senses_nil, List.nil_append] at method members ⊢
    rw [method, members]
    simp [FunctionStatement.marksLines]

/-! ## Every number is one -/

/-- Of the tokens passed between two places, those of integers can be read as integers. -/
def Numbered (c c' : Place) : Prop :=
  ∀ t ∈ c.ahead, t.kind = .int → t ∈ c'.ahead ∨ ∃ value, Text.decimal? t.text = some value

theorem Numbered.refl (c : Place) : Numbered c c := fun _ mem _ => Or.inl mem

theorem Numbered.trans {c₁ : Place} (h : Numbered c c₁) (h' : Numbered c₁ c') : Numbered c c' := by
  intro t mem number
  rcases h t mem number with mem | reads
  · exact h' t mem number
  · exact Or.inr reads

theorem Reads.numbered (h : Reads last c φ c') (isPart : φ.isPart) : Numbered c c' := by
  refine h.along .refl .trans ?_ ?_ isPart
  · intro line t ts _ noNumber u mem number
    rcases List.mem_cons.1 mem with rfl | mem
    · exact absurd number noNumber
    · exact Or.inl mem
  · intro line t ts value _ reads u mem _
    rcases List.mem_cons.1 mem with rfl | mem
    · exact Or.inr ⟨value, reads⟩
    · exact Or.inl mem

/-! ## What is read from proper tokens is well formed -/

/-- The node of the phrase meets a survey; an extension does if what it extends does. -/
def Phrase.Meets (survey : Survey) : Phrase → Prop
  | .token .. => True
  | .moreParameters names | .parameters names => names.all survey.name
  | .operand e | .climbing _ e | .expression _ e => e.meets survey
  | .extension left e => left.meets survey → e.meets survey
  | .expressions _ es | .moreExpressions _ es => Expr.allMeet survey es
  | .elifs arms => Elif.allMeet survey arms
  | .otherwise alternative => Block.elseMeets survey alternative
  | .block _ body => body.meets survey
  | .statements _ list => Stmt.allMeet survey list
  | .statement s => s.meets survey
  | .functionStatement f => f.meets survey
  | .functionLiteral f => f.meets survey
  | .methods members => FunctionStatement.allMeet survey members

def Place.Proper (c : Place) : Prop := ∀ t ∈ c.ahead, t.Proper

theorem Reads.proper_token (h : Reads last c (.token kind t) c') (proper : c.Proper) :
    Token.Proper ⟨kind, t.text, t.line⟩ := by
  obtain ⟨eq, ahead, -⟩ := h.token_inv
  rw [← eq]
  exact proper t (by rw [ahead]; exact List.mem_cons_self)

theorem Target.meets_of_target? {left : Expr} {target : Target} (h : target? left = some target)
    (ok : left.meets .lexical) : target.meets .lexical := by
  cases left <;> cases h
  · simpa [Expr.meets, Target.meets, Survey.lexical] using ok
  · simpa [Expr.meets, Target.meets, Survey.lexical] using ok

open Survey (lexical)

theorem Reads.lexical (h : Reads last c φ c') (proper : c.Proper) :
    c'.Proper ∧ φ.Meets Survey.lexical := by
  induction h with
  | token line ts _ => exact ⟨fun t mem => proper t (List.mem_cons_of_mem _ mem), trivial⟩
  | lastParameter _ ih => exact ⟨(ih proper).1, rfl⟩
  | nextParameter _ name _ ihComma ihName ihMore =>
    have named := name.proper_token (ihComma proper).1
    obtain ⟨proper', more⟩ := ihMore (ihName (ihComma proper).1).1
    refine ⟨proper', ?_⟩
    simp only [Phrase.Meets, List.all_cons, Bool.and_eq_true] at more ⊢
    exact ⟨named, more⟩
  | noParameters _ _ ihOpen ihClose => exact ⟨(ihClose (ihOpen proper).1).1, rfl⟩
  | someParameters _ name _ ihOpen ihName ihMore =>
    have named := name.proper_token (ihOpen proper).1
    obtain ⟨proper', more⟩ := ihMore (ihName (ihOpen proper).1).1
    refine ⟨proper', ?_⟩
    simp only [Phrase.Meets, List.all_cons, Bool.and_eq_true] at more ⊢
    exact ⟨named, more⟩
  | identifier token ih =>
    have named := token.proper_token proper
    exact ⟨(ih proper).1, Bool.and_eq_true_iff.2 ⟨rfl, named⟩⟩
  | integer token reads ih =>
    have digits : isNumber _ := token.proper_token proper
    simp only [isNumber, Bool.and_eq_true] at digits
    refine ⟨(ih proper).1, ?_⟩
    simpa [Phrase.Meets, Expr.meets, Survey.lexical] using Text.decimal?_nonneg digits.2 reads
  | string token ih => exact ⟨(ih proper).1, token.proper_token proper⟩
  | truth _ ih | falsity _ ih => exact ⟨(ih proper).1, rfl⟩
  | negation _ _ ihToken ihInner | complement _ _ ihToken ihInner | array _ _ ihToken ihInner
  | lambda _ _ ihToken ihInner =>
    obtain ⟨proper', inner⟩ := ihInner (ihToken proper).1
    refine ⟨proper', ?_⟩
    simp only [Phrase.Meets, Expr.meets, Bool.and_eq_true] at inner ⊢
    exact ⟨rfl, inner⟩
  | group _ _ _ ihOpen ihInner ihClose =>
    obtain ⟨proper', inner⟩ := ihInner (ihOpen proper).1
    exact ⟨(ihClose proper').1, inner⟩
  | conditional _ _ _ _ _ _ _ ihWord ihTest ihThen ihBody ihArms ihElse ihEnd =>
    obtain ⟨proper₁, tested⟩ := ihTest (ihWord proper).1
    obtain ⟨proper₂, body⟩ := ihBody (ihThen proper₁).1
    obtain ⟨proper₃, arms⟩ := ihArms proper₂
    obtain ⟨proper₄, alternative⟩ := ihElse proper₃
    refine ⟨(ihEnd proper₄).1, ?_⟩
    simp only [Phrase.Meets, Expr.meets, Bool.and_eq_true] at tested body arms alternative ⊢
    exact ⟨⟨⟨⟨rfl, tested⟩, body⟩, arms⟩, alternative⟩
  | start _ ih => exact ih proper
  | climb _ _ _ spine extension =>
    obtain ⟨proper', left⟩ := spine proper
    obtain ⟨proper'', wider⟩ := extension proper'
    exact ⟨proper'', wider left⟩
  | expression _ _ ih => exact ih proper
  | assignment _ _ found ihToken ihValue =>
    obtain ⟨proper', value⟩ := ihValue (ihToken proper).1
    refine ⟨proper', fun left => ?_⟩
    simp only [Phrase.Meets, Expr.meets, Bool.and_eq_true] at value ⊢
    exact ⟨⟨rfl, Target.meets_of_target? found left⟩, value⟩
  | call _ _ ihOpen ihArguments =>
    obtain ⟨proper', arguments⟩ := ihArguments (ihOpen proper).1
    refine ⟨proper', fun left => ?_⟩
    simp only [Phrase.Meets, Expr.meets, Bool.and_eq_true] at arguments ⊢
    exact ⟨⟨rfl, left⟩, arguments⟩
  | index _ _ _ ihOpen ihPosition ihClose =>
    obtain ⟨proper', position⟩ := ihPosition (ihOpen proper).1
    refine ⟨(ihClose proper').1, fun left => ?_⟩
    simp only [Phrase.Meets, Expr.meets, Bool.and_eq_true] at position ⊢
    exact ⟨⟨rfl, left⟩, position⟩
  | field _ name ihDot ihName =>
    have named := name.proper_token (ihDot proper).1
    refine ⟨(ihName (ihDot proper).1).1, fun left => ?_⟩
    simp only [Expr.meets, Bool.and_eq_true]
    exact ⟨⟨rfl, left⟩, named⟩
  | binary _ _ _ ihToken ihRight =>
    obtain ⟨proper', right⟩ := ihRight (ihToken proper).1
    refine ⟨proper', fun left => ?_⟩
    simp only [Phrase.Meets, Expr.meets, Bool.and_eq_true] at right ⊢
    exact ⟨⟨rfl, left⟩, right⟩
  | noExpressions _ _ ih | lastExpression _ _ ih => exact ⟨(ih proper).1, rfl⟩
  | someExpressions _ _ ihFirst ihRest | someStatements _ _ ihFirst ihRest | someMethods _ _ ihFirst ihRest =>
    obtain ⟨proper₁, first⟩ := ihFirst proper
    obtain ⟨proper₂, rest⟩ := ihRest proper₁
    exact ⟨proper₂, Bool.and_eq_true_iff.2 ⟨first, rest⟩⟩
  | nextExpression _ _ _ ihComma ihFirst ihRest =>
    obtain ⟨proper₁, next⟩ := ihFirst (ihComma proper).1
    obtain ⟨proper₂, rest⟩ := ihRest proper₁
    exact ⟨proper₂, Bool.and_eq_true_iff.2 ⟨next, rest⟩⟩
  | noElifs | noOtherwise | noStatements | noMethods => exact ⟨proper, rfl⟩
  | someElifs _ _ _ _ _ ihWord ihTest ihThen ihBody ihRest =>
    obtain ⟨proper₁, tested⟩ := ihTest (ihWord proper).1
    obtain ⟨proper₂, body⟩ := ihBody (ihThen proper₁).1
    obtain ⟨proper₃, rest⟩ := ihRest proper₂
    refine ⟨proper₃, ?_⟩
    simp only [Phrase.Meets, Elif.allMeet, Bool.and_eq_true]
    exact ⟨⟨tested, body⟩, rest⟩
  | someOtherwise _ _ ihWord ihBody => exact ihBody (ihWord proper).1
  | block _ ih | function _ ih | plain _ ih => exact ih proper
  | returning _ _ ihWord ihValue => exact ihValue (ihWord proper).1
  | whileLoop _ _ _ _ _ ihWord ihTest ihThen ihBody ihEnd =>
    obtain ⟨proper₁, tested⟩ := ihTest (ihWord proper).1
    obtain ⟨proper₂, body⟩ := ihBody (ihThen proper₁).1
    exact ⟨(ihEnd proper₂).1, Bool.and_eq_true_iff.2 ⟨tested, body⟩⟩
  | test _ label _ _ ihWord ihLabel ihBody ihEnd =>
    have quotable := label.proper_token (ihWord proper).1
    obtain ⟨proper₁, body⟩ := ihBody (ihLabel (ihWord proper).1).1
    exact ⟨(ihEnd proper₁).1, Bool.and_eq_true_iff.2 ⟨quotable, body⟩⟩
  | classDefinition _ name _ _ ihWord ihName ihMembers ihEnd =>
    have named := name.proper_token (ihWord proper).1
    obtain ⟨proper₁, members⟩ := ihMembers (ihName (ihWord proper).1).1
    exact ⟨(ihEnd proper₁).1, Bool.and_eq_true_iff.2 ⟨named, members⟩⟩
  | functionStatement _ name _ ihWord ihName ihLiteral =>
    have named := name.proper_token (ihWord proper).1
    obtain ⟨proper₁, literal⟩ := ihLiteral (ihName (ihWord proper).1).1
    exact ⟨proper₁, Bool.and_eq_true_iff.2 ⟨named, literal⟩⟩
  | functionLiteral _ _ _ ihParameters ihBody ihEnd =>
    obtain ⟨proper₁, parameters⟩ := ihParameters proper
    obtain ⟨proper₂, body⟩ := ihBody proper₁
    exact ⟨(ihEnd proper₂).1, Bool.and_eq_true_iff.2 ⟨parameters, body⟩⟩

end Grammar

/-! ## Whole sources -/

/-- The program of a source that parses without an error is lexically well formed. -/
theorem lexical_parse {source : String} (clean : (parseSource source).errors = []) :
    (parseSource source).program.meets .lexical := by
  obtain ⟨line, reads⟩ := parse_reads (scan_last source) clean
  exact (reads.lexical (scan_proper source)).2

theorem Token.agrees_of_sense {t u : Token} (same : sense t.kind t.text = sense u.kind u.text)
    (number : t.kind = .int → ∃ value, Text.decimal? t.text = some value) : t.Agrees u := by
  obtain ⟨kind, text, line⟩ := t
  obtain ⟨kind', text', line'⟩ := u
  obtain rfl : kind = kind' := by
    have kinds := congrArg Prod.fst same
    rwa [sense_kind, sense_kind] at kinds
  refine ⟨rfl, ?_, ?_⟩
  · rintro (rfl | rfl) <;> exact congrArg (fun x => x.2.1) same
  · rintro rfl
    obtain ⟨value, reads⟩ := number rfl
    have values : Text.decimal? text = Text.decimal? text' := congrArg (fun x => x.2.2) same
    exact ⟨value, reads, values ▸ reads⟩

theorem tokens_kept {source : String} (clean : (parseSource source).errors = []) :
    List.Forall₂ Token.Agrees ((scan source).tokens.filter fun t => !t.kind.isRound)
      ((scan (parseSource source).program.render).tokens.filter fun t => !t.kind.isRound) := by
  obtain ⟨line, reads⟩ := parse_reads (scan_last source) clean
  have same : Token.senses (scan source).tokens = Token.senses (scan (parseSource source).program.render).tokens := by
    rw [scan_render (lexical_parse clean), Mark.senses_tokens]
    exact reads.senses.trans (List.append_nil _)
  have numbers : ∀ t ∈ (scan source).tokens, t.kind = .int → ∃ value, Text.decimal? t.text = some value := by
    intro t mem number
    exact (reads.numbered rfl t mem number).resolve_left List.not_mem_nil
  simp only [Token.senses] at same
  rw [← List.forall₂_eq_eq_eq, List.forall₂_map_left_iff, List.forall₂_map_right_iff] at same
  have paired := (List.forall₂_and_left _ _ ).2 ⟨fun t mem => numbers t (List.mem_of_mem_filter mem), same⟩
  exact paired.imp fun _ _ both => Token.agrees_of_sense both.2 both.1

/-- A group whose parentheses the canonical text leaves out, `a = 1 + 2` within those of
    the sum. -/
def groupedAssignment : String := "(a = 1) + 2"

theorem groupedAssignment_scan :
    scan groupedAssignment = ⟨Mark.tokens 1 [.of .lparen, .token .ident "a", .gap, .of .assign, .gap,
    .token .int "1", .of .rparen, .gap, .of .plus, .gap, .token .int "2"], .eof 1⟩ :=
  scan_written (by decide) (by decide)

theorem groupedAssignment_clean : (parseSource groupedAssignment).errors = [] := by
  rw [parseSource, groupedAssignment_scan]
  rfl

theorem tokens_kept_groupedAssignment :
    (parseSource groupedAssignment).errors = [] ∧
      List.Forall₂ Token.Agrees ((scan groupedAssignment).tokens.filter fun t => !t.kind.isRound)
        ((scan (parseSource groupedAssignment).program.render).tokens.filter fun t => !t.kind.isRound) :=
  ⟨groupedAssignment_clean, tokens_kept groupedAssignment_clean⟩

end Lantern
