/-
  Lantern.Proofs.Parse.RoundTrip — parsing undoes rendering.

  Each node is read back from its own layout, whatever follows it. An expression that is
  no assignment is a spine at every level an operator asks for, so that it can be an
  operand, a callee or what is indexed; an assignment goes on to the end of what holds
  it, and is read only where nothing extends an expression. A statement is read up to
  the newline behind it, since what opens the next line does not continue it.

  Main statement:

  - `parse_render`: a lexically well-formed program whose parts stay together is read
    back from its canonical text without an error, the tokens apart.
-/

import Lantern.Proofs.Parse.Completeness
import Lantern.Proofs.Parse.Spot
import Lantern.Proofs.Syntax.Bare

namespace Lantern

open Grammar Spot
open Survey (lexical apart)

/-! ## The line an expression ends on -/

theorem newline_notMem_of_all {p : Char → Bool} {text : List Char} (all : text.all p) (excluded : p '\n' = false) :
    '\n' ∉ text := by
  intro mem
  rw [List.all_eq_true] at all
  rw [all _ mem] at excluded
  cases excluded

theorem newline_notMem_name {text : String} (name : isName text) : '\n' ∉ text.toList := by
  simp only [isName, Bool.and_eq_true] at name
  exact newline_notMem_of_all name.1.2 rfl

/-- Behind an expression the same line goes on, unless it is a string that does not end
    on its line, or an assignment, which may end in one. -/
theorem Expr.after_level (e : Expr) (s : Spot) (ok : e.meets lexical)
    (noAssignment : e.isAssignment = false)
    (oneLine : e.isBrokenString = false) : (s.after e.marks).Level := by
  cases e with
  | integer _ value =>
    obtain ⟨-, digits⟩ := Text.toString_digits (show 0 ≤ value.toInt by simpa [Expr.meets, lexical] using ok)
    exact @past_level s .int _ (newline_notMem_of_all digits rfl)
  | string _ value => exact @past_level s .str _ (by simpa [Expr.isBrokenString] using oneLine)
  | boolean _ value => exact s.past_of_level _
  | identifier name => exact @past_level s .ident _ (newline_notMem_name (by simpa [Expr.meets, lexical] using ok))
  | assignment => cases noAssignment
  | binary | unary | call | index | field | array | conditional =>
    simp only [Expr.marks, after_cons, after_append, after_nil]
    exact past_of_level _ _
  | lambda _ literal =>
    obtain ⟨parameters, body⟩ := literal
    simp only [Expr.marks, FunctionLiteral.marks, after_cons, after_append, after_nil]
    exact past_of_level _ _

/-! ## Reading back -/

section

variable (last : Token)

/-- From its own layout the expression is read back, the tokens apart: as a spine if it
    is no assignment, and as a whole wherever nothing extends it. -/
structure Expr.ReadsBack (e : Expr) : Prop where
  climbs (noAssignment : e.isAssignment = false) (min : Precedence) (loose : min.level ≤ Precedence.unary.level)
    (s : Spot) (marks : List Mark) :
    ∃ e', e'.bare = e.bare ∧ Reads last (s.place (e.marks ++ marks)) (.climbing min e') ((s.after e.marks).place marks)
  reads (s : Spot) (marks : List Mark) (ends : ((s.after e.marks).place marks).Ends) :
    ∃ e', e'.bare = e.bare ∧ Reads last (s.place (e.marks ++ marks)) (.expression .lowest e') ((s.after e.marks).place marks)

end

variable {last : Token}

/-- What is no assignment is read back if it is a spine. -/
theorem Expr.ReadsBack.of_climbs {e : Expr}
    (climbs : ∀ (min : Precedence), min.level ≤ Precedence.unary.level → ∀ (s : Spot) (marks : List Mark),
      ∃ e', e'.bare = e.bare ∧ Reads last (s.place (e.marks ++ marks)) (.climbing min e') ((s.after e.marks).place marks)) :
    e.ReadsBack last := by
  refine ⟨fun _ => climbs, fun s marks ends => ?_⟩
  obtain ⟨e', same, spine⟩ := climbs .lowest (by decide) s marks
  exact ⟨e', same, .expression spine (ends _)⟩

theorem Expr.ReadsBack.of_operand {e : Expr}
    (operand : ∀ (s : Spot) (marks : List Mark),
      ∃ e', e'.bare = e.bare ∧ Reads last (s.place (e.marks ++ marks)) (.operand e') ((s.after e.marks).place marks)) :
    e.ReadsBack last := by
  refine .of_climbs fun min _ s marks => ?_
  obtain ⟨e', same, reads⟩ := operand s marks
  exact ⟨e', same, .start reads⟩

/-- An operand of an operator is read back up to where the operator's parentheses close. -/
theorem Expr.ReadsBack.operand {e : Expr} (h : e.ReadsBack last)
    (noAssignment : e.isAssignment = false)
    {min : Precedence} (loose : min.level ≤ Precedence.unary.level) (s : Spot) (marks : List Mark)
    (ends : ((s.after e.marks).place marks).Ends) :
    ∃ e', e'.bare = e.bare ∧ Reads last (s.place (e.marks ++ marks)) (.expression min e') ((s.after e.marks).place marks) := by
  obtain ⟨e', same, spine⟩ := h.climbs noAssignment min loose s marks
  exact ⟨e', same, .expression spine (ends _)⟩

/-! ### Names -/

theorem reads_moreParameters (names : List Identifier) (s : Spot) (marks : List Mark) :
    ∃ names', names'.map Identifier.bare = names.map Identifier.bare ∧
      Reads last (s.place (Identifier.marksMore names ++ .of .rparen :: marks)) (.moreParameters names')
        (((s.after (Identifier.marksMore names)).past (.of .rparen)).place marks) := by
  induction names generalizing s with
  | nil => exact ⟨[], rfl, .lastParameter (reads_of _ _ _)⟩
  | cons name names ih =>
    obtain ⟨names', same, rest⟩ := ih ((s.past (.of .comma)).past name.mark)
    refine ⟨_, ?_, .nextParameter (reads_of _ _ _) (reads_name _ _ _) rest⟩
    rw [List.map_cons, same]
    rfl

theorem reads_parameters (names : List Identifier) (s : Spot) (marks : List Mark) :
    ∃ names', names'.map Identifier.bare = names.map Identifier.bare ∧
      Reads last (s.place (.of .lparen :: (Identifier.marksAll names ++ .of .rparen :: marks))) (.parameters names')
        ((((s.past (.of .lparen)).after (Identifier.marksAll names)).past (.of .rparen)).place marks) := by
  cases names with
  | nil => exact ⟨[], rfl, .noParameters (reads_of _ _ _) (reads_of _ _ _)⟩
  | cons name names =>
    obtain ⟨names', same, rest⟩ := @reads_moreParameters last names ((s.past (.of .lparen)).past name.mark) marks
    refine ⟨_, ?_, .someParameters (reads_of _ _ _) (reads_name _ _ _) rest⟩
    rw [List.map_cons, same]
    rfl

/-! ### Expressions -/

theorem Precedence.tight_op (op : InfixOp) :
    Precedence.lowest.below (.of op.kind) ∧ (Precedence.of op.kind).level ≤ Precedence.unary.level ∧
      op.kind ≠ .lparen ∧ op.kind ≠ .lbracket := by
  cases op <;> decide

/-- The marks behind a block: one of the words that close it, or nothing behind a
    program. -/
def ClosedBy (close : List Kind) : List Mark → Prop
  | [] => True
  | .token kind _ :: _ => close.contains kind ∧ kind.closesBlock
  | _ => False

theorem closedBy_end (marks : List Mark) : ClosedBy bodyEnd (.of .endWord :: marks) := ⟨rfl, rfl⟩

theorem ClosedBy.elifs {marks : List Mark} (arms : List Elif) (closed : ClosedBy armEnd marks) :
    ClosedBy armEnd (Elif.marksAll arms ++ marks) := by
  cases arms with
  | nil => exact closed
  | cons arm arms =>
    obtain ⟨condition, block⟩ := arm
    exact ⟨rfl, rfl⟩

theorem ClosedBy.stops {close : List Kind} {marks : List Mark} (closed : ClosedBy close marks)
    (s : Spot) :
    (s.place marks).stops close := by
  cases marks with
  | nil => rfl
  | cons mark marks => cases mark with
    | gap | newline => exact closed.elim
    | token kind text => exact closed.1

/-- What a statement starts with can open a line, and so can what closes a block. -/
theorem Stmt.marks_head (statement : Stmt) :
    ∃ kind text rest, statement.marks = .token kind text :: rest ∧ kind.isFresh := by
  cases statement with
  | expression _ value =>
    obtain ⟨kind, text, rest, eq, head⟩ := value.marks_head
    exact ⟨kind, text, rest, eq, by cases kind <;> first | rfl | cases head⟩
  | returning => exact ⟨.returnWord, _, _, rfl, by decide⟩
  | whileLoop => exact ⟨.whileWord, _, _, rfl, by decide⟩
  | function definition =>
    obtain ⟨_, name, literal⟩ := definition
    exact ⟨.fnWord, _, _, rfl, by decide⟩
  | classDefinition => exact ⟨.classWord, _, _, rfl, by decide⟩
  | test => exact ⟨.testWord, _, _, rfl, by decide⟩

theorem ClosedBy.fresh {close : List Kind} {marks : List Mark} (closed : ClosedBy close marks)
    (statements : List Stmt) : Fresh (Stmt.marksLines statements ++ marks) := by
  cases statements with
  | nil =>
    cases marks with
    | nil => trivial
    | cons mark marks => cases mark with
      | gap | newline => exact closed.elim
      | token kind text =>
        obtain ⟨-, closes⟩ := closed
        change kind.isFresh
        cases kind <;> first | rfl | cases closes
  | cons statement statements =>
    obtain ⟨kind, text, rest, eq, fresh⟩ := statement.marks_head
    rw [Stmt.marksLines, eq]
    exact fresh

theorem past_ordered_token (s : Spot) (kind : Kind) : (s.past (.of kind)).Ordered :=
  Nat.le_add_right _ _

/-- A spine in parentheses is an operand. -/
theorem reads_grouped {s s' : Spot} {inner marks : List Mark} {e : Expr}
    (spine : Reads last ((s.past (.of .lparen)).place inner) (.climbing .lowest e) (s'.place (.of .rparen :: marks))) :
    Reads last (s.place (.of .lparen :: inner)) (.operand e) ((s'.past (.of .rparen)).place marks) :=
  .group (reads_of _ _ _) (.expression spine (ends_of rfl _)) (reads_of _ _ _)

/-! ### One form at a time -/

def Target.ReadsBack (last : Token) (target : Target) : Prop :=
  ∀ (s : Spot) (marks : List Mark), ∃ left target', target? left = some target' ∧ target'.bare = target.bare ∧
    Reads last (s.place (target.marks ++ marks)) (.operand left) ((s.after target.marks).place marks)

def Expr.AllReadBack (last : Token) (close : Kind) (es : List Expr) : Prop :=
  ∀ (s : Spot) (marks : List Mark), ∃ es', Expr.bareAll es' = Expr.bareAll es ∧
    Reads last (s.place (Expr.marksAll es ++ .of close :: marks)) (.expressions close es')
      (((s.after (Expr.marksAll es)).past (.of close)).place marks)

namespace Expr.ReadsBack

variable {token : Token} {left right callee operand object value : Expr}

theorem assignment {target : Target} (before : target.ReadsBack last)
    (behind : value.ReadsBack last) :
    (Expr.assignment token target value).ReadsBack last := by
  refine ⟨fun noAssignment => (nomatch noAssignment), fun s marks ends => ?_⟩
  simp only [Expr.marks, after_append, after_cons, past_gap] at ends
  have sign : Precedence.lowest.below (.of .assign) := by decide
  obtain ⟨left, target', found, targetSame, targetReads⟩ := before s (.gap :: .of .assign :: .gap :: (value.marks ++ marks))
  obtain ⟨value', valueSame, valueReads⟩ := behind.reads ((s.after target.marks).past (.of .assign)) marks ends
  refine ⟨.assignment ((s.after target.marks).token .assign) target' value', ?_, ?_⟩
  · simp only [Expr.bare, targetSame, valueSame]
  · simp only [Expr.marks, List.cons_append, List.append_assoc, after_cons, after_append, past_gap]
    refine .expression (.climb (.start targetReads) (extends_of sign (by decide)) ?_) (ends _)
    exact .assignment (reads_of _ _ _) valueReads found

theorem binary {op : InfixOp} (before : left.ReadsBack last) (behind : right.ReadsBack last)
    (plain : left.isAssignment = false) (plain' : right.isAssignment = false) :
    (Expr.binary token left op right).ReadsBack last := by
  obtain ⟨tight, loose, noBracket⟩ := Precedence.tight_op op
  refine .of_operand fun s marks => ?_
  -- the spots behind the left operand and behind the operator
  let s₁ := (s.past (.of .lparen)).after left.marks
  let s₂ := s₁.past (.of op.kind)
  obtain ⟨left', leftSame, leftReads⟩ := before.climbs plain .lowest (by decide) (s.past (.of .lparen))
    (.gap :: .of op.kind :: .gap :: (right.marks ++ .of .rparen :: marks))
  obtain ⟨right', rightSame, rightReads⟩ := behind.operand plain' loose s₂ (.of .rparen :: marks) (ends_of rfl)
  refine ⟨.binary (s₁.token op.kind) left' op right', ?_, ?_⟩
  · simp only [Expr.bare, leftSame, rightSame]
  · simp only [Expr.marks, List.cons_append, List.append_assoc, List.nil_append, after_cons, after_append, after_nil,
      past_gap]
    refine reads_grouped (.climb leftReads (extends_of tight noBracket) ?_)
    exact .binary (reads_of _ _ _) op.ofKind?_kind rightReads

theorem unary {op : PrefixOp} (h : operand.ReadsBack last) (plain : operand.isAssignment = false) :
    (Expr.unary token op operand).ReadsBack last := by
  refine .of_operand fun s marks => ?_
  obtain ⟨operand', same, reads⟩ := h.operand plain (Nat.le_refl Precedence.unary.level)
    ((s.past (.of .lparen)).past (.of op.kind)) (.of .rparen :: marks) (ends_of rfl)
  refine ⟨.unary ((s.past (.of .lparen)).token op.kind) op operand', ?_, ?_⟩
  · simp only [Expr.bare, same]
  · simp only [Expr.marks, List.cons_append, List.append_assoc, List.nil_append, after_cons, after_append, after_nil]
    refine reads_grouped (.start ?_)
    cases op with
    | neg => exact .negation (reads_of _ _ _) reads
    | not => exact .complement (reads_of _ _ _) reads

/-- The bracket behind a callee has to stand on its line, or it opens a line of its own. -/
theorem call {arguments : List Expr} (h : callee.ReadsBack last)
    (all : Expr.AllReadBack last .rparen arguments)
    (ok : callee.meets lexical) (plain : callee.isAssignment = false)
    (oneLine : callee.isBrokenString = false) :
    (Expr.call token callee arguments).ReadsBack last := by
  refine .of_climbs fun min loose s marks => ?_
  have tight : min.below (.of .lparen) := by
    simp only [Precedence.below, decide_eq_true_eq]
    exact Nat.lt_of_le_of_lt loose (by decide)
  have level : (s.after callee.marks).Level := callee.after_level s ok plain oneLine
  obtain ⟨callee', calleeSame, calleeReads⟩ := h.climbs plain min loose s
    (.of .lparen :: (Expr.marksAll arguments ++ .of .rparen :: marks))
  obtain ⟨arguments', argumentsSame, argumentsReads⟩ := all ((s.after callee.marks).past (.of .lparen)) marks
  refine ⟨.call ((s.after callee.marks).token .lparen) callee' arguments', ?_, ?_⟩
  · simp only [Expr.bare, calleeSame, argumentsSame]
  · simp only [Expr.marks, List.cons_append, List.append_assoc, List.nil_append, after_cons, after_append, after_nil]
    exact .climb calleeReads (extends_bracket tight level) (.call (reads_of _ _ _) argumentsReads)

theorem index {position : Expr} (h : left.ReadsBack last) (inner : position.ReadsBack last)
    (ok : left.meets lexical)
    (plain : left.isAssignment = false) (oneLine : left.isBrokenString = false) :
    (Expr.index token left position).ReadsBack last := by
  refine .of_operand fun s marks => ?_
  -- the spots behind what is indexed and behind the bracket
  let s₁ := (s.past (.of .lparen)).after left.marks
  let s₂ := s₁.past (.of .lbracket)
  have level : s₁.Level := left.after_level (s.past (.of .lparen)) ok plain oneLine
  obtain ⟨left', leftSame, leftReads⟩ := h.climbs plain .lowest (by decide) (s.past (.of .lparen))
    (.of .lbracket :: (position.marks ++ .of .rbracket :: .of .rparen :: marks))
  obtain ⟨position', positionSame, positionReads⟩ := inner.reads s₂ (.of .rbracket :: .of .rparen :: marks) (ends_of rfl)
  refine ⟨.index (s₁.token .lbracket) left' position', ?_, ?_⟩
  · simp only [Expr.bare, leftSame, positionSame]
  · simp only [Expr.marks, List.cons_append, List.append_assoc, List.nil_append, after_cons, after_append, after_nil]
    refine reads_grouped (.climb leftReads (extends_bracket (by decide) level) ?_)
    exact .index (reads_of _ _ _) positionReads (reads_of _ _ _)

/-- A field is read back as a field, whether it is a value or the target of an
    assignment. -/
theorem field_reads (h : object.ReadsBack last) (plain : object.isAssignment = false)
    (name : Identifier) (s : Spot)
    (marks : List Mark) :
    let s₁ := (s.past (.of .lparen)).after object.marks
    ∃ object', object'.bare = object.bare ∧
      Reads last (s.place (.of .lparen :: (object.marks ++ .of .dot :: name.mark :: .of .rparen :: marks)))
        (.operand (.field (s₁.token .dot) object' ((s₁.past (.of .dot)).name name)))
        ((((s₁.past (.of .dot)).past name.mark).past (.of .rparen)).place marks) := by
  intro s₁
  obtain ⟨object', same, reads⟩ := h.climbs plain .lowest (by decide) (s.past (.of .lparen))
    (.of .dot :: name.mark :: .of .rparen :: marks)
  refine ⟨object', same, reads_grouped (.climb reads (extends_of (by decide) (by decide)) ?_)⟩
  exact .field (reads_of _ _ _) (reads_name _ _ _)

theorem field (h : object.ReadsBack last) (plain : object.isAssignment = false)
    (name : Identifier) :
    (Expr.field token object name).ReadsBack last := by
  refine .of_operand fun s marks => ?_
  let s₁ := (s.past (.of .lparen)).after object.marks
  obtain ⟨object', same, reads⟩ := h.field_reads plain name s marks
  refine ⟨.field (s₁.token .dot) object' ((s₁.past (.of .dot)).name name), ?_, ?_⟩
  · simp only [Expr.bare, same]; rfl
  · simp only [Expr.marks, List.cons_append, List.append_assoc, List.nil_append, after_cons, after_append, after_nil]
    exact reads

theorem array {elements : List Expr} (all : Expr.AllReadBack last .rbracket elements) :
    (Expr.array token elements).ReadsBack last := by
  refine .of_operand fun s marks => ?_
  obtain ⟨elements', same, reads⟩ := all (s.past (.of .lbracket)) marks
  refine ⟨.array (s.token .lbracket) elements', ?_, ?_⟩
  · simp only [Expr.bare, same]
  · simp only [Expr.marks, List.cons_append, List.append_assoc, List.nil_append, after_cons, after_append, after_nil]
    exact .array (reads_of _ _ _) reads

end Expr.ReadsBack

/-! ### Every form -/

mutual

theorem Expr.readsBack (e : Expr) (ok : e.meets lexical) (together : e.meets apart) :
    e.ReadsBack last := by
  cases e with
  | integer _ value =>
    refine .of_operand fun s marks => ⟨.integer ⟨.int, toString value.toInt, s.line⟩ value, rfl, ?_⟩
    exact .integer (reads_token _ _ _ _) (Text.decimal?_toString value)
  | string _ value =>
    exact .of_operand fun s marks => ⟨.string ⟨.str, value, s.line⟩ value, rfl, .string (reads_token _ _ _ _)⟩
  | boolean _ value =>
    refine .of_operand fun s marks => ?_
    cases value with
    | true => exact ⟨.boolean ⟨.trueWord, _, s.line⟩ true, rfl, .truth (reads_of _ _ _)⟩
    | false => exact ⟨.boolean ⟨.falseWord, _, s.line⟩ false, rfl, .falsity (reads_of _ _ _)⟩
  | identifier name =>
    refine .of_operand fun s marks => ⟨.identifier ⟨⟨.ident, name.name, s.line⟩, name.name⟩, rfl, ?_⟩
    exact .identifier (reads_name _ _ _)
  | assignment _ target value =>
    simp only [Expr.meets, Bool.and_eq_true] at ok together
    exact .assignment (Target.readsBack target ok.1.2 together.1.2) (Expr.readsBack value ok.2 together.2)
  | binary _ left op right =>
    simp only [Expr.meets, Survey.apart_binary, Bool.and_eq_true, Bool.not_eq_true'] at ok together
    obtain ⟨⟨⟨plain, plain'⟩, leftTogether⟩, rightTogether⟩ := together
    have before := Expr.readsBack left ok.1.2 leftTogether
    exact .binary before (Expr.readsBack right ok.2 rightTogether) plain plain'
  | unary _ op operand =>
    simp only [Expr.meets, Survey.apart_unary, Bool.and_eq_true, Bool.not_eq_true'] at ok together
    exact .unary (Expr.readsBack operand ok.2 together.2) together.1
  | call _ callee arguments =>
    simp only [Expr.meets, Survey.apart_call, Bool.and_eq_true, Bool.not_eq_true'] at ok together
    obtain ⟨⟨⟨plain, oneLine⟩, calleeTogether⟩, argumentsTogether⟩ := together
    have all := Expr.readsBack_all arguments ok.2 argumentsTogether .rparen (Or.inl rfl)
    exact .call (Expr.readsBack callee ok.1.2 calleeTogether) all ok.1.2 plain oneLine
  | index _ left position =>
    simp only [Expr.meets, Survey.apart_index, Bool.and_eq_true, Bool.not_eq_true'] at ok together
    obtain ⟨⟨⟨plain, oneLine⟩, leftTogether⟩, positionTogether⟩ := together
    have inner := Expr.readsBack position ok.2 positionTogether
    exact .index (Expr.readsBack left ok.1.2 leftTogether) inner ok.1.2 plain oneLine
  | field _ object name =>
    simp only [Expr.meets, Survey.apart_field, Bool.and_eq_true, Bool.not_eq_true'] at ok together
    exact .field (Expr.readsBack object ok.1.2 together.1.2) together.1.1 name
  | array _ elements =>
    simp only [Expr.meets, Bool.and_eq_true] at ok together
    exact .array (Expr.readsBack_all elements ok.2 together.2 .rbracket (Or.inr rfl))
  | conditional _ condition consequence elifs alternative =>
    simp only [Expr.meets, Bool.and_eq_true] at ok together
    obtain ⟨⟨⟨⟨-, conditionOk⟩, consequenceOk⟩, elifsOk⟩, alternativeOk⟩ := ok
    obtain ⟨⟨⟨⟨-, conditionTogether⟩, consequenceTogether⟩, elifsTogether⟩, alternativeTogether⟩ := together
    refine .of_operand fun s marks => ?_
    -- the spots behind `if`, the condition, `then` and its newline, and the three kinds
    -- of arm
    let s₁ := s.past (.of .ifWord)
    let s₂ := s₁.after condition.marks
    let s₃ := (s₂.past (.of .thenWord)).past .newline
    let s₄ := s₃.after consequence.marks
    let s₅ := s₄.after (Elif.marksAll elifs)
    have closes : ClosedBy armEnd (Block.marksElse alternative ++ .of .endWord :: marks) ∧
        ∀ s : Spot, (s.place (Block.marksElse alternative ++ .of .endWord :: marks)).shows .elifWord = false := by
      cases alternative <;> exact ⟨⟨rfl, rfl⟩, fun _ => rfl⟩
    obtain ⟨condition', conditionSame, conditionReads⟩ := (Expr.readsBack condition conditionOk conditionTogether).reads
      s₁ (.gap :: .of .thenWord :: .newline :: (consequence.marks ++ (Elif.marksAll elifs ++
        (Block.marksElse alternative ++ .of .endWord :: marks)))) (@ends_of s₂ _ .thenWord rfl)
    obtain ⟨consequence', consequenceSame, consequenceReads⟩ := Block.readsBack consequence consequenceOk
      consequenceTogether s₃ (past_ordered (past_ordered_token s₂ .thenWord) .newline) (ClosedBy.elifs elifs closes.1)
    obtain ⟨elifs', elifsSame, elifsReads⟩ := Elif.readsBack_all elifs elifsOk elifsTogether s₄ closes.1 closes.2
    obtain ⟨alternative', alternativeSame, alternativeReads⟩ := Block.readsBack_else alternative alternativeOk
      alternativeTogether s₅ marks
    refine ⟨.conditional (s.token .ifWord) condition' consequence' elifs' alternative', ?_, ?_⟩
    · simp only [Expr.bare, conditionSame, consequenceSame, elifsSame, alternativeSame]
    simp only [Expr.marks, List.cons_append, List.append_assoc, List.nil_append, after_cons, after_append, after_nil,
      past_gap]
    exact .conditional (reads_of _ _ _) conditionReads (reads_of _ _ _) consequenceReads elifsReads alternativeReads
      (reads_of _ _ _)
  | lambda _ literal =>
    simp only [Expr.meets, Bool.and_eq_true] at ok together
    refine .of_operand fun s marks => ?_
    obtain ⟨literal', same, reads⟩ := FunctionLiteral.readsBack literal ok.2 together.2 (s.past (.of .fnWord)) marks
    refine ⟨.lambda (s.token .fnWord) literal', by simp only [Expr.bare, same], ?_⟩
    exact .lambda (reads_of _ _ _) reads

/-- Behind the first expression of a list. -/
theorem Expr.readsBack_more (es : List Expr) (ok : Expr.allMeet lexical es)
    (together : Expr.allMeet apart es)
    (close : Kind) (bracket : close = .rparen ∨ close = .rbracket) (s : Spot) (marks : List Mark) :
    (s.place (Expr.marksMore es ++ .of close :: marks)).Ends ∧
    ∃ es', Expr.bareAll es' = Expr.bareAll es ∧ Reads last (s.place (Expr.marksMore es ++ .of close :: marks))
      (.moreExpressions close es') (((s.after (Expr.marksMore es)).past (.of close)).place marks) := by
  cases es with
  | nil =>
    refine ⟨ends_of (by rcases bracket with rfl | rfl <;> rfl), [], rfl, ?_⟩
    exact .lastExpression bracket (reads_of _ _ _)
  | cons e es =>
    simp only [Expr.allMeet, Bool.and_eq_true] at ok together
    obtain ⟨ends, es', esSame, esReads⟩ := Expr.readsBack_more es ok.2 together.2 close bracket
      ((s.past (.of .comma)).after e.marks) marks
    obtain ⟨e', same, reads⟩ := (Expr.readsBack e ok.1 together.1).reads (s.past (.of .comma))
      (Expr.marksMore es ++ .of close :: marks) ends
    simp only [Expr.marksMore, List.cons_append, List.append_assoc, after_cons, after_append, past_gap]
    refine ⟨ends_of rfl, e' :: es', by simp only [Expr.bareAll, same, esSame], ?_⟩
    exact .nextExpression (reads_of _ _ _) reads esReads

theorem Expr.readsBack_all (es : List Expr) (ok : Expr.allMeet lexical es)
    (together : Expr.allMeet apart es)
    (close : Kind) (bracket : close = .rparen ∨ close = .rbracket) :
    Expr.AllReadBack last close es := by
  intro s marks
  cases es with
  | nil => exact ⟨[], rfl, .noExpressions bracket (reads_of _ _ _)⟩
  | cons e es =>
    simp only [Expr.allMeet, Bool.and_eq_true] at ok together
    obtain ⟨ends, es', esSame, esReads⟩ := Expr.readsBack_more es ok.2 together.2 close bracket (s.after e.marks) marks
    have first := Expr.readsBack e ok.1 together.1
    obtain ⟨e', same, reads⟩ := first.reads s (Expr.marksMore es ++ .of close :: marks) ends
    simp only [Expr.marksAll, List.append_assoc, after_append]
    exact ⟨e' :: es', by simp only [Expr.bareAll, same, esSame], .someExpressions reads esReads⟩

/-- What an assignment writes to is read back as the operand it looks like. -/
theorem Target.readsBack (target : Target) (ok : target.meets lexical)
    (together : target.meets apart) :
    target.ReadsBack last := by
  intro s marks
  cases target with
  | identifier name =>
    exact ⟨.identifier (s.name name), .identifier (s.name name), rfl, rfl, .identifier (reads_name _ _ _)⟩
  | field _ object name =>
    simp only [Target.meets, Survey.apart_target, Bool.and_eq_true, Bool.not_eq_true'] at ok together
    let s₁ := (s.past (.of .lparen)).after object.marks
    have inner := Expr.readsBack object ok.1.2 together.1.2
    obtain ⟨object', same, reads⟩ := inner.field_reads together.1.1 name s marks
    refine ⟨.field (s₁.token .dot) object' ((s₁.past (.of .dot)).name name),
      .field (s₁.token .dot) object' ((s₁.past (.of .dot)).name name), rfl, ?_, ?_⟩
    · simp only [Target.bare, same]; rfl
    · simp only [Target.marks, List.cons_append, List.append_assoc, List.nil_append, after_cons, after_append, after_nil]
      exact reads

theorem Elif.readsBack_all (arms : List Elif) (ok : Elif.allMeet lexical arms)
    (together : Elif.allMeet apart arms)
    (s : Spot) {marks : List Mark} (closed : ClosedBy armEnd marks)
    (noElif : ∀ s : Spot, (s.place marks).shows .elifWord = false) :
    ∃ arms', Elif.bareAll arms' = Elif.bareAll arms ∧
      Reads last (s.place (Elif.marksAll arms ++ marks)) (.elifs arms') ((s.after (Elif.marksAll arms)).place marks) := by
  cases arms with
  | nil => exact ⟨[], rfl, .noElifs (noElif s)⟩
  | cons arm arms =>
    obtain ⟨condition, block⟩ := arm
    simp only [Elif.allMeet, Bool.and_eq_true] at ok together
    let s₁ := s.past (.of .elifWord)
    let s₂ := s₁.after condition.marks
    let s₃ := (s₂.past (.of .thenWord)).past .newline
    let s₄ := s₃.after block.marks
    obtain ⟨condition', conditionSame, conditionReads⟩ := (Expr.readsBack condition ok.1.1 together.1.1).reads
      s₁ (.gap :: .of .thenWord :: .newline :: (block.marks ++ (Elif.marksAll arms ++ marks))) (@ends_of s₂ _ .thenWord rfl)
    obtain ⟨block', blockSame, blockReads⟩ := Block.readsBack block ok.1.2 together.1.2 s₃
      (past_ordered (past_ordered_token s₂ .thenWord) .newline) (ClosedBy.elifs arms closed)
    obtain ⟨arms', armsSame, armsReads⟩ := Elif.readsBack_all arms ok.2 together.2 s₄ closed noElif
    refine ⟨⟨condition', block'⟩ :: arms', by simp only [Elif.bareAll, conditionSame, blockSame, armsSame], ?_⟩
    simp only [Elif.marksAll, List.cons_append, List.append_assoc, after_cons, after_append, past_gap]
    exact .someElifs (reads_of _ _ _) conditionReads (reads_of _ _ _) blockReads armsReads

theorem Block.readsBack_else (alternative : Option Block) (ok : Block.elseMeets lexical alternative)
    (together : Block.elseMeets apart alternative) (s : Spot) (marks : List Mark) :
    ∃ alternative', Block.bareElse alternative' = Block.bareElse alternative ∧
      Reads last (s.place (Block.marksElse alternative ++ .of .endWord :: marks)) (.otherwise alternative')
        ((s.after (Block.marksElse alternative)).place (.of .endWord :: marks)) := by
  cases alternative with
  | none => exact ⟨none, rfl, .noOtherwise rfl⟩
  | some block =>
    obtain ⟨block', same, reads⟩ := Block.readsBack block ok together ((s.past (.of .elseWord)).past .newline)
      (past_ordered (past_ordered_token s .elseWord) .newline) (closedBy_end _)
    refine ⟨some block', by simp only [Block.bareElse, same], ?_⟩
    exact .someOtherwise (reads_of _ _ _) reads

theorem Block.readsBack (block : Block) (ok : block.meets lexical) (together : block.meets apart)
    (s : Spot)
    (ordered : s.Ordered) {close : List Kind} {marks : List Mark} (closed : ClosedBy close marks) :
    ∃ block', block'.bare = block.bare ∧
      Reads last (s.place (block.marks ++ marks)) (.block close block') ((s.after block.marks).place marks) := by
  obtain ⟨_, statements⟩ := block
  obtain ⟨statements', same, reads⟩ := Stmt.readsBack_lines statements ok together s ordered closed
  exact ⟨_, by simp only [Block.bare, same], .block reads⟩

theorem FunctionLiteral.readsBack (literal : FunctionLiteral) (ok : literal.meets lexical)
    (together : literal.meets apart) (s : Spot) (marks : List Mark) :
    ∃ literal', literal'.bare = literal.bare ∧
      Reads last (s.place (literal.marks ++ marks)) (.functionLiteral literal') ((s.after literal.marks).place marks) := by
  obtain ⟨parameters, body⟩ := literal
  simp only [FunctionLiteral.meets, Bool.and_eq_true] at ok together
  let s₁ := (s.past (.of .lparen)).after (Identifier.marksAll parameters)
  obtain ⟨parameters', parametersSame, parametersReads⟩ := @reads_parameters last parameters s
    (.newline :: (body.marks ++ .of .endWord :: marks))
  obtain ⟨body', bodySame, bodyReads⟩ := Block.readsBack body ok.2 together.2
    ((s₁.past (.of .rparen)).past .newline) (past_ordered (past_ordered_token s₁ .rparen) .newline) (closedBy_end _)
  refine ⟨⟨parameters', body'⟩, by simp only [FunctionLiteral.bare, parametersSame, bodySame], ?_⟩
  simp only [FunctionLiteral.marks, List.cons_append, List.append_assoc, List.nil_append, after_cons, after_append,
    after_nil]
  exact .functionLiteral parametersReads bodyReads (reads_of _ _ _)

theorem FunctionStatement.readsBack (definition : FunctionStatement) (ok : definition.meets lexical)
    (together : definition.meets apart) (s : Spot) (marks : List Mark) :
    ∃ definition', definition'.bare = definition.bare ∧
      Reads last (s.place (definition.marks ++ marks)) (.functionStatement definition')
        ((s.after definition.marks).place marks) := by
  obtain ⟨_, name, literal⟩ := definition
  simp only [FunctionStatement.meets, Bool.and_eq_true] at ok together
  obtain ⟨literal', same, reads⟩ := FunctionLiteral.readsBack literal ok.2 together.2
    ((s.past (.of .fnWord)).past name.mark) marks
  refine ⟨⟨s.token .fnWord, (s.past (.of .fnWord)).name name, literal'⟩,
    by simp only [FunctionStatement.bare, same]; rfl, ?_⟩
  exact .functionStatement (reads_of _ _ _) (reads_name _ _ _) reads

theorem FunctionStatement.readsBack_lines (methods : List FunctionStatement)
    (ok : FunctionStatement.allMeet lexical methods)
    (together : FunctionStatement.allMeet apart methods) (s : Spot)
    (marks : List Mark) :
    ∃ methods', FunctionStatement.bareAll methods' = FunctionStatement.bareAll methods ∧
      Reads last (s.place (FunctionStatement.marksLines methods ++ .of .endWord :: marks)) (.methods methods')
        ((s.after (FunctionStatement.marksLines methods)).place (.of .endWord :: marks)) := by
  cases methods with
  | nil => exact ⟨[], rfl, .noMethods rfl⟩
  | cons method methods =>
    simp only [FunctionStatement.allMeet, Bool.and_eq_true] at ok together
    obtain ⟨method', methodSame, methodReads⟩ := FunctionStatement.readsBack method ok.1 together.1 s
      (.newline :: (FunctionStatement.marksLines methods ++ .of .endWord :: marks))
    obtain ⟨methods', methodsSame, methodsReads⟩ := FunctionStatement.readsBack_lines methods ok.2 together.2
      ((s.after method.marks).past .newline) marks
    refine ⟨method' :: methods', by simp only [FunctionStatement.bareAll, methodSame, methodsSame], ?_⟩
    simp only [FunctionStatement.marksLines, List.cons_append, List.append_assoc, after_cons, after_append]
    exact .someMethods methodReads methodsReads

theorem Stmt.readsBack (statement : Stmt) (ok : statement.meets lexical)
    (together : statement.meets apart) (s : Spot)
    (ordered : s.Ordered) {marks : List Mark} (fresh : Fresh marks) :
    ∃ statement', statement'.bare = statement.bare ∧
      Reads last (s.place (statement.marks ++ .newline :: marks)) (.statement statement')
        ((s.after statement.marks).place (.newline :: marks)) := by
  have ends : ((s.after statement.marks).place (.newline :: marks)).Ends := ends_newline (after_ordered ordered _) fresh
  cases statement with
  | expression _ value =>
    obtain ⟨value', same, reads⟩ := (Expr.readsBack value ok together).reads s (.newline :: marks) ends
    obtain ⟨kind, text, rest, head, -⟩ := value.marks_head
    refine ⟨.expression ⟨kind, text, s.line⟩ value', by simp only [Stmt.bare, same], ?_⟩
    simp only [Stmt.marks]
    rw [head] at reads ⊢
    exact .plain reads
  | returning _ value =>
    have inner := Expr.readsBack value ok together
    obtain ⟨value', same, reads⟩ := inner.reads (s.past (.of .returnWord)) (.newline :: marks) ends
    refine ⟨.returning (s.token .returnWord) value', by simp only [Stmt.bare, same], ?_⟩
    exact .returning (reads_of _ _ _) reads
  | whileLoop _ condition body =>
    simp only [Stmt.meets, Bool.and_eq_true] at ok together
    let s₁ := s.past (.of .whileWord)
    let s₂ := s₁.after condition.marks
    let s₃ := (s₂.past (.of .thenWord)).past .newline
    obtain ⟨condition', conditionSame, conditionReads⟩ := (Expr.readsBack condition ok.1 together.1).reads s₁
      (.gap :: .of .thenWord :: .newline :: (body.marks ++ .of .endWord :: .newline :: marks)) (@ends_of s₂ _ .thenWord rfl)
    obtain ⟨body', bodySame, bodyReads⟩ := Block.readsBack body ok.2 together.2 s₃
      (past_ordered (past_ordered_token s₂ .thenWord) .newline) (closedBy_end _)
    refine ⟨.whileLoop (s.token .whileWord) condition' body', by simp only [Stmt.bare, conditionSame, bodySame], ?_⟩
    simp only [Stmt.marks, List.cons_append, List.append_assoc, List.nil_append, after_cons, after_append, after_nil,
      past_gap]
    exact .whileLoop (reads_of _ _ _) conditionReads (reads_of _ _ _) bodyReads (reads_of _ _ _)
  | function definition =>
    obtain ⟨definition', same, reads⟩ := FunctionStatement.readsBack definition ok together s (.newline :: marks)
    exact ⟨.function definition', by simp only [Stmt.bare, same], .function reads⟩
  | classDefinition _ name methods =>
    simp only [Stmt.meets, Bool.and_eq_true] at ok together
    obtain ⟨methods', same, reads⟩ := FunctionStatement.readsBack_lines methods ok.2 together.2
      (((s.past (.of .classWord)).past name.mark).past .newline) (.newline :: marks)
    refine ⟨.classDefinition (s.token .classWord) ((s.past (.of .classWord)).name name) methods', ?_, ?_⟩
    · simp only [Stmt.bare, same]; rfl
    simp only [Stmt.marks, List.cons_append, List.append_assoc, List.nil_append, after_cons, after_append, after_nil,
      past_gap]
    exact .classDefinition (reads_of _ _ _) (reads_name _ _ _) reads (reads_of _ _ _)
  | test _ label body =>
    simp only [Stmt.meets, Bool.and_eq_true] at ok together
    let s₁ := (s.past (.of .testWord)).past (.token .str label)
    obtain ⟨body', same, reads⟩ := Block.readsBack body ok.2 together.2 (s₁.past .newline)
      (past_ordered (Nat.le_add_right _ _) .newline) (closedBy_end _)
    refine ⟨.test (s.token .testWord) label body', by simp only [Stmt.bare, same], ?_⟩
    simp only [Stmt.marks, List.cons_append, List.append_assoc, List.nil_append, after_cons, after_append, after_nil,
      past_gap]
    exact .test (reads_of _ _ _) (reads_token _ .str label _) reads (reads_of _ _ _)

theorem Stmt.readsBack_lines (statements : List Stmt) (ok : Stmt.allMeet lexical statements)
    (together : Stmt.allMeet apart statements) (s : Spot) (ordered : s.Ordered) {close : List Kind}
    {marks : List Mark}
    (closed : ClosedBy close marks) :
    ∃ statements', Stmt.bareAll statements' = Stmt.bareAll statements ∧
      Reads last (s.place (Stmt.marksLines statements ++ marks)) (.statements close statements')
        ((s.after (Stmt.marksLines statements)).place marks) := by
  cases statements with
  | nil => exact ⟨[], rfl, .noStatements (closed.stops s)⟩
  | cons statement statements =>
    simp only [Stmt.allMeet, Bool.and_eq_true] at ok together
    obtain ⟨statement', same, reads⟩ := Stmt.readsBack statement ok.1 together.1 s ordered (closed.fresh statements)
    obtain ⟨statements', restSame, restReads⟩ := Stmt.readsBack_lines statements ok.2 together.2
      ((s.after statement.marks).past .newline) (past_ordered (after_ordered ordered _) _) closed
    refine ⟨statement' :: statements', by simp only [Stmt.bareAll, same, restSame], ?_⟩
    simp only [Stmt.marksLines, List.cons_append, List.append_assoc, after_cons, after_append]
    exact .someStatements reads restReads

end

/-! ## Whole programs -/

/-- The canonical text of a program reads as its statements, the tokens apart. -/
theorem Program.readsBack {program : Program} (ok : program.meets lexical)
    (together : program.meets apart) :
    ∃ list line, (⟨list⟩ : Program).bare = program.bare ∧
      Reads (scan program.render).last (scan program.render).place (.statements [] list) ⟨line, []⟩ := by
  rw [scan_render ok]
  let stream : Stream := ⟨Mark.tokens 1 (Stmt.marksLines program.statements), .eof (Mark.lineAfter 1 program.marks)⟩
  have firstLine : (stream.tokens.headD stream.last).line = 1 := by
    obtain ⟨list⟩ := program
    cases list with
    | nil => rfl
    | cons statement list =>
      obtain ⟨kind, text, rest, eq, -⟩ := statement.marks_head
      simp only [stream, Stmt.marksLines, eq]
      rfl
  let s : Spot := ⟨(stream.tokens.headD stream.last).line, 1⟩
  obtain ⟨list, same, reads⟩ := @Stmt.readsBack_lines stream.last program.statements ok together s
    (Nat.le_of_eq firstLine) [] [] trivial
  rw [List.append_nil] at reads
  exact ⟨list, _, by rw [Program.bare, Program.bare, same], reads⟩

/-- A lexically well-formed program whose parts stay together is read back from its
    canonical text without an error, the tokens apart. -/
theorem parse_render {program : Program} (ok : program.meets lexical) (together : program.meets apart) :
    (parseSource program.render).errors = [] ∧ (parseSource program.render).program.bare = program.bare := by
  obtain ⟨list, line, same, reads⟩ := Program.readsBack ok together
  obtain ⟨clean, built⟩ := parse_of_reads (scan_last program.render) reads
  exact ⟨clean, by rw [← same, ← built]; rfl⟩

/-- A function that returns the number behind its argument, and a call of it whose
    result is kept. -/
def stepping : Program :=
  let name (text : String) : Identifier := ⟨default, text⟩
  let next : Expr := .binary default (.identifier (name "n")) .add (.integer default 1)
  let called : Expr := .call default (.identifier (name "next")) [.integer default 41]
  ⟨[.function ⟨default, name "next", [name "n"], default, [.returning default next]⟩,
    .expression default (.assignment default (.identifier (name "total")) called)]⟩

theorem parse_render_stepping :
    stepping.meets lexical ∧ stepping.meets apart ∧
      (parseSource stepping.render).errors = [] ∧ (parseSource stepping.render).program.bare = stepping.bare :=
  ⟨by decide, by decide, parse_render (by decide) (by decide)⟩

end Lantern
