/-
  Lantern.Proofs.Syntax.Steady — programs whose canonical text keeps its grouping.

  A rendering shows an assignment without parentheses, and a call with none around its
  callee. So what an expression opens with counts, not what it is: `(a = f)(1)` is
  written `a = f(1)`, and next to an operator that regroups as much as `a = f` does.
  Behind a string that runs over lines a bracket starts a statement of its own, and so
  it does behind an assignment of one. `Survey.steady` asks that neither happens.

  A call of an assignment may stand where nothing binds it: `a = f(1)` reads as an
  assignment of a call and is written the same way. So a steady program has a twin of
  the same layout whose parts stay together in the strict sense of `Survey.apart`.

  Main statements:

  - `Survey.steady_covers`: what stays together in the strict sense is steady.
  - `Program.twin`: a steady program has a twin of the same layout whose parts stay
    together.
-/

import Lantern.Proofs.Syntax.Layout

namespace Lantern

/-- The text starts with the target of an assignment and its `=`: an assignment, or a
    call of one. -/
def Expr.opensAssignment : Expr → Bool
  | .assignment .. => true
  | .call _ callee _ => callee.opensAssignment
  | _ => false

def Expr.endsBroken : Expr → Bool
  | .string _ value => value.toList.contains '\n'
  | .assignment _ _ value => value.endsBroken
  | _ => false

/-- Nothing that opens an assignment is an operand, indexed or has a field, and nothing
    that ends with a string over several lines is called or indexed. -/
def Survey.steady : Survey where
  expr
    | .binary _ left _ right => !left.opensAssignment && !right.opensAssignment
    | .unary _ _ operand => !operand.opensAssignment
    | .call _ callee _ => !callee.endsBroken
    | .index _ left _ => !left.opensAssignment && !left.endsBroken
    | .field _ object _ => !object.opensAssignment
    | _ => true
  target
    | .identifier _ => true
    | .field _ object _ => !object.opensAssignment

section

variable (token : Token) (left right : Expr)

@[simp] theorem Survey.steady_binary (op : InfixOp) :
    steady.expr (.binary token left op right) = (!left.opensAssignment && !right.opensAssignment) := rfl

@[simp] theorem Survey.steady_unary (op : PrefixOp) :
    steady.expr (.unary token op right) = !right.opensAssignment := rfl

@[simp] theorem Survey.steady_call (arguments : List Expr) :
    steady.expr (.call token left arguments) = !left.endsBroken := rfl

@[simp] theorem Survey.steady_index : steady.expr (.index token left right) =
    (!left.opensAssignment && !left.endsBroken) := rfl

@[simp] theorem Survey.steady_field (name : Identifier) :
    steady.expr (.field token left name) = !left.opensAssignment := rfl

@[simp] theorem Survey.steady_assignment (target : Target) :
    steady.expr (.assignment token target right) := rfl

@[simp] theorem Survey.steady_array (elements : List Expr) : steady.expr (.array token elements) :=
  rfl

@[simp] theorem Survey.steady_conditional (consequence : Block) (arms : List Elif)
    (alternative : Option Block) :
    steady.expr (.conditional token left consequence arms alternative) := rfl

@[simp] theorem Survey.steady_lambda (literal : FunctionLiteral) :
    steady.expr (.lambda token literal) := rfl

@[simp] theorem Survey.steady_name (name : Identifier) : steady.name name := rfl

@[simp] theorem Survey.steady_label (label : String) : steady.label label := rfl

@[simp] theorem Survey.steady_target (name : Identifier) :
    steady.target (.field token left name) = !left.opensAssignment := rfl

end

open Survey (lexical apart steady)

/-! ## What stays together is steady -/

theorem Expr.opensAssignment_of_apart {e : Expr} (ok : e.meets apart) :
    e.opensAssignment = e.isAssignment := by
  cases e with
  | call _ callee _ =>
    simp only [Expr.meets, Survey.apart_call, Bool.and_eq_true, Bool.not_eq_true'] at ok
    have callee_opens := callee.opensAssignment_of_apart ok.1.2
    rw [Expr.opensAssignment, callee_opens, ok.1.1.1]
    rfl
  | _ => rfl

theorem Expr.endsBroken_of_not_assignment {e : Expr} (plain : e.isAssignment = false) :
    e.endsBroken = e.isBrokenString := by
  cases e <;> first | rfl | cases plain

theorem Survey.steady_covers : apart.Covers steady where
  expr e ok := by
    cases e with
    | binary _ left _ right =>
      simp only [Expr.meets, apart_binary, Bool.and_eq_true, Bool.not_eq_true'] at ok
      simp [left.opensAssignment_of_apart ok.1.2, right.opensAssignment_of_apart ok.2, ok.1.1]
    | unary _ _ operand =>
      simp only [Expr.meets, apart_unary, Bool.and_eq_true, Bool.not_eq_true'] at ok
      simp [operand.opensAssignment_of_apart ok.2, ok.1]
    | call _ callee _ =>
      simp only [Expr.meets, apart_call, Bool.and_eq_true, Bool.not_eq_true'] at ok
      simp [callee.endsBroken_of_not_assignment ok.1.1.1, ok.1.1.2]
    | index _ left _ =>
      simp only [Expr.meets, apart_index, Bool.and_eq_true, Bool.not_eq_true'] at ok
      simp [left.opensAssignment_of_apart ok.1.2, left.endsBroken_of_not_assignment ok.1.1.1, ok.1.1]
    | field _ object _ =>
      simp only [Expr.meets, apart_field, Bool.and_eq_true, Bool.not_eq_true'] at ok
      simp [object.opensAssignment_of_apart ok.1.2, ok.1.1]
    | _ => rfl
  target target ok := by
    cases target with
    | identifier => rfl
    | field _ object _ =>
      simp only [Target.meets, apart_target, Bool.and_eq_true, Bool.not_eq_true'] at ok
      simp [object.opensAssignment_of_apart ok.1.2, ok.1.1]
  name _ ok := ok
  label _ ok := ok

/-! ## The twin -/

/-- The call an expression with arguments behind it reads as: if it is an assignment,
    what it assigns is called. -/
def Expr.called (token : Token) (arguments : List Expr) : Expr → Expr
  | .assignment sign target value => .assignment sign target (value.called token arguments)
  | callee => .call token callee arguments

theorem Expr.marks_called (token : Token) (arguments : List Expr) (e : Expr) :
    (e.called token arguments).marks = e.marks ++ .of .lparen ::
    (Expr.marksAll arguments ++ [.of .rparen]) := by
  cases e with
  | assignment _ target value => simp [Expr.called, Expr.marks, Expr.marks_called token arguments value]
  | _ => rfl

theorem Expr.lexical_called (token : Token) (arguments : List Expr) (e : Expr) :
    (e.called token arguments).meets lexical =
    (e.meets lexical && Expr.allMeet lexical arguments) := by
  cases e with
  | assignment _ target value =>
    simp only [Expr.called, Expr.meets, Expr.lexical_called token arguments value]
    cases target.meets lexical <;> rfl
  | _ => rfl

theorem Expr.apart_called (token : Token) {arguments : List Expr} {e : Expr} (ok : e.meets apart)
    (whole : e.endsBroken = false) (all : Expr.allMeet apart arguments) :
    (e.called token arguments).meets apart := by
  by_cases assigns : e.isAssignment
  · cases e with
    | assignment _ target value =>
      simp only [Expr.called, Expr.meets, Bool.and_eq_true] at ok ⊢
      exact ⟨ok.1, Expr.apart_called token ok.2 whole all⟩
    | _ => cases assigns
  · have plain : e.isAssignment = false := by simpa using assigns
    have call : e.called token arguments = .call token e arguments := by
      cases e <;> first | rfl | cases plain
    rw [Expr.endsBroken_of_not_assignment plain] at whole
    simp [call, Expr.meets, ok, all, plain, whole]

theorem Expr.called_isAssignment (token : Token) (arguments : List Expr) (e : Expr) :
    (e.called token arguments).isAssignment = e.isAssignment := by
  cases e <;> rfl

theorem Expr.called_endsBroken (token : Token) (arguments : List Expr) (e : Expr) :
    (e.called token arguments).endsBroken = false := by
  cases e with
  | assignment _ target value => exact Expr.called_endsBroken token arguments value
  | _ => rfl

/-- An expression written the same way whose parts stay together, and what an expression
    around it asks about. -/
structure Expr.Twin (e e' : Expr) : Prop where
  marks : e'.marks = e.marks
  lexical : e'.meets lexical = e.meets lexical
  apart : e'.meets apart
  assigns : e'.isAssignment = e.opensAssignment
  broken : e'.endsBroken = e.endsBroken

theorem Expr.Twin.not_broken {e e' : Expr} (twin : e.Twin e') (whole : e.endsBroken = false) :
    e'.isBrokenString = false := by
  rw [← twin.broken] at whole
  cases e' <;> first | exact whole | rfl

mutual

theorem Expr.twin (e : Expr) (ok : e.meets steady) : ∃ e', e.Twin e' := by
  cases e with
  | integer | string | boolean | identifier => exact ⟨_, rfl, rfl, rfl, rfl, rfl⟩
  | assignment token target value =>
    simp only [Expr.meets, Bool.and_eq_true] at ok
    obtain ⟨target', marks, lexical, apart⟩ := Target.twin target ok.1.2
    obtain ⟨value', inner⟩ := Expr.twin value ok.2
    refine ⟨.assignment token target' value', ?_, ?_, ?_, rfl, inner.broken⟩
    · simp only [Expr.marks, marks, inner.marks]
    · simp only [Expr.meets, lexical, inner.lexical]; rfl
    · simp only [Expr.meets, apart, inner.apart]; rfl
  | binary token left op right =>
    simp only [Expr.meets, Survey.steady_binary, Bool.and_eq_true, Bool.not_eq_true'] at ok
    obtain ⟨⟨⟨leftPlain, rightPlain⟩, leftOk⟩, rightOk⟩ := ok
    obtain ⟨left', before⟩ := Expr.twin left leftOk
    obtain ⟨right', behind⟩ := Expr.twin right rightOk
    refine ⟨.binary token left' op right', ?_, ?_, ?_, rfl, rfl⟩
    · simp only [Expr.marks, before.marks, behind.marks]
    · simp only [Expr.meets, before.lexical, behind.lexical]; rfl
    · simp [Expr.meets, before.apart, behind.apart, before.assigns, behind.assigns, leftPlain, rightPlain]
  | unary token op operand =>
    simp only [Expr.meets, Survey.steady_unary, Bool.and_eq_true, Bool.not_eq_true'] at ok
    obtain ⟨operand', inner⟩ := Expr.twin operand ok.2
    refine ⟨.unary token op operand', ?_, ?_, ?_, rfl, rfl⟩
    · simp only [Expr.marks, inner.marks]
    · simp only [Expr.meets, inner.lexical]; rfl
    · simp [Expr.meets, inner.apart, inner.assigns, ok.1]
  | call token callee arguments =>
    simp only [Expr.meets, Survey.steady_call, Bool.and_eq_true, Bool.not_eq_true'] at ok
    obtain ⟨callee', inner⟩ := Expr.twin callee ok.1.2
    obtain ⟨arguments', marks, -, lexical, apart⟩ := Expr.twinAll arguments ok.2
    refine ⟨callee'.called token arguments', ?_, ?_, ?_, ?_, ?_⟩
    · rw [Expr.marks_called, inner.marks, marks, Expr.marks]
    · rw [Expr.lexical_called, inner.lexical, lexical]; rfl
    · exact Expr.apart_called token inner.apart (inner.broken.trans ok.1.1) apart
    · rw [Expr.called_isAssignment, inner.assigns, Expr.opensAssignment]
    · rw [Expr.called_endsBroken]; rfl
  | index token left position =>
    simp only [Expr.meets, Survey.steady_index, Bool.and_eq_true, Bool.not_eq_true'] at ok
    obtain ⟨⟨⟨plain, whole⟩, leftOk⟩, positionOk⟩ := ok
    obtain ⟨left', before⟩ := Expr.twin left leftOk
    obtain ⟨position', inner⟩ := Expr.twin position positionOk
    refine ⟨.index token left' position', ?_, ?_, ?_, rfl, rfl⟩
    · simp only [Expr.marks, before.marks, inner.marks]
    · simp only [Expr.meets, before.lexical, inner.lexical]; rfl
    · simp [Expr.meets, before.apart, inner.apart, before.assigns, plain, before.not_broken whole]
  | field token object name =>
    simp only [Expr.meets, Survey.steady_field, Bool.and_eq_true, Bool.not_eq_true'] at ok
    obtain ⟨object', inner⟩ := Expr.twin object ok.1.2
    refine ⟨.field token object' name, ?_, ?_, ?_, rfl, rfl⟩
    · simp only [Expr.marks, inner.marks]
    · simp only [Expr.meets, inner.lexical]; rfl
    · simp [Expr.meets, inner.apart, inner.assigns, ok.1.1]
  | array token elements =>
    simp only [Expr.meets, Bool.and_eq_true] at ok
    obtain ⟨elements', marks, -, lexical, apart⟩ := Expr.twinAll elements ok.2
    refine ⟨.array token elements', ?_, ?_, ?_, rfl, rfl⟩
    · simp only [Expr.marks, marks]
    · simp only [Expr.meets, lexical]; rfl
    · simp only [Expr.meets, apart]; rfl
  | conditional token condition consequence arms alternative =>
    simp only [Expr.meets, Bool.and_eq_true] at ok
    obtain ⟨⟨⟨⟨-, tested⟩, body⟩, more⟩, last⟩ := ok
    obtain ⟨condition', first⟩ := Expr.twin condition tested
    obtain ⟨consequence', marks, lexical, apart⟩ := Block.twin consequence body
    obtain ⟨arms', marks', lexical', apart'⟩ := Elif.twinAll arms more
    obtain ⟨alternative', marks'', lexical'', apart''⟩ := Block.twinElse alternative last
    refine ⟨.conditional token condition' consequence' arms' alternative', ?_, ?_, ?_, rfl, rfl⟩
    · simp only [Expr.marks, first.marks, marks, marks', marks'']
    · simp only [Expr.meets, first.lexical, lexical, lexical', lexical'']; rfl
    · simp only [Expr.meets, first.apart, apart, apart', apart'']; rfl
  | lambda token literal =>
    simp only [Expr.meets, Bool.and_eq_true] at ok
    obtain ⟨literal', marks, lexical, apart⟩ := FunctionLiteral.twin literal ok.2
    refine ⟨.lambda token literal', ?_, ?_, ?_, rfl, rfl⟩
    · simp only [Expr.marks, marks]
    · simp only [Expr.meets, lexical]; rfl
    · simp only [Expr.meets, apart]; rfl

theorem Expr.twinAll (es : List Expr) (ok : Expr.allMeet steady es) :
    ∃ es', Expr.marksAll es' = Expr.marksAll es ∧ Expr.marksMore es' = Expr.marksMore es ∧
      Expr.allMeet lexical es' = Expr.allMeet lexical es ∧ Expr.allMeet apart es' := by
  cases es with
  | nil => exact ⟨[], rfl, rfl, rfl, rfl⟩
  | cons e es =>
    simp only [Expr.allMeet, Bool.and_eq_true] at ok
    obtain ⟨e', first⟩ := Expr.twin e ok.1
    obtain ⟨es', -, marks, lexical, apart⟩ := Expr.twinAll es ok.2
    refine ⟨e' :: es', ?_, ?_, ?_, ?_⟩
    · simp only [Expr.marksAll, first.marks, marks]
    · simp only [Expr.marksMore, first.marks, marks]
    · simp only [Expr.allMeet, first.lexical, lexical]
    · simp [Expr.allMeet, first.apart, apart]

theorem Target.twin (target : Target) (ok : target.meets steady) :
    ∃ target' : Target, target'.marks = target.marks ∧ target'.meets lexical = target.meets lexical ∧ target'.meets apart := by
  cases target with
  | identifier name => exact ⟨.identifier name, rfl, rfl, rfl⟩
  | field token object name =>
    simp only [Target.meets, Survey.steady_target, Bool.and_eq_true, Bool.not_eq_true'] at ok
    obtain ⟨object', inner⟩ := Expr.twin object ok.1.2
    refine ⟨.field token object' name, ?_, ?_, ?_⟩
    · simp only [Target.marks, inner.marks]
    · simp only [Target.meets, inner.lexical]; rfl
    · simp [Target.meets, inner.apart, inner.assigns, ok.1.1]

theorem Elif.twinAll (arms : List Elif) (ok : Elif.allMeet steady arms) :
    ∃ arms', Elif.marksAll arms' = Elif.marksAll arms ∧ Elif.allMeet lexical arms' = Elif.allMeet lexical arms ∧
      Elif.allMeet apart arms' := by
  cases arms with
  | nil => exact ⟨[], rfl, rfl, rfl⟩
  | cons arm arms =>
    obtain ⟨condition, block⟩ := arm
    simp only [Elif.allMeet, Bool.and_eq_true] at ok
    obtain ⟨condition', first⟩ := Expr.twin condition ok.1.1
    obtain ⟨block', marks, lexical, apart⟩ := Block.twin block ok.1.2
    obtain ⟨arms', marks', lexical', apart'⟩ := Elif.twinAll arms ok.2
    refine ⟨⟨condition', block'⟩ :: arms', ?_, ?_, ?_⟩
    · simp only [Elif.marksAll, first.marks, marks, marks']
    · simp only [Elif.allMeet, first.lexical, lexical, lexical']
    · simp [Elif.allMeet, first.apart, apart, apart']

theorem Block.twinElse (alternative : Option Block) (ok : Block.elseMeets steady alternative) :
    ∃ alternative', Block.marksElse alternative' = Block.marksElse alternative ∧
      Block.elseMeets lexical alternative' = Block.elseMeets lexical alternative ∧ Block.elseMeets apart alternative' := by
  cases alternative with
  | none => exact ⟨none, rfl, rfl, rfl⟩
  | some block =>
    obtain ⟨block', marks, lexical, apart⟩ := Block.twin block ok
    exact ⟨some block', by simp only [Block.marksElse, marks], lexical, apart⟩

theorem Block.twin (block : Block) (ok : block.meets steady) :
    ∃ block' : Block, block'.marks = block.marks ∧ block'.meets lexical = block.meets lexical ∧ block'.meets apart := by
  obtain ⟨token, statements⟩ := block
  obtain ⟨statements', marks, -, lexical, apart⟩ := Stmt.twinAll statements ok
  exact ⟨⟨token, statements'⟩, marks, lexical, apart⟩

theorem FunctionLiteral.twin (literal : FunctionLiteral) (ok : literal.meets steady) :
    ∃ literal' : FunctionLiteral, literal'.marks = literal.marks ∧ literal'.meets lexical = literal.meets lexical ∧
      literal'.meets apart := by
  obtain ⟨parameters, body⟩ := literal
  simp only [FunctionLiteral.meets, Bool.and_eq_true] at ok
  obtain ⟨body', marks, lexical, apart⟩ := Block.twin body ok.2
  refine ⟨⟨parameters, body'⟩, ?_, ?_, ?_⟩
  · simp only [FunctionLiteral.marks, marks]
  · simp only [FunctionLiteral.meets, lexical]
  · simp only [FunctionLiteral.meets, apart, Bool.and_true]
    exact ok.1

theorem FunctionStatement.twin (definition : FunctionStatement) (ok : definition.meets steady) :
    ∃ definition' : FunctionStatement, definition'.marks = definition.marks ∧
      definition'.meets lexical = definition.meets lexical ∧ definition'.meets apart := by
  obtain ⟨token, name, literal⟩ := definition
  simp only [FunctionStatement.meets, Bool.and_eq_true] at ok
  obtain ⟨literal', marks, lexical, apart⟩ := FunctionLiteral.twin literal ok.2
  refine ⟨⟨token, name, literal'⟩, ?_, ?_, ?_⟩
  · simp only [FunctionStatement.marks, marks]
  · simp only [FunctionStatement.meets, lexical]
  · simp [FunctionStatement.meets, apart]

theorem FunctionStatement.twinAll (methods : List FunctionStatement)
    (ok : FunctionStatement.allMeet steady methods) :
    ∃ methods', FunctionStatement.marksLines methods' = FunctionStatement.marksLines methods ∧
      FunctionStatement.allMeet lexical methods' = FunctionStatement.allMeet lexical methods ∧
      FunctionStatement.allMeet apart methods' := by
  cases methods with
  | nil => exact ⟨[], rfl, rfl, rfl⟩
  | cons method methods =>
    simp only [FunctionStatement.allMeet, Bool.and_eq_true] at ok
    obtain ⟨method', marks, lexical, apart⟩ := FunctionStatement.twin method ok.1
    obtain ⟨methods', marks', lexical', apart'⟩ := FunctionStatement.twinAll methods ok.2
    refine ⟨method' :: methods', ?_, ?_, ?_⟩
    · simp only [FunctionStatement.marksLines, marks, marks']
    · simp only [FunctionStatement.allMeet, lexical, lexical']
    · simp [FunctionStatement.allMeet, apart, apart']

theorem Stmt.twin (statement : Stmt) (ok : statement.meets steady) :
    ∃ statement' : Stmt, statement'.marks = statement.marks ∧ statement'.meets lexical = statement.meets lexical ∧
      statement'.meets apart := by
  cases statement with
  | expression token value =>
    obtain ⟨value', twin⟩ := Expr.twin value ok
    exact ⟨.expression token value', twin.marks, twin.lexical, twin.apart⟩
  | returning token value =>
    obtain ⟨value', twin⟩ := Expr.twin value ok
    exact ⟨.returning token value', by simp only [Stmt.marks, twin.marks], twin.lexical, twin.apart⟩
  | whileLoop token condition body =>
    simp only [Stmt.meets, Bool.and_eq_true] at ok
    obtain ⟨condition', first⟩ := Expr.twin condition ok.1
    obtain ⟨body', marks, lexical, apart⟩ := Block.twin body ok.2
    refine ⟨.whileLoop token condition' body', ?_, ?_, ?_⟩
    · simp only [Stmt.marks, first.marks, marks]
    · simp only [Stmt.meets, first.lexical, lexical]
    · simp [Stmt.meets, first.apart, apart]
  | function definition =>
    obtain ⟨definition', marks, lexical, apart⟩ := FunctionStatement.twin definition ok
    exact ⟨.function definition', marks, lexical, apart⟩
  | classDefinition token name methods =>
    simp only [Stmt.meets, Bool.and_eq_true] at ok
    obtain ⟨methods', marks, lexical, apart⟩ := FunctionStatement.twinAll methods ok.2
    refine ⟨.classDefinition token name methods', ?_, ?_, ?_⟩
    · simp only [Stmt.marks, marks]
    · simp only [Stmt.meets, lexical]
    · simp [Stmt.meets, apart]
  | test token label body =>
    simp only [Stmt.meets, Bool.and_eq_true] at ok
    obtain ⟨body', marks, lexical, apart⟩ := Block.twin body ok.2
    refine ⟨.test token label body', ?_, ?_, ?_⟩
    · simp only [Stmt.marks, marks]
    · simp only [Stmt.meets, lexical]
    · simp [Stmt.meets, apart]

theorem Stmt.twinAll (statements : List Stmt) (ok : Stmt.allMeet steady statements) :
    ∃ statements', Stmt.marksLines statements' = Stmt.marksLines statements ∧ statements'.length = statements.length ∧
      Stmt.allMeet lexical statements' = Stmt.allMeet lexical statements ∧ Stmt.allMeet apart statements' := by
  cases statements with
  | nil => exact ⟨[], rfl, rfl, rfl, rfl⟩
  | cons statement statements =>
    simp only [Stmt.allMeet, Bool.and_eq_true] at ok
    obtain ⟨statement', marks, lexical, apart⟩ := Stmt.twin statement ok.1
    obtain ⟨statements', marks', length, lexical', apart'⟩ := Stmt.twinAll statements ok.2
    refine ⟨statement' :: statements', ?_, ?_, ?_, ?_⟩
    · simp only [Stmt.marksLines, marks, marks']
    · simp only [List.length_cons, length]
    · simp only [Stmt.allMeet, lexical, lexical']
    · simp [Stmt.allMeet, apart, apart']

end

/-- A steady program has a twin of the same layout whose parts stay together. -/
theorem Program.twin {program : Program} (ok : program.meets steady) :
    ∃ twin : Program, twin.marks = program.marks ∧ twin.length = program.length ∧
      twin.meets lexical = program.meets lexical ∧ twin.meets apart := by
  obtain ⟨statements, lines, length, lexical, apart⟩ := Stmt.twinAll program.statements ok
  exact ⟨⟨statements⟩, Program.marks_eq_iff.2 lines, length, lexical, apart⟩

end Lantern
