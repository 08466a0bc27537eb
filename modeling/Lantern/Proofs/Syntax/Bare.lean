/-
  Lantern.Proofs.Syntax.Bare — programs without their tokens.

  Every node keeps a copy of the token it was built at. `bare` puts one token in the
  place of all of them, so two trees with the same bare tree have the same constructors,
  names, values, operators, labels and lists, and may differ in those copies only. Their
  text is the same (`Program.render_congr`).
-/

import Lantern.Proofs.Syntax.Layout

namespace Lantern

def Identifier.bare (name : Identifier) : Identifier := ⟨default, name.name⟩

mutual

def Expr.bare : Expr → Expr
  | .integer _ value => .integer default value
  | .string _ value => .string default value
  | .boolean _ value => .boolean default value
  | .identifier name => .identifier name.bare
  | .assignment _ target value => .assignment default target.bare value.bare
  | .binary _ left op right => .binary default left.bare op right.bare
  | .unary _ op operand => .unary default op operand.bare
  | .call _ callee arguments => .call default callee.bare (Expr.bareAll arguments)
  | .index _ left position => .index default left.bare position.bare
  | .field _ object name => .field default object.bare name.bare
  | .array _ elements => .array default (Expr.bareAll elements)
  | .conditional _ condition consequence elifs alternative =>
    .conditional default condition.bare consequence.bare (Elif.bareAll elifs) (Block.bareElse alternative)
  | .lambda _ literal => .lambda default literal.bare

def Expr.bareAll : List Expr → List Expr
  | [] => []
  | value :: more => value.bare :: Expr.bareAll more

def Target.bare : Target → Target
  | .identifier name => .identifier name.bare
  | .field _ object name => .field default object.bare name.bare

def Elif.bareAll : List Elif → List Elif
  | [] => []
  | ⟨condition, block⟩ :: more => ⟨condition.bare, block.bare⟩ :: Elif.bareAll more

def Block.bareElse : Option Block → Option Block
  | none => none
  | some block => some block.bare

def Block.bare : Block → Block
  | ⟨_, statements⟩ => ⟨default, Stmt.bareAll statements⟩

def FunctionLiteral.bare : FunctionLiteral → FunctionLiteral
  | ⟨parameters, body⟩ => ⟨parameters.map Identifier.bare, body.bare⟩

def FunctionStatement.bare : FunctionStatement → FunctionStatement
  | ⟨_, name, literal⟩ => ⟨default, name.bare, literal.bare⟩

def FunctionStatement.bareAll : List FunctionStatement → List FunctionStatement
  | [] => []
  | method :: more => method.bare :: FunctionStatement.bareAll more

def Stmt.bare : Stmt → Stmt
  | .expression _ value => .expression default value.bare
  | .returning _ value => .returning default value.bare
  | .whileLoop _ condition body => .whileLoop default condition.bare body.bare
  | .function definition => .function definition.bare
  | .classDefinition _ name methods => .classDefinition default name.bare (FunctionStatement.bareAll methods)
  | .test _ label body => .test default label body.bare

def Stmt.bareAll : List Stmt → List Stmt
  | [] => []
  | statement :: more => statement.bare :: Stmt.bareAll more

end

/-- The program without its tokens. -/
def Program.bare (program : Program) : Program := ⟨Stmt.bareAll program.statements⟩

/-! ## Tokens leave no trace -/

theorem Identifier.marks_bare (names : List Identifier) :
    Identifier.marksAll (names.map Identifier.bare) = Identifier.marksAll names ∧
      Identifier.marksMore (names.map Identifier.bare) = Identifier.marksMore names := by
  induction names with
  | nil => exact ⟨rfl, rfl⟩
  | cons name names ih =>
    constructor
    · simp [Identifier.marksAll, ih.2, Identifier.bare, Identifier.mark]
    · simp [Identifier.marksMore, ih.2, Identifier.bare, Identifier.mark]

mutual

/-- The copies of tokens in a tree leave no trace in its layout. -/
theorem Expr.marks_bare (e : Expr) : e.bare.marks = e.marks := by
  cases e with
  | integer | string | boolean | identifier => rfl
  | assignment _ target value => simp only [Expr.bare, Expr.marks, Target.marks_bare target, Expr.marks_bare value]
  | binary _ left _ right => simp only [Expr.bare, Expr.marks, Expr.marks_bare left, Expr.marks_bare right]
  | unary _ _ operand => simp only [Expr.bare, Expr.marks, Expr.marks_bare operand]
  | call _ callee arguments => simp only [Expr.bare, Expr.marks, Expr.marks_bare callee,
    (Expr.marks_bareAll arguments).1]
  | index _ left position => simp only [Expr.bare, Expr.marks, Expr.marks_bare left, Expr.marks_bare position]
  | field _ object name => simp only [Expr.bare, Expr.marks, Expr.marks_bare object, Identifier.mark, Identifier.bare]
  | array _ elements => simp only [Expr.bare, Expr.marks, (Expr.marks_bareAll elements).1]
  | conditional _ condition consequence elifs alternative =>
    simp only [Expr.bare, Expr.marks, Expr.marks_bare condition, Block.marks_bare consequence, Elif.marks_bareAll elifs,
      Block.marks_bareElse alternative]
  | lambda _ literal => simp only [Expr.bare, Expr.marks, FunctionLiteral.marks_bare literal]

theorem Expr.marks_bareAll (es : List Expr) :
    Expr.marksAll (Expr.bareAll es) = Expr.marksAll es ∧ Expr.marksMore (Expr.bareAll es) = Expr.marksMore es := by
  cases es with
  | nil => exact ⟨rfl, rfl⟩
  | cons e es =>
    obtain ⟨-, more⟩ := Expr.marks_bareAll es
    constructor
    · simp only [Expr.bareAll, Expr.marksAll, Expr.marks_bare e, more]
    · simp only [Expr.bareAll, Expr.marksMore, Expr.marks_bare e, more]

theorem Target.marks_bare (target : Target) : target.bare.marks = target.marks := by
  cases target with
  | identifier => rfl
  | field _ object name => simp only [Target.bare, Target.marks, Expr.marks_bare object, Identifier.mark,
    Identifier.bare]

theorem Elif.marks_bareAll (arms : List Elif) :
    Elif.marksAll (Elif.bareAll arms) = Elif.marksAll arms := by
  cases arms with
  | nil => rfl
  | cons arm arms =>
    obtain ⟨condition, block⟩ := arm
    simp only [Elif.bareAll, Elif.marksAll, Expr.marks_bare condition, Block.marks_bare block, Elif.marks_bareAll arms]

theorem Block.marks_bareElse (alternative : Option Block) :
    Block.marksElse (Block.bareElse alternative) = Block.marksElse alternative := by
  cases alternative with
  | none => rfl
  | some block => simp only [Block.bareElse, Block.marksElse, Block.marks_bare block]

theorem Block.marks_bare (block : Block) : block.bare.marks = block.marks := by
  obtain ⟨_, statements⟩ := block
  exact Stmt.marks_bareAll statements

theorem FunctionLiteral.marks_bare (literal : FunctionLiteral) :
    literal.bare.marks = literal.marks := by
  obtain ⟨parameters, body⟩ := literal
  simp only [FunctionLiteral.bare, FunctionLiteral.marks, (Identifier.marks_bare parameters).1, Block.marks_bare body]

theorem FunctionStatement.marks_bare (definition : FunctionStatement) :
    definition.bare.marks = definition.marks := by
  obtain ⟨_, name, literal⟩ := definition
  simp only [FunctionStatement.bare, FunctionStatement.marks, FunctionLiteral.marks_bare literal, Identifier.mark,
    Identifier.bare]

theorem FunctionStatement.marks_bareAll (methods : List FunctionStatement) :
    FunctionStatement.marksLines (FunctionStatement.bareAll methods) = FunctionStatement.marksLines methods := by
  cases methods with
  | nil => rfl
  | cons method methods =>
    simp only [FunctionStatement.bareAll, FunctionStatement.marksLines, FunctionStatement.marks_bare method,
      FunctionStatement.marks_bareAll methods]

theorem Stmt.marks_bare (statement : Stmt) : statement.bare.marks = statement.marks := by
  cases statement with
  | expression _ value => exact Expr.marks_bare value
  | returning _ value => simp only [Stmt.bare, Stmt.marks, Expr.marks_bare value]
  | whileLoop _ condition body => simp only [Stmt.bare, Stmt.marks, Expr.marks_bare condition, Block.marks_bare body]
  | function definition => exact FunctionStatement.marks_bare definition
  | classDefinition _ name methods =>
    simp only [Stmt.bare, Stmt.marks, FunctionStatement.marks_bareAll methods, Identifier.mark, Identifier.bare]
  | test _ label body => simp only [Stmt.bare, Stmt.marks, Block.marks_bare body]

theorem Stmt.marks_bareAll (statements : List Stmt) :
    Stmt.marksLines (Stmt.bareAll statements) = Stmt.marksLines statements := by
  cases statements with
  | nil => rfl
  | cons statement statements =>
    simp only [Stmt.bareAll, Stmt.marksLines, Stmt.marks_bare statement, Stmt.marks_bareAll statements]

end

theorem Stmt.length_bareAll (statements : List Stmt) :
    (Stmt.bareAll statements).length = statements.length := by
  induction statements with
  | nil => rfl
  | cons statement statements ih => simp only [Stmt.bareAll, List.length_cons, ih]

/-- Programs that differ in the copies of their tokens only are written the same way. -/
theorem Program.render_congr {p q : Program} (same : p.bare = q.bare) :
    p.render = q.render ∧ p.length = q.length := by
  have lists : Stmt.bareAll p.statements = Stmt.bareAll q.statements := congrArg Program.statements same
  constructor
  · have lines : Stmt.marksLines p.statements = Stmt.marksLines q.statements := by
      rw [← Stmt.marks_bareAll p.statements, lists, Stmt.marks_bareAll]
    rw [← String.toList_inj, p.toList_render, q.toList_render, Program.marks_eq_iff.2 lines]
  · rw [Program.length, Program.length, ← Stmt.length_bareAll p.statements, lists, Stmt.length_bareAll]

end Lantern
