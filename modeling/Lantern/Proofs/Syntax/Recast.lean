/-
  Lantern.Proofs.Syntax.Recast — changes of a program that running it does not depend
  on.

  A recast puts other tokens into every node, like `retoken`, and other labels on every
  test; and it either keeps the bodies of tests, under the same change, or drops them.
  `Recast.tokens` changes tokens only, `Recast.hollow` forgets what the tests are called
  and do. Where a recast leaves tests alone, or where there are none, only the tokens
  change (`Stmt.recastAll_eq`); so what is known of other tokens is known of it.
-/

import Lantern.Proofs.Syntax.Retoken
import Lantern.Proofs.Syntax.Throughout

namespace Lantern

/-- A change of tokens, and of labels and bodies of tests. -/
structure Recast where
  token : Token → Token
  label : String → String
  /-- Whether tests keep their bodies. -/
  bodies : Bool

namespace Recast

abbrev tokens (g : Token → Token) : Recast := ⟨g, id, true⟩

abbrev same : Recast := tokens id

/-- Tests without labels and bodies, everything else as it is. -/
abbrev hollow : Recast := ⟨id, fun _ => "", false⟩

def SparesTests (g : Recast) : Prop := g.label = id ∧ g.bodies = true

def KeepsLines (g : Recast) : Prop := ∀ token, (g.token token).line = token.line

end Recast

mutual

def Expr.recast (g : Recast) : Expr → Expr
  | .integer token value => .integer (g.token token) value
  | .string token value => .string (g.token token) value
  | .boolean token value => .boolean (g.token token) value
  | .identifier name => .identifier (name.retoken g.token)
  | .assignment token target value => .assignment (g.token token) (target.recast g) (value.recast g)
  | .binary token left op right => .binary (g.token token) (left.recast g) op (right.recast g)
  | .unary token op operand => .unary (g.token token) op (operand.recast g)
  | .call token callee arguments => .call (g.token token) (callee.recast g) (Expr.recastAll g arguments)
  | .index token left position => .index (g.token token) (left.recast g) (position.recast g)
  | .field token object name => .field (g.token token) (object.recast g) (name.retoken g.token)
  | .array token elements => .array (g.token token) (Expr.recastAll g elements)
  | .conditional token condition consequence elifs alternative =>
    .conditional (g.token token) (condition.recast g) (consequence.recast g) (Elif.recastAll g elifs)
      (Block.recastElse g alternative)
  | .lambda token literal => .lambda (g.token token) (literal.recast g)

def Expr.recastAll (g : Recast) : List Expr → List Expr
  | [] => []
  | value :: more => value.recast g :: Expr.recastAll g more

def Target.recast (g : Recast) : Target → Target
  | .identifier name => .identifier (name.retoken g.token)
  | .field token object name => .field (g.token token) (object.recast g) (name.retoken g.token)

def Elif.recastAll (g : Recast) : List Elif → List Elif
  | [] => []
  | ⟨condition, block⟩ :: more => ⟨condition.recast g, block.recast g⟩ :: Elif.recastAll g more

def Block.recastElse (g : Recast) : Option Block → Option Block
  | none => none
  | some block => some (block.recast g)

def Block.recast (g : Recast) : Block → Block
  | ⟨token, statements⟩ => ⟨g.token token, Stmt.recastAll g statements⟩

def FunctionLiteral.recast (g : Recast) : FunctionLiteral → FunctionLiteral
  | ⟨parameters, body⟩ => ⟨parameters.map (Identifier.retoken g.token), body.recast g⟩

def FunctionStatement.recast (g : Recast) : FunctionStatement → FunctionStatement
  | ⟨token, name, literal⟩ => ⟨g.token token, name.retoken g.token, literal.recast g⟩

def FunctionStatement.recastAll (g : Recast) : List FunctionStatement → List FunctionStatement
  | [] => []
  | method :: more => method.recast g :: FunctionStatement.recastAll g more

def Stmt.recast (g : Recast) : Stmt → Stmt
  | .expression token value => .expression (g.token token) (value.recast g)
  | .returning token value => .returning (g.token token) (value.recast g)
  | .whileLoop token condition body => .whileLoop (g.token token) (condition.recast g) (body.recast g)
  | .function definition => .function (definition.recast g)
  | .classDefinition token name methods =>
    .classDefinition (g.token token) (name.retoken g.token) (FunctionStatement.recastAll g methods)
  | .test token label body => .test (g.token token) (g.label label) (if g.bodies then body.recast g else default)

def Stmt.recastAll (g : Recast) : List Stmt → List Stmt
  | [] => []
  | statement :: more => statement.recast g :: Stmt.recastAll g more

end

def Program.hollow (program : Program) : Program := ⟨Stmt.recastAll .hollow program.statements⟩

variable (g : Recast)

/-! ## What does not change -/

@[simp] theorem Block.recast_statements (block : Block) :
    (block.recast g).statements = Stmt.recastAll g block.statements := by
  cases block
  simp [Block.recast]

@[simp] theorem FunctionLiteral.recast_body (literal : FunctionLiteral) :
    (literal.recast g).body = literal.body.recast g := by
  cases literal
  simp [FunctionLiteral.recast]

@[simp] theorem FunctionStatement.recast_name (definition : FunctionStatement) :
    (definition.recast g).name = definition.name.retoken g.token := by
  cases definition
  simp [FunctionStatement.recast]

@[simp] theorem FunctionStatement.recast_literal (definition : FunctionStatement) :
    (definition.recast g).literal = definition.literal.recast g := by
  cases definition
  simp [FunctionStatement.recast]

theorem Elif.recastAll_cons (arm : Elif) (more : List Elif) :
    Elif.recastAll g (arm :: more) = ⟨arm.condition.recast g, arm.block.recast g⟩ :: Elif.recastAll g more := by
  cases arm
  simp [Elif.recastAll]

@[simp] theorem FunctionLiteral.recast_names (literal : FunctionLiteral) :
    (literal.recast g).parameters.map (·.name) = literal.parameters.map (·.name) := by
  cases literal
  simp [FunctionLiteral.recast]

@[simp] theorem FunctionLiteral.recast_arity (literal : FunctionLiteral) :
    (literal.recast g).arity = literal.arity := by
  cases literal
  simp [FunctionLiteral.recast, FunctionLiteral.arity]

@[simp] theorem Stmt.recast_token (statement : Stmt) :
    (statement.recast g).token = g.token statement.token := by
  cases statement with
  | function definition => cases definition; simp [Stmt.recast, Stmt.token, FunctionStatement.recast]
  | _ => simp [Stmt.recast, Stmt.token]

/-! ## Where tests do not matter -/

variable {g}

mutual

/-- Where tests are spared, or there are none, only tokens change. -/
theorem Expr.recast_eq (e : Expr) (h : g.SparesTests ∨ e.throughout Stmt.noTest) :
    e.recast g = e.retoken g.token := by
  cases e with
  | integer | string | boolean | identifier => rfl
  | assignment _ target value =>
    simp only [Expr.throughout, Bool.and_eq_true] at h
    simp only [Expr.recast, Expr.retoken, Target.recast_eq target (h.imp_right And.left),
      Expr.recast_eq value (h.imp_right And.right)]
  | binary _ left _ right =>
    simp only [Expr.throughout, Bool.and_eq_true] at h
    simp only [Expr.recast, Expr.retoken, Expr.recast_eq left (h.imp_right And.left),
      Expr.recast_eq right (h.imp_right And.right)]
  | unary _ _ operand => simp only [Expr.recast, Expr.retoken, Expr.recast_eq operand h]
  | call _ callee arguments =>
    simp only [Expr.throughout, Bool.and_eq_true] at h
    simp only [Expr.recast, Expr.retoken, Expr.recast_eq callee (h.imp_right And.left),
      Expr.recastAll_eq arguments (h.imp_right And.right)]
  | index _ left position =>
    simp only [Expr.throughout, Bool.and_eq_true] at h
    simp only [Expr.recast, Expr.retoken, Expr.recast_eq left (h.imp_right And.left),
      Expr.recast_eq position (h.imp_right And.right)]
  | field _ object _ => simp only [Expr.recast, Expr.retoken, Expr.recast_eq object h]
  | array _ elements => simp only [Expr.recast, Expr.retoken, Expr.recastAll_eq elements h]
  | conditional _ condition consequence elifs alternative =>
    simp only [Expr.throughout, Bool.and_eq_true] at h
    simp only [Expr.recast, Expr.retoken, Expr.recast_eq condition (h.imp_right (·.1.1.1)),
      Block.recast_eq consequence (h.imp_right (·.1.1.2)), Elif.recastAll_eq elifs (h.imp_right (·.1.2)),
      Block.recastElse_eq alternative (h.imp_right (·.2))]
  | lambda _ literal => simp only [Expr.recast, Expr.retoken, FunctionLiteral.recast_eq literal h]

theorem Expr.recastAll_eq (es : List Expr) (h : g.SparesTests ∨ Expr.allThroughout Stmt.noTest es) :
    Expr.recastAll g es = Expr.retokenAll g.token es := by
  cases es with
  | nil => rfl
  | cons e es =>
    simp only [Expr.allThroughout, Bool.and_eq_true] at h
    simp only [Expr.recastAll, Expr.retokenAll, Expr.recast_eq e (h.imp_right And.left),
      Expr.recastAll_eq es (h.imp_right And.right)]

theorem Target.recast_eq (target : Target) (h : g.SparesTests ∨ target.throughout Stmt.noTest) :
    target.recast g = target.retoken g.token := by
  cases target with
  | identifier => rfl
  | field _ object _ => simp only [Target.recast, Target.retoken, Expr.recast_eq object h]

theorem Elif.recastAll_eq (arms : List Elif)
    (h : g.SparesTests ∨ Elif.allThroughout Stmt.noTest arms) :
    Elif.recastAll g arms = Elif.retokenAll g.token arms := by
  cases arms with
  | nil => rfl
  | cons arm arms =>
    obtain ⟨condition, block⟩ := arm
    simp only [Elif.allThroughout, Bool.and_eq_true] at h
    simp only [Elif.recastAll, Elif.retokenAll, Expr.recast_eq condition (h.imp_right (·.1.1)),
      Block.recast_eq block (h.imp_right (·.1.2)), Elif.recastAll_eq arms (h.imp_right (·.2))]

theorem Block.recastElse_eq (alternative : Option Block)
    (h : g.SparesTests ∨ Block.elseThroughout Stmt.noTest alternative) :
    Block.recastElse g alternative = Block.retokenElse g.token alternative := by
  cases alternative with
  | none => rfl
  | some block => simp only [Block.recastElse, Block.retokenElse, Block.recast_eq block h]

theorem Block.recast_eq (block : Block) (h : g.SparesTests ∨ block.throughout Stmt.noTest) :
    block.recast g = block.retoken g.token := by
  obtain ⟨_, statements⟩ := block
  simp only [Block.recast, Block.retoken, Stmt.recastAll_eq statements h]

theorem FunctionLiteral.recast_eq (literal : FunctionLiteral)
    (h : g.SparesTests ∨ literal.throughout Stmt.noTest) :
    literal.recast g = literal.retoken g.token := by
  obtain ⟨_, body⟩ := literal
  simp only [FunctionLiteral.recast, FunctionLiteral.retoken, Block.recast_eq body h]

theorem FunctionStatement.recast_eq (definition : FunctionStatement)
    (h : g.SparesTests ∨ definition.throughout Stmt.noTest) :
    definition.recast g = definition.retoken g.token := by
  obtain ⟨_, _, literal⟩ := definition
  simp only [FunctionStatement.recast, FunctionStatement.retoken, FunctionLiteral.recast_eq literal h]

theorem FunctionStatement.recastAll_eq (methods : List FunctionStatement)
    (h : g.SparesTests ∨ FunctionStatement.allThroughout Stmt.noTest methods) :
    FunctionStatement.recastAll g methods = FunctionStatement.retokenAll g.token methods := by
  cases methods with
  | nil => rfl
  | cons method methods =>
    simp only [FunctionStatement.allThroughout, Bool.and_eq_true] at h
    simp only [FunctionStatement.recastAll, FunctionStatement.retokenAll,
      FunctionStatement.recast_eq method (h.imp_right And.left),
      FunctionStatement.recastAll_eq methods (h.imp_right And.right)]

theorem Stmt.recast_eq (statement : Stmt) (h : g.SparesTests ∨ statement.throughout Stmt.noTest) :
    statement.recast g = statement.retoken g.token := by
  cases statement with
  | expression _ value =>
    simp only [Stmt.throughout, Bool.and_eq_true] at h
    simp only [Stmt.recast, Stmt.retoken, Expr.recast_eq value (h.imp_right And.right)]
  | returning _ value =>
    simp only [Stmt.throughout, Bool.and_eq_true] at h
    simp only [Stmt.recast, Stmt.retoken, Expr.recast_eq value (h.imp_right And.right)]
  | whileLoop _ condition body =>
    simp only [Stmt.throughout, Bool.and_eq_true] at h
    simp only [Stmt.recast, Stmt.retoken, Expr.recast_eq condition (h.imp_right (·.1.2)),
      Block.recast_eq body (h.imp_right (·.2))]
  | function definition =>
    simp only [Stmt.throughout, Bool.and_eq_true] at h
    simp only [Stmt.recast, Stmt.retoken, FunctionStatement.recast_eq definition (h.imp_right And.right)]
  | classDefinition _ _ methods =>
    simp only [Stmt.throughout, Bool.and_eq_true] at h
    simp only [Stmt.recast, Stmt.retoken, FunctionStatement.recastAll_eq methods (h.imp_right And.right)]
  | test _ _ body =>
    -- this is a test, so tests have to be spared
    rcases h with ⟨label, bodies⟩ | none
    · simp only [Stmt.recast, Stmt.retoken, label, bodies, if_true, id, Block.recast_eq body (.inl ⟨label, bodies⟩)]
    · simp only [Stmt.throughout, Stmt.noTest, Bool.false_and, Bool.false_eq_true] at none

theorem Stmt.recastAll_eq (statements : List Stmt)
    (h : g.SparesTests ∨ Stmt.allThroughout Stmt.noTest statements) :
    Stmt.recastAll g statements = Stmt.retokenAll g.token statements := by
  cases statements with
  | nil => rfl
  | cons statement statements =>
    simp only [Stmt.allThroughout, Bool.and_eq_true] at h
    simp only [Stmt.recastAll, Stmt.retokenAll, Stmt.recast_eq statement (h.imp_right And.left),
      Stmt.recastAll_eq statements (h.imp_right And.right)]

end

theorem Recast.sparesTests_tokens (g : Token → Token) : (Recast.tokens g).SparesTests := ⟨rfl, rfl⟩

/-- No change changes nothing. -/
theorem Stmt.recastAll_same (statements : List Stmt) :
    Stmt.recastAll .same statements = statements := by
  rw [Stmt.recastAll_eq statements (.inl (Recast.sparesTests_tokens id)), Stmt.retokenAll_id]

end Lantern
