/-
  Lantern.Proofs.Syntax.Retoken — other tokens in the nodes of a program.

  `retoken g` puts `g token` in the place of every token copy a tree keeps, and leaves
  the rest alone: constructors, names, values, operators, labels and lists. So two
  programs that differ in their token copies only have one bare program in common, and
  forgetting the tokens is itself such a change (`Stmt.bareAll_eq_retokenAll`).
-/

import Lantern.Proofs.Syntax.Bare

namespace Lantern

def Identifier.retoken (g : Token → Token) (name : Identifier) : Identifier :=
  ⟨g name.token, name.name⟩

mutual

def Expr.retoken (g : Token → Token) : Expr → Expr
  | .integer token value => .integer (g token) value
  | .string token value => .string (g token) value
  | .boolean token value => .boolean (g token) value
  | .identifier name => .identifier (name.retoken g)
  | .assignment token target value => .assignment (g token) (target.retoken g) (value.retoken g)
  | .binary token left op right => .binary (g token) (left.retoken g) op (right.retoken g)
  | .unary token op operand => .unary (g token) op (operand.retoken g)
  | .call token callee arguments => .call (g token) (callee.retoken g) (Expr.retokenAll g arguments)
  | .index token left position => .index (g token) (left.retoken g) (position.retoken g)
  | .field token object name => .field (g token) (object.retoken g) (name.retoken g)
  | .array token elements => .array (g token) (Expr.retokenAll g elements)
  | .conditional token condition consequence elifs alternative =>
    .conditional (g token) (condition.retoken g) (consequence.retoken g) (Elif.retokenAll g elifs)
      (Block.retokenElse g alternative)
  | .lambda token literal => .lambda (g token) (literal.retoken g)

def Expr.retokenAll (g : Token → Token) : List Expr → List Expr
  | [] => []
  | value :: more => value.retoken g :: Expr.retokenAll g more

def Target.retoken (g : Token → Token) : Target → Target
  | .identifier name => .identifier (name.retoken g)
  | .field token object name => .field (g token) (object.retoken g) (name.retoken g)

def Elif.retokenAll (g : Token → Token) : List Elif → List Elif
  | [] => []
  | ⟨condition, block⟩ :: more => ⟨condition.retoken g, block.retoken g⟩ :: Elif.retokenAll g more

def Block.retokenElse (g : Token → Token) : Option Block → Option Block
  | none => none
  | some block => some (block.retoken g)

def Block.retoken (g : Token → Token) : Block → Block
  | ⟨token, statements⟩ => ⟨g token, Stmt.retokenAll g statements⟩

def FunctionLiteral.retoken (g : Token → Token) : FunctionLiteral → FunctionLiteral
  | ⟨parameters, body⟩ => ⟨parameters.map (Identifier.retoken g), body.retoken g⟩

def FunctionStatement.retoken (g : Token → Token) : FunctionStatement → FunctionStatement
  | ⟨token, name, literal⟩ => ⟨g token, name.retoken g, literal.retoken g⟩

def FunctionStatement.retokenAll (g : Token → Token) :
    List FunctionStatement → List FunctionStatement
  | [] => []
  | method :: more => method.retoken g :: FunctionStatement.retokenAll g more

def Stmt.retoken (g : Token → Token) : Stmt → Stmt
  | .expression token value => .expression (g token) (value.retoken g)
  | .returning token value => .returning (g token) (value.retoken g)
  | .whileLoop token condition body => .whileLoop (g token) (condition.retoken g) (body.retoken g)
  | .function definition => .function (definition.retoken g)
  | .classDefinition token name methods =>
    .classDefinition (g token) (name.retoken g) (FunctionStatement.retokenAll g methods)
  | .test token label body => .test (g token) label (body.retoken g)

def Stmt.retokenAll (g : Token → Token) : List Stmt → List Stmt
  | [] => []
  | statement :: more => statement.retoken g :: Stmt.retokenAll g more

end

@[simp] theorem Identifier.retoken_name (g : Token → Token) (name : Identifier) :
    (name.retoken g).name = name.name := rfl

theorem Stmt.retokenAll_append (g : Token → Token) (list more : List Stmt) :
    Stmt.retokenAll g (list ++ more) = Stmt.retokenAll g list ++ Stmt.retokenAll g more := by
  induction list with
  | nil => simp [Stmt.retokenAll]
  | cons statement list ih => simp [Stmt.retokenAll, ih]

/-! ## Every token in its own place -/

theorem Identifier.retoken_id (name : Identifier) : name.retoken id = name := rfl

mutual

theorem Expr.retoken_id (e : Expr) : e.retoken id = e := by
  cases e with
  | integer | string | boolean | identifier => rfl
  | assignment _ target value => simp only [Expr.retoken, Target.retoken_id target, Expr.retoken_id value, id]
  | binary _ left _ right => simp only [Expr.retoken, Expr.retoken_id left, Expr.retoken_id right, id]
  | unary _ _ operand => simp only [Expr.retoken, Expr.retoken_id operand, id]
  | call _ callee arguments => simp only [Expr.retoken, Expr.retoken_id callee, Expr.retokenAll_id arguments, id]
  | index _ left position => simp only [Expr.retoken, Expr.retoken_id left, Expr.retoken_id position, id]
  | field _ object name => simp only [Expr.retoken, Expr.retoken_id object, Identifier.retoken_id, id]
  | array _ elements => simp only [Expr.retoken, Expr.retokenAll_id elements, id]
  | conditional _ condition consequence elifs alternative =>
    simp only [Expr.retoken, Expr.retoken_id condition, Block.retoken_id consequence, Elif.retokenAll_id elifs,
      Block.retokenElse_id alternative, id]
  | lambda _ literal => simp only [Expr.retoken, FunctionLiteral.retoken_id literal, id]

theorem Expr.retokenAll_id (es : List Expr) : Expr.retokenAll id es = es := by
  cases es with
  | nil => rfl
  | cons e es => simp only [Expr.retokenAll, Expr.retoken_id e, Expr.retokenAll_id es]

theorem Target.retoken_id (target : Target) : target.retoken id = target := by
  cases target with
  | identifier => rfl
  | field _ object name => simp only [Target.retoken, Expr.retoken_id object, Identifier.retoken_id, id]

theorem Elif.retokenAll_id (arms : List Elif) : Elif.retokenAll id arms = arms := by
  cases arms with
  | nil => rfl
  | cons arm arms =>
    obtain ⟨condition, block⟩ := arm
    simp only [Elif.retokenAll, Expr.retoken_id condition, Block.retoken_id block, Elif.retokenAll_id arms]

theorem Block.retokenElse_id (alternative : Option Block) :
    Block.retokenElse id alternative = alternative := by
  cases alternative with
  | none => rfl
  | some block => simp only [Block.retokenElse, Block.retoken_id block]

theorem Block.retoken_id (block : Block) : block.retoken id = block := by
  obtain ⟨_, statements⟩ := block
  simp only [Block.retoken, Stmt.retokenAll_id statements, id]

theorem FunctionLiteral.retoken_id (literal : FunctionLiteral) : literal.retoken id = literal := by
  obtain ⟨parameters, body⟩ := literal
  have names : parameters.map (Identifier.retoken id) = parameters := List.map_id parameters
  simp only [FunctionLiteral.retoken, names, Block.retoken_id body]

theorem FunctionStatement.retoken_id (definition : FunctionStatement) :
    definition.retoken id = definition := by
  obtain ⟨_, name, literal⟩ := definition
  simp only [FunctionStatement.retoken, FunctionLiteral.retoken_id literal, Identifier.retoken_id, id]

theorem FunctionStatement.retokenAll_id (methods : List FunctionStatement) :
    FunctionStatement.retokenAll id methods = methods := by
  cases methods with
  | nil => rfl
  | cons method methods =>
    simp only [FunctionStatement.retokenAll, FunctionStatement.retoken_id method, FunctionStatement.retokenAll_id methods]

theorem Stmt.retoken_id (statement : Stmt) : statement.retoken id = statement := by
  cases statement with
  | expression _ value => simp only [Stmt.retoken, Expr.retoken_id value, id]
  | returning _ value => simp only [Stmt.retoken, Expr.retoken_id value, id]
  | whileLoop _ condition body => simp only [Stmt.retoken, Expr.retoken_id condition, Block.retoken_id body, id]
  | function definition => simp only [Stmt.retoken, FunctionStatement.retoken_id definition]
  | classDefinition _ name methods =>
    simp only [Stmt.retoken, FunctionStatement.retokenAll_id methods, Identifier.retoken_id, id]
  | test _ label body => simp only [Stmt.retoken, Block.retoken_id body, id]

theorem Stmt.retokenAll_id (statements : List Stmt) :
    Stmt.retokenAll id statements = statements := by
  cases statements with
  | nil => rfl
  | cons statement statements =>
    simp only [Stmt.retokenAll, Stmt.retoken_id statement, Stmt.retokenAll_id statements]

end

/-! ## One token in all places -/

abbrev blanked : Token → Token := fun _ => default

theorem Identifier.retoken_bare (g : Token → Token) (name : Identifier) :
    (name.retoken g).bare = name.retoken blanked := rfl

variable (g : Token → Token)

mutual

/-- Forgetting tokens is putting one token in the place of all, whatever they were
    before. -/
theorem Expr.retoken_bare (e : Expr) : (e.retoken g).bare = e.retoken blanked := by
  cases e with
  | integer | string | boolean | identifier => rfl
  | assignment _ target value => simp only [Expr.retoken, Expr.bare, Target.retoken_bare target, Expr.retoken_bare value]
  | binary _ left _ right => simp only [Expr.retoken, Expr.bare, Expr.retoken_bare left, Expr.retoken_bare right]
  | unary _ _ operand => simp only [Expr.retoken, Expr.bare, Expr.retoken_bare operand]
  | call _ callee arguments =>
    simp only [Expr.retoken, Expr.bare, Expr.retoken_bare callee, Expr.retokenAll_bare arguments]
  | index _ left position => simp only [Expr.retoken, Expr.bare, Expr.retoken_bare left, Expr.retoken_bare position]
  | field _ object name => simp only [Expr.retoken, Expr.bare, Expr.retoken_bare object, Identifier.retoken_bare]
  | array _ elements => simp only [Expr.retoken, Expr.bare, Expr.retokenAll_bare elements]
  | conditional _ condition consequence elifs alternative =>
    simp only [Expr.retoken, Expr.bare, Expr.retoken_bare condition, Block.retoken_bare consequence,
      Elif.retokenAll_bare elifs, Block.retokenElse_bare alternative]
  | lambda _ literal => simp only [Expr.retoken, Expr.bare, FunctionLiteral.retoken_bare literal]

theorem Expr.retokenAll_bare (es : List Expr) :
    Expr.bareAll (Expr.retokenAll g es) = Expr.retokenAll blanked es := by
  cases es with
  | nil => rfl
  | cons e es => simp only [Expr.retokenAll, Expr.bareAll, Expr.retoken_bare e, Expr.retokenAll_bare es]

theorem Target.retoken_bare (target : Target) :
    (target.retoken g).bare = target.retoken blanked := by
  cases target with
  | identifier => rfl
  | field _ object name => simp only [Target.retoken, Target.bare, Expr.retoken_bare object, Identifier.retoken_bare]

theorem Elif.retokenAll_bare (arms : List Elif) :
    Elif.bareAll (Elif.retokenAll g arms) = Elif.retokenAll blanked arms := by
  cases arms with
  | nil => rfl
  | cons arm arms =>
    obtain ⟨condition, block⟩ := arm
    simp only [Elif.retokenAll, Elif.bareAll, Expr.retoken_bare condition, Block.retoken_bare block,
      Elif.retokenAll_bare arms]

theorem Block.retokenElse_bare (alternative : Option Block) :
    Block.bareElse (Block.retokenElse g alternative) = Block.retokenElse blanked alternative := by
  cases alternative with
  | none => rfl
  | some block => simp only [Block.retokenElse, Block.bareElse, Block.retoken_bare block]

theorem Block.retoken_bare (block : Block) : (block.retoken g).bare = block.retoken blanked := by
  obtain ⟨_, statements⟩ := block
  simp only [Block.retoken, Block.bare, Stmt.retokenAll_bare statements]

theorem FunctionLiteral.retoken_bare (literal : FunctionLiteral) :
    (literal.retoken g).bare = literal.retoken blanked := by
  obtain ⟨parameters, body⟩ := literal
  have names : (parameters.map (Identifier.retoken g)).map Identifier.bare = parameters.map (Identifier.retoken blanked) := by
    rw [List.map_map]
    rfl
  simp only [FunctionLiteral.retoken, FunctionLiteral.bare, names, Block.retoken_bare body]

theorem FunctionStatement.retoken_bare (definition : FunctionStatement) :
    (definition.retoken g).bare = definition.retoken blanked := by
  obtain ⟨_, name, literal⟩ := definition
  simp only [FunctionStatement.retoken, FunctionStatement.bare, FunctionLiteral.retoken_bare literal,
    Identifier.retoken_bare]

theorem FunctionStatement.retokenAll_bare (methods : List FunctionStatement) :
    FunctionStatement.bareAll (FunctionStatement.retokenAll g methods) = FunctionStatement.retokenAll blanked methods := by
  cases methods with
  | nil => rfl
  | cons method methods =>
    simp only [FunctionStatement.retokenAll, FunctionStatement.bareAll, FunctionStatement.retoken_bare method,
      FunctionStatement.retokenAll_bare methods]

theorem Stmt.retoken_bare (statement : Stmt) :
    (statement.retoken g).bare = statement.retoken blanked := by
  cases statement with
  | expression _ value => simp only [Stmt.retoken, Stmt.bare, Expr.retoken_bare value]
  | returning _ value => simp only [Stmt.retoken, Stmt.bare, Expr.retoken_bare value]
  | whileLoop _ condition body =>
    simp only [Stmt.retoken, Stmt.bare, Expr.retoken_bare condition, Block.retoken_bare body]
  | function definition => simp only [Stmt.retoken, Stmt.bare, FunctionStatement.retoken_bare definition]
  | classDefinition _ name methods =>
    simp only [Stmt.retoken, Stmt.bare, FunctionStatement.retokenAll_bare methods, Identifier.retoken_bare]
  | test _ label body => simp only [Stmt.retoken, Stmt.bare, Block.retoken_bare body]

theorem Stmt.retokenAll_bare (statements : List Stmt) :
    Stmt.bareAll (Stmt.retokenAll g statements) = Stmt.retokenAll blanked statements := by
  cases statements with
  | nil => rfl
  | cons statement statements =>
    simp only [Stmt.retokenAll, Stmt.bareAll, Stmt.retoken_bare statement, Stmt.retokenAll_bare statements]

end

theorem Stmt.bareAll_eq_retokenAll (statements : List Stmt) :
    Stmt.bareAll statements = Stmt.retokenAll blanked statements := by
  have := Stmt.retokenAll_bare id statements
  rwa [Stmt.retokenAll_id] at this

/-- Putting other tokens into a program does not show once they are forgotten. -/
theorem Stmt.bareAll_retokenAll (statements : List Stmt) :
    Stmt.bareAll (Stmt.retokenAll g statements) = Stmt.bareAll statements := by
  rw [Stmt.retokenAll_bare, Stmt.bareAll_eq_retokenAll]

theorem Stmt.bareAll_append (list more : List Stmt) :
    Stmt.bareAll (list ++ more) = Stmt.bareAll list ++ Stmt.bareAll more := by
  simp only [Stmt.bareAll_eq_retokenAll, Stmt.retokenAll_append]

end Lantern
