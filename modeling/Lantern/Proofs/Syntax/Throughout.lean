/-
  Lantern.Proofs.Syntax.Throughout — asking something of every statement there is in a
  program.

  `throughout ask` asks every statement of a tree, at any depth: in blocks, arms and
  loops, in tests, and in the bodies of functions, methods and lambdas.
  `Program.loopless` is the question whether there is a loop; `Stmt.noTest` is that
  whether a statement is a test.
-/

import Lantern.Syntax.Basic

namespace Lantern

section

variable (ask : Stmt → Bool)

mutual

def Expr.throughout : Expr → Bool
  | .integer .. | .string .. | .boolean .. | .identifier _ => true
  | .assignment _ target value => target.throughout && value.throughout
  | .binary _ left _ right => left.throughout && right.throughout
  | .unary _ _ operand => operand.throughout
  | .call _ callee arguments => callee.throughout && Expr.allThroughout arguments
  | .index _ left position => left.throughout && position.throughout
  | .field _ object _ => object.throughout
  | .array _ elements => Expr.allThroughout elements
  | .conditional _ condition consequence elifs alternative =>
    condition.throughout && consequence.throughout && Elif.allThroughout elifs && Block.elseThroughout alternative
  | .lambda _ literal => literal.throughout

def Expr.allThroughout : List Expr → Bool
  | [] => true
  | e :: more => e.throughout && Expr.allThroughout more

def Target.throughout : Target → Bool
  | .identifier _ => true
  | .field _ object _ => object.throughout

def Elif.allThroughout : List Elif → Bool
  | [] => true
  | ⟨condition, block⟩ :: more => condition.throughout && block.throughout && Elif.allThroughout more

def Block.elseThroughout : Option Block → Bool
  | none => true
  | some block => block.throughout

def Block.throughout : Block → Bool
  | ⟨_, statements⟩ => Stmt.allThroughout statements

def FunctionLiteral.throughout : FunctionLiteral → Bool
  | ⟨_, body⟩ => body.throughout

def FunctionStatement.throughout : FunctionStatement → Bool
  | ⟨_, _, literal⟩ => literal.throughout

def FunctionStatement.allThroughout : List FunctionStatement → Bool
  | [] => true
  | method :: more => method.throughout && FunctionStatement.allThroughout more

def Stmt.throughout : Stmt → Bool
  | .expression token value => ask (.expression token value) && value.throughout
  | .returning token value => ask (.returning token value) && value.throughout
  | .whileLoop token condition body => ask (.whileLoop token condition body) && condition.throughout && body.throughout
  | .function definition => ask (.function definition) && definition.throughout
  | .classDefinition token name methods =>
    ask (.classDefinition token name methods) && FunctionStatement.allThroughout methods
  | .test token label body => ask (.test token label body) && body.throughout

def Stmt.allThroughout : List Stmt → Bool
  | [] => true
  | statement :: more => statement.throughout && Stmt.allThroughout more

end

@[simp] theorem FunctionLiteral.throughout_body (literal : FunctionLiteral) :
    literal.body.throughout ask = literal.throughout ask := by
  cases literal; rfl

@[simp] theorem FunctionStatement.throughout_literal (definition : FunctionStatement) :
    definition.literal.throughout ask = definition.throughout ask := by
  cases definition; rfl

theorem FunctionStatement.allThroughout_iff (methods : List FunctionStatement) :
    FunctionStatement.allThroughout ask methods ↔ ∀ method ∈ methods, method.throughout ask := by
  induction methods with
  | nil => simp [FunctionStatement.allThroughout]
  | cons method more ih => simp [FunctionStatement.allThroughout, ih]

end

/-- Every statement of the program is as asked, at any depth. -/
def Program.throughout (ask : Stmt → Bool) (program : Program) : Bool :=
  Stmt.allThroughout ask program.statements

def Stmt.straight : Stmt → Bool
  | .whileLoop .. => false
  | _ => true

def Program.loopless (program : Program) : Bool := program.throughout Stmt.straight

def Stmt.noTest : Stmt → Bool
  | .test .. => false
  | _ => true

end Lantern
