/-
  Lantern.Syntax.Basic — programs as trees.

  A program is a list of statements; blocks of statements stand inside `while`,
  functions, tests and the arms of a conditional, and functions and conditionals are
  expressions. So all of it is one family of types. Every node keeps the token it was
  built at, which later errors take their line from: the operator of an infix
  expression, `(` of a call, `[` of an index or an array, `.` of a field, `=` of an
  assignment, and the first token of everything else. A literal keeps its value beside
  its token; nothing reads the token's text again.
-/

import Lantern.Token.Basic
import Lantern.Syntax.Operator

namespace Lantern

structure Identifier where
  token : Token
  name : String
  deriving DecidableEq, Repr, Inhabited

def Identifier.ofToken (token : Token) : Identifier := ⟨token, token.text⟩

mutual

inductive Expr where
  | integer (token : Token) (value : Int64)
  | string (token : Token) (value : String)
  | boolean (token : Token) (value : Bool)
  | identifier (name : Identifier)
  | assignment (token : Token) (target : Target) (value : Expr)
  | binary (token : Token) (left : Expr) (op : InfixOp) (right : Expr)
  | unary (token : Token) (op : PrefixOp) (operand : Expr)
  | call (token : Token) (callee : Expr) (arguments : List Expr)
  | index (token : Token) (left : Expr) (position : Expr)
  | field (token : Token) (object : Expr) (name : Identifier)
  | array (token : Token) (elements : List Expr)
  | conditional (token : Token) (condition : Expr) (consequence : Block) (elifs : List Elif)
      (alternative : Option Block)
  | lambda (token : Token) (literal : FunctionLiteral)

inductive Target where
  | identifier (name : Identifier)
  | field (token : Token) (object : Expr) (name : Identifier)

structure Elif where
  condition : Expr
  block : Block

/-- Statements up to the word that closes them. The token is the one the block starts
    at, which in an empty block is that word. -/
structure Block where
  token : Token
  statements : List Stmt

/-- Parameters and body, shared by named functions, methods and lambdas. -/
structure FunctionLiteral where
  parameters : List Identifier
  body : Block

structure FunctionStatement where
  token : Token
  name : Identifier
  literal : FunctionLiteral

inductive Stmt where
  | expression (token : Token) (value : Expr)
  | returning (token : Token) (value : Expr)
  | whileLoop (token : Token) (condition : Expr) (body : Block)
  | function (definition : FunctionStatement)
  | classDefinition (token : Token) (name : Identifier) (methods : List FunctionStatement)
  | test (token : Token) (label : String) (body : Block)

end

instance : Inhabited Expr := ⟨.boolean default default⟩
instance : Inhabited Block := ⟨⟨default, []⟩⟩
instance : Inhabited FunctionLiteral := ⟨⟨[], default⟩⟩
instance : Inhabited Stmt := ⟨.expression default default⟩

structure Program where
  statements : List Stmt
  deriving Inhabited

namespace Program

def length (program : Program) : Nat := program.statements.length

def isEmpty (program : Program) : Bool := program.statements.isEmpty

end Program

def FunctionLiteral.arity (literal : FunctionLiteral) : Nat := literal.parameters.length

namespace Expr

def token : Expr → Token
  | integer token _ | string token _ | boolean token _ | assignment token _ _ | binary token _ _ _
  | unary token _ _ | call token _ _ | index token _ _ | field token _ _ | array token _
  | conditional token _ _ _ _ | lambda token _ => token
  | identifier name => name.token

def kindName : Expr → String
  | integer .. => "Integer"
  | string .. => "String"
  | boolean .. => "Boolean"
  | identifier .. => "Identifier"
  | assignment .. => "AssignmentExpression"
  | binary .. => "InfixExpression"
  | unary .. => "PrefixExpression"
  | call .. => "CallExpression"
  | index .. => "IndexExpression"
  | field .. => "FieldExpression"
  | array .. => "Array"
  | conditional .. => "IfExpression"
  | lambda .. => "Lambda"

end Expr

namespace Stmt

def token : Stmt → Token
  | expression token _ | returning token _ | whileLoop token _ _ | classDefinition token _ _ | test token _ _ => token
  | function definition => definition.token

end Stmt

end Lantern
