/-
  Lantern.Syntax.Tree — the tree of a program, written out node by node.

  `Program.dump` shows every node with its token and its fields, spread over lines. It
  is what `--print-ast` and the `parse` command print.
-/

import Lantern.Syntax.Basic
import Lantern.Text.Outline

namespace Lantern

open Text (Outline OutlineField)

def Token.outline (token : Token) : Outline := .atom token.dump

def node (name : String) (fields : List OutlineField) : Outline := .record name fields true

def Identifier.outline (name : Identifier) : Outline :=
  node "Identifier" [⟨"token", name.token.outline⟩, ⟨"name", .atom (Text.quoted name.name)⟩]

mutual

def Expr.outline : Expr → Outline
  | .integer token value =>
    .wrap "Integer" (node "IntegerLiteral" [⟨"token", token.outline⟩, ⟨"value", .atom (toString value.toInt)⟩])
  | .string token value =>
    .wrap "String" (node "StringLiteral" [⟨"token", token.outline⟩, ⟨"value", .atom (Text.quoted value)⟩])
  | .boolean token value =>
    .wrap "Boolean" (node "BooleanLiteral"
      [⟨"token", token.outline⟩, ⟨"value", .atom (if value then "true" else "false")⟩])
  | .identifier name => .wrap "Identifier" name.outline
  | .assignment token target value =>
    .wrap "Assignment" (node "AssignmentExpression"
      [⟨"token", token.outline⟩, ⟨"target", target.outline⟩, ⟨"value", value.outline⟩])
  | .binary token left op right =>
    .wrap "Infix" (node "InfixExpression"
      [⟨"token", token.outline⟩, ⟨"left", left.outline⟩, ⟨"op", .atom op.name⟩, ⟨"right", right.outline⟩])
  | .unary token op operand =>
    .wrap "Prefix" (node "PrefixExpression"
      [⟨"token", token.outline⟩, ⟨"op", .atom op.name⟩, ⟨"right", operand.outline⟩])
  | .call token callee arguments =>
    .wrap "Call" (node "CallExpression"
      [⟨"token", token.outline⟩, ⟨"callee", callee.outline⟩, ⟨"arguments", .list (Expr.outlines arguments)⟩])
  | .index token left position =>
    .wrap "Index" (node "IndexExpression"
      [⟨"token", token.outline⟩, ⟨"left", left.outline⟩, ⟨"index", position.outline⟩])
  | .field token object name =>
    .wrap "Field" (node "FieldExpression"
      [⟨"token", token.outline⟩, ⟨"target", object.outline⟩, ⟨"field", name.outline⟩])
  | .array token elements =>
    .wrap "Array" (node "ArrayLiteral" [⟨"token", token.outline⟩, ⟨"elements", .list (Expr.outlines elements)⟩])
  | .conditional token condition consequence elifs alternative =>
    .wrap "If" (node "IfExpression"
      [⟨"token", token.outline⟩, ⟨"condition", condition.outline⟩, ⟨"consequence", consequence.outline⟩,
       ⟨"elifs", .list (Elif.outlines elifs)⟩,
       ⟨"alternative", match alternative with
         | some block => .wrap "Some" block.outline
         | none => .atom "None"⟩])
  | .lambda token literal =>
    .wrap "Lambda" (node "Lambda" [⟨"token", token.outline⟩, ⟨"literal", literal.outline⟩])

def Expr.outlines : List Expr → List Outline
  | [] => []
  | value :: more => value.outline :: Expr.outlines more

def Target.outline : Target → Outline
  | .identifier name => .wrap "Identifier" name.outline
  | .field token object name =>
    .wrap "Field" (node "FieldExpression"
      [⟨"token", token.outline⟩, ⟨"target", object.outline⟩, ⟨"field", name.outline⟩])

def Elif.outlines : List Elif → List Outline
  | [] => []
  | ⟨condition, block⟩ :: more =>
    node "ElifClause" [⟨"condition", condition.outline⟩, ⟨"block", block.outline⟩] :: Elif.outlines more

def Block.outline : Block → Outline
  | ⟨token, statements⟩ =>
    node "Block" [⟨"token", token.outline⟩, ⟨"statements", .list (Stmt.outlines statements)⟩]

def FunctionLiteral.outline : FunctionLiteral → Outline
  | ⟨parameters, body⟩ =>
    node "FunctionLiteral" [⟨"parameters", .list (parameters.map Identifier.outline)⟩, ⟨"body", body.outline⟩]

def FunctionStatement.outline : FunctionStatement → Outline
  | ⟨token, name, literal⟩ =>
    node "FunctionStatement" [⟨"token", token.outline⟩, ⟨"name", name.outline⟩, ⟨"literal", literal.outline⟩]

def FunctionStatement.outlines : List FunctionStatement → List Outline
  | [] => []
  | method :: more => method.outline :: FunctionStatement.outlines more

def Stmt.outline : Stmt → Outline
  | .expression token value =>
    .wrap "Expression" (node "ExpressionStatement" [⟨"token", token.outline⟩, ⟨"expression", value.outline⟩])
  | .returning token value =>
    .wrap "Return" (node "ReturnStatement" [⟨"token", token.outline⟩, ⟨"value", value.outline⟩])
  | .whileLoop token condition body =>
    .wrap "While" (node "WhileStatement"
      [⟨"token", token.outline⟩, ⟨"condition", condition.outline⟩, ⟨"body", body.outline⟩])
  | .function definition => .wrap "Function" definition.outline
  | .classDefinition token name methods =>
    .wrap "Class" (node "ClassStatement"
      [⟨"token", token.outline⟩, ⟨"name", name.outline⟩, ⟨"methods", .list (FunctionStatement.outlines methods)⟩])
  | .test token label body =>
    .wrap "Test" (node "TestStatement"
      [⟨"token", token.outline⟩, ⟨"label", .atom (Text.quoted label)⟩, ⟨"body", body.outline⟩])

def Stmt.outlines : List Stmt → List Outline
  | [] => []
  | statement :: more => statement.outline :: Stmt.outlines more

end

def Program.dump (program : Program) : String :=
  (node "Program" [⟨"statements", .list (Stmt.outlines program.statements)⟩]).spread ""

end Lantern
