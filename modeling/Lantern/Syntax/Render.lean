/-
  Lantern.Syntax.Render — the canonical text of a program.

  Operators, indexing and field access are put in parentheses, so the text shows how the
  parser grouped them; calls, arrays and assignments are not. Every statement of a block
  has a line of its own and is not indented. A string is written as it is between its
  quotes, newlines included.

  The text of a list of statements is built from the texts of its members
  (`Stmt.renderLines`), and a program has no newline behind its last statement.
-/

import Lantern.Syntax.Basic

namespace Lantern

def joinWith (separator : String) : List String → String
  | [] => ""
  | [text] => text
  | text :: more => text ++ separator ++ joinWith separator more

def commaSeparated (texts : List String) : String := joinWith ", " texts

def truthWord (value : Bool) : String := if value then "true" else "false"

mutual

def Expr.render : Expr → String
  | .integer _ value => toString value.toInt
  | .string _ value => "\"" ++ value ++ "\""
  | .boolean _ value => truthWord value
  | .identifier name => name.name
  | .assignment _ target value => target.render ++ " = " ++ value.render
  | .binary _ left op right => "(" ++ left.render ++ " " ++ op.symbol ++ " " ++ right.render ++ ")"
  | .unary _ op operand => "(" ++ op.symbol ++ operand.render ++ ")"
  | .call _ callee arguments => callee.render ++ "(" ++ commaSeparated (Expr.renderAll arguments) ++ ")"
  | .index _ left position => "(" ++ left.render ++ "[" ++ position.render ++ "])"
  | .field _ object name => "(" ++ object.render ++ "." ++ name.name ++ ")"
  | .array _ elements => "[" ++ commaSeparated (Expr.renderAll elements) ++ "]"
  | .conditional _ condition consequence elifs alternative =>
    "if " ++ condition.render ++ " then\n" ++ consequence.render ++ Elif.renderAll elifs ++
      (match alternative with
        | some block => "else\n" ++ block.render
        | none => "") ++ "end"
  | .lambda _ literal => "fn" ++ literal.render

def Expr.renderAll : List Expr → List String
  | [] => []
  | value :: more => value.render :: Expr.renderAll more

def Target.render : Target → String
  | .identifier name => name.name
  | .field _ object name => "(" ++ object.render ++ "." ++ name.name ++ ")"

def Elif.renderAll : List Elif → String
  | [] => ""
  | ⟨condition, block⟩ :: more => "elif " ++ condition.render ++ " then\n" ++ block.render ++ Elif.renderAll more

def Block.render : Block → String
  | ⟨_, statements⟩ => Stmt.renderLines statements

/-- Parameters and body, without the word or the name before them. -/
def FunctionLiteral.render : FunctionLiteral → String
  | ⟨parameters, body⟩ => "(" ++ commaSeparated (parameters.map (·.name)) ++ ")\n" ++ body.render ++ "end"

def FunctionStatement.render : FunctionStatement → String
  | ⟨_, name, literal⟩ => "fn " ++ name.name ++ literal.render

def FunctionStatement.renderLines : List FunctionStatement → String
  | [] => ""
  | method :: more => method.render ++ "\n" ++ FunctionStatement.renderLines more

def Stmt.render : Stmt → String
  | .expression _ value => value.render
  | .returning _ value => "return " ++ value.render
  | .whileLoop _ condition body => "while " ++ condition.render ++ " then\n" ++ body.render ++ "end"
  | .function definition => definition.render
  | .classDefinition _ name methods => "class " ++ name.name ++ "\n" ++ FunctionStatement.renderLines methods ++ "end"
  | .test _ label body => "test \"" ++ label ++ "\"\n" ++ body.render ++ "end"

def Stmt.renderLines : List Stmt → String
  | [] => ""
  | statement :: more => statement.render ++ "\n" ++ Stmt.renderLines more

end

def Program.render (program : Program) : String := joinWith "\n" (program.statements.map Stmt.render)

end Lantern
