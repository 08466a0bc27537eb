/-
  Lantern.Parse.Grammar — the productions.

  Expressions are read by precedence climbing: `operand` reads what can start one, and
  `climb` extends it as long as the next token binds tighter than the level asked for. A
  `(` or `[` that opens a line starts the next statement instead. Grouping leaves no
  node behind.

  A malformed statement is dropped after its error is recorded, and reading goes on
  behind it. So `statements` never gives up; neither does anything that only reads
  blocks.

  Every production takes a bound on the depth of the recursion first and hands a smaller
  one on. A few productions in a row may pass no token, but never more than eight, so a
  bound of eight for each token ahead is not used up.
-/

import Lantern.Parse.Precedence
import Lantern.Parse.Production
import Lantern.Text.Decimal

namespace Lantern.Grammar

open Production

def bodyEnd : List Kind := [.endWord]

def armEnd : List Kind := [.endWord, .elifWord, .elseWord]

def memberStart : List Kind := [.fnWord, .endWord]

/-- Whether the current token extends an operand at level `min`. -/
def extends? (min : Precedence) (cursor : Cursor) : Bool :=
  !cursor.atEnd && min.below (.of cursor.kind) &&
    !((cursor.kind == .lparen || cursor.kind == .lbracket) && cursor.onNewLine)

/-- Whether a named function starts here. Without a name it is a lambda. -/
def startsFunction (cursor : Cursor) : Bool := cursor.kind == .fnWord && cursor.peekKind == .ident

def moreParameters : Nat → Production (List Identifier)
  | 0 => stop
  | bound + 1 => do
    if ← ask (·.check .comma) then
      let _ ← advance
      let name ← identifier
      return name :: (← moreParameters bound)
    else
      let _ ← expect .rparen
      return []

def parameters (bound : Nat) : Production (List Identifier) := do
  let _ ← expect .lparen
  if ← ask (·.check .rparen) then
    let _ ← advance
    return []
  else
    let name ← identifier
    return name :: (← moreParameters bound)

def integer : Production Expr := do
  let token ← advance
  match Text.decimal? token.text with
  | some value => return .integer token value
  | none => fail (.badInteger token)

def target? : Expr → Option Target
  | .identifier name => some (.identifier name)
  | .field token object name => some (.field token object name)
  | _ => none

mutual

/-- An expression whose operators all bind tighter than `min`. -/
def expression : Nat → Precedence → Production Expr
  | 0, _ => stop
  | bound + 1, min => do
    let left ← operand bound
    climb bound min left

def operand : Nat → Production Expr
  | 0 => stop
  | bound + 1 => do
    let found ← ask Cursor.current
    match found.kind with
    | .ident => return .identifier (.ofToken (← advance))
    | .int => integer
    | .str =>
      let token ← advance
      return .string token token.text
    | .trueWord => return .boolean (← advance) true
    | .falseWord => return .boolean (← advance) false
    | .minus => return .unary (← advance) .neg (← expression bound .unary)
    | .bang => return .unary (← advance) .not (← expression bound .unary)
    | .lparen =>
      let _ ← advance
      let inner ← expression bound .lowest
      let _ ← expect .rparen
      return inner
    | .lbracket => return .array (← advance) (← expressions bound .rbracket)
    | .ifWord =>
      let token ← advance
      let condition ← expression bound .lowest
      let _ ← expect .thenWord
      let consequence ← block bound armEnd
      let arms ← elifs bound
      let alternative ← otherwise bound
      let _ ← expect .endWord
      return .conditional token condition consequence arms alternative
    | .fnWord => return .lambda (← advance) (← functionLiteral bound)
    | _ =>
      let token ← advance
      fail (.noExpression token)

/-- Extend `left` while the next token binds tighter than `min`. -/
def climb : Nat → Precedence → Expr → Production Expr
  | 0, _, _ => stop
  | bound + 1, min, left => do
    if ← ask (extends? min) then
      let wider ← extension bound left
      climb bound min wider
    else
      return left

/-- Extend `left` by the operator, call, index, field or assignment that starts here.
    `climb` comes here only with a token that binds, and every other token that binds is
    an operator. -/
def extension : Nat → Expr → Production Expr
  | 0, _ => stop
  | bound + 1, left => do
    let token ← advance
    match token.kind with
    | .assign =>
      let value ← expression bound .lowest
      match target? left with
      | some target => return .assignment token target value
      | none => fail (.badTarget left)
    | .lparen => return .call token left (← expressions bound .rparen)
    | .lbracket =>
      let position ← expression bound .lowest
      let _ ← expect .rbracket
      return .index token left position
    | .dot => return .field token left (← identifier)
    | kind =>
      match InfixOp.ofKind? kind with
      | some op => return .binary token left op (← expression bound (.of kind))
      | none => giveUp

def expressions : Nat → Kind → Production (List Expr)
  | 0, _ => stop
  | bound + 1, close => do
    if ← ask (·.check close) then
      let _ ← advance
      return []
    else
      let first ← expression bound .lowest
      return first :: (← moreExpressions bound close)

def moreExpressions : Nat → Kind → Production (List Expr)
  | 0, _ => stop
  | bound + 1, close => do
    if ← ask (·.check .comma) then
      let _ ← advance
      let next ← expression bound .lowest
      return next :: (← moreExpressions bound close)
    else
      let _ ← expect close
      return []

def elifs : Nat → Production (List Elif)
  | 0 => stop
  | bound + 1 => do
    if ← ask (·.check .elifWord) then
      let _ ← advance
      let condition ← expression bound .lowest
      let _ ← expect .thenWord
      let arm ← block bound armEnd
      return ⟨condition, arm⟩ :: (← elifs bound)
    else
      return []

def otherwise : Nat → Production (Option Block)
  | 0 => stop
  | bound + 1 => do
    if ← ask (·.check .elseWord) then
      let _ ← advance
      return some (← block bound bodyEnd)
    else
      return none

/-- Statements up to, but without, a token of one of the kinds `close`. -/
def block : Nat → List Kind → Production Block
  | 0, _ => stop
  | bound + 1, close => do
    let token ← ask Cursor.current
    return ⟨token, ← statements bound close⟩

def statements : Nat → List Kind → Production (List Stmt)
  | 0, _ => stop
  | bound + 1, close => do
    if ← ask fun cursor => cursor.atEnd || close.contains cursor.kind then
      return []
    else
      let consumed ← ask Cursor.consumed
      match ← attempt (statement bound) with
      | some first => return first :: (← statements bound close)
      | none =>
        ensureProgress consumed
        statements bound close

def statement : Nat → Production Stmt
  | 0 => stop
  | bound + 1 => do
    let found ← ask Cursor.current
    match found.kind with
    | .returnWord => return .returning (← advance) (← expression bound .lowest)
    | .whileWord =>
      let token ← advance
      let condition ← expression bound .lowest
      let _ ← expect .thenWord
      let body ← block bound bodyEnd
      let _ ← expect .endWord
      return .whileLoop token condition body
    | .testWord =>
      let token ← advance
      let label ← ask Cursor.current
      if label.kind == .str then
        let _ ← advance
        let body ← block bound bodyEnd
        let _ ← expect .endWord
        return .test token label.text body
      else
        fail (.noTestLabel label)
    | .classWord =>
      let token ← advance
      let name ← ask Cursor.current
      if name.kind == .ident then
        let _ ← advance
        let members ← methods bound
        let _ ← expect .endWord
        return .classDefinition token (.ofToken name) members
      else
        fail (.noClassName name)
    | _ =>
      if ← ask startsFunction then
        return .function (← functionStatement bound)
      else
        return .expression found (← expression bound .lowest)

def functionStatement : Nat → Production FunctionStatement
  | 0 => stop
  | bound + 1 => do
    let token ← advance
    let name ← identifier
    return ⟨token, name, ← functionLiteral bound⟩

def functionLiteral : Nat → Production FunctionLiteral
  | 0 => stop
  | bound + 1 => do
    let names ← parameters bound
    let body ← block bound bodyEnd
    let _ ← expect .endWord
    return ⟨names, body⟩

/-- The methods of a class, up to its `end`. What is no method is an error and is passed
    over. -/
def methods : Nat → Production (List FunctionStatement)
  | 0 => stop
  | bound + 1 => do
    if ← ask fun cursor => cursor.atEnd || cursor.check .endWord then
      return []
    else if ← ask startsFunction then
      let consumed ← ask Cursor.consumed
      match ← attempt (functionStatement bound) with
      | some method => return method :: (← methods bound)
      | none =>
        ensureProgress consumed
        methods bound
    else
      let found ← ask Cursor.current
      record (.notAMethod found)
      let _ ← advance
      let _ ← seek memberStart
      methods bound

end

end Lantern.Grammar
