/-
  Lantern.Eval.Evaluate — running a program.

  Everything is evaluated from left to right, operands before their operator, the callee
  before its arguments, and the value of an assignment before its target. Blocks share
  the scope around them; only a call opens a scope, inside the one its function was made
  in. A block comes to the value of its last statement. An error is met by the innermost
  statement around it, which gives it a line and, as the policy says, reports it and
  comes to `null`, or hands it on.

  Every function takes fuel first and hands on less. More fuel than a run needs changes
  nothing.
-/

import Lantern.Eval.Run

namespace Lantern

namespace Run

/-- A call ends a `return` on its way: its value is the value of the call. -/
def untilReturn (body : Run Value) : Run Value := fun state =>
  match body state with
  | .returned result behind => .value result behind
  | other => other

def beginCall (state : State) : State :=
  { state with callDepth := state.callDepth + 1 }.note .callBegins

def endCall (state : State) : State :=
  { state with callDepth := state.callDepth - 1 }.note .callEnds

/-- Run the body of a function, one level deeper however it ends. -/
def nested (body : Run Value) : Run Value := fun state =>
  match body (beginCall state) with
  | .value result behind => .value result (endCall behind)
  | .returned result behind => .returned result (endCall behind)
  | .failed error behind => .failed error (endCall behind)
  | .outOfFuel => .outOfFuel

def checkDepth (settings : Settings) : Run Unit := fun state =>
  match settings.maxCallDepth with
  | some limit => if limit ≤ state.callDepth then .failed (.tooDeep limit) state else .value () state
  | none => .value () state

def handled (settings : Settings) (line : Nat) (body : Run Value) : Run Value := fun state =>
  match body state with
  | .failed error behind =>
    match settings.policy with
    | .proceed => .value .null (behind.report (error.onLine line))
    | .abort => .failed (error.onLine line) behind
  | other => other

/-- Add the outcome of a test whose body began after `before` diagnostics, and ended
    with `last`, an error that nothing has reported yet. -/
def conclude (label : String) (before : Nat) (last : List String) (state : State) : State :=
  let errors := (state.diagnostics.since before).map (·.message) ++ last
  { state with outcomes := state.outcomes.push ⟨label, errors.isEmpty, errors⟩ }.note .testEnds

/-- Run a test body and add its outcome. A `return` in it ends the test only. -/
def tested (label : String) (body : Run Value) : Run Value := fun state =>
  let before := state.diagnostics.length
  match body (state.note .testBegins) with
  | .value _ behind => .value .null (conclude label before [] behind)
  | .returned _ behind => .value .null (conclude label before [] behind)
  | .failed error behind => .failed error (conclude label before [error.message] behind)
  | .outOfFuel => .outOfFuel

end Run

namespace Eval

open Run

def lookup (scope : ScopeId) (name : String) : Run Value := do
  match ← ask (·.get? scope name) with
  | some value => return value
  | none => fail (.notFound name)

def member (target : Value) (name : String) : Run Value := do
  match target with
  | .object className id =>
    match ← ask (·.member? id name) with
    | some value => return value
    | none => fail (.noMember name className)
  | other => fail (.noFields other)

def setMember (target : Value) (name : String) (value : Value) : Run Unit :=
  match target with
  | .object _ id => alter (·.setField id name value)
  | other => fail (.noFields other)

def classOf (scope : ScopeId) (name : String) (methods : List FunctionStatement) : Class :=
  ⟨name, methods.map fun method => ⟨some method.name.name, method.literal, scope⟩⟩

mutual

def expression (settings : Settings) : Nat → ScopeId → Expr → Run Value
  | 0, _, _ => stop
  | fuel + 1, scope, e =>
    match e with
    | .integer _ value => return .integer value
    | .string _ value => return .string value
    | .boolean _ value => return .boolean value
    | .identifier name => lookup scope name.name
    | .assignment _ target value => do
      let result ← expression settings fuel scope value
      assign settings fuel scope target result
      return result
    | .binary _ left op right => do
      let first ← expression settings fuel scope left
      let second ← expression settings fuel scope right
      lift (op.apply first second)
    | .unary _ op operand => do
      let value ← expression settings fuel scope operand
      lift (op.apply value)
    | .call _ callee arguments => do
      let function ← expression settings fuel scope callee
      let values ← expressions settings fuel scope arguments
      apply settings fuel function values
    | .index _ left position => do
      let target ← expression settings fuel scope left
      let place ← expression settings fuel scope position
      lift (target.index place)
    | .field _ object name => do
      let target ← expression settings fuel scope object
      member target name.name
    | .array _ elements => do
      return .array (← expressions settings fuel scope elements)
    | .conditional _ condition consequence elifs alternative => do
      let value ← expression settings fuel scope condition
      if value.isTruthy then
        block settings fuel scope .null consequence.statements
      else
        otherwise settings fuel scope elifs alternative
    | .lambda _ literal => return .function ⟨none, literal, scope⟩
termination_by structural fuel => fuel

def expressions (settings : Settings) : Nat → ScopeId → List Expr → Run (List Value)
  | 0, _, _ => stop
  | fuel + 1, scope, es =>
    match es with
    | [] => return []
    | e :: more => do
      let value ← expression settings fuel scope e
      return value :: (← expressions settings fuel scope more)
termination_by structural fuel => fuel

def assign (settings : Settings) : Nat → ScopeId → Target → Value → Run Unit
  | 0, _, _, _ => stop
  | fuel + 1, scope, target, value =>
    match target with
    | .identifier name => alter (·.assign scope name.name value)
    | .field _ object name => do
      let owner ← expression settings fuel scope object
      setMember owner name.name value
termination_by structural fuel => fuel

def otherwise (settings : Settings) : Nat → ScopeId → List Elif → Option Block → Run Value
  | 0, _, _, _ => stop
  | fuel + 1, scope, elifs, alternative =>
    match elifs with
    | arm :: more => do
      let value ← expression settings fuel scope arm.condition
      if value.isTruthy then
        block settings fuel scope .null arm.block.statements
      else
        otherwise settings fuel scope more alternative
    | [] =>
      match alternative with
      | some arm => block settings fuel scope .null arm.statements
      | none => return .null
termination_by structural fuel => fuel

def apply (settings : Settings) : Nat → Value → List Value → Run Value
  | 0, _, _ => stop
  | fuel + 1, callee, arguments =>
    match callee with
    | .function closure => do
      if closure.arity != arguments.length then
        fail (.argumentCount closure.arity arguments.length)
      else
        checkDepth settings
        let scope ← extend (·.enclose closure.scope)
        alter (·.defineAll scope (closure.parameters.zip arguments))
        untilReturn (nested (block settings fuel scope .null closure.literal.body.statements))
    | .builtin primitive => callBuiltin primitive arguments
    | .classObject definition =>
      if arguments.isEmpty then do
        let id ← extend (·.addObject definition)
        return .object definition.name id
      else
        fail (.argumentCount 0 arguments.length)
    | other => fail (.notCallable other)
termination_by structural fuel => fuel

/-- Statements in order. The value is that of the last one, or `result` if there is none. -/
def block (settings : Settings) : Nat → ScopeId → Value → List Stmt → Run Value
  | 0, _, _, _ => stop
  | fuel + 1, scope, result, statements =>
    match statements with
    | [] => return result
    | first :: more => do
      let value ← handled settings first.token.line (statement settings fuel scope first)
      block settings fuel scope value more
termination_by structural fuel => fuel

def statement (settings : Settings) : Nat → ScopeId → Stmt → Run Value
  | 0, _, _ => stop
  | fuel + 1, scope, s =>
    match s with
    | .expression _ value => expression settings fuel scope value
    | .returning _ value => do
      let result ← expression settings fuel scope value
      leave result
    | .whileLoop _ condition body => loop settings fuel scope condition body
    | .function definition => do
      let name := definition.name.name
      alter (·.define scope name (.function ⟨some name, definition.literal, scope⟩))
      return .null
    | .classDefinition _ name methods => do
      alter (·.define scope name.name (.classObject (classOf scope name.name methods)))
      return .null
    | .test _ label body =>
      if settings.testMode then tested label (block settings fuel scope .null body.statements)
      else return .null
termination_by structural fuel => fuel

def loop (settings : Settings) : Nat → ScopeId → Expr → Block → Run Value
  | 0, _, _, _ => stop
  | fuel + 1, scope, condition, body => do
    let value ← expression settings fuel scope condition
    if value.isTruthy then
      let _ ← block settings fuel scope .null body.statements
      loop settings fuel scope condition body
    else
      return .null
termination_by structural fuel => fuel

end

end Eval

/-! ## Whole runs -/

/-- Run every statement of a program in a scope. The value is that of the last
    statement, or of a `return` outside of functions; an error ends the run under the
    policy that hands errors on, and is reported. There is no answer if the fuel is used
    up. -/
def evalProgram (settings : Settings) (fuel : Nat) (program : Program) (scope : ScopeId)
    (state : State) :
    Option (Except EvalError Value × State) :=
  match Eval.block settings fuel scope .null program.statements state with
  | .value result behind => some (.ok result, behind)
  | .returned result behind => some (.ok result, behind)
  | .failed error behind => some (.error error, behind.report error)
  | .outOfFuel => none

/-- Call a value from outside of the program. An error is handed back and not reported. -/
def callValue (settings : Settings) (fuel : Nat) (callee : Value) (arguments : List Value)
    (state : State) :
    Option (Except EvalError Value × State) :=
  match Eval.apply settings fuel callee arguments state with
  | .value result behind => some (.ok result, behind)
  | .returned result behind => some (.ok result, behind)
  | .failed error behind => some (.error error, behind)
  | .outOfFuel => none

/-- More fuel than a run that ends makes use of before anyone stops waiting for it. -/
def plenty : Nat := Nat.pow 10 18

end Lantern
