/-
  Lantern.Proofs.Eval.Moment — what is being evaluated at each moment of a run, also of
  one that goes on for ever.

  To evaluate something is a `Task`, and a task begins others: an expression its
  operands, a call the body of the function, a block its statements. `Task.Begins` lists
  what a task begins and in which state, one constructor for each place: what comes
  before that place has come to a value. Whether anything ever comes of what is begun is
  not asked, so what a run that does not end gets to is listed as well
  (`Task.begins_of_outOfFuel`).

  `Task.Passes` follows the tasks from a first one inward, and counts the bodies of
  functions on the way: those are the bodies being run at that moment. `callDepth` has
  their number (`Task.Passes.callDepth`), and with a limit of the call depth there are
  no more than that (`Task.Passes.within`): a call that would run one more is refused.
-/

import Lantern.Proofs.Eval.Depth

namespace Lantern.Eval

open Run

inductive Task where
  | expression (scope : ScopeId) (e : Expr)
  | expressions (scope : ScopeId) (es : List Expr)
  | assign (scope : ScopeId) (target : Target) (value : Value)
  | otherwise (scope : ScopeId) (elifs : List Elif) (alternative : Option Block)
  | apply (callee : Value) (arguments : List Value)
  | block (scope : ScopeId) (result : Value) (statements : List Stmt)
  | statement (scope : ScopeId) (first : Stmt)
  | loop (scope : ScopeId) (condition : Expr) (body : Block)

namespace Task

@[reducible] def Answer : Task → Type
  | expressions .. => List Value
  | assign .. => Unit
  | _ => Value

def run (settings : Settings) (fuel : Nat) : (task : Task) → Run task.Answer
  | expression scope e => Eval.expression settings fuel scope e
  | expressions scope es => Eval.expressions settings fuel scope es
  | assign scope target value => Eval.assign settings fuel scope target value
  | otherwise scope elifs alternative => Eval.otherwise settings fuel scope elifs alternative
  | apply callee arguments => Eval.apply settings fuel callee arguments
  | block scope result statements => Eval.block settings fuel scope result statements
  | statement scope first => Eval.statement settings fuel scope first
  | loop scope condition body => Eval.loop settings fuel scope condition body

def opened (outer : ScopeId) (pairs : List (String × Value)) (state : State) : State :=
  beginCall { state with heap := (state.heap.enclose outer).2.defineAll (state.heap.enclose outer).1 pairs }

variable (settings : Settings)

def Comes (task : Task) (state : State) (answer : task.Answer) (behind : State) : Prop :=
  ∃ fuel, task.run settings fuel state = .value answer behind

def Handled (scope : ScopeId) (first : Stmt) (state : State) (value : Value) (behind : State) :
    Prop :=
  ∃ fuel, handled settings first.token.line (Eval.statement settings fuel scope first) state = .value value behind

variable {settings}

/-- The first task, in the first state, begins the second one in the second state. The
    number is that of the bodies of functions that begin with it. -/
inductive Begins (settings : Settings) : Task → State → Nat → Task → State → Prop
  | assigned {scope token target value state} :
      Begins settings (.expression scope (.assignment token target value)) state 0 (.expression scope value) state
  | target {scope token target value state result behind} : (expression scope value).Comes settings state result behind →
      Begins settings (.expression scope (.assignment token target value)) state 0 (.assign scope target result) behind
  | left {scope token left op right state} :
      Begins settings (.expression scope (.binary token left op right)) state 0 (.expression scope left) state
  | right {scope token left op right state first behind} : (expression scope left).Comes settings state first behind →
      Begins settings (.expression scope (.binary token left op right)) state 0 (.expression scope right) behind
  | operand {scope token op operand state} :
      Begins settings (.expression scope (.unary token op operand)) state 0 (.expression scope operand) state
  | callee {scope token callee arguments state} :
      Begins settings (.expression scope (.call token callee arguments)) state 0 (.expression scope callee) state
  | arguments {scope token callee arguments state function behind} :
      (expression scope callee).Comes settings state function behind →
      Begins settings (.expression scope (.call token callee arguments)) state 0 (.expressions scope arguments) behind
  | called {scope token callee arguments state function middle values behind} :
      (expression scope callee).Comes settings state function middle →
      (expressions scope arguments).Comes settings middle values behind →
      Begins settings (.expression scope (.call token callee arguments)) state 0 (.apply function values) behind
  | indexed {scope token left position state} :
      Begins settings (.expression scope (.index token left position)) state 0 (.expression scope left) state
  | position {scope token left position state first behind} : (expression scope left).Comes settings state first behind →
      Begins settings (.expression scope (.index token left position)) state 0 (.expression scope position) behind
  | owner {scope token object name state} :
      Begins settings (.expression scope (.field token object name)) state 0 (.expression scope object) state
  | elements {scope token elements state} :
      Begins settings (.expression scope (.array token elements)) state 0 (.expressions scope elements) state
  | condition {scope token condition consequence elifs alternative state} :
      Begins settings (.expression scope (.conditional token condition consequence elifs alternative)) state 0
        (.expression scope condition) state
  | consequence {scope token condition consequence elifs alternative state value behind} :
      (expression scope condition).Comes settings state value behind → value.isTruthy = true →
      Begins settings (.expression scope (.conditional token condition consequence elifs alternative)) state 0
        (.block scope .null consequence.statements) behind
  | otherwise {scope token condition consequence elifs alternative state value behind} :
      (expression scope condition).Comes settings state value behind → value.isTruthy = false →
      Begins settings (.expression scope (.conditional token condition consequence elifs alternative)) state 0
        (.otherwise scope elifs alternative) behind
  | head {scope e more state} : Begins settings (.expressions scope (e :: more)) state 0 (.expression scope e) state
  | tail {scope e more state value behind} : (expression scope e).Comes settings state value behind →
      Begins settings (.expressions scope (e :: more)) state 0 (.expressions scope more) behind
  | assignee {scope token object name value state} :
      Begins settings (.assign scope (.field token object name) value) state 0 (.expression scope object) state
  | elifCondition {scope arm more alternative state} :
      Begins settings (.otherwise scope (arm :: more) alternative) state 0 (.expression scope arm.condition) state
  | elifArm {scope arm more alternative state value behind} :
      (expression scope arm.condition).Comes settings state value behind → value.isTruthy = true →
      Begins settings (.otherwise scope (arm :: more) alternative) state 0 (.block scope .null arm.block.statements) behind
  | elifMore {scope arm more alternative state value behind} :
      (expression scope arm.condition).Comes settings state value behind → value.isTruthy = false →
      Begins settings (.otherwise scope (arm :: more) alternative) state 0 (.otherwise scope more alternative) behind
  | elseArm {scope arm state} :
      Begins settings (.otherwise scope [] (some arm)) state 0 (.block scope .null arm.statements) state
  /-- The one place where the body of a function begins: the arguments are as many as
      the parameters, and the check of the depth is passed. -/
  | body {closure : Function} {arguments state} : closure.arity = arguments.length →
      checkDepth settings state = .value () state →
      Begins settings (.apply (.function closure) arguments) state 1
        (.block (state.heap.enclose closure.scope).1 .null closure.literal.body.statements)
        (opened closure.scope (closure.parameters.zip arguments) state)
  | first {scope result first more state} :
      Begins settings (.block scope result (first :: more)) state 0 (.statement scope first) state
  | next {scope result first more state value behind} : Handled settings scope first state value behind →
      Begins settings (.block scope result (first :: more)) state 0 (.block scope value more) behind
  | bare {scope token value state} :
      Begins settings (.statement scope (.expression token value)) state 0 (.expression scope value) state
  | returned {scope token value state} :
      Begins settings (.statement scope (.returning token value)) state 0 (.expression scope value) state
  | loop {scope token condition body state} :
      Begins settings (.statement scope (.whileLoop token condition body)) state 0 (.loop scope condition body) state
  | test {scope token label body state} : settings.testMode = true →
      Begins settings (.statement scope (.test token label body)) state 0 (.block scope .null body.statements)
        (state.note .testBegins)
  | loopCondition {scope condition body state} :
      Begins settings (.loop scope condition body) state 0 (.expression scope condition) state
  | loopBody {scope condition body state value behind} : (expression scope condition).Comes settings state value behind →
      value.isTruthy = true →
      Begins settings (.loop scope condition body) state 0 (.block scope .null body.statements) behind
  | loopAgain {scope condition body state value middle result behind} :
      (expression scope condition).Comes settings state value middle → value.isTruthy = true →
      (block scope .null body.statements).Comes settings middle result behind →
      Begins settings (.loop scope condition body) state 0 (.loop scope condition body) behind

/-- From the first task, begun in the first state, the run gets to the second task and
    state; the bodies of so many functions have begun on the way and not ended. -/
inductive Passes (settings : Settings) (root : Task) (state : State) : Nat → Task → State → Prop
  | root : Passes settings root state 0 root state
  | step {bodies more : Nat} {task inner : Task} {moment later : State} : Passes settings root state bodies task moment →
      Begins settings task moment more inner later → Passes settings root state (bodies + more) inner later

/-! ## Nothing is left out -/

/-- What runs out of fuel in two parts runs out of it in one of them. -/
theorem outOfFuel_of_andThen {α β : Type} {p : Run α} {f : α → Run β} {state : State}
    (out : p.andThen f state = .outOfFuel) :
    p state = .outOfFuel ∨ ∃ answer behind, p state = .value answer behind ∧ f answer behind = .outOfFuel := by
  unfold Run.andThen at out
  cases flow : p state with
  | value answer behind =>
    rw [flow] at out
    exact .inr ⟨answer, behind, rfl, out⟩
  | outOfFuel => exact .inl rfl
  | _ => rw [flow] at out; cases out

/-- Where the check of the depth is passed there is room for one more call. -/
theorem room_of_checkDepth {state behind : State}
    (passed : checkDepth settings state = .value () behind) :
    behind = state ∧ ∀ most, settings.maxCallDepth = some most → state.callDepth < most := by
  rcases checkDepth_cases settings state with ⟨same, room⟩ | ⟨limit, refused, -⟩
  · rw [same] at passed
    cases passed
    exact ⟨rfl, room⟩
  · rw [refused] at passed
    cases passed

/-! A step takes no fuel. -/

theorem lift_ends {α : Type} (outcome : Except EvalError α) (state : State) :
    lift outcome state ≠ .outOfFuel := by
  cases outcome <;> nofun

theorem lookup_ends (scope : ScopeId) (name : String) (state : State) :
    lookup scope name state ≠ .outOfFuel := by
  intro out
  unfold lookup at out
  obtain out | ⟨found, _, -, out⟩ := outOfFuel_of_andThen out
  · cases out
  · cases found <;> cases out

theorem member_ends (target : Value) (name : String) (state : State) :
    member target name state ≠ .outOfFuel := by
  intro out
  unfold member at out
  cases target with
  | object className id =>
    obtain out | ⟨found, _, -, out⟩ := outOfFuel_of_andThen out
    · cases out
    · cases found <;> cases out
  | _ => cases out

theorem setMember_ends (target : Value) (name : String) (value : Value) (state : State) :
    setMember target name value state ≠ .outOfFuel := by
  cases target <;> nofun

theorem callBuiltin_ends (primitive : Builtin) (arguments : List Value) (state : State) :
    callBuiltin primitive arguments state ≠ .outOfFuel :=
  lift_ends _ _

theorem checkDepth_ends (settings : Settings) (state : State) :
    checkDepth settings state ≠ .outOfFuel := by
  rcases checkDepth_cases settings state with ⟨passed, -⟩ | ⟨limit, refused, -⟩
  · rw [passed]; nofun
  · rw [refused]; nofun

theorem outOfFuel_of_state? {α : Type} {flow : Flow α} (unended : flow.state? = none) :
    flow = .outOfFuel := by
  cases flow with
  | outOfFuel => rfl
  | _ => cases unended

/-- A frame takes no fuel beside what its body takes. -/
theorem outOfFuel_of_handled {line : Nat} {p : Run Value} {state : State}
    (out : Run.handled settings line p state = .outOfFuel) : p state = .outOfFuel := by
  unfold Run.handled at out
  cases flow : p state with
  | outOfFuel => rfl
  | failed error behind => cases policy : settings.policy <;> rw [flow, policy] at out <;> cases out
  | _ => rw [flow] at out; cases out

theorem outOfFuel_of_tested {label : String} {p : Run Value} {state : State}
    (out : Run.tested label p state = .outOfFuel) : p (state.note .testBegins) = .outOfFuel := by
  unfold Run.tested at out
  cases flow : p (state.note .testBegins) with
  | outOfFuel => rfl
  | _ => simp only [flow] at out; cases out

theorem outOfFuel_of_called {outer : ScopeId} {pairs : List (String × Value)}
    {body : ScopeId → Run Value} {state : State}
    (out : Eval.called settings outer pairs body state = .outOfFuel) :
    checkDepth settings state = .value () state ∧
      body (state.heap.enclose outer).1 (opened outer pairs state) = .outOfFuel := by
  rcases outOfFuel_of_andThen out with refused | ⟨_, behind, passed, -⟩
  · exact absurd refused (checkDepth_ends settings state)
  · obtain ⟨rfl, room⟩ := room_of_checkDepth passed
    rw [called_of_room room] at out
    have unended := congrArg Flow.state? out
    rw [state?_untilReturn, state?_nested] at unended
    refine ⟨passed, ?_⟩
    exact outOfFuel_of_state? (Option.map_eq_none_iff.1 unended)

/-- Something the task begins runs out of fuel. -/
def Unended (settings : Settings) (fuel : Nat) (task : Task) (state : State) : Prop :=
  ∃ bodies inner later, Begins settings task state bodies inner later ∧ inner.run settings fuel later = .outOfFuel

variable {fuel : Nat} {state : State} {scope : ScopeId}

theorem unended_expression {e : Expr}
    (out : Eval.expression settings (fuel + 1) scope e state = .outOfFuel) :
    Unended settings fuel (.expression scope e) state := by
  cases e with
  | integer | string | boolean | lambda => cases out
  | identifier name => exact absurd out (lookup_ends scope name.name state)
  | assignment token target value =>
    obtain out | ⟨result, behind, comes, out⟩ := outOfFuel_of_andThen out
    · exact ⟨_, _, _, .assigned, out⟩
    obtain out | ⟨_, _, -, out⟩ := outOfFuel_of_andThen out
    · exact ⟨_, _, _, .target ⟨fuel, comes⟩, out⟩
    · cases out
  | binary token left op right =>
    obtain out | ⟨first, behind, comes, out⟩ := outOfFuel_of_andThen out
    · exact ⟨_, _, _, .left, out⟩
    obtain out | ⟨second, last, -, out⟩ := outOfFuel_of_andThen out
    · exact ⟨_, _, _, .right ⟨fuel, comes⟩, out⟩
    · exact absurd out (lift_ends _ last)
  | unary token op operand =>
    obtain out | ⟨value, behind, -, out⟩ := outOfFuel_of_andThen out
    · exact ⟨_, _, _, .operand, out⟩
    · exact absurd out (lift_ends _ behind)
  | call token callee arguments =>
    obtain out | ⟨function, middle, comes, out⟩ := outOfFuel_of_andThen out
    · exact ⟨_, _, _, .callee, out⟩
    obtain out | ⟨values, behind, come, out⟩ := outOfFuel_of_andThen out
    · exact ⟨_, _, _, .arguments ⟨fuel, comes⟩, out⟩
    · exact ⟨_, _, _, .called ⟨fuel, comes⟩ ⟨fuel, come⟩, out⟩
  | index token left position =>
    obtain out | ⟨first, behind, comes, out⟩ := outOfFuel_of_andThen out
    · exact ⟨_, _, _, .indexed, out⟩
    obtain out | ⟨second, last, -, out⟩ := outOfFuel_of_andThen out
    · exact ⟨_, _, _, .position ⟨fuel, comes⟩, out⟩
    · exact absurd out (lift_ends _ last)
  | field token object name =>
    obtain out | ⟨target, behind, -, out⟩ := outOfFuel_of_andThen out
    · exact ⟨_, _, _, .owner, out⟩
    · exact absurd out (member_ends target name.name behind)
  | array token elements =>
    obtain out | ⟨_, _, -, out⟩ := outOfFuel_of_andThen out
    · exact ⟨_, _, _, .elements, out⟩
    · cases out
  | conditional token condition consequence elifs alternative =>
    obtain out | ⟨value, behind, comes, out⟩ := outOfFuel_of_andThen out
    · exact ⟨_, _, _, .condition, out⟩
    cases holds : value.isTruthy <;> simp only [holds, Bool.false_eq_true, if_false, if_true] at out
    · exact ⟨_, _, _, .otherwise ⟨fuel, comes⟩ holds, out⟩
    · exact ⟨_, _, _, .consequence ⟨fuel, comes⟩ holds, out⟩

theorem unended_expressions {es : List Expr}
    (out : Eval.expressions settings (fuel + 1) scope es state = .outOfFuel) :
    Unended settings fuel (.expressions scope es) state := by
  cases es with
  | nil => cases out
  | cons e more =>
    obtain out | ⟨value, behind, comes, out⟩ := outOfFuel_of_andThen out
    · exact ⟨_, _, _, .head, out⟩
    obtain out | ⟨_, _, -, out⟩ := outOfFuel_of_andThen out
    · exact ⟨_, _, _, .tail ⟨fuel, comes⟩, out⟩
    · cases out

theorem unended_assign {target : Target} {value : Value}
    (out : Eval.assign settings (fuel + 1) scope target value state = .outOfFuel) :
    Unended settings fuel (.assign scope target value) state := by
  cases target with
  | identifier => cases out
  | field token object name =>
    obtain out | ⟨owner, behind, -, out⟩ := outOfFuel_of_andThen out
    · exact ⟨_, _, _, .assignee, out⟩
    · exact absurd out (setMember_ends owner name.name value behind)

theorem unended_otherwise {elifs : List Elif} {alternative : Option Block}
    (out : Eval.otherwise settings (fuel + 1) scope elifs alternative state = .outOfFuel) :
    Unended settings fuel (.otherwise scope elifs alternative) state := by
  cases elifs with
  | cons arm more =>
    obtain out | ⟨value, behind, comes, out⟩ := outOfFuel_of_andThen out
    · exact ⟨_, _, _, .elifCondition, out⟩
    cases holds : value.isTruthy <;> simp only [holds, Bool.false_eq_true, if_false, if_true] at out
    · exact ⟨_, _, _, .elifMore ⟨fuel, comes⟩ holds, out⟩
    · exact ⟨_, _, _, .elifArm ⟨fuel, comes⟩ holds, out⟩
  | nil =>
    cases alternative with
    | some arm => exact ⟨_, _, _, .elseArm, out⟩
    | none => cases out

theorem unended_apply {callee : Value} {arguments : List Value}
    (out : Eval.apply settings (fuel + 1) callee arguments state = .outOfFuel) :
    Unended settings fuel (.apply callee arguments) state := by
  cases callee with
  | function closure =>
    rw [apply_function] at out
    split at out
    · cases out
    · next arity =>
      obtain ⟨passed, out⟩ := outOfFuel_of_called out
      exact ⟨_, _, _, .body (by simpa using arity) passed, out⟩
  | builtin primitive => exact absurd out (callBuiltin_ends primitive arguments state)
  | classObject definition =>
    unfold Eval.apply at out
    by_cases empty : arguments.isEmpty
    · simp only [empty, if_true] at out; cases out
    · simp only [empty] at out; cases out
  | _ => cases out

theorem unended_block {result : Value} {statements : List Stmt}
    (out : Eval.block settings (fuel + 1) scope result statements state = .outOfFuel) :
    Unended settings fuel (.block scope result statements) state := by
  cases statements with
  | nil => cases out
  | cons first more =>
    obtain out | ⟨value, behind, comes, out⟩ := outOfFuel_of_andThen out
    · exact ⟨_, _, _, .first, outOfFuel_of_handled out⟩
    · exact ⟨_, _, _, .next ⟨fuel, comes⟩, out⟩

theorem unended_statement {first : Stmt}
    (out : Eval.statement settings (fuel + 1) scope first state = .outOfFuel) :
    Unended settings fuel (.statement scope first) state := by
  cases first with
  | expression token value => exact ⟨_, _, _, .bare, out⟩
  | returning token value =>
    obtain out | ⟨_, _, -, out⟩ := outOfFuel_of_andThen out
    · exact ⟨_, _, _, .returned, out⟩
    · cases out
  | whileLoop token condition body => exact ⟨_, _, _, .loop, out⟩
  | function | classDefinition => cases out
  | test token label body =>
    unfold Eval.statement at out
    cases mode : settings.testMode <;> simp only [mode, Bool.false_eq_true, if_false, if_true] at out
    · cases out
    · exact ⟨_, _, _, .test mode, outOfFuel_of_tested out⟩

theorem unended_loop {condition : Expr} {body : Block}
    (out : Eval.loop settings (fuel + 1) scope condition body state = .outOfFuel) :
    Unended settings fuel (.loop scope condition body) state := by
  obtain out | ⟨value, middle, comes, out⟩ := outOfFuel_of_andThen out
  · exact ⟨_, _, _, .loopCondition, out⟩
  cases holds : value.isTruthy <;> simp only [holds, Bool.false_eq_true, if_false, if_true] at out
  · cases out
  obtain out | ⟨result, behind, come, out⟩ := outOfFuel_of_andThen out
  · exact ⟨_, _, _, .loopBody ⟨fuel, comes⟩ holds, out⟩
  · exact ⟨_, _, _, .loopAgain ⟨fuel, comes⟩ holds ⟨fuel, come⟩, out⟩

/-- A task that does not end with some fuel has begun one that does not end with what
    fuel was left. -/
theorem begins_of_outOfFuel {task : Task} (out : task.run settings (fuel + 1) state = .outOfFuel) :
    Unended settings fuel task state := by
  cases task with
  | expression => exact unended_expression out
  | expressions => exact unended_expressions out
  | assign => exact unended_assign out
  | otherwise => exact unended_otherwise out
  | apply => exact unended_apply out
  | block => exact unended_block out
  | statement => exact unended_statement out
  | loop => exact unended_loop out

/-! ## How deep a moment is -/

/-- A task leaves as many calls open as it found, however it ends. -/
theorem level (settings : Settings) (fuel : Nat) (task : Task) :
    (task.run settings fuel).Along State.Level := by
  have kept := (keeps_level settings).congruence.evaluation fuel
  cases task with
  | expression scope e => exact kept.expression scope e
  | expressions scope es => exact kept.expressions scope es
  | assign scope target value => exact kept.assign scope target value
  | otherwise scope elifs alternative => exact kept.otherwise scope elifs alternative
  | apply callee arguments => exact kept.apply callee arguments
  | block scope result statements => exact kept.block scope result statements
  | statement scope first => exact kept.statement scope first
  | loop scope condition body => exact kept.loop scope condition body

theorem Comes.callDepth {task : Task} {state behind : State} {answer : task.Answer}
    (comes : task.Comes settings state answer behind) : behind.callDepth = state.callDepth := by
  obtain ⟨fuel, comes⟩ := comes
  exact (task.level settings fuel state behind (by rw [comes]; rfl)).callDepth

theorem Handled.callDepth {first : Stmt} {state behind : State} {value : Value}
    (comes : Handled settings scope first state value behind) :
    behind.callDepth = state.callDepth := by
  obtain ⟨fuel, comes⟩ := comes
  have kept : (handled settings first.token.line (Eval.statement settings fuel scope first)).Along State.Level :=
    ((statement scope first).level settings fuel).handled .trans (keeps_level settings).report first.token.line
  exact (kept state behind (by rw [comes]; rfl)).callDepth

variable {task inner : Task} {state later : State} {bodies : Nat}

/-- What is begun is as much deeper as bodies begin with it. -/
theorem Begins.callDepth (begins : Begins settings task state bodies inner later) :
    later.callDepth = state.callDepth + bodies := by
  cases begins with
  | target comes | right comes | arguments comes | position comes | tail comes => exact comes.callDepth
  | consequence comes | otherwise comes | elifArm comes | elifMore comes | loopBody comes => exact comes.callDepth
  | called comes come => exact come.callDepth.trans comes.callDepth
  | loopAgain comes _ come => exact come.callDepth.trans comes.callDepth
  | next comes => exact comes.callDepth
  | _ => rfl

/-- Where a body begins, the limit is not passed. -/
theorem Begins.within (begins : Begins settings task state bodies inner later) {limit : Nat}
    (limited : settings.maxCallDepth = some limit) (here : state.callDepth ≤ limit) :
    later.callDepth ≤ limit := by
  have deeper := begins.callDepth
  cases begins with
  | body _ passed => exact (room_of_checkDepth passed).2 limit limited
  | _ => omega

/-- From a first task, the depth grows with the bodies that have begun and not ended. -/
theorem Passes.callDepth (passes : Passes settings task state bodies inner later) :
    later.callDepth = state.callDepth + bodies := by
  induction passes with
  | root => rfl
  | step _ begins ih => rw [begins.callDepth, ih, Nat.add_assoc]

theorem Passes.within (passes : Passes settings task state bodies inner later) {limit : Nat}
    (limited : settings.maxCallDepth = some limit) (start : state.callDepth ≤ limit) :
    later.callDepth ≤ limit := by
  induction passes with
  | root => exact start
  | step _ begins ih => exact begins.within limited ih

/-- A function called with as many arguments as it has parameters begins its body where
    there is room for one more. -/
theorem begins_body {closure : Function} {arguments : List Value}
    (arity : closure.arity = arguments.length)
    (room : ∀ most, settings.maxCallDepth = some most → state.callDepth < most) :
    ∃ inner later, Begins settings (.apply (.function closure) arguments) state 1 inner later :=
  ⟨_, _, .body arity (checkDepth_of_room room)⟩

/-- Where there is no room it begins none, and the call fails. -/
theorem refused {closure : Function} {arguments : List Value}
    (arity : closure.arity = arguments.length) {limit : Nat}
    (limited : settings.maxCallDepth = some limit) (full : limit ≤ state.callDepth) (fuel : Nat) :
    Eval.apply settings (fuel + 1) (.function closure) arguments state = .failed (.tooDeep limit) state := by
  have check : checkDepth settings state = .failed (.tooDeep limit) state := checkDepth_of_full limited full
  rw [apply_function, if_neg (by simp [arity])]
  unfold called Run.andThen
  rw [check]

end Task

end Lantern.Eval
