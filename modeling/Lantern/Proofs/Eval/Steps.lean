/-
  Lantern.Proofs.Eval.Steps — what every step of a run keeps, every run keeps.

  Evaluation is sequenced from few steps: a value, an error or a `return`; a question to
  the heap or one of six changes of it; a builtin; the check of the call depth; and four
  frames around a whole body (a call, its depth, a statement, a test). A law of runs is
  proved step by step and never form by form:
  - `Parallel g s t R` says of a relation `R` between runs that each step, taken under
    the settings `s` and under `t` with alike values (`Likeness`), is related, and that
    sequencing and the frames keep `R`. Then evaluation under `s` is related to
    evaluation under `t` of the same program with other bodies (`Parallel.evaluation`).
  - `Congruence s t R` is the case of a law that does not ask what values are: the same
    program on both sides, and no condition on where it leads (`Congruence.evaluation`).
    A law of single runs is the case `s = t`.
  - Some laws hold of the call of a function (`Eval.called`) but not of every step in
    it, such as one that needs to know that a body follows the check of the depth.
    `Parallel.Joint` and `Congruence.Joint` ask for a call as a whole.
-/

import Lantern.Eval.Evaluate
import Lantern.Proofs.Value.Likeness

namespace Lantern.Eval

open Run Likeness

/-! ## Answers -/

inductive Answer where
  | value
  | values
  /-- What a name means, if it means anything. -/
  | found
  | scope
  | object
  | nothing

@[reducible] def Answer.type : Answer → Type
  | value => Value
  | values => List Value
  | found => Option Value
  | scope => ScopeId
  | object => ObjectId
  | nothing => Unit

def Answer.Alike (w : Likeness) : (k : Answer) → k.type → k.type → Prop
  | .value, a, b => w.Like a b
  | .values, as, bs => w.LikeAll as bs
  | .found, a, b => b = a.map (Value.recast w.recast) ∧ ∀ value, a = some value → w.Within value
  | .scope, n, m => m = n ∧ w.live (.scope n)
  | .object, i, j => j = i ∧ w.live (.object i)
  | .nothing, _, _ => True

theorem Answer.Alike.grow {g : Recast} {live more : Node → Prop} (grows : Grows live more)
    {k : Answer} {a b : k.type}
    (h : k.Alike ⟨g, live⟩ a b) : k.Alike ⟨g, more⟩ a b := by
  cases k with
  | value => exact Like.grow grows h
  | values => exact LikeAll.grow grows h
  | found => exact ⟨h.1, fun value found node leads => grows node (h.2 value found node leads)⟩
  | scope => exact ⟨h.1, grows _ h.2⟩
  | object => exact ⟨h.1, grows _ h.2⟩
  | nothing => trivial

/-- Without other bodies there is nothing that alike answers could differ in. -/
theorem Answer.Alike.eq {live : Node → Prop} {k : Answer} {a b : k.type}
    (h : k.Alike ⟨.same, live⟩ a b) : b = a := by
  have same : Value.recast .same = id := funext Value.recast_same
  cases k with
  | value => exact h.1.trans a.recast_same
  | values => exact h.1.trans (by rw [same, List.map_id])
  | found => exact h.1.trans (by rw [same, Option.map_id_fun, id])
  | scope => exact h.1
  | object => exact h.1
  | nothing => rfl

/-! ## The call of a function -/

/-- What is left of a call when its arguments have been counted: the check of the depth,
    a scope with the parameters in it, and the body in there, one level deeper. -/
def called (settings : Settings) (outer : ScopeId) (pairs : List (String × Value))
    (body : ScopeId → Run Value) :
    Run Value :=
  (checkDepth settings).andThen fun _ => (extend (·.enclose outer)).andThen fun scope =>
    (alter (·.defineAll scope pairs)).andThen fun _ => untilReturn (nested (body scope))

theorem apply_function (settings : Settings) (fuel : Nat) (closure : Function)
    (arguments : List Value) :
    Eval.apply settings (fuel + 1) (.function closure) arguments =
      if closure.arity != arguments.length then fail (.argumentCount closure.arity arguments.length)
      else called settings closure.scope (closure.parameters.zip arguments) fun scope =>
        Eval.block settings fuel scope .null closure.literal.body.statements := rfl

/-! ## Two runs side by side -/

structure Parallel.Base (g : Recast) (s t : Settings)
    (R : (Node → Prop) → (k : Answer) → Run k.type → Run k.type → Prop) : Prop where
  testMode : s.testMode = t.testMode
  /-- The bodies of tests that run are not dropped. -/
  bodies : s.testMode = true → g.bodies = true
  stop (live : Node → Prop) (k : Answer) : R live k Run.stop Run.stop
  done {live : Node → Prop} (k : Answer) {a b : k.type} : k.Alike ⟨g, live⟩ a b → R live k (Run.done a) (Run.done b)
  andThen {live : Node → Prop} (k m : Answer) {p q : Run k.type} {f f' : k.type → Run m.type} :
    R live k p q → (∀ more, Grows live more → ∀ a b, k.Alike ⟨g, more⟩ a b → R more m (f a) (f' b)) →
      R live m (p.andThen f) (q.andThen f')
  fail (live : Node → Prop) (k : Answer) (error : EvalError) : R live k (Run.fail error) (Run.fail error)
  leave {live : Node → Prop} {a b : Value} : Like ⟨g, live⟩ a b → R live .value (Run.leave a) (Run.leave b)
  get {live : Node → Prop} (scope : ScopeId) (name : String) :
    live (.scope scope) → R live .found (Run.ask (·.get? scope name)) (Run.ask (·.get? scope name))
  member {live : Node → Prop} (id : ObjectId) (name : String) :
    live (.object id) → R live .found (Run.ask (·.member? id name)) (Run.ask (·.member? id name))
  assign {live : Node → Prop} (scope : ScopeId) (name : String) {a b : Value} : live (.scope scope) →
    Like ⟨g, live⟩ a b → R live .nothing (alter (·.assign scope name a)) (alter (·.assign scope name b))
  define {live : Node → Prop} (scope : ScopeId) (name : String) {a b : Value} : live (.scope scope) →
    Like ⟨g, live⟩ a b → R live .nothing (alter (·.define scope name a)) (alter (·.define scope name b))
  setField {live : Node → Prop} (id : ObjectId) (name : String) {a b : Value} : live (.object id) →
    Like ⟨g, live⟩ a b → R live .nothing (alter (·.setField id name a)) (alter (·.setField id name b))
  addObject {live : Node → Prop} (definition : Class) : Within ⟨g, live⟩ (.classObject definition) →
    R live .object (extend (·.addObject definition)) (extend (·.addObject (definition.recast g)))
  callBuiltin {live : Node → Prop} (primitive : Builtin) {as bs : List Value} : LikeAll ⟨g, live⟩ as bs →
    R live .value (Run.callBuiltin primitive as) (Run.callBuiltin primitive bs)
  handled {live : Node → Prop} (token : Token) {p q : Run Value} :
    R live .value p q → R live .value (Run.handled s token.line p) (Run.handled t (g.token token).line q)
  /-- The body of a test is a block: what no block does, it does not do. Outside of test
      mode none runs. -/
  tested {live : Node → Prop} (label : String) {fuel fuel' : Nat} {scope : ScopeId} {body : List Stmt} :
    s.testMode = true →
      R live .value (Eval.block s fuel scope .null body) (Eval.block t fuel' scope .null (Stmt.recastAll g body)) →
        R live .value (Run.tested label (Eval.block s fuel scope .null body))
          (Run.tested (g.label label) (Eval.block t fuel' scope .null (Stmt.recastAll g body)))

/-- What `Parallel` says, with the call of a function taken as one step. -/
structure Parallel.Joint (g : Recast) (s t : Settings)
    (R : (Node → Prop) → (k : Answer) → Run k.type → Run k.type → Prop) : Prop extends Parallel.Base g s t R where
  call {live : Node → Prop} (outer : ScopeId) (names : List String) {as bs : List Value} {body body' : ScopeId → Run Value} :
    live (.scope outer) → LikeAll ⟨g, live⟩ as bs →
      (∀ more, Grows live more → ∀ scope, more (.scope scope) → R more .value (body scope) (body' scope)) →
      R live .value (called s outer (names.zip as) body) (called t outer (names.zip bs) body')

/-- A relation between runs, for every set of scopes and objects that may be met, that
    every step of evaluation has when it is taken with alike values. A step may add to
    what may be met; what follows it is related in view of that. -/
structure Parallel (g : Recast) (s t : Settings)
    (R : (Node → Prop) → (k : Answer) → Run k.type → Run k.type → Prop) : Prop extends Parallel.Base g s t R where
  enclose {live : Node → Prop} (outer : ScopeId) :
    live (.scope outer) → R live .scope (extend (·.enclose outer)) (extend (·.enclose outer))
  defineAll {live : Node → Prop} (scope : ScopeId) (names : List String) {as bs : List Value} : live (.scope scope) →
    LikeAll ⟨g, live⟩ as bs →
      R live .nothing (alter (·.defineAll scope (names.zip as))) (alter (·.defineAll scope (names.zip bs)))
  checkDepth (live : Node → Prop) : R live .nothing (Run.checkDepth s) (Run.checkDepth t)
  untilReturn {live : Node → Prop} {p q : Run Value} :
    R live .value p q → R live .value (Run.untilReturn p) (Run.untilReturn q)
  nested {live : Node → Prop} {p q : Run Value} : R live .value p q → R live .value (Run.nested p) (Run.nested q)

namespace Parallel

variable {g : Recast} {s t : Settings} {R : (Node → Prop) → (k : Answer) → Run k.type → Run k.type → Prop}
  {live : Node → Prop}

/-! ### Steps made of others -/

theorem Base.lift (h : Base g s t R) {a b : Except EvalError Value} (agree : Agree ⟨g, live⟩ a b) :
    R live .value (Run.lift a) (Run.lift b) := by
  obtain ⟨rfl, within⟩ := agree
  cases a with
  | ok value => exact h.done .value ⟨rfl, within value rfl⟩
  | error error => exact h.fail live .value error

theorem Base.lookup (h : Base g s t R) (scope : ScopeId) (name : String)
    (met : live (.scope scope)) :
    R live .value (Eval.lookup scope name) (Eval.lookup scope name) := by
  unfold Eval.lookup
  refine h.andThen .found .value (h.get scope name met) fun more _ found found' alike => ?_
  obtain ⟨rfl, within⟩ := alike
  cases found with
  | some value => exact h.done .value ⟨rfl, within value rfl⟩
  | none => exact h.fail more .value _

theorem Base.member_alike (h : Base g s t R) {target target' : Value} (name : String)
    (like : Like ⟨g, live⟩ target target') :
    R live .value (Eval.member target name) (Eval.member target' name) := by
  obtain ⟨rfl, within⟩ := like
  unfold Eval.member
  cases target with
  | object className id =>
    refine h.andThen .found .value (h.member id name (within _ (by simp [Value.refs]))) fun more _ found found' alike => ?_
    obtain ⟨rfl, within⟩ := alike
    cases found with
    | some value => exact h.done .value ⟨rfl, within value rfl⟩
    | none => exact h.fail more .value _
  | _ => exact h.fail live .value _

theorem Base.setMember (h : Base g s t R) {target target' value value' : Value} (name : String)
    (like : Like ⟨g, live⟩ target target') (like' : Like ⟨g, live⟩ value value') :
    R live .nothing (Eval.setMember target name value) (Eval.setMember target' name value') := by
  obtain ⟨rfl, within⟩ := like
  unfold Eval.setMember
  cases target with
  | object className id => exact h.setField id name (within _ (by simp [Value.refs])) like'
  | _ => exact h.fail live .nothing _

/-- The methods of a class statement lead to the scope they were made in. -/
theorem eq_of_mem_refs_classOf {scope : ScopeId} {name : String} {methods : List FunctionStatement}
    {node : Node}
    (leads : node ∈ (classOf scope name methods).refs) : node = .scope scope := by
  simp only [Class.refs, classOf, List.map_map, List.mem_map, Function.comp_apply] at leads
  obtain ⟨_, -, rfl⟩ := leads
  rfl

theorem classOf_like (scope : ScopeId) (name : String) (methods : List FunctionStatement)
    (met : live (.scope scope)) :
    Like ⟨g, live⟩ (.classObject (classOf scope name methods))
      (.classObject (classOf scope name (FunctionStatement.recastAll g methods))) := by
  constructor
  · simp only [Value.recast, Class.recast, classOf, List.map_map]
    congr 2
    induction methods with
    | nil => rfl
    | cons method methods ih => simp [FunctionStatement.recastAll, Function.recast, ih]
  · intro node found
    rw [eq_of_mem_refs_classOf found]
    exact met

theorem function_like (name : Option String) (literal : FunctionLiteral) (scope : ScopeId)
    (met : live (.scope scope)) :
    Like ⟨g, live⟩ (.function ⟨name, literal, scope⟩) (.function ⟨name, literal.recast g, scope⟩) :=
  ⟨rfl, by simpa [Within, Value.refs] using met⟩

/-! ### Evaluation -/

structure At (g : Recast) (s t : Settings) (R : (Node → Prop) → (k : Answer) → Run k.type → Run k.type → Prop)
    (fuel fuel' : Nat) : Prop where
  expression {live : Node → Prop} (scope : ScopeId) (met : live (.scope scope)) (e : Expr) :
    R live .value (Eval.expression s fuel scope e) (Eval.expression t fuel' scope (e.recast g))
  expressions {live : Node → Prop} (scope : ScopeId) (met : live (.scope scope)) (es : List Expr) :
    R live .values (Eval.expressions s fuel scope es) (Eval.expressions t fuel' scope (Expr.recastAll g es))
  assign {live : Node → Prop} (scope : ScopeId) (met : live (.scope scope)) (target : Target) {a b : Value}
    (like : Like ⟨g, live⟩ a b) :
    R live .nothing (Eval.assign s fuel scope target a) (Eval.assign t fuel' scope (target.recast g) b)
  otherwise {live : Node → Prop} (scope : ScopeId) (met : live (.scope scope)) (elifs : List Elif)
    (alternative : Option Block) :
    R live .value (Eval.otherwise s fuel scope elifs alternative)
      (Eval.otherwise t fuel' scope (Elif.recastAll g elifs) (Block.recastElse g alternative))
  apply {live : Node → Prop} {callee callee' : Value} (like : Like ⟨g, live⟩ callee callee') {as bs : List Value}
    (arguments : LikeAll ⟨g, live⟩ as bs) :
    R live .value (Eval.apply s fuel callee as) (Eval.apply t fuel' callee' bs)
  block {live : Node → Prop} (scope : ScopeId) (met : live (.scope scope)) {a b : Value} (like : Like ⟨g, live⟩ a b)
    (statements : List Stmt) :
    R live .value (Eval.block s fuel scope a statements) (Eval.block t fuel' scope b (Stmt.recastAll g statements))
  statement {live : Node → Prop} (scope : ScopeId) (met : live (.scope scope)) (first : Stmt) :
    R live .value (Eval.statement s fuel scope first) (Eval.statement t fuel' scope (first.recast g))
  loop {live : Node → Prop} (scope : ScopeId) (met : live (.scope scope)) (condition : Expr) (body : Block) :
    R live .value (Eval.loop s fuel scope condition body)
      (Eval.loop t fuel' scope (condition.recast g) (body.recast g))

theorem like_null : Like ⟨g, live⟩ .null .null := like_plain rfl rfl

namespace Joint

variable (h : Joint g s t R) {fuel fuel' : Nat} (ih : At g s t R fuel fuel')
include h ih

theorem expression_succ (scope : ScopeId) (met : live (.scope scope)) (e : Expr) :
    R live .value (Eval.expression s (fuel + 1) scope e) (Eval.expression t (fuel' + 1) scope (e.recast g)) := by
  unfold Eval.expression
  cases e with
  | integer _ value => exact h.done .value (like_plain rfl rfl)
  | string _ value => exact h.done .value (like_plain rfl rfl)
  | boolean _ value => exact h.done .value (like_plain rfl rfl)
  | identifier name => exact h.lookup scope name.name met
  | assignment _ target value =>
    simp only [Expr.recast]
    refine h.andThen .value .value (ih.expression scope met value) fun more grows _ _ like => ?_
    refine h.andThen .nothing .value (ih.assign scope (grows _ met) target like) fun _ wider _ _ _ => ?_
    exact h.done .value (like.grow wider)
  | binary _ left op right =>
    simp only [Expr.recast]
    refine h.andThen .value .value (ih.expression scope met left) fun more grows _ _ first => ?_
    refine h.andThen .value .value (ih.expression scope (grows _ met) right) fun _ wider _ _ second => ?_
    exact h.lift (op.apply_alike (first.grow wider) second)
  | unary _ op operand =>
    simp only [Expr.recast]
    exact h.andThen .value .value (ih.expression scope met operand) fun _ _ _ _ like => h.lift (op.apply_alike like)
  | call _ callee arguments =>
    simp only [Expr.recast]
    refine h.andThen .value .value (ih.expression scope met callee) fun more grows _ _ function => ?_
    exact h.andThen .values .value (ih.expressions scope (grows _ met) arguments) fun _ wider _ _ values =>
      ih.apply (function.grow wider) values
  | index _ left position =>
    simp only [Expr.recast]
    refine h.andThen .value .value (ih.expression scope met left) fun more grows _ _ target => ?_
    refine h.andThen .value .value (ih.expression scope (grows _ met) position) fun _ wider _ _ place => ?_
    exact h.lift (Value.index_alike (target.grow wider) place)
  | field _ object name =>
    simp only [Expr.recast]
    exact h.andThen .value .value (ih.expression scope met object) fun _ _ _ _ target => h.member_alike name.name target
  | array _ elements =>
    simp only [Expr.recast]
    refine h.andThen .values .value (ih.expressions scope met elements) fun _ _ as bs alike => h.done .value ?_
    exact ⟨by rw [alike.1, Value.recast, Value.recastAll_eq_map], within_array.2 alike.2⟩
  | conditional _ condition consequence elifs alternative =>
    simp only [Expr.recast]
    refine h.andThen .value .value (ih.expression scope met condition) fun _ grows value value' like => ?_
    obtain ⟨rfl, -⟩ := like
    simp only [Value.recast_isTruthy, Block.recast_statements]
    by_cases holds : value.isTruthy
    · simp only [holds, if_true]; exact ih.block scope (grows _ met) like_null consequence.statements
    · simp only [holds, Bool.false_eq_true, if_false]; exact ih.otherwise scope (grows _ met) elifs alternative
  | lambda _ literal => exact h.done .value (function_like none literal scope met)

theorem expressions_succ (scope : ScopeId) (met : live (.scope scope)) (es : List Expr) :
    R live .values (Eval.expressions s (fuel + 1) scope es) (Eval.expressions t (fuel' + 1) scope (Expr.recastAll g es)) := by
  unfold Eval.expressions
  cases es with
  | nil => exact h.done .values ⟨rfl, fun _ member => by cases member⟩
  | cons e more =>
    simp only [Expr.recastAll]
    refine h.andThen .value .values (ih.expression scope met e) fun _ grows a b like => ?_
    refine h.andThen .values .values (ih.expressions scope (grows _ met) more) fun _ wider as bs alike => h.done .values ?_
    exact ⟨by rw [like.1, alike.1, List.map_cons], List.forall_mem_cons.2 ⟨(like.grow wider).2, alike.2⟩⟩

theorem assign_succ (scope : ScopeId) (met : live (.scope scope)) (target : Target) {a b : Value}
    (like : Like ⟨g, live⟩ a b) :
    R live .nothing (Eval.assign s (fuel + 1) scope target a) (Eval.assign t (fuel' + 1) scope (target.recast g) b) := by
  unfold Eval.assign
  cases target with
  | identifier name => exact h.assign scope name.name met like
  | field _ object name =>
    simp only [Target.recast]
    exact h.andThen .value .nothing (ih.expression scope met object) fun _ grows _ _ owner =>
      h.setMember name.name owner (like.grow grows)

theorem otherwise_succ (scope : ScopeId) (met : live (.scope scope)) (elifs : List Elif)
    (alternative : Option Block) :
    R live .value (Eval.otherwise s (fuel + 1) scope elifs alternative)
      (Eval.otherwise t (fuel' + 1) scope (Elif.recastAll g elifs) (Block.recastElse g alternative)) := by
  unfold Eval.otherwise
  cases elifs with
  | cons arm more =>
    simp only [Elif.recastAll_cons]
    refine h.andThen .value .value (ih.expression scope met arm.condition) fun _ grows value value' like => ?_
    obtain ⟨rfl, -⟩ := like
    simp only [Value.recast_isTruthy, Block.recast_statements]
    by_cases holds : value.isTruthy
    · simp only [holds, if_true]; exact ih.block scope (grows _ met) like_null arm.block.statements
    · simp only [holds, Bool.false_eq_true, if_false]; exact ih.otherwise scope (grows _ met) more alternative
  | nil =>
    cases alternative with
    | some arm =>
      simp only [Elif.recastAll, Block.recastElse, Block.recast_statements]
      exact ih.block scope met like_null arm.statements
    | none => exact h.done .value like_null

theorem apply_succ {callee callee' : Value} (like : Like ⟨g, live⟩ callee callee')
    {as bs : List Value}
    (arguments : LikeAll ⟨g, live⟩ as bs) :
    R live .value (Eval.apply s (fuel + 1) callee as) (Eval.apply t (fuel' + 1) callee' bs) := by
  have count : bs.length = as.length := by rw [arguments.1, List.length_map]
  obtain ⟨rfl, within⟩ := like
  cases callee with
  | function closure =>
    have met : live (.scope closure.scope) := within _ (by simp [Value.refs])
    have arity : (closure.recast g).arity = closure.arity := closure.literal.recast_arity g
    simp only [Value.recast, apply_function, arity, count, Function.recast_parameters]
    split
    · exact h.fail live .value _
    · simp only [Function.recast, FunctionLiteral.recast_body, Block.recast_statements]
      exact h.call closure.scope closure.parameters met arguments fun _ _ scope inside =>
        ih.block scope inside like_null closure.literal.body.statements
  | builtin primitive => exact h.callBuiltin primitive arguments
  | classObject definition =>
    unfold Eval.apply
    have empty : bs.isEmpty = as.isEmpty := by rw [arguments.1, List.isEmpty_map]
    simp only [Value.recast, empty, count]
    split
    · refine h.andThen .object .value (h.addObject definition within) fun _ _ id id' alike => h.done .value ?_
      obtain ⟨rfl, met⟩ := alike
      exact ⟨rfl, by simpa [Within, Value.refs] using met⟩
    · exact h.fail live .value _
  | _ => exact h.fail live .value _

theorem block_succ (scope : ScopeId) (met : live (.scope scope)) {a b : Value}
    (like : Like ⟨g, live⟩ a b)
    (statements : List Stmt) :
    R live .value (Eval.block s (fuel + 1) scope a statements)
      (Eval.block t (fuel' + 1) scope b (Stmt.recastAll g statements)) := by
  unfold Eval.block
  cases statements with
  | nil => exact h.done .value like
  | cons first more =>
    simp only [Stmt.recastAll, Stmt.recast_token]
    exact h.andThen .value .value (h.handled first.token (ih.statement scope met first)) fun _ grows _ _ result =>
      ih.block scope (grows _ met) result more

theorem statement_succ (scope : ScopeId) (met : live (.scope scope)) (first : Stmt) :
    R live .value (Eval.statement s (fuel + 1) scope first) (Eval.statement t (fuel' + 1) scope (first.recast g)) := by
  unfold Eval.statement
  cases first with
  | expression _ value => exact ih.expression scope met value
  | returning _ value =>
    simp only [Stmt.recast]
    exact h.andThen .value .value (ih.expression scope met value) fun _ _ _ _ like => h.leave like
  | whileLoop _ condition body => exact ih.loop scope met condition body
  | function definition =>
    simp only [Stmt.recast, FunctionStatement.recast_name, FunctionStatement.recast_literal, Identifier.retoken_name]
    refine h.andThen .nothing .value (h.define scope _ met ?_) fun _ _ _ _ _ => h.done .value like_null
    exact function_like (some definition.name.name) definition.literal scope met
  | classDefinition _ name methods =>
    refine h.andThen .nothing .value (h.define scope _ met ?_) fun _ _ _ _ _ => h.done .value like_null
    exact classOf_like scope name.name methods met
  | test _ label body =>
    simp only [Stmt.recast, ← h.testMode]
    split
    · next mode =>
      rw [h.bodies mode, if_pos rfl, Block.recast_statements]
      exact h.tested label mode (ih.block scope met like_null body.statements)
    · exact h.done .value like_null

theorem loop_succ (scope : ScopeId) (met : live (.scope scope)) (condition : Expr) (body : Block) :
    R live .value (Eval.loop s (fuel + 1) scope condition body)
      (Eval.loop t (fuel' + 1) scope (condition.recast g) (body.recast g)) := by
  unfold Eval.loop
  refine h.andThen .value .value (ih.expression scope met condition) fun more grows value value' like => ?_
  obtain ⟨rfl, -⟩ := like
  simp only [Value.recast_isTruthy, Block.recast_statements]
  by_cases holds : value.isTruthy
  · simp only [holds, if_true]
    exact h.andThen .value .value (ih.block scope (grows _ met) like_null body.statements) fun _ wider _ _ _ =>
      ih.loop scope (wider _ (grows _ met)) condition body
  · simp only [holds, Bool.false_eq_true, if_false]; exact h.done .value like_null

theorem at_succ : At g s t R (fuel + 1) (fuel' + 1) where
  expression := h.expression_succ ih
  expressions := h.expressions_succ ih
  assign := h.assign_succ ih
  otherwise := h.otherwise_succ ih
  apply := h.apply_succ ih
  block := h.block_succ ih
  statement := h.statement_succ ih
  loop := h.loop_succ ih

omit ih in
/-- What the steps have, evaluation has: with any fuel, everything that can be evaluated. -/
theorem evaluation (fuel : Nat) : At g s t R fuel fuel := by
  induction fuel with
  | zero => constructor <;> intros <;> exact h.stop _ _
  | succ fuel ih => exact h.at_succ ih

omit ih in
/-- Where running out of fuel is related to everything, the second side may have more of
    it. -/
theorem evaluation_le
    (least : ∀ (live : Node → Prop) (k : Answer) (q : Run k.type), R live k Run.stop q)
    {fuel fuel' : Nat}
    (le : fuel ≤ fuel') : At g s t R fuel fuel' := by
  induction fuel generalizing fuel' with
  | zero => constructor <;> intros <;> exact least _ _ _
  | succ fuel ih =>
    cases fuel' with
    | zero => cases le
    | succ fuel' => exact h.at_succ (ih (Nat.le_of_succ_le_succ le))

end Joint

/-- The steps of a call make up the call. -/
theorem joint (h : Parallel g s t R) : Joint g s t R where
  toBase := h.toBase
  call {live} outer names as bs body body' met arguments inside := by
    refine h.andThen .nothing .value (h.checkDepth live) fun _ grows _ _ _ => ?_
    refine h.andThen .scope .value (h.enclose outer (grows _ met)) fun _ wider scope scope' alike => ?_
    obtain ⟨rfl, inner⟩ := alike
    have values := (arguments.grow grows).grow wider
    refine h.andThen .nothing .value (h.defineAll scope' names inner values) fun _ widest _ _ _ => ?_
    exact h.untilReturn (h.nested (inside _ (fun _ here => widest _ (wider _ (grows _ here))) scope' (widest _ inner)))

theorem evaluation (h : Parallel g s t R) (fuel : Nat) : At g s t R fuel fuel :=
  h.joint.evaluation fuel

end Parallel

/-! ## Laws that do not ask what values are -/

structure Congruence.Base (s t : Settings) (R : {α : Type} → Run α → Run α → Prop) : Prop where
  testMode : s.testMode = t.testMode
  stop {α : Type} : R (Run.stop : Run α) Run.stop
  done {α : Type} (result : α) : R (Run.done result) (Run.done result)
  andThen {α β : Type} {p q : Run α} {f g : α → Run β} :
    R p q → (∀ result, R (f result) (g result)) → R (p.andThen f) (q.andThen g)
  fail {α : Type} (error : EvalError) : R (Run.fail error : Run α) (Run.fail error)
  leave (result : Value) : R (Run.leave result : Run Value) (Run.leave result)
  ask {α : Type} (question : Heap → α) : R (Run.ask question) (Run.ask question)
  assign (scope : ScopeId) (name : String) (value : Value) :
    R (alter (·.assign scope name value)) (alter (·.assign scope name value))
  define (scope : ScopeId) (name : String) (value : Value) :
    R (alter (·.define scope name value)) (alter (·.define scope name value))
  setField (id : ObjectId) (name : String) (value : Value) :
    R (alter (·.setField id name value)) (alter (·.setField id name value))
  addObject (definition : Class) : R (extend (·.addObject definition)) (extend (·.addObject definition))
  callBuiltin (primitive : Builtin) (arguments : List Value) :
    R (Run.callBuiltin primitive arguments) (Run.callBuiltin primitive arguments)
  handled (line : Nat) {p q : Run Value} : R p q → R (Run.handled s line p) (Run.handled t line q)
  tested (label : String) {fuel fuel' : Nat} {scope : ScopeId} {body : List Stmt} : s.testMode = true →
    R (Eval.block s fuel scope .null body) (Eval.block t fuel' scope .null body) →
      R (Run.tested label (Eval.block s fuel scope .null body)) (Run.tested label (Eval.block t fuel' scope .null body))

structure Congruence.Joint (s t : Settings) (R : {α : Type} → Run α → Run α → Prop) : Prop
    extends Congruence.Base s t R where
  call (outer : ScopeId) (pairs : List (String × Value)) {body body' : ScopeId → Run Value} :
    (∀ scope, R (body scope) (body' scope)) → R (called s outer pairs body) (called t outer pairs body')

/-- A relation between runs that every step of evaluation has, and that sequencing keeps. -/
structure Congruence (s t : Settings) (R : {α : Type} → Run α → Run α → Prop) : Prop
    extends Congruence.Base s t R where
  enclose (outer : ScopeId) : R (extend (·.enclose outer)) (extend (·.enclose outer))
  defineAll (scope : ScopeId) (pairs : List (String × Value)) :
    R (alter (·.defineAll scope pairs)) (alter (·.defineAll scope pairs))
  checkDepth : R (Run.checkDepth s) (Run.checkDepth t)
  untilReturn {p q : Run Value} : R p q → R (Run.untilReturn p) (Run.untilReturn q)
  nested {p q : Run Value} : R p q → R (Run.nested p) (Run.nested q)

namespace Congruence

variable {s t : Settings} {R : {α : Type} → Run α → Run α → Prop}

/-- An answer that may lead anywhere is like itself. -/
theorem alike_self {live : Node → Prop} (all : ∀ node, live node) {k : Answer} (a : k.type) :
    k.Alike ⟨.same, live⟩ a a := by
  have same : Value.recast .same = id := funext Value.recast_same
  cases k <;> simp [Answer.Alike, Like, LikeAll, Within, all, same]

theorem eq_of_like {live : Node → Prop} {a b : Value} (like : Like ⟨.same, live⟩ a b) : b = a :=
  Answer.Alike.eq (k := .value) like

theorem eq_of_likeAll {live : Node → Prop} {as bs : List Value}
    (alike : LikeAll ⟨.same, live⟩ as bs) : bs = as :=
  Answer.Alike.eq (k := .values) alike

/-- The steps of a call make up the call. -/
theorem joint (h : Congruence s t R) : Joint s t R where
  toBase := h.toBase
  call outer _ _ _ inside :=
    h.andThen h.checkDepth fun _ => h.andThen (h.enclose outer) fun scope =>
      h.andThen (h.defineAll scope _) fun _ => h.untilReturn (h.nested (inside scope))

/-- A law that does not ask what values are holds of alike ones, which are the same
    where they may lead anywhere. -/
theorem Joint.parallel (h : Joint s t R) : Parallel.Joint .same s t fun live _ p q => (∀ node, live node) → R p q where
  testMode := h.testMode
  bodies _ := rfl
  stop _ _ _ := h.stop
  done _ _ _ alike _ := by rw [alike.eq]; exact h.done _
  andThen _ _ _ _ _ _ hp hf all :=
    h.andThen (hp all) fun result => hf _ (fun _ here => here) result result (alike_self all result) all
  fail _ _ _ _ := h.fail _
  leave like _ := by rw [eq_of_like like]; exact h.leave _
  get _ _ _ _ := h.ask _
  member _ _ _ _ := h.ask _
  assign _ _ _ _ _ like _ := by rw [eq_of_like like]; exact h.assign _ _ _
  define _ _ _ _ _ like _ := by rw [eq_of_like like]; exact h.define _ _ _
  setField _ _ _ _ _ like _ := by rw [eq_of_like like]; exact h.setField _ _ _
  addObject definition _ _ := by
    rw [definition.recast_same]
    exact h.addObject definition
  callBuiltin _ _ _ alike _ := by rw [eq_of_likeAll alike]; exact h.callBuiltin _ _
  handled token _ _ hp all := h.handled token.line (hp all)
  tested label _ _ _ body mode hp all := by
    have inside := hp all
    simp only [Stmt.recastAll_same] at inside ⊢
    exact h.tested label mode inside
  call outer _ _ _ _ _ _ alike inside all := by
    rw [eq_of_likeAll alike]
    exact h.call outer _ fun scope => inside _ (fun _ here => here) scope (all _) all

structure At (s t : Settings) (R : {α : Type} → Run α → Run α → Prop) (fuel fuel' : Nat) : Prop where
  expression (scope : ScopeId) (e : Expr) : R (Eval.expression s fuel scope e) (Eval.expression t fuel' scope e)
  expressions (scope : ScopeId) (es : List Expr) :
    R (Eval.expressions s fuel scope es) (Eval.expressions t fuel' scope es)
  assign (scope : ScopeId) (target : Target) (value : Value) :
    R (Eval.assign s fuel scope target value) (Eval.assign t fuel' scope target value)
  otherwise (scope : ScopeId) (elifs : List Elif) (alternative : Option Block) :
    R (Eval.otherwise s fuel scope elifs alternative) (Eval.otherwise t fuel' scope elifs alternative)
  apply (callee : Value) (arguments : List Value) :
    R (Eval.apply s fuel callee arguments) (Eval.apply t fuel' callee arguments)
  block (scope : ScopeId) (result : Value) (statements : List Stmt) :
    R (Eval.block s fuel scope result statements) (Eval.block t fuel' scope result statements)
  statement (scope : ScopeId) (first : Stmt) : R (Eval.statement s fuel scope first) (Eval.statement t fuel' scope first)
  loop (scope : ScopeId) (condition : Expr) (body : Block) :
    R (Eval.loop s fuel scope condition body) (Eval.loop t fuel' scope condition body)

theorem at_of_parallel {fuel fuel' : Nat}
    (h : Parallel.At .same s t (fun live _ p q => (∀ node, live node) → R p q) fuel fuel') :
    At s t R fuel fuel' := by
  have all (node : Node) : anywhere node := trivial
  have same (value : Value) : Like ⟨.same, anywhere⟩ value value := alike_self all (k := .value) value
  have sameAll (values : List Value) : LikeAll ⟨.same, anywhere⟩ values values := alike_self all (k := .values) values
  -- no change changes nothing, in each kind of phrase
  have spared := Recast.sparesTests_tokens id
  constructor
  · intro scope e
    have := h.expression scope (all (.scope scope)) e all
    rwa [e.recast_eq (.inl spared), e.retoken_id] at this
  · intro scope es
    have := h.expressions scope (all (.scope scope)) es all
    rwa [Expr.recastAll_eq es (.inl spared), Expr.retokenAll_id] at this
  · intro scope target value
    have := h.assign scope (all (.scope scope)) target (same value) all
    rwa [target.recast_eq (.inl spared), target.retoken_id] at this
  · intro scope elifs alternative
    have := h.otherwise scope (all (.scope scope)) elifs alternative all
    rwa [Elif.recastAll_eq elifs (.inl spared), Elif.retokenAll_id, Block.recastElse_eq alternative (.inl spared),
      Block.retokenElse_id] at this
  · intro callee arguments
    exact h.apply (same callee) (sameAll arguments) all
  · intro scope result statements
    have := h.block scope (all (.scope scope)) (same result) statements all
    rwa [Stmt.recastAll_same] at this
  · intro scope first
    have := h.statement scope (all (.scope scope)) first all
    rwa [first.recast_eq (.inl spared), first.retoken_id] at this
  · intro scope condition body
    have := h.loop scope (all (.scope scope)) condition body all
    rwa [condition.recast_eq (.inl spared), condition.retoken_id, body.recast_eq (.inl spared), body.retoken_id] at this

/-- What the steps have, evaluation has: with any fuel, everything that can be evaluated. -/
theorem Joint.evaluation (h : Joint s t R) (fuel : Nat) : At s t R fuel fuel :=
  at_of_parallel (h.parallel.evaluation fuel)

theorem evaluation (h : Congruence s t R) (fuel : Nat) : At s t R fuel fuel :=
  h.joint.evaluation fuel

/-- Where running out of fuel is related to everything, the second side may have more of
    it. -/
theorem evaluation_le (h : Congruence s t R) (least : ∀ {α : Type} (q : Run α), R Run.stop q)
    {fuel fuel' : Nat}
    (le : fuel ≤ fuel') : At s t R fuel fuel' :=
  at_of_parallel (h.joint.parallel.evaluation_le (fun _ _ q _ => least q) le)

end Congruence

end Lantern.Eval
