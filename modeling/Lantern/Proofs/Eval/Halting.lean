/-
  Lantern.Proofs.Eval.Halting — under a limit of the call depth only a loop can run for
  ever.

  A call runs the body of a function that was found in the heap, so no measure of the
  program bounds how much is left to do. The limit leaves so much `room` for calls
  inside of calls, though: a body is run with less room than the call of it, and
  everything else with the same room on smaller syntax. `Run.Halts room` says of a run
  that it ends from every state with at most so much room, with some fuel and to the
  same with more. Expressions and statements without loops have it if calls have
  (`Eval.expression_halts`, `Eval.statements_halt`, by induction on the syntax), and
  calls have it by induction on the room (`Eval.calls_halt`).

  Along with it goes that all functions found on the way are without loops as well:
  `Heap.Sound` of the heap, and of every value that a run comes to.

  - `loopless_halts`: under any limit a program without loops ends, from a scope from
    which only such functions are found.
-/

import Lantern.Eval.Execute
import Lantern.Proofs.Eval.Depth
import Lantern.Proofs.Value.Stored

namespace Lantern

/-- The run has come to an end at the depth it began at, with a heap in which all
    functions to be found are without loops, and with an answer that is `good`. -/
def Flow.Halted (live : Node → Prop) (depth : Nat) {α : Type} (good : α → Prop) : Flow α → Prop
  | .value result behind => good result ∧ behind.heap.Sound Stmt.straight live ∧ behind.callDepth = depth
  | .returned result behind =>
    result.Sound Stmt.straight live ∧ behind.heap.Sound Stmt.straight live ∧ behind.callDepth = depth
  | .failed _ behind => behind.heap.Sound Stmt.straight live ∧ behind.callDepth = depth
  | .outOfFuel => False

namespace Run

/-- Wherever there is room for at most so many calls inside of each other, the run ends:
    it comes to the same with any fuel that is enough. -/
def Halts (live : Node → Prop) (limit room : Nat) {α : Type} (good : α → Prop) (p : Nat → Run α) :
    Prop :=
  ∀ state : State, state.heap.Sound Stmt.straight live → limit ≤ state.callDepth + room →
    ∃ flow : Flow α, flow.Halted live state.callDepth good ∧ ∃ fuel, ∀ more, fuel ≤ more → p more state = flow

namespace Halts

variable {live : Node → Prop} {limit room : Nat} {α β : Type} {good : α → Prop}

/-- A step takes no fuel. -/
theorem step {p : Run α} (h : ∀ state : State, state.heap.Sound Stmt.straight live →
    (p state).Halted live state.callDepth good) : Halts live limit room good fun _ => p :=
  fun state sound _ => ⟨p state, h state sound, 0, fun _ _ => rfl⟩

theorem done {a : α} (h : good a) : Halts live limit room good fun _ => Run.done a :=
  step fun _ sound => ⟨h, sound, rfl⟩

theorem fail (error : EvalError) : Halts live limit room good fun _ => (Run.fail error : Run α) :=
  step fun _ sound => ⟨sound, rfl⟩

theorem lift {outcome : Except EvalError α} (h : ∀ a, outcome = .ok a → good a) :
    Halts live limit room good fun _ => Run.lift outcome := by
  refine step fun _ sound => ?_
  cases outcome with
  | ok a => exact ⟨h a rfl, sound, rfl⟩
  | error error => exact ⟨sound, rfl⟩

theorem leave {value : Value} (h : value.Sound Stmt.straight live) :
    Halts live limit room good fun _ => (Run.leave value : Run α) :=
  step fun _ sound => ⟨h, sound, rfl⟩

/-- A change of the heap, and what it answers. -/
theorem extend {change : Heap → α × Heap} (h : ∀ heap, heap.Sound Stmt.straight live →
    good (change heap).1 ∧ (change heap).2.Sound Stmt.straight live) :
    Halts live limit room good fun _ => Run.extend change :=
  step fun state sound => ⟨(h state.heap sound).1, (h state.heap sound).2, rfl⟩

theorem alter {change : Heap → Heap} {good : Unit → Prop} (h : good ())
    (keeps : ∀ heap, heap.Sound Stmt.straight live → (change heap).Sound Stmt.straight live) :
    Halts live limit room good fun _ => Run.alter change :=
  step fun _ sound => ⟨h, keeps _ sound, rfl⟩

/-- One more level of fuel to start with. -/
theorem succ {p : Nat → Run α} (h : Halts live limit room good fun fuel => p (fuel + 1)) :
    Halts live limit room good p := by
  intro state sound deep
  obtain ⟨flow, halted, fuel, ends⟩ := h state sound deep
  refine ⟨flow, halted, fuel + 1, fun more enough => ?_⟩
  obtain ⟨less, rfl⟩ : ∃ less, more = less + 1 := Nat.exists_eq_succ_of_ne_zero (by omega)
  exact ends less (by omega)

theorem andThen {p : Nat → Run α} {f : Nat → α → Run β} {good' : β → Prop}
    (hp : Halts live limit room good p)
    (hf : ∀ a, good a → Halts live limit room good' fun fuel => f fuel a) :
    Halts live limit room good' fun fuel => (p fuel).andThen (f fuel) := by
  intro state sound deep
  obtain ⟨flow, halted, fuel, first⟩ := hp state sound deep
  cases flow with
  | value a middle =>
    obtain ⟨isGood, sound', level⟩ := halted
    obtain ⟨flow, halted', fuel', second⟩ := hf a isGood middle sound' (by omega)
    refine ⟨flow, level ▸ halted', max fuel fuel', fun more enough => ?_⟩
    show (p more).andThen (f more) state = flow
    unfold Run.andThen
    rw [first more (by omega)]
    exact second more (by omega)
  | returned value behind =>
    refine ⟨.returned value behind, halted, fuel, fun more enough => ?_⟩
    show (p more).andThen (f more) state = _
    unfold Run.andThen
    rw [first more enough]
  | failed error behind =>
    refine ⟨.failed error behind, halted, fuel, fun more enough => ?_⟩
    show (p more).andThen (f more) state = _
    unfold Run.andThen
    rw [first more enough]
  | outOfFuel => exact halted.elim

/-- A frame that takes its body no further than from one state, `enter state`, and does
    with what it comes to as it will. -/
theorem frame {p : Nat → Run α} {good' : β → Prop} {room' : Nat} (around : Run α → Run β)
    (enter : State → State)
    (inside : ∀ body state, around body state = around (fun _ => body (enter state)) state)
    (begins : ∀ state : State, (enter state).heap = state.heap ∧ state.callDepth + room ≤ (enter state).callDepth + room')
    (ends : ∀ (state : State) (flow : Flow α), flow.Halted live (enter state).callDepth good →
      (around (fun _ => flow) state).Halted live state.callDepth good')
    (hp : Halts live limit room' good p) : Halts live limit room good' fun fuel => around (p fuel) := by
  intro state sound deep
  obtain ⟨same, deeper⟩ := begins state
  obtain ⟨flow, halted, fuel, comes⟩ := hp (enter state) (same ▸ sound) (by omega)
  refine ⟨around (fun _ => flow) state, ends state flow halted, fuel, fun more enough => ?_⟩
  show around (p more) state = _
  rw [inside, comes more enough]

theorem handled {p : Nat → Run Value} {good : Value → Prop} (isGood : good .null)
    (settings : Settings) (line : Nat)
    (hp : Halts live limit room good p) :
    Halts live limit room good fun fuel => Run.handled settings line (p fuel) := by
  refine frame (Run.handled settings line) id (fun _ _ => rfl) (fun _ => ⟨rfl, Nat.le_refl _⟩)
    (fun state flow halted => ?_) hp
  unfold Run.handled
  cases flow with
  | failed error behind =>
    cases settings.policy with
    | proceed => exact ⟨isGood, halted⟩
    | abort => exact halted
  | _ => exact halted

theorem tested {p : Nat → Run Value} {good : Value → Prop} (isGood : good .null) (label : String)
    (hp : Halts live limit room good p) :
    Halts live limit room good fun fuel => Run.tested label (p fuel) := by
  refine frame (Run.tested label) (·.note .testBegins) (fun _ _ => rfl) (fun _ => ⟨rfl, Nat.le_refl _⟩)
    (fun state flow halted => ?_) hp
  unfold Run.tested
  cases flow with
  | value result behind => exact ⟨isGood, halted.2⟩
  | returned result behind => exact ⟨isGood, halted.2⟩
  | failed error behind => exact halted
  | outOfFuel => exact halted

/-- A body has less room than the call of it. -/
theorem nested {p : Nat → Run Value}
    (hp : Halts live limit room (Value.Sound Stmt.straight live) p) :
    Halts live limit (room + 1) (Value.Sound Stmt.straight live) fun fuel => Run.untilReturn (Run.nested (p fuel)) := by
  have deeper (state : State) : state.callDepth + (room + 1) ≤ (beginCall state).callDepth + room := by
    simp only [beginCall, State.note]
    omega
  refine frame (fun body => Run.untilReturn (Run.nested body)) beginCall (fun _ _ => rfl)
    (fun state => ⟨rfl, deeper state⟩) (fun state flow halted => ?_) hp
  have back {behind : State} (level : behind.callDepth = (beginCall state).callDepth) :
      (endCall behind).callDepth = state.callDepth := by
    simp only [endCall, beginCall, State.note] at level ⊢
    omega
  unfold Run.untilReturn Run.nested
  cases flow with
  | value result behind => exact ⟨halted.1, halted.2.1, back halted.2.2⟩
  | returned result behind => exact ⟨halted.1, halted.2.1, back halted.2.2⟩
  | failed error behind => exact ⟨halted.1, back halted.2⟩
  | outOfFuel => exact halted

end Halts

end Run

namespace Eval

open Run

variable {live : Node → Prop} {limit room : Nat}

/-- Values whose functions are without loops, and lead to live scopes and objects. -/
abbrev Straight (live : Node → Prop) (value : Value) : Prop := value.Sound Stmt.straight live

theorem straight_null : Straight live .null := ⟨nofun, rfl⟩

/-! ## Steps -/

theorem lookup_halts {scope : ScopeId} (met : live (.scope scope)) (name : String) :
    Halts live limit room (Straight live) fun _ => lookup scope name := by
  have asked : Halts live limit room (fun found => ∀ value, found = some value → Straight live value)
      fun _ => ask (·.get? scope name) :=
    .step fun state sound => ⟨fun value found => sound.get? met found, sound, rfl⟩
  unfold lookup
  refine asked.andThen fun found straight => ?_
  cases found with
  | some value => exact .done (straight value rfl)
  | none => exact .fail _

theorem member_halts {target : Value} (straight : Straight live target) (name : String) :
    Halts live limit room (Straight live) fun _ => member target name := by
  unfold member
  cases target with
  | object className id =>
    have met : live (.object id) := straight.within _ (by simp [Value.refs])
    have asked : Halts live limit room (fun found => ∀ value, found = some value → Straight live value)
        fun _ => ask (·.member? id name) :=
      .step fun state sound => ⟨fun value found => sound.member? met found, sound, rfl⟩
    refine asked.andThen fun found straight => ?_
    cases found with
    | some value => exact .done (straight value rfl)
    | none => exact .fail _
  | _ => exact .fail _

theorem setMember_halts (target : Value) (name : String) {value : Value}
    (straight : Straight live value) :
    Halts live limit room (fun _ => True) fun _ => setMember target name value := by
  unfold setMember
  cases target with
  | object className id => exact .alter trivial fun _ sound => sound.setField straight id name
  | _ => exact .fail _

theorem define_halts {value : Value} (straight : Straight live value) (scope : ScopeId)
    (name : String) :
    Halts live limit room (fun _ => True) fun _ => alter (·.define scope name value) :=
  .alter trivial fun _ sound => sound.define straight scope name

/-- The class that a class statement makes. -/
theorem classOf_straight {scope : ScopeId} (met : live (.scope scope)) (name : String)
    (methods : List FunctionStatement)
    (loopless : FunctionStatement.allThroughout Stmt.straight methods) :
    Straight live (.classObject (classOf scope name methods)) := by
  constructor
  · intro node leads
    rw [Parallel.eq_of_mem_refs_classOf leads]
    exact met
  · rw [FunctionStatement.allThroughout_iff] at loopless
    simpa [Value.throughout, classOf] using loopless

theorem callBuiltin_halts (primitive : Builtin) {arguments : List Value}
    (straight : ∀ argument ∈ arguments, Straight live argument) :
    Halts live limit room (Straight live) fun _ => callBuiltin primitive arguments := by
  refine .step fun state sound => ?_
  unfold callBuiltin Builtin.call Run.lift
  dsimp only
  cases outcome : primitive.value arguments with
  | ok value => exact ⟨(Value.hereditary_sound _ live).builtin straight outcome, sound, rfl⟩
  | error error => exact ⟨sound, rfl⟩

/-! ## Calls -/

variable {settings : Settings}

/-- Where there is no room, the call of a function is refused. -/
theorem called_refused (limited : settings.maxCallDepth = some limit) (outer : ScopeId)
    (pairs : List (String × Value))
    (body : Nat → ScopeId → Run Value) (good : Value → Prop) :
    Halts live limit 0 good fun fuel => called settings outer pairs (body fuel) := by
  intro state sound deep
  refine ⟨.failed (.tooDeep limit) state, ⟨sound, rfl⟩, 0, fun more _ => ?_⟩
  have refused : checkDepth settings state = .failed (.tooDeep limit) state := checkDepth_of_full limited deep
  show called settings outer pairs (body more) state = _
  unfold called Run.andThen
  rw [refused]

/-- Where there is some, it ends if its body does with less. -/
theorem called_halts {outer : ScopeId} (met : live (.scope outer)) {pairs : List (String × Value)}
    (straight : ∀ pair ∈ pairs, Straight live pair.2) {body : Nat → ScopeId → Run Value}
    (inside : ∀ scope, live (.scope scope) → Halts live limit room (Straight live) fun fuel => body fuel scope) :
    Halts live limit (room + 1) (Straight live) fun fuel => called settings outer pairs (body fuel) := by
  have checked : Halts live limit (room + 1) (fun _ => True) fun _ => checkDepth settings := by
    refine .step fun state sound => ?_
    rcases checkDepth_cases settings state with ⟨passed, -⟩ | ⟨limit, refused, -⟩
    · rw [passed]; exact ⟨trivial, sound, rfl⟩
    · rw [refused]; exact ⟨sound, rfl⟩
  have opened : Halts live limit (room + 1) (fun scope => live (.scope scope)) fun _ => extend (·.enclose outer) :=
    .extend fun heap sound => ⟨sound.enclosed outer, sound.enclose met⟩
  unfold called
  refine checked.andThen fun _ _ => opened.andThen fun scope here => ?_
  have defined : Halts live limit (room + 1) (fun _ => True) fun _ => alter (·.defineAll scope pairs) :=
    .alter trivial fun heap sound => sound.defineAll straight scope
  exact defined.andThen fun _ _ => .nested (inside scope here)

/-! ## Expressions and statements -/

def CallsHalt (settings : Settings) (live : Node → Prop) (limit room : Nat) : Prop :=
  ∀ callee arguments, Straight live callee → (∀ argument ∈ arguments, Straight live argument) →
    Halts live limit room (Straight live) fun fuel => Eval.apply settings fuel callee arguments

section

-- the linter takes the theorems of a mutual block one by one, and misses what they use
-- through each other
set_option linter.unusedSectionVars false

variable (calls : CallsHalt settings live limit room) {scope : ScopeId} (met : live (.scope scope))
include calls met

mutual

theorem expression_halts (e : Expr) (loopless : e.throughout Stmt.straight) :
    Halts live limit room (Straight live) fun fuel => Eval.expression settings fuel scope e := by
  refine .succ ?_
  unfold Eval.expression
  cases e with
  | integer | string | boolean => exact .done ⟨nofun, rfl⟩
  | identifier name => exact lookup_halts met name.name
  | lambda _ literal => exact .done ⟨by simpa [Value.refs] using met, loopless⟩
  | assignment _ target value =>
    simp only [Expr.throughout, Bool.and_eq_true] at loopless
    refine (expression_halts value loopless.2).andThen fun result straight => ?_
    exact (assign_halts target loopless.1 straight).andThen fun _ _ => .done straight
  | binary _ left op right =>
    simp only [Expr.throughout, Bool.and_eq_true] at loopless
    refine (expression_halts left loopless.1).andThen fun first straight => ?_
    refine (expression_halts right loopless.2).andThen fun second straight' => ?_
    exact .lift fun value comes => (Value.hereditary_sound _ live).binary straight straight' comes
  | unary _ op operand =>
    refine (expression_halts operand loopless).andThen fun value straight => ?_
    exact .lift fun value comes => (Value.hereditary_sound _ live).unary comes
  | call _ callee arguments =>
    simp only [Expr.throughout, Bool.and_eq_true] at loopless
    refine (expression_halts callee loopless.1).andThen fun function straight => ?_
    refine (expressions_halt arguments loopless.2).andThen fun values all => ?_
    exact calls function values straight all
  | index _ left position =>
    simp only [Expr.throughout, Bool.and_eq_true] at loopless
    refine (expression_halts left loopless.1).andThen fun target straight => ?_
    refine (expression_halts position loopless.2).andThen fun place _ => ?_
    exact .lift fun value comes => (Value.hereditary_sound _ live).index straight comes
  | field _ object name =>
    exact (expression_halts object loopless).andThen fun target straight => member_halts straight name.name
  | array _ elements =>
    refine (expressions_halt elements loopless).andThen fun values all => ?_
    exact .done ((Value.hereditary_sound _ live).array values |>.2 all)
  | conditional _ condition consequence elifs alternative =>
    simp only [Expr.throughout, Bool.and_eq_true] at loopless
    obtain ⟨⟨⟨first, block⟩, more⟩, last⟩ := loopless
    refine (expression_halts condition first).andThen fun value _ => ?_
    by_cases holds : value.isTruthy
    · simp only [holds, if_true]
      exact block_halts consequence block
    · simp only [holds]
      exact otherwise_halts elifs more (else_halts alternative last)

theorem expressions_halt (es : List Expr) (loopless : Expr.allThroughout Stmt.straight es) :
    Halts live limit room (fun values => ∀ value ∈ values, Straight live value)
      fun fuel => Eval.expressions settings fuel scope es := by
  refine .succ ?_
  unfold Eval.expressions
  cases es with
  | nil => exact .done nofun
  | cons e more =>
    simp only [Expr.allThroughout, Bool.and_eq_true] at loopless
    refine (expression_halts e loopless.1).andThen fun value straight => ?_
    refine (expressions_halt more loopless.2).andThen fun values all => ?_
    exact .done (List.forall_mem_cons.2 ⟨straight, all⟩)

theorem assign_halts (target : Target) (loopless : target.throughout Stmt.straight) {value : Value}
    (straight : Straight live value) :
    Halts live limit room (fun _ => True) fun fuel => Eval.assign settings fuel scope target value := by
  refine .succ ?_
  unfold Eval.assign
  cases target with
  | identifier name => exact .alter trivial fun _ sound => sound.assign straight scope name.name
  | field _ object name =>
    exact (expression_halts object loopless).andThen fun owner _ => setMember_halts owner name.name straight

theorem otherwise_halts (elifs : List Elif) (loopless : Elif.allThroughout Stmt.straight elifs)
    {alternative : Option Block}
    (last : Halts live limit room (Straight live) fun fuel => Eval.otherwise settings fuel scope [] alternative) :
    Halts live limit room (Straight live) fun fuel => Eval.otherwise settings fuel scope elifs alternative := by
  cases elifs with
  | nil => exact last
  | cons arm more =>
    obtain ⟨condition, block⟩ := arm
    simp only [Elif.allThroughout, Bool.and_eq_true] at loopless
    refine .succ ?_
    unfold Eval.otherwise
    refine (expression_halts condition loopless.1.1).andThen fun value _ => ?_
    by_cases holds : value.isTruthy
    · simp only [holds, if_true]
      exact block_halts block loopless.1.2
    · simp only [holds]
      exact otherwise_halts more loopless.2 last

theorem else_halts (alternative : Option Block)
    (loopless : Block.elseThroughout Stmt.straight alternative) :
    Halts live limit room (Straight live) fun fuel => Eval.otherwise settings fuel scope [] alternative := by
  refine .succ ?_
  unfold Eval.otherwise
  cases alternative with
  | some arm => exact block_halts arm loopless
  | none => exact .done straight_null

theorem block_halts (block : Block) (loopless : block.throughout Stmt.straight) :
    Halts live limit room (Straight live) fun fuel => Eval.block settings fuel scope .null block.statements := by
  obtain ⟨_, statements⟩ := block
  exact statements_halt statements loopless straight_null

theorem statements_halt (statements : List Stmt)
    (loopless : Stmt.allThroughout Stmt.straight statements) {result : Value}
    (straight : Straight live result) :
    Halts live limit room (Straight live) fun fuel => Eval.block settings fuel scope result statements := by
  refine .succ ?_
  unfold Eval.block
  cases statements with
  | nil => exact .done straight
  | cons first more =>
    simp only [Stmt.allThroughout, Bool.and_eq_true] at loopless
    refine (Halts.handled straight_null settings first.token.line (statement_halts first loopless.1)).andThen
      fun value straight => ?_
    exact statements_halt more loopless.2 straight

theorem statement_halts (first : Stmt) (loopless : first.throughout Stmt.straight) :
    Halts live limit room (Straight live) fun fuel => Eval.statement settings fuel scope first := by
  refine .succ ?_
  unfold Eval.statement
  cases first with
  | expression _ value => exact expression_halts value loopless
  | returning _ value =>
    exact (expression_halts value loopless).andThen fun result straight => .leave straight
  | whileLoop _ condition body => cases loopless
  | function definition =>
    have straight : Straight live (.function ⟨some definition.name.name, definition.literal, scope⟩) :=
      ⟨by simpa [Value.refs] using met, (definition.throughout_literal Stmt.straight).trans loopless⟩
    exact (define_halts straight scope _).andThen fun _ _ => .done straight_null
  | classDefinition _ name methods =>
    have straight : Straight live (.classObject (classOf scope name.name methods)) := classOf_straight met _ _ loopless
    exact (define_halts straight scope _).andThen fun _ _ => .done straight_null
  | test _ label body =>
    by_cases testing : settings.testMode
    · simp only [testing, if_true]
      exact .tested straight_null label (block_halts body loopless)
    · simp only [testing]
      exact .done straight_null

end

end

/-! ## All calls, and whole programs -/

/-- A call of a function that is without loops ends, where calls inside of it do that
    have less room. -/
theorem apply_halts (limited : settings.maxCallDepth = some limit)
    (inside : ∀ less, room = less + 1 → CallsHalt settings live limit less) :
    CallsHalt settings live limit room := by
  intro callee arguments straight all
  refine .succ ?_
  cases callee with
  | function closure =>
    have met : live (.scope closure.scope) := straight.within _ (by simp [Value.refs])
    have loopless : closure.literal.body.throughout Stmt.straight := (closure.literal.throughout_body _).trans straight.fine
    simp only [apply_function]
    split
    · exact .fail _
    · cases room with
      | zero => exact called_refused limited _ _ _ _
      | succ less =>
        refine called_halts met (fun pair member => all _ (List.of_mem_zip member).2) fun scope here => ?_
        exact block_halts (inside less rfl) here closure.literal.body loopless
  | builtin primitive => exact callBuiltin_halts primitive all
  | classObject definition =>
    unfold Eval.apply
    have added : Halts live limit room (fun id => live (.object id)) fun _ => extend (·.addObject definition) :=
      .extend fun heap sound => ⟨sound.added definition, sound.addObject straight⟩
    by_cases empty : arguments.isEmpty
    · simp only [empty, if_true]
      exact added.andThen fun id here => .done ⟨by simpa [Value.refs] using here, rfl⟩
    · simp only [empty]
      exact .fail _
  | _ => exact .fail _

/-- However much room the limit leaves, calls end. -/
theorem calls_halt (limited : settings.maxCallDepth = some limit) (live : Node → Prop)
    (room : Nat) :
    CallsHalt settings live limit room := by
  induction room with
  | zero => exact apply_halts limited nofun
  | succ room ih => exact apply_halts limited fun less same => Nat.succ.inj same ▸ ih

end Eval

/-- All functions that can be found from the scope are without loops. -/
def Heap.Loopless (heap : Heap) (scope : ScopeId) : Prop :=
  ∀ node, heap.Reaches [.scope scope] node → ∀ value ∈ heap.values node, value.throughout Stmt.straight

def Program.Halts (settings : Settings) (program : Program) (scope : ScopeId) (state : State) :
    Prop :=
  ∃ fuel result behind, ∀ more, fuel ≤ more → evalProgram settings more program scope state = some (result, behind)

theorem Program.halts_of_loopless {settings : Settings} {limit : Nat}
    (limited : settings.maxCallDepth = some limit)
    {program : Program} (loopless : program.loopless) {scope : ScopeId} {state : State}
    (sound : state.heap.Loopless scope) :
    program.Halts settings scope state := by
  have calls := Eval.calls_halt limited (fun node => state.heap.Reaches [.scope scope] node ∨ ¬ state.heap.Holds node) limit
  have met : state.heap.Reaches [.scope scope] (.scope scope) := Heap.reaches_root (List.mem_singleton.2 rfl)
  obtain ⟨flow, halted, fuel, ends⟩ := Eval.statements_halt calls (.inl met) program.statements loopless
    Eval.straight_null state (state.heap.sound_start sound) (Nat.le_add_left ..)
  change ∀ more, fuel ≤ more → Eval.block settings more scope .null program.statements state = flow at ends
  cases flow with
  | value value last =>
    exact ⟨fuel, .ok value, last, fun more enough => by rw [evalProgram, ends more enough]⟩
  | returned value last =>
    exact ⟨fuel, .ok value, last, fun more enough => by rw [evalProgram, ends more enough]⟩
  | failed error last =>
    exact ⟨fuel, .error error, last.report error, fun more enough => by rw [evalProgram, ends more enough]⟩
  | outOfFuel => exact halted.elim

/-- Nothing can be found from a new root but the builtins, if it has them. -/
theorem Heap.loopless_addRoot (heap : Heap) : heap.addRoot.2.Loopless heap.addRoot.1 := by
  intro node reached value stored
  rw [reached.eq_of_refs heap.refs_addRoot, values_addRoot] at stored
  cases stored

theorem Heap.loopless_addBuiltinRoot (heap : Heap) :
    heap.addBuiltinRoot.2.Loopless heap.addBuiltinRoot.1 := by
  intro node reached value stored
  rw [reached.eq_of_refs heap.refs_addBuiltinRoot] at stored
  obtain ⟨primitive, rfl⟩ := heap.values_addBuiltinRoot stored
  rfl

/-- With a limit of the call depth a program without loops ends, whatever the limit and
    under either policy, with tests or without: from a scope from which only functions
    without loops can be found, and so from a new root scope, with the builtins or
    without. -/
theorem loopless_halts (policy : Policy) (testMode : Bool) (limit : Nat) (program : Program) (loopless : program.loopless)
    (state : State) :
    (∀ scope, state.heap.Loopless scope → program.Halts ⟨policy, testMode, some limit⟩ scope state) ∧
    program.Halts ⟨policy, testMode, some limit⟩ state.heap.addRoot.1 { state with heap := state.heap.addRoot.2 } ∧
    program.Halts ⟨policy, testMode, some limit⟩ state.heap.addBuiltinRoot.1
      { state with heap := state.heap.addBuiltinRoot.2 } :=
  ⟨fun _ sound => Program.halts_of_loopless rfl loopless sound,
    Program.halts_of_loopless rfl loopless state.heap.loopless_addRoot,
    Program.halts_of_loopless rfl loopless state.heap.loopless_addBuiltinRoot⟩

/-- `(fn(f) f(f) end)(fn(f) f(f) end)`, a function passed to itself, which calls itself
    with itself for ever. -/
def selfCalling : Program :=
  let name : Identifier := ⟨.eof 1, "f"⟩
  let twice : Expr := .lambda (.eof 1)
    ⟨[name], .eof 1, [.expression (.eof 1) (.call (.eof 1) (.identifier name) [.identifier name])]⟩
  ⟨[.expression (.eof 1) (.call (.eof 1) twice [twice])]⟩

/-- With a limit of three calls it ends: the fourth is refused, and every call around it
    goes on from there. -/
theorem loopless_halts_selfCalling :
    selfCalling.loopless ∧
    selfCalling.Halts ⟨.proceed, true, some 3⟩ State.withBuiltins.1 State.withBuiltins.2 ∧
    (evalProgram ⟨.proceed, true, some 3⟩ 40 selfCalling State.withBuiltins.1 State.withBuiltins.2).map
      (fun (_, behind) => behind.journal.errors) = some [(EvalError.tooDeep 3).onLine 1] :=
  ⟨by decide +kernel, (loopless_halts .proceed true 3 selfCalling (by decide +kernel) .fresh).2.2, by decide +kernel⟩

end Lantern
