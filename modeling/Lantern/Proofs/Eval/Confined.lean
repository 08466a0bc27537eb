/-
  Lantern.Proofs.Eval.Confined — a run touches and finds only what it can reach.

  Functions keep the scope they were made in and objects are shared, so a call may work
  in scopes that have nothing to do with its caller's. Still every scope and object a
  run comes upon was within reach from where it started, or was made on the way. The
  proof keeps a set of what may be met, at first what can be reached; a step meets
  nothing else, and adds to it only what it makes (`Heap.Stands`):
  - `Run.Stays`: a run that meets what it may leaves the heap so, and comes to a value
    made of what may be met. `stays` says that all evaluation does.
  - `evaluation_confined`: programs and calls. What existed out of reach is as it was,
    and what the result leads to was in reach, or is new.
-/

import Lantern.Proofs.Eval.Steps
import Lantern.Proofs.Value.Reach

namespace Lantern

open Likeness Eval

/-! ## Steps among what may be met -/

section

variable (before : Heap) (roots : List Node)

/-- The heap is left as `Stands` says, with more that may be met perhaps, and the value
    was made of that. -/
def Flow.Stays (live : Node → Prop) (k : Answer) : Flow k.type → Prop
  | .value answer behind =>
    ∃ more, Grows live more ∧ before.Stands roots more behind.heap ∧ k.Alike ⟨.same, more⟩ answer answer
  | .returned result behind =>
    ∃ more, Grows live more ∧ before.Stands roots more behind.heap ∧ Like ⟨.same, more⟩ result result
  | .failed _ behind => ∃ more, Grows live more ∧ before.Stands roots more behind.heap
  | .outOfFuel => True

def Run.Stays (live : Node → Prop) (k : Answer) (p : Run k.type) : Prop :=
  ∀ state, before.Stands roots live state.heap → (p state).Stays before roots live k

end

variable {before : Heap} {roots : List Node} {live more : Node → Prop} {k : Answer}

/-- What holds with more to be met holds where it began with less. -/
theorem Flow.Stays.grow {flow : Flow k.type} (grows : Grows live more)
    (h : flow.Stays before roots more k) :
    flow.Stays before roots live k := by
  cases flow with
  | value answer behind =>
    obtain ⟨most, wider, stands, alike⟩ := h
    exact ⟨most, grows.trans wider, stands, alike⟩
  | returned result behind =>
    obtain ⟨most, wider, stands, like⟩ := h
    exact ⟨most, grows.trans wider, stands, like⟩
  | failed error behind =>
    obtain ⟨most, wider, stands⟩ := h
    exact ⟨most, grows.trans wider, stands⟩
  | outOfFuel => trivial

namespace Run

theorem Stays.andThen {m : Answer} {p : Run k.type} {f : k.type → Run m.type}
    (hp : p.Stays before roots live k)
    (hf : ∀ more, Grows live more → ∀ a, k.Alike ⟨.same, more⟩ a a → (f a).Stays before roots more m) :
    (p.andThen f).Stays before roots live m := by
  intro state stands
  have first := hp state stands
  unfold Run.andThen
  cases flow : p state with
  | value answer behind =>
    rw [flow] at first
    obtain ⟨more, grows, stands', alike⟩ := first
    exact (hf more grows answer alike behind stands').grow grows
  | returned result behind => rw [flow] at first; exact first
  | failed error behind => rw [flow] at first; exact first
  | outOfFuel => trivial

theorem Stays.untilReturn {p : Run Value} (hp : Stays before roots live .value p) :
    Stays before roots live .value (Run.untilReturn p) := by
  intro state stands
  have inner := hp state stands
  unfold Run.untilReturn
  cases flow : p state <;> rw [flow] at inner <;> exact inner

theorem Stays.nested {p : Run Value} (hp : Stays before roots live .value p) :
    Stays before roots live .value (Run.nested p) := by
  intro state stands
  have inner := hp (beginCall state) stands
  unfold Run.nested
  cases flow : p (beginCall state) <;> rw [flow] at inner <;> exact inner

theorem Stays.handled {p : Run Value} (settings : Settings) (line : Nat)
    (hp : Stays before roots live .value p) :
    Stays before roots live .value (Run.handled settings line p) := by
  intro state stands
  have inner := hp state stands
  unfold Run.handled
  cases flow : p state with
  | failed error behind =>
    rw [flow] at inner
    obtain ⟨more, grows, stands'⟩ := inner
    cases settings.policy with
    | proceed => exact ⟨more, grows, stands', Parallel.like_null⟩
    | abort => exact ⟨more, grows, stands'⟩
  | value result behind => rw [flow] at inner; exact inner
  | returned result behind => rw [flow] at inner; exact inner
  | outOfFuel => trivial

theorem Stays.tested {p : Run Value} (label : String) (hp : Stays before roots live .value p) :
    Stays before roots live .value (Run.tested label p) := by
  intro state stands
  have inner := hp (state.note .testBegins) stands
  unfold Run.tested
  dsimp only
  cases flow : p (state.note .testBegins) with
  | value result behind =>
    rw [flow] at inner
    obtain ⟨more, grows, stands', -⟩ := inner
    exact ⟨more, grows, stands', Parallel.like_null⟩
  | returned result behind =>
    rw [flow] at inner
    obtain ⟨more, grows, stands', -⟩ := inner
    exact ⟨more, grows, stands', Parallel.like_null⟩
  | failed error behind => rw [flow] at inner; exact inner
  | outOfFuel => trivial

theorem stays_callBuiltin (primitive : Builtin) {arguments : List Value}
    (within : LikeAll ⟨.same, live⟩ arguments arguments) :
    Stays before roots live .value (Run.callBuiltin primitive arguments) := by
  intro state stands
  have agree := primitive.value_alike within
  unfold Run.callBuiltin Builtin.call Run.lift
  dsimp only
  cases outcome : primitive.value arguments with
  | ok value =>
    rw [outcome] at agree
    exact ⟨live, .refl live, stands, ⟨value.recast_same.symm, agree.2 value rfl⟩⟩
  | error error => exact ⟨live, .refl live, stands⟩

theorem stays_checkDepth (settings : Settings) :
    Stays before roots live .nothing (Run.checkDepth settings) := by
  intro state stands
  unfold Run.checkDepth
  repeat' split
  all_goals first | exact ⟨live, .refl live, stands, trivial⟩ | exact ⟨live, .refl live, stands⟩

/-- A change of the heap that answers nothing. -/
theorem stays_alter {change : Heap → Heap}
    (h : ∀ heap, before.Stands roots live heap → before.Stands roots live (change heap)) :
    Stays before roots live .nothing (Run.alter change) :=
  fun state stands => ⟨live, .refl live, h state.heap stands, trivial⟩

end Run

/-- Evaluation stays among what may be met, under either policy and however it ends. -/
theorem Eval.stays (settings : Settings) (before : Heap) (roots : List Node) :
    Parallel .same settings settings fun live k p _ => p.Stays before roots live k where
  testMode := rfl
  bodies _ := rfl
  stop _ _ _ _ := trivial
  done {live} k a b alike state stands := by
    obtain rfl := alike.eq
    exact ⟨live, .refl live, stands, alike⟩
  andThen k m p _ f _ hp hf := hp.andThen fun more grows a alike => hf more grows a a alike
  fail live _ _ _ stands := ⟨live, .refl live, stands⟩
  leave {live a _} like _ stands := ⟨live, .refl live, stands, a.recast_same.symm, like.2⟩
  get {live} scope name met state stands := by
    refine ⟨live, .refl live, stands, ?_, fun value found => stands.get? met found⟩
    rw [funext Value.recast_same, Option.map_id']
  member {live} id name met state stands := by
    refine ⟨live, .refl live, stands, ?_, fun value found => stands.member? met found⟩
    rw [funext Value.recast_same, Option.map_id']
  assign _ name _ _ met like := Run.stays_alter fun _ stands => stands.assign met name like.2
  define _ name _ _ met like := Run.stays_alter fun _ stands => stands.define met name like.2
  setField _ name _ _ met like := Run.stays_alter fun _ stands => stands.setField met name like.2
  enclose {live} outer met state stands :=
    ⟨_, fun _ => .inl, stands.enclose met, rfl, .inr rfl⟩
  defineAll scope names as _ met alike := Run.stays_alter fun _ stands =>
    stands.defineAll met fun pair member => alike.2 pair.2 (List.of_mem_zip member).2
  addObject definition within state stands :=
    ⟨_, fun _ => .inl, stands.addObject within, rfl, .inr rfl⟩
  callBuiltin primitive as _ alike := by
    obtain rfl := Congruence.eq_of_likeAll alike
    exact Run.stays_callBuiltin primitive alike
  checkDepth _ := Run.stays_checkDepth settings
  untilReturn hp := hp.untilReturn
  nested hp := hp.nested
  handled token _ _ hp := hp.handled settings token.line
  tested label _ _ _ _ _ hp := hp.tested label

/-! ## Programs and calls -/

/-- What the result of a run leads to at once. -/
def resultRefs : Except EvalError Value → List Node
  | .ok value => value.refs
  | .error _ => []

/-- A run that starts from the roots and comes to something that leads to `results` only
    touched and found what it could reach, or made itself. -/
structure Heap.Confined (before : Heap) (roots : List Node) (behind : Heap) (results : List Node) : Prop where
  /-- What existed out of reach holds what it held. -/
  untouched (node : Node) : before.Holds node → ¬ before.Reaches roots node → before.Agrees behind node
  /-- What can be found from the result could be found before, or was made by the run. -/
  found (node : Node) : behind.Reaches results node →
    before.Reaches roots node ∨ (¬ before.Holds node ∧ behind.Holds node)

theorem Heap.Stands.confined {behind : Heap} {results : List Node}
    (h : before.Stands roots live behind)
    (within : ∀ node ∈ results, live node) : before.Confined roots behind results where
  untouched _ := h.untouched
  found _ reached := h.known (reached.within within h.closed)

def Flow.Confined (before : Heap) (roots : List Node) : Flow Value → Prop
  | .value result behind | .returned result behind => before.Confined roots behind.heap result.refs
  | .failed _ behind => before.Confined roots behind.heap []
  | .outOfFuel => True

theorem Flow.Stays.confined {flow : Flow Value} (h : flow.Stays before roots live .value) :
    flow.Confined before roots := by
  cases flow with
  | value result behind =>
    obtain ⟨more, -, stands, like⟩ := h
    exact stands.confined like.2
  | returned result behind =>
    obtain ⟨more, -, stands, like⟩ := h
    exact stands.confined like.2
  | failed error behind =>
    obtain ⟨more, -, stands⟩ := h
    exact stands.confined fun _ none => by cases none
  | outOfFuel => trivial

/-- Evaluation only touches what it can reach, and finds nothing else: a program, what
    its scope reaches; a call, what the value called and the arguments reach. -/
theorem evaluation_confined (settings : Settings) (fuel : Nat) (state behind : State) (result : Except EvalError Value) :
    (∀ program scope, evalProgram settings fuel program scope state = some (result, behind) →
      state.heap.Confined [.scope scope] behind.heap (resultRefs result)) ∧
    (∀ callee arguments, callValue settings fuel callee arguments state = some (result, behind) →
      state.heap.Confined (callee.refs ++ Value.refsAll arguments) behind.heap (resultRefs result)) := by
  constructor
  · intro program scope ends
    have met : state.heap.Reaches [.scope scope] (.scope scope) := Heap.reaches_root (List.mem_singleton.2 rfl)
    have confined := (((Eval.stays settings state.heap [.scope scope]).evaluation fuel).block scope met Parallel.like_null
      program.statements state (state.heap.stands_start _)).confined
    unfold evalProgram at ends
    cases flow : Eval.block settings fuel scope .null program.statements state <;> rw [flow] at ends confined <;> cases ends <;>
      exact confined
  · intro callee arguments ends
    let roots := callee.refs ++ Value.refsAll arguments
    have function : Like ⟨.same, state.heap.Reaches roots⟩ callee callee :=
      ⟨callee.recast_same.symm, fun node leads => Heap.reaches_root (List.mem_append_left _ leads)⟩
    have values : LikeAll ⟨.same, state.heap.Reaches roots⟩ arguments arguments := by
      refine ⟨by rw [funext Value.recast_same, List.map_id'], fun value member node leads => Heap.reaches_root ?_⟩
      exact List.mem_append_right _ (Value.mem_refsAll.2 ⟨value, member, leads⟩)
    have confined := (((Eval.stays settings state.heap roots).evaluation fuel).apply function values state
      (state.heap.stands_start _)).confined
    unfold callValue at ends
    cases flow : Eval.apply settings fuel callee arguments state <;> rw [flow] at ends confined <;> cases ends <;>
      exact confined

def twoRoots : State := { State.fresh with heap := Heap.empty.addRoot.2.addRoot.2 }

def one (scope : ScopeId) : Function :=
  ⟨none, ⟨[], ⟨.eof 1, [.expression (.eof 1) (.integer (.eof 1) 1)]⟩⟩, scope⟩

/-- `fn one() 1 end` and then `fn() 1 end`. -/
def twoClosures : Program :=
  ⟨[.function ⟨.eof 1, ⟨.eof 1, "one"⟩, (one 0).literal⟩, .expression (.eof 2) (.lambda (.eof 2) (one 0).literal)]⟩

theorem twoRoots_apart : ¬ twoRoots.heap.Reaches [.scope 0] (.scope 1) := by
  intro reached
  have same : Node.scope 1 = .scope 0 := by
    refine @Heap.Reaches.within _ _ _ (· = .scope 0) reached (fun root isRoot => List.mem_singleton.1 isRoot) ?_
    rintro a b rfl leads
    cases leads
  cases same

/-- Both run in the first scope and neither touches the other one, which is out of reach. -/
theorem evaluation_confined_twoRoots :
    ∃ programBehind callBehind value,
      evalProgram ⟨.proceed, false, none⟩ 9 twoClosures 0 twoRoots = some (.ok (.function (one 0)), programBehind) ∧
      programBehind.heap.bindings 0 = [("one", .function { one 0 with name := some "one" })] ∧
      callValue ⟨.abort, false, none⟩ 9 (.function (one 0)) [] twoRoots = some (.ok value, callBehind) ∧
      twoRoots.heap.Agrees programBehind.heap (.scope 1) ∧
      twoRoots.heap.Confined [.scope 0] callBehind.heap [] := by
  refine ⟨_, _, _, rfl, rfl, rfl, ?_, ?_⟩
  · have confined := (evaluation_confined ⟨.proceed, false, none⟩ 9 twoRoots _ _).1 twoClosures 0 rfl
    exact confined.untouched (.scope 1) Nat.one_lt_two twoRoots_apart
  · exact (evaluation_confined ⟨.abort, false, none⟩ 9 twoRoots _ _).2 (.function (one 0)) [] rfl

end Lantern
