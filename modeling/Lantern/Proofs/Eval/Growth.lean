/-
  Lantern.Proofs.Eval.Growth — scopes and objects are never taken back.

  A run adds scopes and objects and writes into those that are there, and nothing else,
  whichever way it ends. So a scope keeps its parent and stays bound to every name it
  was bound to, and an object keeps its class and its fields (`Heap.GrowsTo`). From a
  scope the same scopes are passed on the way to the root then, and a name that is found
  from there is found for ever after.

  The way out of a scope always ends: parents are older than their children, so no scope
  stands inside itself, and the scopes passed are fewer than there are (`Heap.Rooted`).

  - `evaluation_grows`: expressions, statements, programs and calls, under either policy
    and however they end.
-/

import Mathlib.Data.List.Pairwise
import Mathlib.Logic.Relation
import Lantern.Eval.Execute
import Lantern.Proofs.Eval.Path

namespace Lantern

theorem Bindings.binds_put (bindings : Bindings) (name other : String) (value : Value)
    (bound : bindings.binds other) :
    (bindings.put name value).binds other := by
  by_cases same : other = name
  · subst same
    simp [binds]
  · rw [binds, Bindings.value?_put_of_ne same]
    exact bound

namespace Heap

/-! ## The way out of a scope -/

def parent? (heap : Heap) (id : ScopeId) : Option ScopeId := heap.scopes[id]?.bind (·.parent)

def outward (heap : Heap) (id : ScopeId) : Nat → Option ScopeId
  | 0 => some id
  | steps + 1 => (heap.parent? id).bind fun parent => outward heap parent steps

/-- No scope stands inside itself, and from every scope the way out ends at a root,
    behind no more scopes than there are. -/
structure Rooted (heap : Heap) : Prop where
  acyclic (id : ScopeId) : ¬ Relation.TransGen (fun inner outer => heap.parent? inner = some outer) id id
  ends (id : ScopeId) : id < heap.scopes.size → heap.outward id (heap.depth id) = none ∧ heap.depth id ≤ heap.scopes.size

variable {heap : Heap}

theorem parent?_lt {id parent : ScopeId} (isParent : heap.parent? id = some parent) :
    parent < id := by
  obtain ⟨scope, found, isParent⟩ := Option.bind_eq_some_iff.1 isParent
  exact heap.parent_lt found isParent

theorem outward_depth (id : ScopeId) (exists_ : id < heap.scopes.size) :
    heap.outward id (heap.depth id) = none := by
  induction id using Heap.chain.induct heap with
  | case1 id none => exact absurd exists_ (Nat.not_lt.2 (Array.getElem?_eq_none_iff.1 none))
  | case2 id scope found isRoot => simp [depth, chain_of_root found isRoot, outward, parent?, found, isRoot]
  | case3 id scope found parent isParent ih =>
    have older : parent < heap.scopes.size := Nat.lt_trans (heap.parent_lt found isParent) exists_
    simpa [depth, chain_of_parent found isParent, outward, parent?, found, isParent] using ih older

theorem depth_le (id : ScopeId) : heap.depth id ≤ id + 1 := by
  induction id using Heap.chain.induct heap with
  | case1 id none => simp [depth, chain_of_none none]
  | case2 id scope found isRoot => simp [depth, chain_of_root found isRoot]
  | case3 id scope found parent isParent ih =>
    have older : parent < id := heap.parent_lt found isParent
    simp only [depth, chain_of_parent found isParent, List.length_cons] at ih ⊢
    exact Nat.succ_le_succ (Nat.le_trans ih older)

theorem rooted (heap : Heap) : heap.Rooted where
  acyclic id := by
    intro cycle
    have older {a b : ScopeId} (path : Relation.TransGen (fun inner outer => heap.parent? inner = some outer) a b) :
        b < a := by
      induction path with
      | single step => exact parent?_lt step
      | tail _ step ih => exact Nat.lt_trans (parent?_lt step) ih
    exact Nat.lt_irrefl id (older cycle)
  ends id exists_ := ⟨outward_depth id exists_, Nat.le_trans (depth_le id) exists_⟩

/-! ## Growth -/

/-- Every scope of the first heap is there in the second, with the parent it had and
    bound to every name it was bound to, and so is every object, with the class and all
    fields it had. -/
structure GrowsTo (heap behind : Heap) : Prop where
  scope (id : ScopeId) (scope : Scope) : heap.scopes[id]? = some scope →
    ∃ scope', behind.scopes[id]? = some scope' ∧ scope'.parent = scope.parent ∧
      ∀ name, scope.bindings.binds name → scope'.bindings.binds name
  object (id : ObjectId) (object : Object) : heap.objects[id]? = some object →
    ∃ object', behind.objects[id]? = some object' ∧ object'.definition = object.definition ∧
      ∀ name, object.fields.binds name → object'.fields.binds name

namespace GrowsTo

theorem refl (heap : Heap) : heap.GrowsTo heap where
  scope _ scope found := ⟨scope, found, rfl, fun _ bound => bound⟩
  object _ object found := ⟨object, found, rfl, fun _ bound => bound⟩

theorem trans {a b c : Heap} (h : a.GrowsTo b) (h' : b.GrowsTo c) : a.GrowsTo c where
  scope id scope found := by
    obtain ⟨scope', found', parent, bound⟩ := h.scope id scope found
    obtain ⟨scope'', found'', parent', bound'⟩ := h'.scope id scope' found'
    exact ⟨scope'', found'', parent'.trans parent, fun name here => bound' name (bound name here)⟩
  object id object found := by
    obtain ⟨object', found', definition, bound⟩ := h.object id object found
    obtain ⟨object'', found'', definition', bound'⟩ := h'.object id object' found'
    exact ⟨object'', found'', definition'.trans definition, fun name here => bound' name (bound name here)⟩

theorem define (heap : Heap) (id : ScopeId) (name : String) (value : Value) : heap.GrowsTo (heap.define id name value) where
  scope other scope found := by
    by_cases same : id = other
    · refine ⟨{ scope with bindings := scope.bindings.put name value }, ?_, rfl, fun other bound => ?_⟩
      · simp [Heap.define, Array.getElem?_modify, same, found]
      · exact scope.bindings.binds_put name other value bound
    · exact ⟨scope, by simp [Heap.define, Array.getElem?_modify, same, found], rfl, fun _ bound => bound⟩
  object := (refl heap).object

theorem setField (heap : Heap) (id : ObjectId) (name : String) (value : Value) :
    heap.GrowsTo (heap.setField id name value) where
  scope := (refl heap).scope
  object other object found := by
    by_cases same : id = other
    · refine ⟨{ object with fields := object.fields.put name value }, ?_, rfl, fun other bound => ?_⟩
      · simp [Heap.setField, Array.getElem?_modify, same, found]
      · exact object.fields.binds_put name other value bound
    · exact ⟨object, by simp [Heap.setField, Array.getElem?_modify, same, found], rfl, fun _ bound => bound⟩

/-- What is added stands behind everything that was there. -/
theorem getElem?_push_kept {α : Type} {items : Array α} {i : Nat} {item : α}
    (found : items[i]? = some item) (more : α) :
    (items.push more)[i]? = some item := by
  have inside : i < items.size := (Array.getElem?_eq_some_iff.1 found).1
  rw [Array.getElem?_push, if_neg (Nat.ne_of_lt inside), found]

theorem enclose (heap : Heap) (outer : ScopeId) : heap.GrowsTo (heap.enclose outer).2 where
  scope _ scope found := ⟨scope, getElem?_push_kept found _, rfl, fun _ bound => bound⟩
  object := (refl heap).object

theorem addObject (heap : Heap) (definition : Class) : heap.GrowsTo (heap.addObject definition).2 where
  scope := (refl heap).scope
  object _ object found := ⟨object, getElem?_push_kept found _, rfl, fun _ bound => bound⟩

/-! ### What is found from a scope -/

variable {behind : Heap}

/-- The same scopes are passed on the way out. -/
theorem chain (h : heap.GrowsTo behind) (id : ScopeId) (exists_ : id < heap.scopes.size) :
    behind.chain id = heap.chain id := by
  induction id using Heap.chain.induct heap with
  | case1 id none => exact absurd exists_ (Nat.not_lt.2 (Array.getElem?_eq_none_iff.1 none))
  | case2 id scope found isRoot =>
    obtain ⟨scope', found', parent, -⟩ := h.scope id scope found
    rw [chain_of_root found isRoot, chain_of_root found' (parent.trans isRoot)]
  | case3 id scope found outer isParent ih =>
    obtain ⟨scope', found', parent, -⟩ := h.scope id scope found
    have older : outer < heap.scopes.size := Nat.lt_trans (heap.parent_lt found isParent) exists_
    rw [chain_of_parent found isParent, chain_of_parent found' (parent.trans isParent), ih older]

theorem binds (h : heap.GrowsTo behind) {id : ScopeId} {name : String}
    (bound : (heap.bindings id).binds name) :
    (behind.bindings id).binds name := by
  cases found : heap.scopes[id]? with
  | none => simp [Heap.bindings, found, Bindings.binds, Bindings.value?] at bound
  | some scope =>
    obtain ⟨scope', found', -, names⟩ := h.scope id scope found
    simp only [Heap.bindings, found, found', Option.map_some, Option.getD_some] at bound ⊢
    exact names name bound

end GrowsTo

theorem get?_isSome (heap : Heap) (id : ScopeId) (name : String) :
    (heap.get? id name).isSome ↔ ∃ scope ∈ heap.chain id, (heap.bindings scope).binds name := by
  rw [get?, holder?]
  cases held : (heap.chain id).find? fun scope => (heap.bindings scope).binds name with
  | none => simpa using List.find?_eq_none.1 held
  | some scope =>
    have bound := List.find?_some held
    exact ⟨fun _ => ⟨scope, List.mem_of_find?_eq_some held, bound⟩, fun _ => bound⟩

/-- A name that is found goes on being found. -/
theorem GrowsTo.get?_isSome {behind : Heap} (h : heap.GrowsTo behind) {id : ScopeId} {name : String}
    (found : (heap.get? id name).isSome) : (behind.get? id name).isSome := by
  obtain ⟨scope, passed, bound⟩ := (heap.get?_isSome id name).1 found
  have exists_ : id < heap.scopes.size := by
    refine Nat.lt_of_not_le fun none => ?_
    rw [chain_of_none (Array.getElem?_eq_none none)] at passed
    cases passed
  exact (behind.get?_isSome id name).2 ⟨scope, h.chain id exists_ ▸ passed, h.binds bound⟩

/-- What a run leaves of a heap: it has grown, the way out of a scope still ends, and
    what was found is found. -/
structure Lasts (heap behind : Heap) : Prop where
  grows : heap.GrowsTo behind
  rooted : behind.Rooted
  found (scope : ScopeId) (name : String) : (heap.get? scope name).isSome → (behind.get? scope name).isSome

theorem GrowsTo.lasts {behind : Heap} (h : heap.GrowsTo behind) : heap.Lasts behind where
  grows := h
  rooted := behind.rooted
  found _ _ := h.get?_isSome

end Heap

/-! ## Runs -/

theorem Eval.keeps_growth (settings : Settings) :
    Eval.Keeps settings fun state behind => state.heap.GrowsTo behind.heap where
  refl a := .refl a.heap
  trans := .trans
  define a := .define a.heap
  setField a := .setField a.heap
  enclose a := .enclose a.heap
  addObject a := .addObject a.heap
  print a _ := .refl a.heap
  nested h := h
  report _ a _ := .refl a.heap
  tested _ _ _ _ _ h _ := h

/-- Evaluation takes nothing out of the heap, whether it ends with a value, a `return`
    or an error: an expression, a statement with the error that is met there, a program,
    and a call from outside. -/
theorem evaluation_grows (settings : Settings) (fuel : Nat) (state behind : State) :
    (∀ scope e, (Eval.expression settings fuel scope e state).state? = some behind → state.heap.Lasts behind.heap) ∧
    (∀ scope first line, (Run.handled settings line (Eval.statement settings fuel scope first) state).state? = some behind →
      state.heap.Lasts behind.heap) ∧
    (∀ program scope result, evalProgram settings fuel program scope state = some (result, behind) →
      state.heap.Lasts behind.heap) ∧
    (∀ callee arguments result, callValue settings fuel callee arguments state = some (result, behind) →
      state.heap.Lasts behind.heap) := by
  have kept := (Eval.keeps_growth settings).congruence.evaluation fuel
  refine ⟨fun scope e ends => ?_, fun scope first line ends => ?_, fun program scope result ends => ?_,
    fun callee arguments result ends => ?_⟩
  · exact (kept.expression scope e state behind ends).lasts
  · exact ((kept.statement scope first).handled .trans (Eval.keeps_growth settings).report line state behind ends).lasts
  · obtain ⟨last, ended, same⟩ := evalProgram_state? ends
    have grows : state.heap.GrowsTo last.heap := kept.block scope .null program.statements state last ended
    -- to report an error leaves the heap as it is
    rcases same with rfl | ⟨error, rfl⟩
    · exact grows.lasts
    · exact grows.lasts
  · exact (kept.apply callee arguments state behind (callValue_state? ends)).lasts

/-- `[half = 1, 1 / 0]`. -/
def halfDone : Stmt :=
  .expression (.eof 1) (.array (.eof 1)
    [.assignment (.eof 1) (.identifier ⟨.eof 1, "half"⟩) (.integer (.eof 1) 1),
     .binary (.eof 1) (.integer (.eof 1) 1) .div (.integer (.eof 1) 0)])

/-- An error in the middle of a statement leaves what was found, and what the statement
    bound before it. -/
theorem evaluation_grows_halfDone :
    ∃ behind,
      Run.handled ⟨.abort, false, none⟩ 1 (Eval.statement ⟨.abort, false, none⟩ 9 State.withBuiltins.1 halfDone)
        State.withBuiltins.2 = .failed (EvalError.divisionByZero.onLine 1) behind ∧
      (State.withBuiltins.2.heap.get? State.withBuiltins.1 "print").isSome ∧
      (behind.heap.get? State.withBuiltins.1 "print").isSome ∧ (behind.heap.get? State.withBuiltins.1 "half").isSome := by
  have found : (State.withBuiltins.2.heap.get? State.withBuiltins.1 "print").isSome := by decide +kernel
  refine ⟨_, rfl, found, ?_, by decide +kernel⟩
  exact ((evaluation_grows ⟨.abort, false, none⟩ 9 State.withBuiltins.2 _).2.1 State.withBuiltins.1 halfDone 1 rfl).found
    _ _ found

end Lantern
