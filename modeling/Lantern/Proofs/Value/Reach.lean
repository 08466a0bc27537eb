/-
  Lantern.Proofs.Value.Reach — what can be reached in a heap.

  A scope leads to its parent and to what its bindings lead to, an object to what its
  class and its fields lead to (`Heap.refs`). What such steps reach from some roots is
  all that a run that starts from the roots can find. A run changes the heap in four
  ways: it writes a binding or a field, and adds a scope or an object. `Stands` is what
  every one of them keeps, whatever was done before, as long as it is done among what
  may be met:
  - what is met leads to what may be met only;
  - what may be met could be reached at the start, or is new;
  - what existed at the start and could not be reached is as it was.
  `Stands.change` says what a change has to be like; each of the four is
  (`Stands.define`, `Stands.setField`, `Stands.enclose`, `Stands.addObject`).
-/

import Lantern.Proofs.Value.Likeness
import Lantern.Value.Heap
import Mathlib.Logic.Relation

namespace Lantern

/-! ## Where scopes and objects lead -/

namespace Bindings

def refs (bindings : Bindings) : List Node := bindings.flatMap fun entry => entry.2.refs

theorem mem_refs_of_value? {bindings : Bindings} {name : String} {value : Value} {node : Node}
    (bound : bindings.value? name = some value) (leads : node ∈ value.refs) :
    node ∈ bindings.refs := by
  induction bindings with
  | nil => cases bound
  | cons entry more ih =>
    simp only [value?] at bound
    simp only [refs, List.flatMap_cons, List.mem_append]
    split at bound
    · cases bound; exact .inl leads
    · exact .inr (ih bound)

theorem mem_refs_put {bindings : Bindings} {name : String} {value : Value} {node : Node}
    (leads : node ∈ (bindings.put name value).refs) : node ∈ bindings.refs ∨ node ∈ value.refs := by
  induction bindings with
  | nil => exact .inr (by simpa [refs, put] using leads)
  | cons entry more ih =>
    simp only [put] at leads
    split at leads
    · simp only [refs, List.flatMap_cons, List.mem_append] at leads ⊢
      exact leads.symm.imp_left .inr
    · simp only [refs, List.flatMap_cons, List.mem_append] at leads ih ⊢
      rcases leads with here | later
      · exact .inl (.inl here)
      · exact (ih later).imp_left .inr

end Bindings

def Scope.refs (scope : Scope) : List Node :=
  (scope.parent.map Node.scope).toList ++ scope.bindings.refs

def Object.refs (object : Object) : List Node := object.definition.refs ++ object.fields.refs

namespace Heap

def Holds (heap : Heap) : Node → Prop
  | .scope id => id < heap.scopes.size
  | .object id => id < heap.objects.size

def refs (heap : Heap) : Node → List Node
  | .scope id => (heap.scopes[id]?.map Scope.refs).getD []
  | .object id => (heap.objects[id]?.map Object.refs).getD []

/-- The scope or object can be found from the roots. -/
def Reaches (heap : Heap) (roots : List Node) (node : Node) : Prop :=
  ∃ root ∈ roots, Relation.ReflTransGen (fun a b => b ∈ heap.refs a) root node

def Agrees (heap other : Heap) : Node → Prop
  | .scope id => other.scopes[id]? = heap.scopes[id]?
  | .object id => other.objects[id]? = heap.objects[id]?

theorem refs_eq_nil {heap : Heap} {node : Node} (none : ¬ heap.Holds node) :
    heap.refs node = [] := by
  cases node with
  | scope id => simp [refs, Array.getElem?_eq_none (Nat.le_of_not_lt none)]
  | object id => simp [refs, Array.getElem?_eq_none (Nat.le_of_not_lt none)]

theorem reaches_root {heap : Heap} {roots : List Node} {node : Node} (root : node ∈ roots) :
    heap.Reaches roots node :=
  ⟨node, root, .refl⟩

theorem Reaches.step {heap : Heap} {roots : List Node} {node next : Node}
    (h : heap.Reaches roots node)
    (leads : next ∈ heap.refs node) : heap.Reaches roots next := by
  obtain ⟨root, isRoot, path⟩ := h
  exact ⟨root, isRoot, path.tail leads⟩

/-- Nothing outside of a set can be reached from inside of it, if no step leads out. -/
theorem Reaches.within {heap : Heap} {roots : List Node} {node : Node} {live : Node → Prop}
    (h : heap.Reaches roots node)
    (start : ∀ root ∈ roots, live root) (closed : ∀ {a b}, live a → b ∈ heap.refs a → live b) :
    live node := by
  obtain ⟨root, isRoot, path⟩ := h
  induction path with
  | refl => exact start root isRoot
  | tail _ leads ih => exact closed ih leads

/-! ## What the changes do -/

section

variable (heap : Heap) {node next : Node}

theorem refs_define {scope : ScopeId} {name : String} {value : Value}
    (leads : next ∈ (heap.define scope name value).refs node) :
    next ∈ heap.refs node ∨ next ∈ value.refs := by
  cases node with
  | object id => exact .inl leads
  | scope id =>
    simp only [refs, define, Array.getElem?_modify] at leads ⊢
    split at leads
    · next same =>
      subst same
      cases found : heap.scopes[scope]? with
      | none => rw [found] at leads; cases leads
      | some old =>
        rw [found] at leads
        simp only [Option.map_some, Option.getD_some, Scope.refs, List.mem_append] at leads ⊢
        rcases leads with up | bound
        · exact .inl (.inl up)
        · exact (Bindings.mem_refs_put bound).imp_left .inr
    · exact .inl leads

theorem holds_define {scope : ScopeId} {name : String} {value : Value} (h : heap.Holds node) :
    (heap.define scope name value).Holds node := by
  cases node with
  | scope id => simpa [Holds, define] using h
  | object id => exact h

theorem agrees_define {scope : ScopeId} {name : String} {value : Value}
    (other : node ≠ .scope scope) :
    heap.Agrees (heap.define scope name value) node := by
  cases node with
  | scope id =>
    have ne : scope ≠ id := fun same => other (by rw [same])
    simp [Agrees, define, Array.getElem?_modify, ne]
  | object id => rfl

theorem refs_setField {id : ObjectId} {name : String} {value : Value}
    (leads : next ∈ (heap.setField id name value).refs node) :
    next ∈ heap.refs node ∨ next ∈ value.refs := by
  cases node with
  | scope id => exact .inl leads
  | object other =>
    simp only [refs, setField, Array.getElem?_modify] at leads ⊢
    split at leads
    · next same =>
      subst same
      cases found : heap.objects[id]? with
      | none => rw [found] at leads; cases leads
      | some old =>
        rw [found] at leads
        simp only [Option.map_some, Option.getD_some, Object.refs, List.mem_append] at leads ⊢
        rcases leads with method | field
        · exact .inl (.inl method)
        · exact (Bindings.mem_refs_put field).imp_left .inr
    · exact .inl leads

theorem holds_setField {id : ObjectId} {name : String} {value : Value} (h : heap.Holds node) :
    (heap.setField id name value).Holds node := by
  cases node with
  | scope id => exact h
  | object id => simpa [Holds, setField] using h

theorem agrees_setField {id : ObjectId} {name : String} {value : Value}
    (other : node ≠ .object id) :
    heap.Agrees (heap.setField id name value) node := by
  cases node with
  | scope id => rfl
  | object found =>
    have ne : id ≠ found := fun same => other (by rw [same])
    simp [Agrees, setField, Array.getElem?_modify, ne]

theorem refs_enclose {outer : ScopeId} (leads : next ∈ (heap.enclose outer).2.refs node) :
    next ∈ heap.refs node ∨ next = .scope outer := by
  cases node with
  | object id => exact .inl leads
  | scope id =>
    simp only [refs, enclose, Array.getElem?_push] at leads ⊢
    split at leads
    · refine .inr ?_
      split at leads
      · simpa [Scope.refs, Bindings.refs] using leads
      · simp [Scope.refs, Bindings.refs] at leads
    · exact .inl leads

theorem holds_enclose {outer : ScopeId} (h : heap.Holds node) :
    (heap.enclose outer).2.Holds node := by
  cases node with
  | scope id =>
    simp only [Holds, enclose, Array.size_push] at h ⊢
    exact Nat.lt_succ_of_lt h
  | object id => exact h

theorem agrees_enclose {outer : ScopeId} (other : node ≠ .scope heap.scopes.size) :
    heap.Agrees (heap.enclose outer).2 node := by
  cases node with
  | scope id =>
    have ne : id ≠ heap.scopes.size := fun same => other (by rw [same])
    simp [Agrees, enclose, Array.getElem?_push, ne]
  | object id => rfl

theorem refs_addObject {definition : Class}
    (leads : next ∈ (heap.addObject definition).2.refs node) :
    next ∈ heap.refs node ∨ next ∈ definition.refs := by
  cases node with
  | scope id => exact .inl leads
  | object id =>
    simp only [refs, addObject, Array.getElem?_push] at leads ⊢
    split at leads
    · exact .inr (by simpa [Object.refs, Bindings.refs] using leads)
    · exact .inl leads

theorem holds_addObject {definition : Class} (h : heap.Holds node) :
    (heap.addObject definition).2.Holds node := by
  cases node with
  | scope id => exact h
  | object id =>
    simp only [Holds, addObject, Array.size_push] at h ⊢
    exact Nat.lt_succ_of_lt h

theorem agrees_addObject {definition : Class} (other : node ≠ .object heap.objects.size) :
    heap.Agrees (heap.addObject definition).2 node := by
  cases node with
  | scope id => rfl
  | object id =>
    have ne : id ≠ heap.objects.size := fun same => other (by rw [same])
    simp [Agrees, addObject, Array.getElem?_push, ne]

end

/-! ## What is found inside of a closed set -/

def Closed (heap : Heap) (live : Node → Prop) : Prop :=
  ∀ {node next}, live node → next ∈ heap.refs node → live next

namespace Closed

variable {heap : Heap} {live : Node → Prop}

theorem chain (closed : heap.Closed live) {scope : ScopeId} (met : live (.scope scope))
    {id : ScopeId}
    (outward : id ∈ heap.chain scope) : live (.scope id) := by
  induction scope using Heap.chain.induct heap with
  | case1 scope none =>
    rw [chain_of_none none] at outward
    cases outward
  | case2 scope found here isRoot =>
    rw [chain_of_root here isRoot, List.mem_singleton] at outward
    exact outward ▸ met
  | case3 scope found here parent isParent ih =>
    rw [chain_of_parent here isParent, List.mem_cons] at outward
    rcases outward with rfl | outward
    · exact met
    · have up : .scope parent ∈ heap.refs (.scope scope) := by simp [refs, here, Scope.refs, isParent]
      exact ih (closed met up) outward

/-- The scope that a name is found in. -/
theorem holder? (closed : heap.Closed live) {scope : ScopeId} (met : live (.scope scope))
    {name : String}
    {holder : ScopeId} (found : heap.holder? scope name = some holder) : live (.scope holder) :=
  closed.chain met (List.mem_of_find?_eq_some found)

theorem get? (closed : heap.Closed live) {scope : ScopeId} (met : live (.scope scope))
    {name : String}
    {value : Value} (found : heap.get? scope name = some value) :
    ∀ node ∈ value.refs, live node := by
  intro node leads
  obtain ⟨holder, held, bound⟩ := Option.bind_eq_some_iff.1 found
  refine closed (closed.holder? met held) ?_
  have inside := Bindings.mem_refs_of_value? bound leads
  simp only [Heap.bindings, refs] at inside ⊢
  cases here : heap.scopes[holder]? with
  | none => simp [here, Bindings.refs] at inside
  | some scope =>
    simp only [here, Option.map_some, Option.getD_some] at inside
    simp [Scope.refs, inside]

theorem member? (closed : heap.Closed live) {id : ObjectId} (met : live (.object id))
    {name : String}
    {value : Value} (found : heap.member? id name = some value) :
    ∀ node ∈ value.refs, live node := by
  intro node leads
  obtain ⟨object, here, found⟩ := Option.bind_eq_some_iff.1 found
  refine closed met ?_
  simp only [refs, here, Option.map_some, Option.getD_some, Object.refs, List.mem_append]
  split at found
  · next method isMethod =>
    cases found
    have listed : method ∈ object.definition.methods := List.mem_reverse.1 (List.mem_of_find?_eq_some isMethod)
    refine .inl (List.mem_map.2 ⟨method, listed, ?_⟩)
    exact (List.mem_singleton.1 leads).symm
  · exact .inr (Bindings.mem_refs_of_value? found leads)

end Closed

/-! ## What a run keeps -/

/-- The heap is `before` after a run from the roots that met the live scopes and objects. -/
structure Stands (before : Heap) (roots : List Node) (live : Node → Prop) (heap : Heap) : Prop where
  /-- What is met leads to what may be met. -/
  closed {node next : Node} : live node → next ∈ heap.refs node → live next
  /-- What may be met could be reached, or is new. -/
  known {node : Node} : live node → before.Reaches roots node ∨ (¬ before.Holds node ∧ heap.Holds node)
  /-- Nothing goes away. -/
  kept {node : Node} : before.Holds node → heap.Holds node
  /-- What could not be reached is as it was. -/
  untouched {node : Node} : before.Holds node → ¬ before.Reaches roots node → before.Agrees heap node

theorem stands_start (heap : Heap) (roots : List Node) : heap.Stands roots (heap.Reaches roots) heap where
  closed := .step
  known := .inl
  kept := id
  untouched {node} _ _ := by cases node <;> rfl

namespace Stands

variable {before heap : Heap} {roots : List Node} {live : Node → Prop}

/-- A change among what may be met: whatever it adds is new, new steps lead to what may
    be met, and everything else stays as it is. -/
theorem change (h : before.Stands roots live heap) {more : Node → Prop} {changed : Heap}
    (fresh : ∀ {node}, more node → live node ∨ (¬ heap.Holds node ∧ changed.Holds node))
    (grows : Likeness.Grows live more) (holds : ∀ {node}, heap.Holds node → changed.Holds node)
    (refs : ∀ {node next}, next ∈ changed.refs node → next ∈ heap.refs node ∨ more next)
    (same : ∀ {node}, ¬ more node → heap.Agrees changed node) : before.Stands roots more changed where
  closed {node next} met leads := by
    rcases refs leads with old | new
    · rcases fresh met with was | ⟨none, -⟩
      · exact grows _ (h.closed was old)
      · rw [refs_eq_nil none] at old
        cases old
    · exact new
  known {node} met := by
    rcases fresh met with was | ⟨none, now⟩
    · exact (h.known was).imp_right fun new => ⟨new.1, holds new.2⟩
    · exact .inr ⟨fun old => none (h.kept old), now⟩
  kept held := holds (h.kept held)
  untouched {node} held unreached := by
    have apart : ¬ more node := by
      intro met
      rcases fresh met with was | ⟨none, -⟩
      · rcases h.known was with reached | ⟨new, -⟩
        · exact unreached reached
        · exact new held
      · exact none (h.kept held)
    have first := h.untouched held unreached
    have second := same apart
    cases node with
    | scope id => exact Eq.trans second first
    | object id => exact Eq.trans second first

/-- A change that adds nothing. -/
theorem write (h : before.Stands roots live heap) {changed : Heap}
    (holds : ∀ {node}, heap.Holds node → changed.Holds node)
    (refs : ∀ {node next}, next ∈ changed.refs node → next ∈ heap.refs node ∨ live next)
    (same : ∀ {node}, ¬ live node → heap.Agrees changed node) : before.Stands roots live changed :=
  h.change .inl (fun _ met => met) holds refs same

theorem define (h : before.Stands roots live heap) {scope : ScopeId} (met : live (.scope scope))
    (name : String)
    {value : Value} (within : ∀ node ∈ value.refs, live node) :
    before.Stands roots live (heap.define scope name value) := by
  refine h.write heap.holds_define (fun leads => (heap.refs_define leads).imp_right (within _)) fun {node} apart => ?_
  exact heap.agrees_define fun same => apart (same ▸ met)

theorem defineAll (h : before.Stands roots live heap) {scope : ScopeId} (met : live (.scope scope))
    {pairs : List (String × Value)} (within : ∀ pair ∈ pairs, ∀ node ∈ pair.2.refs, live node) :
    before.Stands roots live (heap.defineAll scope pairs) := by
  induction pairs generalizing heap with
  | nil => exact h
  | cons pair pairs ih =>
    obtain ⟨first, others⟩ := List.forall_mem_cons.1 within
    exact ih (h.define met pair.1 first) others

theorem setField (h : before.Stands roots live heap) {id : ObjectId} (met : live (.object id))
    (name : String)
    {value : Value} (within : ∀ node ∈ value.refs, live node) :
    before.Stands roots live (heap.setField id name value) := by
  refine h.write heap.holds_setField (fun leads => (heap.refs_setField leads).imp_right (within _)) fun {node} apart => ?_
  exact heap.agrees_setField fun same => apart (same ▸ met)

/-- The scope added may be met from now on. -/
theorem enclose (h : before.Stands roots live heap) {outer : ScopeId} (met : live (.scope outer)) :
    before.Stands roots (fun node => live node ∨ node = .scope heap.scopes.size) (heap.enclose outer).2 := by
  refine h.change ?_ (fun _ => .inl) heap.holds_enclose ?_ ?_
  · rintro node (was | rfl)
    · exact .inl was
    · exact .inr ⟨Nat.lt_irrefl _, by simp [Holds, Heap.enclose]⟩
  · intro node next leads
    refine (heap.refs_enclose leads).imp_right ?_
    rintro rfl
    exact .inl met
  · intro node apart
    exact heap.agrees_enclose fun same => apart (.inr same)

theorem addObject (h : before.Stands roots live heap) {definition : Class}
    (within : ∀ node ∈ definition.refs, live node) :
    before.Stands roots (fun node => live node ∨ node = .object heap.objects.size) (heap.addObject definition).2 := by
  refine h.change ?_ (fun _ => .inl) heap.holds_addObject ?_ ?_
  · rintro node (was | rfl)
    · exact .inl was
    · exact .inr ⟨Nat.lt_irrefl _, by simp [Holds, Heap.addObject]⟩
  · intro node next leads
    exact (heap.refs_addObject leads).imp_right fun method => .inl (within next method)
  · intro node apart
    exact heap.agrees_addObject fun same => apart (.inr same)

/-! ### What is found on the way -/

theorem assign (h : before.Stands roots live heap) {scope : ScopeId} (met : live (.scope scope))
    (name : String)
    {value : Value} (within : ∀ node ∈ value.refs, live node) :
    before.Stands roots live (heap.assign scope name value) := by
  refine h.define ?_ name within
  cases found : heap.holder? scope name with
  | none => exact met
  | some holder => exact Closed.holder? h.closed met found

theorem get? (h : before.Stands roots live heap) {scope : ScopeId} (met : live (.scope scope))
    {name : String}
    {value : Value} (found : heap.get? scope name = some value) : ∀ node ∈ value.refs, live node :=
  Closed.get? h.closed met found

theorem member? (h : before.Stands roots live heap) {id : ObjectId} (met : live (.object id))
    {name : String}
    {value : Value} (found : heap.member? id name = some value) : ∀ node ∈ value.refs, live node :=
  Closed.member? h.closed met found

end Stands

end Heap

end Lantern
