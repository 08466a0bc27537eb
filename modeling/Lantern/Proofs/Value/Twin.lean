/-
  Lantern.Proofs.Value.Twin — a heap with other bodies.

  `Heap.recast g` makes the change throughout a heap, in the bodies of functions and
  methods. Scopes and objects keep their numbers, names what they are bound to; so
  whatever a run asks of a heap has the same answer in its twin, with other bodies, and
  whatever it changes it may change before or after: `recast_get?`, `recast_member?`,
  and a lemma for each of the six changes. A heap with builtins only is its own twin
  (`recast_addBuiltinRoot`).
-/

import Lantern.Proofs.Value.Likeness
import Lantern.Value.Heap

namespace Lantern

variable (g : Recast)

/-! ## Bindings -/

namespace Bindings

def recast (bindings : Bindings) : Bindings := bindings.map fun entry => (entry.1, entry.2.recast g)

@[simp] theorem recast_value? (bindings : Bindings) (name : String) :
    Bindings.value? (bindings.recast g) name = (bindings.value? name).map (Value.recast g) := by
  induction bindings with
  | nil => rfl
  | cons entry more ih =>
    simp only [recast, List.map_cons, value?] at ih ⊢
    split
    · rfl
    · exact ih

theorem recast_put (bindings : Bindings) (name : String) (value : Value) :
    (bindings.put name value).recast g = (bindings.recast g).put name (value.recast g) := by
  induction bindings with
  | nil => rfl
  | cons entry more ih =>
    simp only [recast, List.map_cons, put] at ih ⊢
    split
    · rfl
    · rw [List.map_cons, ih]

end Bindings

def Scope.recast (scope : Scope) : Scope := { scope with bindings := scope.bindings.recast g }

def Object.recast (object : Object) : Object := ⟨object.definition.recast g, object.fields.recast g⟩

theorem Class.recast_method? (definition : Class) (name : String) :
    (definition.recast g).method? name = (definition.method? name).map (Function.recast g) := by
  simp only [method?, recast, ← List.map_reverse, List.find?_map]
  rfl

/-! ## The heap -/

namespace Heap

def recast (heap : Heap) : Heap where
  scopes := heap.scopes.map (Scope.recast g)
  objects := heap.objects.map (Object.recast g)
  parent_lt := by
    intro id parent scope found isParent
    rw [Array.getElem?_map] at found
    obtain ⟨old, wasFound, rfl⟩ := Option.map_eq_some_iff.1 found
    exact heap.parent_lt wasFound isParent

theorem eq_of {heap other : Heap} (scopes : heap.scopes = other.scopes)
    (objects : heap.objects = other.objects) :
    heap = other := by
  cases heap
  cases other
  cases scopes
  cases objects
  rfl

variable (heap : Heap)

/-! ### Questions -/

theorem recast_chain (id : ScopeId) : (heap.recast g).chain id = heap.chain id := by
  induction id using Heap.chain.induct heap with
  | case1 id none =>
    rw [chain_of_none none, chain_of_none (by simp [recast, none])]
  | case2 id scope found isRoot =>
    have twin : (heap.recast g).scopes[id]? = some (scope.recast g) := by simp [recast, found]
    rw [chain_of_root found isRoot, chain_of_root twin isRoot]
  | case3 id scope found parent isParent ih =>
    have twin : (heap.recast g).scopes[id]? = some (scope.recast g) := by simp [recast, found]
    rw [chain_of_parent found isParent, chain_of_parent twin isParent, ih]

theorem recast_bindings (id : ScopeId) :
    (heap.recast g).bindings id = (heap.bindings id).recast g := by
  simp only [bindings, recast, Array.getElem?_map, Option.map_map]
  cases heap.scopes[id]? <;> rfl

theorem recast_holder? (id : ScopeId) (name : String) :
    (heap.recast g).holder? id name = heap.holder? id name := by
  simp only [holder?, recast_chain, recast_bindings]
  congr 1
  funext scope
  simp [Bindings.binds]

theorem recast_get? (id : ScopeId) (name : String) :
    (heap.recast g).get? id name = (heap.get? id name).map (Value.recast g) := by
  simp only [get?, recast_holder?, recast_bindings, Bindings.recast_value?]
  cases heap.holder? id name <;> rfl

theorem recast_member? (id : ObjectId) (name : String) :
    (heap.recast g).member? id name = (heap.member? id name).map (Value.recast g) := by
  simp only [member?, recast, Array.getElem?_map]
  cases heap.objects[id]? with
  | none => rfl
  | some object =>
    simp only [Option.map_some, Option.bind_some, Object.recast, Class.recast_method?, Bindings.recast_value?]
    cases object.definition.method? name <;> rfl

/-! ### Changes -/

theorem recast_define (id : ScopeId) (name : String) (value : Value) :
    (heap.define id name value).recast g = (heap.recast g).define id name (value.recast g) := by
  refine eq_of (Array.ext_getElem? fun i => ?_) rfl
  simp only [recast, define, Array.getElem?_map, Array.getElem?_modify]
  split
  · cases heap.scopes[i]? <;> simp [Scope.recast, Bindings.recast_put]
  · rfl

theorem recast_assign (id : ScopeId) (name : String) (value : Value) :
    (heap.assign id name value).recast g = (heap.recast g).assign id name (value.recast g) := by
  rw [assign, recast_define, assign, recast_holder?]

theorem recast_defineAll (id : ScopeId) (names : List String) (values : List Value) :
    (heap.defineAll id (names.zip values)).recast g =
      (heap.recast g).defineAll id (names.zip (values.map (Value.recast g))) := by
  induction names generalizing heap values with
  | nil => rfl
  | cons name names ih =>
    cases values with
    | nil => rfl
    | cons value values =>
      have rest := ih (heap.define id name value) values
      rw [recast_define] at rest
      exact rest

theorem recast_setField (id : ObjectId) (name : String) (value : Value) :
    (heap.setField id name value).recast g = (heap.recast g).setField id name (value.recast g) := by
  refine eq_of rfl (Array.ext_getElem? fun i => ?_)
  simp only [recast, setField, Array.getElem?_map, Array.getElem?_modify]
  split
  · cases heap.objects[i]? <;> simp [Object.recast, Bindings.recast_put]
  · rfl

theorem recast_enclose (outer : ScopeId) :
    ((heap.enclose outer).2.recast g) = ((heap.recast g).enclose outer).2 := by
  refine eq_of ?_ rfl
  simp [recast, enclose, Scope.recast, Bindings.recast]

theorem recast_addObject (definition : Class) :
    (heap.addObject definition).2.recast g =
    ((heap.recast g).addObject (definition.recast g)).2 := by
  refine eq_of rfl ?_
  simp [recast, addObject, Object.recast, Bindings.recast]

/-! ### At the start -/

@[simp] theorem recast_empty : empty.recast g = empty :=
  eq_of (by simp [recast, empty]) (by simp [recast, empty])

theorem recast_addRoot : heap.addRoot.2.recast g = (heap.recast g).addRoot.2 := by
  refine eq_of ?_ rfl
  simp [recast, addRoot, Scope.recast, Bindings.recast]

/-- Builtins have no bodies. -/
theorem recast_addBuiltinRoot :
    heap.addBuiltinRoot.2.recast g = (heap.recast g).addBuiltinRoot.2 := by
  have pairs : (Builtin.all.map fun primitive => (primitive.name, Value.builtin primitive)) =
      (Builtin.all.map Builtin.name).zip (Builtin.all.map Value.builtin) := (List.zip_map' ..).symm
  have values : (Builtin.all.map Value.builtin).map (Value.recast g) = Builtin.all.map Value.builtin := by
    rw [List.map_map]
    exact List.map_congr_left fun _ _ => rfl
  have root : (heap.recast g).addRoot.1 = heap.addRoot.1 := by simp [recast, addRoot]
  simp only [addBuiltinRoot, pairs, recast_defineAll, values, recast_addRoot, root]

end Heap

end Lantern
