/-
  Lantern.Value.Heap — scopes and objects, the two things a run can change.

  A scope binds names and stands inside at most one other scope, its parent. Parents are
  older than their children, an invariant of the type, so every walk towards the root
  ends: `chain` is that walk. A name means the binding of the first scope of the chain
  that has one. `assign` changes that binding, or makes a new one in the scope it
  started from; `define` always writes where it stands. An object keeps its class and
  its fields.

  Nothing is ever taken out of the heap, and a number once given stays valid.
-/

import Lantern.Value.Basic

namespace Lantern

/-! ## Bindings -/

abbrev Bindings := List (String × Value)

namespace Bindings

def value? (bindings : Bindings) (name : String) : Option Value :=
  match bindings with
  | [] => none
  | (other, value) :: more => if name = other then some value else value? more name

def binds (bindings : Bindings) (name : String) : Bool := (bindings.value? name).isSome

def put (bindings : Bindings) (name : String) (value : Value) : Bindings :=
  match bindings with
  | [] => [(name, value)]
  | (other, old) :: more => if name = other then (name, value) :: more else (other, old) :: put more name value

def names (bindings : Bindings) : List String := (bindings.map (·.1)).mergeSort fun a b => !(b < a)

@[simp] theorem value?_put_self (bindings : Bindings) (name : String) (value : Value) :
    (bindings.put name value).value? name = some value := by
  induction bindings with
  | nil => simp [put, value?]
  | cons entry more ih => by_cases same : name = entry.1 <;> simp [put, value?, same, ih]

theorem value?_put_of_ne {name other : String} (ne : other ≠ name) (bindings : Bindings)
    (value : Value) :
    (bindings.put name value).value? other = bindings.value? other := by
  induction bindings with
  | nil => simp [put, value?, ne]
  | cons entry more ih =>
    by_cases same : name = entry.1
    · subst same; simp [put, value?, ne]
    · simp [put, value?, same, ih]

end Bindings

/-! ## The heap -/

structure Scope where
  bindings : Bindings
  parent : Option ScopeId
  deriving Inhabited

structure Object where
  definition : Class
  fields : Bindings
  deriving Inhabited

structure Heap where
  scopes : Array Scope
  objects : Array Object
  /-- A parent is older than its children. -/
  parent_lt {id parent : ScopeId} {scope : Scope} (found : scopes[id]? = some scope)
    (isParent : scope.parent = some parent) : parent < id

namespace Heap

def empty : Heap where
  scopes := #[]
  objects := #[]
  parent_lt found := by simp at found

instance : Inhabited Heap := ⟨empty⟩

def addRoot (heap : Heap) : ScopeId × Heap :=
  (heap.scopes.size,
   { heap with
     scopes := heap.scopes.push ⟨[], none⟩
     parent_lt := by
       intro id parent scope found isParent
       rw [Array.getElem?_push] at found
       split at found
       · cases found; cases isParent
       · exact heap.parent_lt found isParent })

def enclose (heap : Heap) (outer : ScopeId) : ScopeId × Heap :=
  (heap.scopes.size,
   { heap with
     scopes := heap.scopes.push ⟨[], if outer < heap.scopes.size then some outer else none⟩
     parent_lt := by
       intro id parent scope found isParent
       rw [Array.getElem?_push] at found
       split at found
       · next last => cases found; split at isParent <;> simp_all
       · exact heap.parent_lt found isParent })

def chain (heap : Heap) (id : ScopeId) : List ScopeId :=
  match _found : heap.scopes[id]? with
  | none => []
  | some scope =>
    match _isParent : scope.parent with
    | none => [id]
    | some parent => id :: chain heap parent
termination_by id
decreasing_by exact heap.parent_lt _found _isParent

theorem chain_of_none {heap : Heap} {id : ScopeId} (found : heap.scopes[id]? = none) :
    heap.chain id = [] := by
  rw [chain]
  split
  · rfl
  · simp_all

theorem chain_of_root {heap : Heap} {id : ScopeId} {scope : Scope}
    (found : heap.scopes[id]? = some scope)
    (isRoot : scope.parent = none) : heap.chain id = [id] := by
  rw [chain]
  split
  · simp_all
  · split <;> simp_all

theorem chain_of_parent {heap : Heap} {id parent : ScopeId} {scope : Scope}
    (found : heap.scopes[id]? = some scope)
    (isParent : scope.parent = some parent) : heap.chain id = id :: heap.chain parent := by
  rw [chain]
  split
  · simp_all
  · split <;> simp_all

def depth (heap : Heap) (id : ScopeId) : Nat := (heap.chain id).length

def bindings (heap : Heap) (id : ScopeId) : Bindings := (heap.scopes[id]?.map (·.bindings)).getD []

/-- The scope that `name` is found in from `id`: the first of the chain that binds it. -/
def holder? (heap : Heap) (id : ScopeId) (name : String) : Option ScopeId :=
  (heap.chain id).find? fun scope => (heap.bindings scope).binds name

def get? (heap : Heap) (id : ScopeId) (name : String) : Option Value :=
  (heap.holder? id name).bind fun scope => (heap.bindings scope).value? name

def define (heap : Heap) (id : ScopeId) (name : String) (value : Value) : Heap :=
  { heap with
    scopes := heap.scopes.modify id fun scope => { scope with bindings := scope.bindings.put name value }
    parent_lt := by
      intro other parent scope found isParent
      rw [Array.getElem?_modify] at found
      split at found
      · obtain ⟨old, wasFound, rfl⟩ := Option.map_eq_some_iff.1 found
        exact heap.parent_lt wasFound isParent
      · exact heap.parent_lt found isParent }

/-- Rebind `name` where it is found from `id`, or bind it there if it is found nowhere. -/
def assign (heap : Heap) (id : ScopeId) (name : String) (value : Value) : Heap :=
  heap.define ((heap.holder? id name).getD id) name value

def defineAll (heap : Heap) (id : ScopeId) (pairs : List (String × Value)) : Heap :=
  pairs.foldl (fun heap (name, value) => heap.define id name value) heap

def addBuiltinRoot (heap : Heap) : ScopeId × Heap :=
  let (root, heap) := heap.addRoot
  (root, heap.defineAll root (Builtin.all.map fun primitive => (primitive.name, .builtin primitive)))

def addObject (heap : Heap) (definition : Class) : ObjectId × Heap :=
  (heap.objects.size, { heap with objects := heap.objects.push ⟨definition, []⟩ })

/-- What `name` means on an object: a method of its class, or else a field. -/
def member? (heap : Heap) (id : ObjectId) (name : String) : Option Value :=
  heap.objects[id]?.bind fun object =>
    match object.definition.method? name with
    | some method => some (.function method)
    | none => object.fields.value? name

def setField (heap : Heap) (id : ObjectId) (name : String) (value : Value) : Heap :=
  { heap with
    objects := heap.objects.modify id fun object => { object with fields := object.fields.put name value } }

def fields (heap : Heap) (id : ObjectId) : Bindings := (heap.objects[id]?.map (·.fields)).getD []

end Heap

end Lantern
