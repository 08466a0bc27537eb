/-
  Lantern.Proofs.Value.Nearest — assignment and the scopes that see it.

  Going outward from a scope, a name means the binding of the first scope that has one
  (`Heap.Nearest`). An assignment writes there, or in the scope it starts from if there
  is no such scope. Many scopes share the way outward, and a scope in between that binds
  the name hides the write from those inside of it. To look a name up is one step
  repeated (`holder?_eq`): stop at a scope that binds the name, or else go to its
  parent. A write changes that step at one scope and for one name, so a look-up either
  ends at that scope or goes the way it went before (`Writes.holder?_elsewhere`).

  - `assign_nearest`: what an assignment writes, and what every scope finds behind it.
-/

import Lantern.Proofs.Eval.Growth

namespace Lantern

namespace Heap

/-- `holder` is the first scope that binds `name` on the way outward from a scope, which
    is on its way itself. -/
inductive Nearest (heap : Heap) (name : String) : ScopeId → ScopeId → Prop
  | here {id : ScopeId} (bound : (heap.bindings id).binds name) : Nearest heap name id id
  | outward {id parent holder : ScopeId} (unbound : ¬ (heap.bindings id).binds name)
      (isParent : heap.parent? id = some parent) (found : Nearest heap name parent holder) : Nearest heap name id holder

/-- All that a write changes: the binding of one name in one scope. -/
structure Writes (heap behind : Heap) (target : ScopeId) (name : String) (value : Value) : Prop where
  binding (id : ScopeId) (other : String) :
    (behind.bindings id).value? other = if id = target ∧ other = name then some value else (heap.bindings id).value? other
  parent (id : ScopeId) : behind.parent? id = heap.parent? id
  size : behind.scopes.size = heap.scopes.size
  objects : behind.objects = heap.objects

variable {heap behind : Heap} {id holder target : ScopeId} {name other : String} {value : Value}

/-! ## Looking a name up -/

/-- One step of a look-up. -/
theorem holder?_eq (heap : Heap) (id : ScopeId) (name : String) :
    heap.holder? id name =
      if (heap.bindings id).binds name then some id else (heap.parent? id).bind (heap.holder? · name) := by
  cases found : heap.scopes[id]? with
  | none => simp [holder?, chain_of_none found, bindings, parent?, found, Bindings.binds, Bindings.value?]
  | some scope =>
    cases isParent : scope.parent with
    | none =>
      have root : heap.parent? id = none := by rw [parent?, found, Option.bind_some, isParent]
      rw [root, holder?, chain_of_root found isParent, List.find?_cons]
      cases (heap.bindings id).binds name <;> rfl
    | some parent =>
      have inside : heap.parent? id = some parent := by rw [parent?, found, Option.bind_some, isParent]
      rw [inside, holder?, chain_of_parent found isParent, List.find?_cons]
      cases (heap.bindings id).binds name <;> rfl

theorem nearest_iff : heap.Nearest name id holder ↔ heap.holder? id name = some holder := by
  constructor
  · intro nearest
    induction nearest with
    | here bound => rw [holder?_eq, if_pos bound]
    | outward unbound isParent _ ih => rw [holder?_eq, if_neg unbound, isParent, Option.bind_some, ih]
  · intro held
    induction id using Nat.strongRecOn with
    | ind id ih =>
      rw [holder?_eq] at held
      split at held
      · next bound => cases held; exact .here bound
      · next unbound =>
        obtain ⟨parent, isParent, held⟩ := Option.bind_eq_some_iff.1 held
        exact .outward unbound isParent (ih parent (parent?_lt isParent) held)

theorem Nearest.unique {holder' : ScopeId} (h : heap.Nearest name id holder)
    (h' : heap.Nearest name id holder') :
    holder = holder' :=
  Option.some.inj ((nearest_iff.1 h).symm.trans (nearest_iff.1 h'))

theorem Nearest.bound (h : heap.Nearest name id holder) : (heap.bindings holder).binds name := by
  induction h with
  | here bound => exact bound
  | outward _ _ _ ih => exact ih

/-- What is found is what the nearest scope binds. -/
theorem get?_of_nearest (h : heap.Nearest name id holder) :
    heap.get? id name = (heap.bindings holder).value? name := by
  rw [get?, nearest_iff.1 h, Option.bind_some]

/-- Only a scope that exists binds anything. -/
theorem lt_size_of_binds (bound : (heap.bindings id).binds name) : id < heap.scopes.size := by
  refine Nat.lt_of_not_le fun beyond => ?_
  simp [bindings, Array.getElem?_eq_none beyond, Bindings.binds, Bindings.value?] at bound

/-! ## Writing a binding -/

theorem writes_define (heap : Heap) (exists_ : target < heap.scopes.size) (name : String)
    (value : Value) :
    heap.Writes (heap.define target name value) target name value where
  binding id other := by
    by_cases same : target = id
    · subst same
      have found : heap.scopes[target]? = some heap.scopes[target] := Array.getElem?_eq_getElem exists_
      by_cases same' : other = name
      · simp [define, bindings, Array.getElem?_modify, found, same']
      · simp [define, bindings, Array.getElem?_modify, found, same', Bindings.value?_put_of_ne same']
    · have same' : id ≠ target := fun h => same h.symm
      simp [define, bindings, Array.getElem?_modify, same, same']
  parent id := by
    by_cases same : target = id
    · cases found : heap.scopes[id]? <;> simp [define, parent?, Array.getElem?_modify, same, found]
    · simp [define, parent?, Array.getElem?_modify, same]
  size := by simp [define]
  objects := rfl

namespace Writes

variable (h : heap.Writes behind target name value)

include h

theorem binds_iff (id : ScopeId) (other : String) :
    (behind.bindings id).binds other ↔ (id = target ∧ other = name) ∨
    (heap.bindings id).binds other := by
  rw [Bindings.binds, h.binding]
  split
  · next written => simp [written]
  · next kept => simp [kept, Bindings.binds]

/-- A look-up goes the way it went before, unless it ends at the binding written. -/
theorem holder?_elsewhere (id : ScopeId) (other : String)
    (elsewhere : other = name → ¬ behind.Nearest other id target) :
    behind.holder? id other = heap.holder? id other := by
  induction id using Nat.strongRecOn with
  | ind id ih =>
    have kept : ¬ (id = target ∧ other = name) := by
      rintro ⟨rfl, rfl⟩
      exact elsewhere rfl (.here ((h.binds_iff id other).2 (.inl ⟨rfl, rfl⟩)))
    have same : (behind.bindings id).binds other ↔ (heap.bindings id).binds other := by
      rw [h.binds_iff, or_iff_right kept]
    rw [holder?_eq behind, holder?_eq heap, h.parent]
    by_cases bound : (heap.bindings id).binds other
    · rw [if_pos bound, if_pos (same.2 bound)]
    · rw [if_neg bound, if_neg (mt same.1 bound)]
      cases isParent : heap.parent? id with
      | none => rfl
      | some parent =>
        refine ih parent (parent?_lt isParent) fun isName nearest => elsewhere isName ?_
        exact .outward (mt same.1 bound) ((h.parent id).trans isParent) nearest

/-- Where the binding written is not what is found, what is found is as it was. -/
theorem get?_elsewhere (id : ScopeId) (other : String)
    (elsewhere : other = name → ¬ behind.Nearest other id target) :
    behind.get? id other = heap.get? id other := by
  have same := h.holder?_elsewhere id other elsewhere
  rw [get?, get?, same]
  cases held : heap.holder? id other with
  | none => rfl
  | some holder =>
    rw [Option.bind_some, Option.bind_some, h.binding, if_neg]
    rintro ⟨rfl, rfl⟩
    exact elsewhere rfl (nearest_iff.2 (same.trans held))

theorem get?_written (nearest : behind.Nearest name id target) :
    behind.get? id name = some value := by
  rw [get?_of_nearest nearest, h.binding, if_pos ⟨rfl, rfl⟩]

end Writes

/-! ## Assignment -/

/-- The scope that an assignment writes: the nearest that binds the name, or the one it
    starts from if none does. -/
def Assigned (heap : Heap) (name : String) (id target : ScopeId) : Prop :=
  heap.Nearest name id target ∨
    (∀ holder, ¬ heap.Nearest name id holder) ∧ target = id ∧ (heap.bindings id).value? name = none

theorem assign_eq_define (exists_ : id < heap.scopes.size) (name : String) (value : Value) :
    ∃ target, heap.Assigned name id target ∧ target < heap.scopes.size ∧
      heap.assign id name value = heap.define target name value := by
  cases held : heap.holder? id name with
  | some target =>
    have nearest : heap.Nearest name id target := nearest_iff.2 held
    exact ⟨target, .inl nearest, lt_size_of_binds nearest.bound, by rw [assign, held, Option.getD_some]⟩
  | none =>
    have nowhere (holder : ScopeId) : ¬ heap.Nearest name id holder := fun nearest => by
      rw [nearest_iff, held] at nearest
      cases nearest
    have unbound : (heap.bindings id).value? name = none := by
      refine Option.not_isSome_iff_eq_none.1 fun bound => nowhere id (.here bound)
    exact ⟨id, .inr ⟨nowhere, rfl, unbound⟩, exists_, by rw [assign, held, Option.getD_none]⟩

/-- Behind the write, the scope written is the nearest one from where the assignment
    starts. -/
theorem Assigned.nearest (assigned : heap.Assigned name id target)
    (writes : heap.Writes behind target name value) :
    behind.Nearest name id target := by
  rcases assigned with nearest | ⟨-, rfl, -⟩
  · refine Classical.byContradiction fun elsewhere => elsewhere ?_
    rw [nearest_iff, writes.holder?_elsewhere id name fun _ => elsewhere]
    exact nearest_iff.1 nearest
  · exact .here ((writes.binds_iff target name).2 (.inl ⟨rfl, rfl⟩))

/-- An assignment writes one binding: that of the name in the nearest scope that has
    one, or a new one in the scope it starts from if there is none. From there the name
    means the value then; and so it does from every scope that has the scope written as
    the nearest, and everything else is found as it was, from every scope. -/
theorem assign_nearest (heap : Heap) (id : ScopeId) (exists_ : id < heap.scopes.size) (name : String) (value : Value) :
    ∃ target, heap.Assigned name id target ∧
      heap.Writes (heap.assign id name value) target name value ∧
      (heap.assign id name value).get? id name = some value ∧
      ∀ reader,
        (∀ other, other ≠ name → (heap.assign id name value).get? reader other = heap.get? reader other) ∧
        ((heap.assign id name value).Nearest name reader target → (heap.assign id name value).get? reader name = some value) ∧
        (¬ (heap.assign id name value).Nearest name reader target →
          (heap.assign id name value).get? reader name = heap.get? reader name) := by
  obtain ⟨target, assigned, inside, eq⟩ := assign_eq_define exists_ name value
  have writes : heap.Writes (heap.assign id name value) target name value := by
    rw [eq]
    exact writes_define heap inside name value
  refine ⟨target, assigned, writes, writes.get?_written (assigned.nearest writes), fun reader => ⟨?_, ?_, ?_⟩⟩
  · exact fun other ne => writes.get?_elsewhere reader other fun isName => absurd isName ne
  · exact writes.get?_written
  · exact fun hidden => writes.get?_elsewhere reader name fun _ => hidden

def shadowing : Heap :=
  let (root, heap) := empty.addRoot
  let (_, heap) := (heap.define root "n" (.integer 1)).enclose root
  let (inner, heap) := heap.enclose root
  heap.define inner "n" (.integer 2)

/-- The write goes to the root. The root sees it, and the second scope does not. -/
theorem assign_nearest_shadowing :
    1 < shadowing.scopes.size ∧ (shadowing.assign 1 "n" (.integer 5)).get? 1 "n" = some (.integer 5) ∧
      (shadowing.assign 1 "n" (.integer 5)).get? 0 "n" = some (.integer 5) ∧
      (shadowing.assign 1 "n" (.integer 5)).get? 2 "n" = shadowing.get? 2 "n" := by
  have exists_ : 1 < shadowing.scopes.size := by decide
  obtain ⟨target, assigned, writes, seen, readers⟩ := assign_nearest shadowing 1 exists_ "n" (.integer 5)
  have root : shadowing.Nearest "n" 1 0 := .outward (by decide) rfl (.here (by decide))
  have isRoot : target = 0 := by
    rcases assigned with nearest | ⟨nowhere, -, -⟩
    · exact nearest.unique root
    · exact absurd root (nowhere 0)
  subst isRoot
  have bound (reader : ScopeId) (own : (shadowing.bindings reader).binds "n") :
      (shadowing.assign 1 "n" (.integer 5)).Nearest "n" reader reader :=
    .here ((writes.binds_iff reader "n").2 (.inr own))
  refine ⟨exists_, seen, (readers 0).2.1 (bound 0 (by decide)), (readers 2).2.2 fun root => ?_⟩
  exact absurd (root.unique (bound 2 (by decide))) (by decide)

end Heap

end Lantern
