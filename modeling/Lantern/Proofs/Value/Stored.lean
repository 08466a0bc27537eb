/-
  Lantern.Proofs.Value.Stored — functions kept in values, and values kept in the heap.

  A call runs the body of whatever function the callee is, and a function can come from
  anywhere: out of a scope, out of a field, out of an array. `Value.throughout` asks
  something of every statement in the functions a value is made of, and `Heap.values`
  lists the values that a scope or an object holds. Operators, indexing and builtins
  make no function of their own (`Value.Hereditary`), and a change of the heap stores no
  value but the one it is given. So where all that can be found is as asked, it stays so
  (`Heap.Sound`).
-/

import Lantern.Proofs.Syntax.Throughout
import Lantern.Proofs.Value.Reach

namespace Lantern

/-! ## What values are made of -/

namespace Value

section

variable (ask : Stmt → Bool)

mutual

def throughout : Value → Bool
  | array items => allThroughout items
  | function closure => closure.literal.throughout ask
  | classObject definition => definition.methods.all (·.literal.throughout ask)
  | integer _ | string _ | boolean _ | null | builtin _ | object .. => true

def allThroughout : List Value → Bool
  | [] => true
  | value :: more => value.throughout && allThroughout more

end

theorem allThroughout_iff (values : List Value) :
    allThroughout ask values ↔ ∀ value ∈ values, value.throughout ask := by
  induction values with
  | nil => simp [allThroughout]
  | cons value more ih => simp [allThroughout, ih]

end

/-- A property that data without parts has, and that an array has just if its elements
    do. -/
structure Hereditary (P : Value → Prop) : Prop where
  integer (number : Int64) : P (.integer number)
  string (text : String) : P (.string text)
  boolean (truth : Bool) : P (.boolean truth)
  null : P .null
  array (items : List Value) : P (.array items) ↔ ∀ item ∈ items, P item

namespace Hereditary

variable {P : Value → Prop} {a b value : Value}

theorem onIntegers (h : Hereditary P) {op : InfixOp} {n m : Int64}
    (ok : op.onIntegers n m = .ok value) : P value := by
  unfold InfixOp.onIntegers at ok
  cases op with
  | add | sub | mul => cases ok; exact h.integer _
  | div | mod =>
    dsimp only at ok
    split at ok <;> cases ok
    exact h.integer _
  | _ => cases ok

theorem arithmetic (h : Hereditary P) {op : InfixOp} (left : P a) (right : P b)
    (ok : op.arithmetic a b = .ok value) :
    P value := by
  unfold InfixOp.arithmetic at ok
  split at ok
  · exact h.onIntegers ok
  · split at ok <;> cases ok
    exact h.string _
  · split at ok <;> cases ok
    refine (h.array _).2 fun item member => ?_
    rcases List.mem_append.1 member with here | there
    · exact (h.array _).1 left item here
    · exact (h.array _).1 right item there
  · cases ok

theorem compare (h : Hereditary P) {holds : Int64 → Int64 → Bool}
    (ok : InfixOp.compare holds a b = .ok value) :
    P value := by
  unfold InfixOp.compare at ok
  split at ok <;> cases ok
  exact h.boolean _

theorem bitwise (h : Hereditary P) (onBits : Int64 → Int64 → Int64) (onTruth : Bool → Bool → Bool) :
    P (InfixOp.bitwise onBits onTruth a b) := by
  unfold InfixOp.bitwise
  split
  · exact h.integer _
  · exact h.boolean _

/-- What operators make of values that have the property has it. -/
theorem binary (h : Hereditary P) {op : InfixOp} (left : P a) (right : P b)
    (ok : op.apply a b = .ok value) : P value := by
  cases op with
  | add | sub | mul | div | mod => exact h.arithmetic left right ok
  | lt | ltEq | gt | gtEq => exact h.compare ok
  | eq | notEq | and | or => cases ok; exact h.boolean _
  | bitAnd | bitOr => cases ok; exact h.bitwise _ _

theorem unary (h : Hereditary P) {op : PrefixOp} (ok : op.apply a = .ok value) : P value := by
  unfold PrefixOp.apply at ok
  split at ok <;> cases ok
  · exact h.integer _
  · exact h.boolean _

theorem index (h : Hereditary P) (target : P a) (ok : a.index b = .ok value) : P value := by
  unfold Value.index at ok
  split at ok
  · split at ok
    · split at ok <;> cases ok
      next found => exact (h.array _).1 target _ (Value.mem_of_element? found)
    · split at ok <;> cases ok
      exact h.string _
    · cases ok
  · cases ok

theorem builtin (h : Hereditary P) {primitive : Builtin} {arguments : List Value}
    (all : ∀ argument ∈ arguments, P argument)
    (ok : primitive.value arguments = .ok value) : P value := by
  unfold Builtin.value at ok
  split at ok
  all_goals first | cases ok | skip
  · exact h.null
  · exact h.integer _
  · exact h.integer _
  · exact h.string _
  · exact h.string _
  · split at ok <;> cases ok
    exact h.null
  · split at ok <;> cases ok
    exact h.null
  · refine (h.array _).2 fun item member => ?_
    rcases List.mem_append.1 member with here | last
    · exact (h.array _).1 (all _ (List.mem_cons_self ..)) item here
    · rw [List.mem_singleton.1 last]
      exact all _ (List.mem_cons_of_mem _ (List.mem_cons_self ..))

end Hereditary

structure Sound (ask : Stmt → Bool) (live : Node → Prop) (value : Value) : Prop where
  within : ∀ node ∈ value.refs, live node
  fine : value.throughout ask

theorem hereditary_sound (ask : Stmt → Bool) (live : Node → Prop) : Hereditary (Sound ask live) where
  integer _ := ⟨nofun, rfl⟩
  string _ := ⟨nofun, rfl⟩
  boolean _ := ⟨nofun, rfl⟩
  null := ⟨nofun, rfl⟩
  array items := by
    constructor
    · intro sound item member
      have all := (allThroughout_iff ask items).1 sound.fine
      exact ⟨fun node leads => sound.within node (mem_refsAll.2 ⟨item, member, leads⟩), all item member⟩
    · intro all
      refine ⟨fun node leads => ?_, (allThroughout_iff ask items).2 fun item member => (all item member).fine⟩
      obtain ⟨item, member, leads⟩ := mem_refsAll.1 leads
      exact (all item member).within node leads

end Value

/-! ## What the heap holds -/

namespace Bindings

def values (bindings : Bindings) : List Value := bindings.map (·.2)

theorem mem_values_of_value? {bindings : Bindings} {name : String} {value : Value}
    (bound : bindings.value? name = some value) : value ∈ bindings.values := by
  induction bindings with
  | nil => cases bound
  | cons entry more ih =>
    simp only [value?] at bound
    simp only [values, List.map_cons, List.mem_cons]
    split at bound
    · cases bound; exact .inl rfl
    · exact .inr (ih bound)

theorem mem_values_put {bindings : Bindings} {name : String} {new value : Value}
    (stored : value ∈ (bindings.put name new).values) : value ∈ bindings.values ∨ value = new := by
  induction bindings with
  | nil => exact .inr (by simpa [values, put] using stored)
  | cons entry more ih =>
    simp only [put] at stored
    split at stored
    · simp only [values, List.map_cons, List.mem_cons] at stored ⊢
      exact stored.symm.imp_left .inr
    · simp only [values, List.map_cons, List.mem_cons] at stored ih ⊢
      rcases stored with here | later
      · exact .inl (.inl here)
      · exact (ih later).imp_left .inr

theorem mem_refs_of_mem_values {bindings : Bindings} {value : Value} {node : Node}
    (stored : value ∈ bindings.values)
    (leads : node ∈ value.refs) : node ∈ bindings.refs := by
  obtain ⟨entry, member, rfl⟩ := List.mem_map.1 stored
  exact List.mem_flatMap.2 ⟨entry, member, leads⟩

end Bindings

def Object.values (object : Object) : List Value :=
  .classObject object.definition :: object.fields.values

namespace Heap

def values (heap : Heap) : Node → List Value
  | .scope id => (heap.scopes[id]?.map (·.bindings.values)).getD []
  | .object id => (heap.objects[id]?.map Object.values).getD []

variable (heap : Heap) {node : Node} {value : Value}

theorem values_eq_nil (none : ¬ heap.Holds node) : heap.values node = [] := by
  cases node with
  | scope id => simp [values, Array.getElem?_eq_none (Nat.le_of_not_lt none)]
  | object id => simp [values, Array.getElem?_eq_none (Nat.le_of_not_lt none)]

/-- What the values of a scope or an object lead to, it leads to. -/
theorem mem_refs_of_mem_values {next : Node} (stored : value ∈ heap.values node)
    (leads : next ∈ value.refs) :
    next ∈ heap.refs node := by
  cases node with
  | scope id =>
    simp only [values, refs] at stored ⊢
    cases found : heap.scopes[id]? with
    | none => simp [found] at stored
    | some scope =>
      simp only [found, Option.map_some, Option.getD_some] at stored
      simp [Scope.refs, Bindings.mem_refs_of_mem_values stored leads]
  | object id =>
    simp only [values, refs] at stored ⊢
    cases found : heap.objects[id]? with
    | none => simp [found] at stored
    | some object =>
      simp only [found, Option.map_some, Option.getD_some, Object.values, List.mem_cons] at stored
      rcases stored with rfl | field
      · simp [Object.refs, show next ∈ object.definition.refs from leads]
      · simp [Object.refs, Bindings.mem_refs_of_mem_values field leads]

/-! ### What the changes store -/

theorem values_define {scope : ScopeId} {name : String} {new : Value}
    (stored : value ∈ (heap.define scope name new).values node) :
    value ∈ heap.values node ∨ value = new := by
  cases node with
  | object id => exact .inl stored
  | scope id =>
    simp only [values, define, Array.getElem?_modify] at stored ⊢
    split at stored
    · next same =>
      subst same
      cases found : heap.scopes[scope]? with
      | none => simp [found] at stored
      | some old =>
        simp only [found, Option.map_some, Option.getD_some] at stored ⊢
        exact Bindings.mem_values_put stored
    · exact .inl stored

theorem values_setField {id : ObjectId} {name : String} {new : Value}
    (stored : value ∈ (heap.setField id name new).values node) :
    value ∈ heap.values node ∨ value = new := by
  cases node with
  | scope id => exact .inl stored
  | object other =>
    simp only [values, setField, Array.getElem?_modify] at stored ⊢
    split at stored
    · next same =>
      subst same
      cases found : heap.objects[id]? with
      | none => simp [found] at stored
      | some old =>
        simp only [found, Option.map_some, Option.getD_some, Object.values, List.mem_cons] at stored ⊢
        rcases stored with isClass | field
        · exact .inl (.inl isClass)
        · exact (Bindings.mem_values_put field).imp_left .inr
    · exact .inl stored

theorem values_enclose {outer : ScopeId} (stored : value ∈ (heap.enclose outer).2.values node) :
    value ∈ heap.values node := by
  cases node with
  | object id => exact stored
  | scope id =>
    simp only [values, enclose, Array.getElem?_push] at stored ⊢
    split at stored
    · simp [Bindings.values] at stored
    · exact stored

theorem values_addObject {definition : Class}
    (stored : value ∈ (heap.addObject definition).2.values node) :
    value ∈ heap.values node ∨ value = .classObject definition := by
  cases node with
  | scope id => exact .inl stored
  | object id =>
    simp only [values, addObject, Array.getElem?_push] at stored ⊢
    split at stored
    · exact .inr (by simpa [Object.values, Bindings.values] using stored)
    · exact .inl stored

/-! ### A new root -/

/-- From a root that leads nowhere nothing else can be found. -/
theorem Reaches.eq_of_refs {heap : Heap} {root : Node} (h : heap.Reaches [root] node)
    (none : heap.refs root = []) :
    node = root := by
  refine h.within (fun found isRoot => List.mem_singleton.1 isRoot) fun {a b} same leads => ?_
  rw [same, none] at leads
  cases leads

theorem refs_addRoot : heap.addRoot.2.refs (.scope heap.addRoot.1) = [] := by
  simp [refs, addRoot, Scope.refs, Bindings.refs]

theorem values_addRoot : heap.addRoot.2.values (.scope heap.addRoot.1) = [] := by
  simp [values, addRoot, Bindings.values]

theorem refs_defineAll {scope : ScopeId} {pairs : List (String × Value)} {next : Node}
    (leads : next ∈ (heap.defineAll scope pairs).refs node) :
    next ∈ heap.refs node ∨ ∃ pair ∈ pairs, next ∈ pair.2.refs := by
  induction pairs generalizing heap with
  | nil => exact .inl leads
  | cons pair pairs ih =>
    rcases ih (heap.define scope pair.1 pair.2) leads with before | ⟨other, member, leads⟩
    · exact (heap.refs_define before).imp_right fun here => ⟨pair, List.mem_cons_self .., here⟩
    · exact .inr ⟨other, List.mem_cons_of_mem _ member, leads⟩

theorem values_defineAll {scope : ScopeId} {pairs : List (String × Value)}
    (stored : value ∈ (heap.defineAll scope pairs).values node) :
    value ∈ heap.values node ∨ ∃ pair ∈ pairs, value = pair.2 := by
  induction pairs generalizing heap with
  | nil => exact .inl stored
  | cons pair pairs ih =>
    rcases ih (heap.define scope pair.1 pair.2) stored with before | ⟨other, member, same⟩
    · exact (heap.values_define before).imp_right fun here => ⟨pair, List.mem_cons_self .., here⟩
    · exact .inr ⟨other, List.mem_cons_of_mem _ member, same⟩

/-- The root with the builtins leads nowhere and holds no function of a program. -/
theorem refs_addBuiltinRoot : heap.addBuiltinRoot.2.refs (.scope heap.addBuiltinRoot.1) = [] := by
  rw [List.eq_nil_iff_forall_not_mem]
  intro next leads
  rcases heap.addRoot.2.refs_defineAll leads with old | ⟨pair, member, leads⟩
  · exact absurd old (by rw [show heap.addBuiltinRoot.1 = heap.addRoot.1 from rfl, refs_addRoot]; nofun)
  · obtain ⟨primitive, -, rfl⟩ := List.mem_map.1 member
    cases leads

theorem values_addBuiltinRoot
    (stored : value ∈ heap.addBuiltinRoot.2.values (.scope heap.addBuiltinRoot.1)) :
    ∃ primitive, value = .builtin primitive := by
  rcases heap.addRoot.2.values_defineAll stored with old | ⟨pair, member, rfl⟩
  · exact absurd old (by rw [show heap.addBuiltinRoot.1 = heap.addRoot.1 from rfl, values_addRoot]; nofun)
  · obtain ⟨primitive, -, rfl⟩ := List.mem_map.1 member
    exact ⟨primitive, rfl⟩

/-! ### What can be found is as asked -/

/-- Nothing leads out of the live scopes and objects, every function that they hold is
    as asked, and what does not exist yet is among them. -/
structure Sound (ask : Stmt → Bool) (live : Node → Prop) (heap : Heap) : Prop where
  closed : heap.Closed live
  fine {node : Node} {value : Value} : live node → value ∈ heap.values node → value.throughout ask
  fresh {node : Node} : ¬ heap.Holds node → live node

/-- All that can be found from the roots is as asked: then all of that, with what does
    not exist yet, is sound. -/
theorem sound_start {ask : Stmt → Bool} {roots : List Node}
    (fine : ∀ node, heap.Reaches roots node → ∀ value ∈ heap.values node, value.throughout ask) :
    heap.Sound ask fun node => heap.Reaches roots node ∨ ¬ heap.Holds node where
  closed {node next} met leads := by
    rcases met with reached | none
    · exact .inl (reached.step leads)
    · rw [refs_eq_nil none] at leads
      cases leads
  fine {node value} met stored := by
    rcases met with reached | none
    · exact fine node reached value stored
    · rw [values_eq_nil heap none] at stored
      cases stored
  fresh none := .inr none

namespace Sound

variable {heap} {ask : Stmt → Bool} {live : Node → Prop}

theorem held (h : heap.Sound ask live) (met : live node) (stored : value ∈ heap.values node) :
    value.Sound ask live :=
  ⟨fun _ leads => h.closed met (heap.mem_refs_of_mem_values stored leads), h.fine met stored⟩

theorem get? (h : heap.Sound ask live) {scope : ScopeId} (met : live (.scope scope)) {name : String}
    (found : heap.get? scope name = some value) : value.Sound ask live := by
  obtain ⟨holder, held, bound⟩ := Option.bind_eq_some_iff.1 found
  refine h.held (Closed.holder? h.closed met held) ?_
  have inside := Bindings.mem_values_of_value? bound
  simp only [Heap.bindings, values] at inside ⊢
  cases here : heap.scopes[holder]? with
  | none => simp [here, Bindings.values] at inside
  | some scope => simpa [here] using inside

theorem member? (h : heap.Sound ask live) {id : ObjectId} (met : live (.object id)) {name : String}
    (found : heap.member? id name = some value) : value.Sound ask live := by
  refine ⟨Closed.member? h.closed met found, ?_⟩
  obtain ⟨object, here, found⟩ := Option.bind_eq_some_iff.1 found
  have holds {stored : Value} (member : stored ∈ object.values) : stored.throughout ask :=
    h.fine met (by simpa [values, here] using member)
  split at found
  · next method isMethod =>
    cases found
    have listed : method ∈ object.definition.methods := List.mem_reverse.1 (List.mem_of_find?_eq_some isMethod)
    have all := holds (List.mem_cons_self ..)
    exact List.all_eq_true.1 all method listed
  · exact holds (List.mem_cons_of_mem _ (Bindings.mem_values_of_value? found))

/-- A change that leads from live scopes and objects to live ones only, and stores only
    what is as asked. -/
theorem change (h : heap.Sound ask live) {changed : Heap}
    (holds : ∀ {node}, heap.Holds node → changed.Holds node)
    (refs : ∀ {node next}, next ∈ changed.refs node → next ∈ heap.refs node ∨ live next)
    (values : ∀ {node value}, value ∈ changed.values node → value ∈ heap.values node ∨ value.throughout ask) :
    changed.Sound ask live where
  closed met leads := (refs leads).elim (h.closed met) id
  fine met stored := (values stored).elim (h.fine met) id
  fresh none := h.fresh fun held => none (holds held)

theorem define (h : heap.Sound ask live) (sound : value.Sound ask live) (scope : ScopeId)
    (name : String) :
    (heap.define scope name value).Sound ask live := by
  refine h.change heap.holds_define (fun leads => (heap.refs_define leads).imp_right (sound.within _)) fun stored => ?_
  refine (heap.values_define stored).imp_right ?_
  rintro rfl
  exact sound.fine

theorem assign (h : heap.Sound ask live) (sound : value.Sound ask live) (scope : ScopeId)
    (name : String) :
    (heap.assign scope name value).Sound ask live :=
  h.define sound _ name

theorem defineAll (h : heap.Sound ask live) {pairs : List (String × Value)}
    (sound : ∀ pair ∈ pairs, pair.2.Sound ask live)
    (scope : ScopeId) : (heap.defineAll scope pairs).Sound ask live := by
  induction pairs generalizing heap with
  | nil => exact h
  | cons pair pairs ih =>
    obtain ⟨first, others⟩ := List.forall_mem_cons.1 sound
    exact ih (h.define first scope pair.1) others

theorem setField (h : heap.Sound ask live) (sound : value.Sound ask live) (id : ObjectId)
    (name : String) :
    (heap.setField id name value).Sound ask live := by
  refine h.change heap.holds_setField (fun leads => (heap.refs_setField leads).imp_right (sound.within _)) fun stored => ?_
  refine (heap.values_setField stored).imp_right ?_
  rintro rfl
  exact sound.fine

theorem enclose (h : heap.Sound ask live) {outer : ScopeId} (met : live (.scope outer)) :
    (heap.enclose outer).2.Sound ask live := by
  refine h.change heap.holds_enclose (fun leads => ?_) fun stored => .inl (heap.values_enclose stored)
  refine (heap.refs_enclose leads).imp_right ?_
  rintro rfl
  exact met

theorem addObject (h : heap.Sound ask live) {definition : Class}
    (sound : (Value.classObject definition).Sound ask live) :
    (heap.addObject definition).2.Sound ask live := by
  refine h.change heap.holds_addObject (fun leads => (heap.refs_addObject leads).imp_right (sound.within _)) fun stored => ?_
  refine (heap.values_addObject stored).imp_right ?_
  rintro rfl
  exact sound.fine

/-- A scope or an object that is added is live. -/
theorem enclosed (h : heap.Sound ask live) (outer : ScopeId) :
    live (.scope (heap.enclose outer).1) :=
  h.fresh (Nat.lt_irrefl _)

theorem added (h : heap.Sound ask live) (definition : Class) :
    live (.object (heap.addObject definition).1) :=
  h.fresh (Nat.lt_irrefl _)

end Sound

end Heap

end Lantern
