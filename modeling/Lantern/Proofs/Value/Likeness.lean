/-
  Lantern.Proofs.Value.Likeness — values that compute alike.

  A program computes with values without looking into two things: the bodies of
  functions, with the tokens and tests in them, and which scopes and objects a value
  leads to. `recast g` changes the first throughout a value; `refs` lists the second,
  what a value leads to at once. A likeness fixes a change of bodies and a set of scopes
  and objects that may be met; two values are alike under it if the second is the first
  with its bodies changed, and they lead to what may be met only.

  No operator, index or builtin tells alike values apart, and what they make of alike
  values is alike (`InfixOp.apply_alike`, `PrefixOp.apply_alike`, `Value.index_alike`,
  `Builtin.value_alike`): they take values apart and put them together, and never make a
  scope or an object of their own.
-/

import Lantern.Eval.Operator
import Lantern.Eval.Builtin
import Lantern.Proofs.Syntax.Recast

namespace Lantern

inductive Node where
  | scope (id : ScopeId)
  | object (id : ObjectId)
  deriving DecidableEq, Repr

/-! ## Where a value leads -/

def Class.refs (definition : Class) : List Node :=
  definition.methods.map fun method => .scope method.scope

namespace Value

mutual

def refs : Value → List Node
  | array items => refsAll items
  | function closure => [.scope closure.scope]
  | classObject definition => definition.refs
  | object _ id => [.object id]
  | integer _ | string _ | boolean _ | null | builtin _ => []

def refsAll : List Value → List Node
  | [] => []
  | value :: more => value.refs ++ refsAll more

end

theorem mem_refsAll {values : List Value} {node : Node} :
    node ∈ refsAll values ↔ ∃ value ∈ values, node ∈ value.refs := by
  induction values with
  | nil => simp [refsAll]
  | cons value more ih => simp [refsAll, ih]

end Value

/-! ## Values with other bodies -/

def Function.recast (g : Recast) (function : Function) : Function :=
  { function with literal := function.literal.recast g }

def Class.recast (g : Recast) (definition : Class) : Class :=
  { definition with methods := definition.methods.map (Function.recast g) }

variable (g : Recast)

@[simp] theorem Function.recast_parameters (function : Function) :
    (function.recast g).parameters = function.parameters := by
  simp [Function.recast, Function.parameters]

theorem Function.recast_same (function : Function) : function.recast .same = function := by
  rw [Function.recast, FunctionLiteral.recast_eq _ (.inl (Recast.sparesTests_tokens id)), FunctionLiteral.retoken_id]

theorem Class.recast_same (definition : Class) : definition.recast .same = definition := by
  have same : Function.recast .same = id := funext Function.recast_same
  rw [Class.recast, same, List.map_id]

namespace Value

mutual

def recast (g : Recast) : Value → Value
  | array items => array (recastAll g items)
  | function closure => function (closure.recast g)
  | classObject definition => classObject (definition.recast g)
  | object className id => object className id
  | integer number => integer number
  | string text => string text
  | boolean truth => boolean truth
  | null => null
  | builtin primitive => builtin primitive

def recastAll (g : Recast) : List Value → List Value
  | [] => []
  | value :: more => value.recast g :: recastAll g more

end


@[simp] theorem recastAll_eq_map (values : List Value) :
    recastAll g values = values.map (recast g) := by
  induction values with
  | nil => rfl
  | cons value more ih => simp [recastAll, ih]

@[simp] theorem recast_typeName (value : Value) : (value.recast g).typeName = value.typeName := by
  cases value <;> rfl

@[simp] theorem recast_isTruthy (value : Value) : (value.recast g).isTruthy = value.isTruthy := by
  cases value <;> rfl

theorem recast_display_function (closure : Function) :
    (closure.recast g).display = closure.display := by
  rw [Function.display, Function.display, Function.recast_parameters]
  rfl

mutual

@[simp] theorem recast_inspect (value : Value) : (value.recast g).inspect = value.inspect := by
  cases value with
  | array items => simp only [recast, inspect, inspectAll_recastAll items]
  | function closure => simp only [recast, inspect, recast_display_function]
  | _ => rfl

theorem inspectAll_recastAll (values : List Value) :
    inspectAll (recastAll g values) = inspectAll values := by
  cases values with
  | nil => rfl
  | cons value more => simp only [recastAll, inspectAll, recast_inspect value, inspectAll_recastAll more]

end

@[simp] theorem recast_display (value : Value) : (value.recast g).display = value.display := by
  cases value with
  | string text => rfl
  | _ => exact recast_inspect g _

@[simp] theorem recast_equals (left right : Value) :
    (left.recast g).equals (right.recast g) = left.equals right := by
  simp [equals]

mutual

theorem recast_same (value : Value) : value.recast .same = value := by
  cases value with
  | array items => rw [recast, recastAll_same items]
  | function closure => rw [recast, Function.recast_same]
  | classObject definition => rw [recast, Class.recast_same]
  | _ => rfl

theorem recastAll_same (values : List Value) : recastAll .same values = values := by
  cases values with
  | nil => rfl
  | cons value more => rw [recastAll, recast_same value, recastAll_same more]

end

end Value

/-! ## Likeness -/

/-- A way two runs may differ: the change of bodies in the second, and what both may
    meet. -/
structure Likeness where
  recast : Recast
  live : Node → Prop

namespace Likeness

def Within (w : Likeness) (value : Value) : Prop := ∀ node ∈ value.refs, w.live node

/-- The second value is the first with its bodies changed, and leads to live nodes only. -/
def Like (w : Likeness) (a b : Value) : Prop := b = a.recast w.recast ∧ w.Within a

/-- Operations that come to alike values, or to the same error. -/
def Agree (w : Likeness) (a b : Except EvalError Value) : Prop :=
  b = a.map (Value.recast w.recast) ∧ ∀ value, a = .ok value → w.Within value

def Grows (live more : Node → Prop) : Prop := ∀ node, live node → more node

theorem Grows.refl (live : Node → Prop) : Grows live live := fun _ met => met

theorem Grows.trans {live more most : Node → Prop} (h : Grows live more) (h' : Grows more most) :
    Grows live most :=
  fun node met => h' node (h node met)

def anywhere : Node → Prop := fun _ => True

variable {w : Likeness}

theorem Like.grow {g : Recast} {live more : Node → Prop} {a b : Value} (grows : Grows live more)
    (h : Like ⟨g, live⟩ a b) : Like ⟨g, more⟩ a b :=
  ⟨h.1, fun node found => grows node (h.2 node found)⟩

theorem within_array {items : List Value} :
    w.Within (.array items) ↔ ∀ item ∈ items, w.Within item := by
  constructor
  · intro h item member node found
    exact h node (Value.mem_refsAll.2 ⟨item, member, found⟩)
  · intro h node found
    obtain ⟨item, member, leads⟩ := Value.mem_refsAll.1 found
    exact h item member node leads

/-- A value without parts leads nowhere. -/
theorem within_of_refs {value : Value} (none : value.refs = []) : w.Within value := by
  intro node found
  rw [none] at found
  cases found

theorem agree_error (error : EvalError) : w.Agree (.error error) (.error error) :=
  ⟨rfl, fun _ h => by cases h⟩

theorem Like.agree {a b : Value} (h : w.Like a b) : w.Agree (.ok a) (.ok b) :=
  ⟨by rw [h.1]; rfl, fun _ eq => by cases eq; exact h.2⟩

/-- A value without functions and parts is like itself. -/
theorem like_plain {value : Value} (same : value.recast w.recast = value) (none : value.refs = []) :
    w.Like value value :=
  ⟨same.symm, within_of_refs none⟩

end Likeness

/-! ## Operators, indices and builtins -/

section

variable {w : Likeness} {a b a' b' : Value}

theorem InfixOp.agree_badOperands (op : InfixOp) (a b : Value) :
    w.Agree (.error (.badOperands op a b)) (.error (.badOperands op (a.recast w.recast) (b.recast w.recast))) := by
  rw [EvalError.badOperands, EvalError.badOperands, Value.recast_typeName, Value.recast_typeName]
  exact Likeness.agree_error _

theorem InfixOp.onIntegers_alike (op : InfixOp) (n m : Int64) :
    w.Agree (op.onIntegers n m) (op.onIntegers n m) := by
  have number (result : Int64) : w.Agree (.ok (.integer result)) (.ok (.integer result)) :=
    (Likeness.like_plain rfl rfl).agree
  unfold InfixOp.onIntegers
  cases op with
  | add | sub | mul => exact number _
  | div | mod => dsimp only; split <;> first | exact Likeness.agree_error _ | exact number _
  | _ => exact Likeness.agree_error _

theorem InfixOp.arithmetic_alike (op : InfixOp) (left : w.Like a a') (right : w.Like b b') :
    w.Agree (op.arithmetic a b) (op.arithmetic a' b') := by
  obtain ⟨rfl, within⟩ := left
  obtain ⟨rfl, within'⟩ := right
  cases a with
  | integer n =>
    cases b with
    | integer m => exact op.onIntegers_alike n m
    | _ => exact op.agree_badOperands _ _
  | string text =>
    cases b with
    | string more =>
      simp only [Value.recast, InfixOp.arithmetic]
      split
      · exact (Likeness.like_plain rfl rfl).agree
      · exact op.agree_badOperands (.string text) (.string more)
    | _ => exact op.agree_badOperands _ _
  | array items =>
    cases b with
    | array more =>
      simp only [Value.recast, InfixOp.arithmetic, Value.recastAll_eq_map]
      split
      · refine Likeness.Like.agree ⟨by simp [Value.recast], Likeness.within_array.2 fun item member => ?_⟩
        rcases List.mem_append.1 member with here | there
        · exact Likeness.within_array.1 within item here
        · exact Likeness.within_array.1 within' item there
      · exact op.agree_badOperands (.array items) (.array more)
    | _ => exact op.agree_badOperands _ _
  | _ => exact op.agree_badOperands _ _

/-- An operation on two values whose outcome `f` only depends on what other bodies leave
    as it is, and that comes to a value without parts. -/
theorem Likeness.agree_plain {f : Value → Value → Except EvalError Value} (left : w.Like a a')
    (right : w.Like b b')
    (same : f (a.recast w.recast) (b.recast w.recast) = f a b)
    (plain : ∀ value, f a b = .ok value → value.recast w.recast = value ∧ value.refs = []) :
    w.Agree (f a b) (f a' b') := by
  obtain ⟨rfl, -⟩ := left
  obtain ⟨rfl, -⟩ := right
  rw [same]
  cases outcome : f a b with
  | error error => exact Likeness.agree_error error
  | ok value =>
    obtain ⟨same, none⟩ := plain value outcome
    exact (Likeness.like_plain same none).agree

theorem InfixOp.compare_alike (holds : Int64 → Int64 → Bool) (left : w.Like a a')
    (right : w.Like b b') :
    w.Agree (InfixOp.compare holds a b) (InfixOp.compare holds a' b') := by
  refine Likeness.agree_plain left right ?_ ?_
  · cases a <;> cases b <;> simp [Value.recast, InfixOp.compare, EvalError.cannotCompare, Value.typeName]
  · intro value h
    unfold InfixOp.compare at h
    split at h <;> cases h
    exact ⟨rfl, rfl⟩

theorem InfixOp.bitwise_alike (onBits : Int64 → Int64 → Int64) (onTruth : Bool → Bool → Bool)
    (left : w.Like a a')
    (right : w.Like b b') : w.Agree (.ok (InfixOp.bitwise onBits onTruth a b)) (.ok (InfixOp.bitwise onBits onTruth a' b')) := by
  refine Likeness.agree_plain (f := fun a b => .ok (InfixOp.bitwise onBits onTruth a b)) left right ?_ ?_
  · cases a <;> cases b <;> simp [Value.recast, InfixOp.bitwise, Value.isTruthy]
  · intro value h
    unfold InfixOp.bitwise at h
    split at h <;> cases h <;> exact ⟨rfl, rfl⟩

/-- Operators do not tell alike values apart. -/
theorem InfixOp.apply_alike (op : InfixOp) (left : w.Like a a') (right : w.Like b b') :
    w.Agree (op.apply a b) (op.apply a' b') := by
  have truth (result : Bool) : w.Agree (.ok (.boolean result)) (.ok (.boolean result)) :=
    (Likeness.like_plain rfl rfl).agree
  have equal : a'.equals b' = a.equals b := by rw [left.1, right.1, Value.recast_equals]
  have first : a'.isTruthy = a.isTruthy := by rw [left.1, Value.recast_isTruthy]
  have second : b'.isTruthy = b.isTruthy := by rw [right.1, Value.recast_isTruthy]
  cases op with
  | add | sub | mul | div | mod => exact InfixOp.arithmetic_alike _ left right
  | eq | notEq => simp only [InfixOp.apply, equal]; exact truth _
  | and | or => simp only [InfixOp.apply, first, second]; exact truth _
  | lt | ltEq | gt | gtEq => exact InfixOp.compare_alike _ left right
  | bitAnd | bitOr => exact InfixOp.bitwise_alike _ _ left right

theorem PrefixOp.apply_alike (op : PrefixOp) (operand : w.Like a a') :
    w.Agree (op.apply a) (op.apply a') := by
  obtain ⟨rfl, -⟩ := operand
  cases op with
  | neg =>
    cases a with
    | integer number => exact (Likeness.like_plain rfl rfl).agree
    | _ => exact Likeness.agree_error _
  | not =>
    simp only [PrefixOp.apply, Value.recast_isTruthy]
    exact (Likeness.like_plain rfl rfl).agree

theorem Value.element?_map {α β : Type} (f : α → β) (items : List α) (position : Int64) :
    Value.element? (items.map f) position = (Value.element? items position).map f := by
  unfold Value.element?
  split
  · rfl
  · exact List.getElem?_map

theorem Value.mem_of_element? {α : Type} {items : List α} {position : Int64} {item : α}
    (found : Value.element? items position = some item) : item ∈ items := by
  unfold Value.element? at found
  split at found
  · cases found
  · exact List.mem_of_getElem? found

theorem Value.agree_cannotIndex (a b : Value) :
    w.Agree (.error (.cannotIndex a b)) (.error (.cannotIndex (a.recast w.recast) (b.recast w.recast))) := by
  rw [EvalError.cannotIndex, EvalError.cannotIndex, Value.recast_typeName, Value.recast_typeName]
  exact Likeness.agree_error _

theorem Value.index_alike (target : w.Like a a') (position : w.Like b b') :
    w.Agree (a.index b) (a'.index b') := by
  obtain ⟨rfl, within⟩ := target
  obtain ⟨rfl, -⟩ := position
  cases b with
  | integer i =>
    cases a with
    | array items =>
      simp only [Value.recast, Value.index, Value.recastAll_eq_map, Value.element?_map, List.length_map]
      cases found : Value.element? items i with
      | some item =>
        have inside : w.Within item := Likeness.within_array.1 within item (Value.mem_of_element? found)
        exact Likeness.Like.agree ⟨rfl, inside⟩
      | none => exact Likeness.agree_error _
    | string text =>
      simp only [Value.recast, Value.index]
      split
      · exact (Likeness.like_plain rfl rfl).agree
      · exact Likeness.agree_error _
    | _ => exact Value.agree_cannotIndex _ (.integer i)
  | _ => exact Value.agree_cannotIndex _ _

end

def Likeness.LikeAll (w : Likeness) (as bs : List Value) : Prop :=
  bs = as.map (Value.recast w.recast) ∧ ∀ a ∈ as, w.Within a

theorem Likeness.LikeAll.grow {g : Recast} {live more : Node → Prop} {as bs : List Value}
    (grows : Grows live more)
    (h : LikeAll ⟨g, live⟩ as bs) : LikeAll ⟨g, more⟩ as bs :=
  ⟨h.1, fun a member node found => grows node (h.2 a member node found)⟩

theorem Builtin.agree_badArgument {w : Likeness} (primitive : Builtin) (expected : String)
    (got : Value) :
    w.Agree (.error (.badArgument primitive expected got)) (.error (.badArgument primitive expected (got.recast w.recast))) := by
  rw [EvalError.badArgument, EvalError.badArgument, Value.recast_typeName]
  exact Likeness.agree_error _

/-- Builtins read their arguments and nothing else, and do not tell alike ones apart. -/
theorem Builtin.value_alike {w : Likeness} {as bs : List Value} (primitive : Builtin)
    (arguments : w.LikeAll as bs) :
    w.Agree (primitive.value as) (primitive.value bs) := by
  obtain ⟨rfl, within⟩ := arguments
  have plain {value : Value} (same : value.recast w.recast = value) (none : value.refs = []) :
      w.Agree (.ok value) (.ok value) := (Likeness.like_plain same none).agree
  rcases as with _ | ⟨a, _ | ⟨b, _ | ⟨c, more⟩⟩⟩
  -- no argument
  · cases primitive with
    | print => exact plain rfl rfl
    | _ => exact Likeness.agree_error _
  -- one argument
  · simp only [List.map_cons, List.map_nil]
    cases primitive with
    | print => exact plain rfl rfl
    | len =>
      cases a with
      | string text => exact plain rfl rfl
      | array items =>
        simp only [Value.recast, Builtin.value, Value.recastAll_eq_map, List.length_map]
        exact plain rfl rfl
      | _ => exact Builtin.agree_badArgument len _ _
    | typeOf => simp only [Builtin.value, Value.recast_typeName]; exact plain rfl rfl
    | str => simp only [Builtin.value, Value.recast_display]; exact plain rfl rfl
    | assert =>
      simp only [Builtin.value, Value.recast_isTruthy]
      split
      · exact plain rfl rfl
      · exact Likeness.agree_error _
    | push => cases a <;> exact Likeness.agree_error _
  -- two arguments
  · simp only [List.map_cons, List.map_nil]
    cases primitive with
    | print => exact plain rfl rfl
    | len | typeOf | str => cases a <;> exact Likeness.agree_error _
    | assert =>
      simp only [Builtin.value, Value.recast_isTruthy, Value.recast_display]
      split
      · exact plain rfl rfl
      · exact Likeness.agree_error _
    | push =>
      cases a with
      | array items =>
        refine Likeness.Like.agree ⟨by simp [Value.recast], Likeness.within_array.2 fun item member => ?_⟩
        rcases List.mem_append.1 member with old | new
        · exact Likeness.within_array.1 (within _ (by simp)) item old
        · rw [List.mem_singleton.1 new]
          exact within b (by simp)
      | _ => exact Builtin.agree_badArgument push _ _
  -- more
  · simp only [List.map_cons]
    cases primitive with
    | print => exact plain rfl rfl
    | _ =>
      cases a <;> simp only [Value.recast, Builtin.value, List.length_cons, List.length_map] <;>
        exact Likeness.agree_error _

theorem Builtin.lines_alike {w : Likeness} {as bs : List Value} (primitive : Builtin)
    (arguments : w.LikeAll as bs) :
    primitive.lines bs = primitive.lines as := by
  obtain ⟨rfl, -⟩ := arguments
  cases primitive with
  | print => simp [Builtin.lines]
  | _ => rfl

end Lantern
