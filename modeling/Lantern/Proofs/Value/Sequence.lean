/-
  Lantern.Proofs.Value.Sequence — strings and arrays as sequences.

  A string is a sequence of characters, each of them a string of its own when it is
  taken out, and an array is a sequence of values (`Value.parts`). Length, indexing, `+`
  and `push` each see a sequence through its parts alone: there is one law for each of
  them that speaks of parts, and texts and arrays need not be told apart after that.

  - `sequences_lawful`: lengths, elements and joins of two strings or two arrays, for
    every index.
-/

import Mathlib.Algebra.Ring.Nat
import Lantern.Eval.Run
import Lantern.Proofs.Value.Likeness

namespace Lantern

/-! ## Sequences and their parts -/

namespace Value

/-- What a sequence is made of: the characters of a string, each a string of its own,
    and the elements of an array. -/
def parts : Value → List Value
  | string text => text.toList.map fun c => string (String.singleton c)
  | array items => items
  | _ => []

def isSequence : Value → Bool
  | string _ => true
  | array _ => true
  | _ => false

inductive Joinable : Value → Value → Prop
  | strings (a b : String) : Joinable (string a) (string b)
  | arrays (as bs : List Value) : Joinable (array as) (array bs)

variable {x y : Value}

theorem Joinable.left (h : Joinable x y) : x.isSequence := by cases h <;> rfl

theorem Joinable.right (h : Joinable x y) : y.isSequence := by cases h <;> rfl

/-! ## Lengths -/

theorem lt_of_toInt_eq {n : Int64} {count : Nat} (length : n.toInt = count) : count < 2 ^ 63 := by
  have below := n.toInt_lt
  omega

/-- A length counts the parts. -/
theorem len_value (seq : x.isSequence) {n : Int64} (length : n.toInt = x.parts.length) :
    Builtin.len.value [x] = .ok (integer n) := by
  have same : Int64.ofNat x.parts.length = n := by
    rw [← Int64.toInt_inj, Int64.toInt_ofNat_of_lt (lt_of_toInt_eq length), length]
  have counted : Builtin.len.value [x] = .ok (ofCount x.parts.length) := by
    cases x with
    | string text => rw [parts, List.length_map, String.length_toList]; rfl
    | array items => rfl
    | _ => cases seq
  rw [counted, ofCount, if_pos (length ▸ n.toInt_le), same]

/-! ## Elements -/

/-- An index takes out a part. -/
theorem index_integer (seq : x.isSequence) (i : Int64) :
    x.index (integer i) =
      match element? x.parts i with
      | some part => .ok part
      | none => .error (.outOfBounds i x.parts.length) := by
  cases x with
  | string text =>
    simp only [index, parts, element?_map, List.length_map, String.length_toList]
    cases element? text.toList i <;> rfl
  | array items => rfl
  | _ => cases seq

theorem element?_of_nonneg {α : Type} {items : List α} {i : Int64} (start : 0 ≤ i) :
    element? items i = items[i.toInt.toNat]? := by
  rw [element?, if_neg (Int64.not_lt.2 start)]

/-- The element at a position is the part there. -/
theorem index_of_part (seq : x.isSequence) {i : Int64} {part : Value} (start : 0 ≤ i)
    (here : x.parts[i.toInt.toNat]? = some part) : x.index (integer i) = .ok part := by
  rw [index_integer seq, element?_of_nonneg start, here]

section

variable {n i : Int64} (seq : x.isSequence) (length : n.toInt = x.parts.length)

include length

theorem part_inside (start : 0 ≤ i) (inside : i < n) :
    ∃ part, x.parts[i.toInt.toNat]? = some part := by
  have start' : 0 ≤ i.toInt := Int64.le_iff_toInt_le.1 start
  have inside' : i.toInt < n.toInt := Int64.lt_iff_toInt_lt.1 inside
  exact ⟨_, List.getElem?_eq_getElem (by omega)⟩

include seq

/-- No negative number is taken for a position, and no position is beyond the last part. -/
theorem index_beyond (outside : i < 0 ∨ n ≤ i) :
    ∃ error, x.index (integer i) = .error error ∧ error.kind = .indexOutOfBounds := by
  have none : element? x.parts i = none := by
    by_cases below : i < 0
    · rw [element?, if_pos below]
    · have start : 0 ≤ i.toInt := Int64.le_iff_toInt_le.1 (Int64.not_lt.1 below)
      have behind : n.toInt ≤ i.toInt := Int64.le_iff_toInt_le.1 (outside.resolve_left below)
      rw [element?, if_neg below, List.getElem?_eq_none_iff]
      omega
  rw [index_integer seq, none]
  exact ⟨_, rfl, rfl⟩

end

theorem character_of_index {text : String} {i : Int64} {part : Value}
    (found : (string text).index (integer i) = .ok part) :
    ∃ c, part = string (String.singleton c) := by
  rw [index_integer rfl] at found
  cases taken : element? (string text).parts i with
  | none =>
    rw [taken] at found
    cases found
  | some part' =>
    rw [taken] at found
    cases found
    obtain ⟨c, -, rfl⟩ := List.mem_map.1 (mem_of_element? taken)
    exact ⟨c, rfl⟩

/-! ## Joins -/

/-- The parts of a join are those of the one in front of those of the other. -/
theorem Joinable.add (h : Joinable x y) :
    ∃ joined, InfixOp.add.apply x y = .ok joined ∧ joined.isSequence ∧ joined.parts = x.parts ++ y.parts := by
  cases h with
  | strings a b => exact ⟨string (a ++ b), rfl, rfl, by simp [parts]⟩
  | arrays as bs => exact ⟨array (as ++ bs), rfl, rfl, rfl⟩

/-- A position counted from a later start. Nothing wraps, as both count from zero. -/
theorem toInt_sub_of_le {i n : Int64} (start : 0 ≤ n.toInt) (behind : n ≤ i) :
    (i - n).toInt = i.toInt - n.toInt := by
  have below : i.toInt < 2 ^ 63 := i.toInt_lt
  have behind' : n.toInt ≤ i.toInt := Int64.le_iff_toInt_le.1 behind
  rw [Int64.toInt_sub]
  exact Int.bmod_eq_of_le (by omega) (by omega)

section

variable {joined : Value} {n m i : Int64} (seq : joined.isSequence) (joins : joined.parts = x.parts ++ y.parts)
  (length : n.toInt = x.parts.length)

include seq joins length

theorem index_join_front (left : x.isSequence) (start : 0 ≤ i) (inside : i < n) :
    joined.index (integer i) = x.index (integer i) := by
  obtain ⟨part, here⟩ := part_inside length start inside
  have there : joined.parts[i.toInt.toNat]? = some part := by
    rw [joins, List.getElem?_append_left (List.getElem?_eq_some_iff.1 here).1, here]
  rw [index_of_part left start here, index_of_part seq start there]

theorem index_join_behind (right : y.isSequence) (length' : m.toInt = y.parts.length)
    (sum : (n + m).toInt = n.toInt + m.toInt)
    (behind : n ≤ i) (inside : i < n + m) :
    ∃ part, joined.index (integer i) = .ok part ∧ y.index (integer (i - n)) = .ok part := by
  have behind' : n.toInt ≤ i.toInt := Int64.le_iff_toInt_le.1 behind
  have inside' : i.toInt < (n + m).toInt := Int64.lt_iff_toInt_lt.1 inside
  have distance : (i - n).toInt = i.toInt - n.toInt := toInt_sub_of_le (by omega) behind
  have start : 0 ≤ i - n := Int64.le_iff_toInt_le.2 (by rw [distance, Int64.toInt_zero]; omega)
  obtain ⟨part, here⟩ := part_inside length' start (Int64.lt_iff_toInt_lt.2 (by omega))
  have there : joined.parts[i.toInt.toNat]? = some part := by
    rw [joins, List.getElem?_append_right (by omega), ← here]
    congr 1
    omega
  have start' : 0 ≤ i := Int64.le_iff_toInt_le.2 (by rw [Int64.toInt_zero]; omega)
  exact ⟨part, index_of_part seq start' there, index_of_part right start here⟩

end

/-! ## Characters joined again -/

def withElement (x text : Value) (position : Nat) : Except EvalError Value := do
  InfixOp.add.apply text (← x.index (integer (Int64.ofNat position)))

def collected (x : Value) (count : Nat) : Except EvalError Value :=
  (List.range count).foldlM x.withElement (string "")

theorem collected_succ (x : Value) (count : Nat) :
    x.collected (count + 1) = (do x.withElement (← x.collected count) count) := by
  simp [collected, List.range_succ]

/-- The characters of a string, joined in order up to any of them, are the string up to
    there. -/
theorem collected_take (text : String) (fits : text.toList.length < 2 ^ 63) {count : Nat}
    (inside : count ≤ text.toList.length) :
    (string text).collected count = .ok (string (String.ofList (text.toList.take count))) := by
  induction count with
  | zero => rfl
  | succ count ih =>
    have here : count < text.toList.length := inside
    have position : (Int64.ofNat count).toInt = count := Int64.toInt_ofNat_of_lt (by omega)
    have start : 0 ≤ Int64.ofNat count := by
      rw [Int64.le_iff_toInt_le, position]
      exact Int.natCast_nonneg count
    have next : (string text).index (integer (Int64.ofNat count)) = .ok (string (String.singleton text.toList[count])) := by
      refine index_of_part rfl start ?_
      rw [position, Int.toNat_natCast]
      simp [parts, here]
    calc (string text).collected (count + 1)
        = (string text).withElement (string (String.ofList (text.toList.take count))) count := by
          rw [collected_succ, ih (Nat.le_of_lt here)]
          rfl
      _ = .ok (string (String.ofList (text.toList.take count) ++ String.singleton text.toList[count])) := by
          rw [withElement, next]
          rfl
      _ = .ok (string (String.ofList (text.toList.take (count + 1)))) := by
          rw [List.take_succ_eq_append_getElem here, String.ofList_append, String.singleton_eq_ofList]

theorem collected_length {text : String} {n : Int64}
    (length : n.toInt = (string text).parts.length) :
    (string text).collected n.toInt.toNat = .ok (string text) := by
  rw [parts, List.length_map] at length
  have count : n.toInt.toNat = text.toList.length := by omega
  rw [count, collected_take text (lt_of_toInt_eq length) (Nat.le_refl _), List.take_length, String.ofList_toList]

end Value

/-! ## The laws -/

open Value

/-- What holds of two sequences of lengths `n` and `m`, and of their join. -/
structure SequenceLaws (x y joined : Value) (n m : Int64) : Prop where
  /-- Lengths count characters and elements, and nothing is lost or added by a join. -/
  len_left : Builtin.len.value [x] = .ok (.integer n) ∧ n.toInt = x.parts.length
  len_right : Builtin.len.value [y] = .ok (.integer m) ∧ m.toInt = y.parts.length
  joins : InfixOp.add.apply x y = .ok joined
  len_joined : Builtin.len.value [joined] = .ok (.integer (n + m)) ∧ (n + m).toInt = n.toInt + m.toInt
  /-- The positions from zero up to the length are those with an element. -/
  index_inside (i : Int64) : 0 ≤ i → i < n → ∃ part, x.parts[i.toInt.toNat]? = some part ∧ x.index (.integer i) = .ok part
  index_outside (i : Int64) : i < 0 ∨ n ≤ i → ∃ error, x.index (.integer i) = .error error ∧ error.kind = .indexOutOfBounds
  /-- A join has the elements of the one in front, and then those of the other. -/
  joined_front (i : Int64) : 0 ≤ i → i < n → joined.index (.integer i) = x.index (.integer i)
  joined_behind (i : Int64) : n ≤ i → i < n + m →
    ∃ part, joined.index (.integer i) = .ok part ∧ y.index (.integer (i - n)) = .ok part
  joined_outside (i : Int64) : i < 0 ∨ n + m ≤ i →
    ∃ error, joined.index (.integer i) = .error error ∧ error.kind = .indexOutOfBounds
  /-- To push a value is to join an array of that value alone, in a new array: the call
      changes nothing. -/
  push (v : Value) : (∃ items, x = .array items) → ∃ pushed,
    InfixOp.add.apply x (.array [v]) = .ok pushed ∧ ∀ state, Run.callBuiltin .push [x, v] state = .value pushed state
  /-- The elements of a string are characters, and joined in order they are the string. -/
  characters (text : String) : x = .string text → x.collected n.toInt.toNat = .ok x ∧
    ∀ i part, x.index (.integer i) = .ok part → ∃ c, part = .string (String.singleton c)

/-- Indexing, lengths, `+` and `push` agree with each other on any two strings and any
    two arrays whose lengths are numbers of the language, at every position and for
    every value. -/
theorem sequences_lawful {x y : Value} (joinable : Joinable x y) (fits : x.parts.length + y.parts.length < 2 ^ 63) :
    ∃ joined n m, SequenceLaws x y joined n m := by
  obtain ⟨joined, joins, seq, parts_eq⟩ := joinable.add
  have left := joinable.left
  have right := joinable.right
  have length : (Int64.ofNat x.parts.length).toInt = x.parts.length := Int64.toInt_ofNat_of_lt (by omega)
  have length' : (Int64.ofNat y.parts.length).toInt = y.parts.length := Int64.toInt_ofNat_of_lt (by omega)
  have both : (Int64.ofNat x.parts.length + Int64.ofNat y.parts.length).toInt = joined.parts.length := by
    rw [← Int64.ofNat_add, parts_eq, List.length_append]
    exact Int64.toInt_ofNat_of_lt fits
  refine ⟨joined, Int64.ofNat x.parts.length, Int64.ofNat y.parts.length, ?_⟩
  generalize Int64.ofNat x.parts.length = n, Int64.ofNat y.parts.length = m at length length' both ⊢
  have sum : (n + m).toInt = n.toInt + m.toInt := by
    rw [both, length, length', parts_eq, List.length_append, Int.natCast_add]
  exact {
    len_left := ⟨len_value left length, length⟩
    len_right := ⟨len_value right length', length'⟩
    joins
    len_joined := ⟨len_value seq both, sum⟩
    index_inside := fun i start inside => by
      obtain ⟨part, here⟩ := part_inside length start inside
      exact ⟨part, here, index_of_part left start here⟩
    index_outside := fun i => index_beyond left length
    joined_front := fun i => index_join_front seq parts_eq length left
    joined_behind := fun i => index_join_behind seq parts_eq length right length' sum
    joined_outside := fun i => index_beyond seq both
    push := fun v ⟨items, isArray⟩ => by
      subst isArray
      exact ⟨.array (items ++ [v]), rfl, fun state => rfl⟩
    characters := fun text isString => by
      subst isString
      exact ⟨collected_length length, fun i part => character_of_index⟩
  }

/-- Characters of several bytes, in front of others. -/
theorem sequences_lawful_accents :
    Joinable (.string "né") (.string "日本") ∧ (parts (.string "né")).length + (parts (.string "日本")).length < 2 ^ 63 ∧
      SequenceLaws (.string "né") (.string "日本") (.string "né日本") 2 2 := by
  have joinable : Joinable (.string "né") (.string "日本") := .strings _ _
  have fits : (parts (.string "né")).length + (parts (.string "日本")).length < 2 ^ 63 := by decide
  obtain ⟨joined, n, m, laws⟩ := sequences_lawful joinable fits
  have two : n = 2 := Int64.toInt_inj.1 (laws.len_left.2.trans (by decide))
  have two' : m = 2 := Int64.toInt_inj.1 (laws.len_right.2.trans (by decide))
  have text : Except.ok (.string "né日本") = Except.ok joined := laws.joins
  cases text
  subst two
  subst two'
  exact ⟨joinable, fits, laws⟩

end Lantern
