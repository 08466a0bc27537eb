/-
  Lantern.Proofs.Value.Data — plain data is told by its text.

  Values are compared by the text that shows them. A value of plain data is a number, a
  truth value, `null`, a string without a quote in it, or an array of plain data
  (`Value.isData`). Its text can be read in one way only: the first character gives away
  the kind of the value (`Value.kindOf`), and the value ends where no number goes on, at
  the second quote, or at the bracket that closes it. So texts that are equal, each with
  something behind it that may stand behind a value, come from one value and have the
  same behind it (`Value.told`).
  - `equals_iff`, `equals_array_iff`: equality on plain data is identity, on arrays
    element by element.
-/

import Mathlib.Data.List.Forall2
import Lantern.Value.Basic
import Lantern.Proofs.Text.Decimal
import Lantern.Proofs.Token.Spelling
import Lantern.Proofs.Token.Proper

namespace Lantern.Value

mutual

/-- Numbers, truth values, `null`, strings without a quote in them, and arrays of these. -/
def isData : Value → Bool
  | integer _ | boolean _ | null => true
  | string text => isQuotable text
  | array items => areData items
  | _ => false

def areData : List Value → Bool
  | [] => true
  | value :: more => value.isData && areData more

end

/-! ## The text, character by character -/

def chars (value : Value) : List Char := value.inspect.toList

/-- The text of an array behind one of its elements, with `more` still to come. -/
def closing : List Value → List Char
  | [] => [']']
  | value :: more => ',' :: ' ' :: (value.chars ++ closing more)

@[simp] theorem chars_string (text : String) : (string text).chars = '"' :: (text.toList ++ ['"']) := by
  simp [chars, inspect]

@[simp] theorem chars_null : null.chars = ['n', 'u', 'l', 'l'] := by
  simp [chars, inspect]

theorem toList_joined (first : Value) (more : List Value) :
    (commaSeparated (inspectAll (first :: more))).toList ++ [']'] = first.chars ++ closing more := by
  induction more generalizing first with
  | nil => simp [commaSeparated, joinWith, inspectAll, closing, chars]
  | cons next more ih =>
    have rest := ih next
    simp only [commaSeparated, inspectAll] at rest
    simp only [commaSeparated, inspectAll, joinWith, String.toList_append, List.append_assoc, rest, closing, chars]
    simp

theorem chars_empty : (array []).chars = ['[', ']'] := by
  simp [chars, inspect, inspectAll, commaSeparated, joinWith]

theorem chars_array (first : Value) (more : List Value) :
    (array (first :: more)).chars = '[' :: (first.chars ++ closing more) := by
  rw [← toList_joined]
  simp [chars, inspect]

/-! ## Where a value starts and ends -/

def kindOf (c : Char) : String :=
  if c = '"' then "String"
  else if c = '[' then "Array"
  else if c = 't' ∨ c = 'f' then "Boolean"
  else if c = 'n' then "Null"
  else "Integer"

def isNumeral (c : Char) : Bool := c.isDigit || c == '-'

theorem numerals_toString (number : Int) :
    (toString number).toList ≠ [] ∧ ∀ c ∈ (toString number).toList, isNumeral c := by
  have digits (n : Nat) : ∀ c ∈ n.repr.toList, isNumeral c := by
    intro c member
    rw [isNumeral, List.all_eq_true.1 (Text.repr_digits n) c member, Bool.true_or]
  rw [Int.toString_eq_repr]
  cases number with
  | ofNat n => exact ⟨Text.repr_ne_nil n, digits n⟩
  | negSucc n =>
    have written : (Int.repr (.negSucc n)).toList = '-' :: (n + 1).repr.toList := by simp [Int.repr]
    rw [written]
    exact ⟨List.cons_ne_nil _ _, List.forall_mem_cons.2 ⟨rfl, digits _⟩⟩

theorem kindOf_numeral {c : Char} (numeral : isNumeral c) : kindOf c = "Integer" := by
  unfold kindOf
  split
  · next eq => subst eq; cases numeral
  split
  · next eq => subst eq; cases numeral
  split
  · next eq => rcases eq with rfl | rfl <;> cases numeral
  split
  · next eq => subst eq; cases numeral
  · rfl

/-- The first character of plain data gives away its kind, and it closes no bracket. -/
theorem chars_head {v : Value} (data : v.isData) :
    ∃ c more, v.chars = c :: more ∧ kindOf c = v.typeName ∧ c ≠ ']' := by
  cases v with
  | integer number =>
    obtain ⟨nonempty, numerals⟩ := numerals_toString number.toInt
    obtain ⟨c, more, written⟩ := List.exists_cons_of_ne_nil nonempty
    have numeral : isNumeral c := numerals c (by rw [written]; exact List.mem_cons_self)
    refine ⟨c, more, written, kindOf_numeral numeral, ?_⟩
    rintro rfl
    cases numeral
  | string text => exact ⟨_, _, chars_string text, rfl, by decide⟩
  | boolean truth => cases truth <;> exact ⟨_, _, rfl, rfl, by decide⟩
  | null => exact ⟨_, _, chars_null, rfl, by decide⟩
  | array items =>
    cases items with
    | nil => exact ⟨_, _, chars_empty, rfl, by decide⟩
    | cons first more => exact ⟨_, _, chars_array first more, rfl, by decide⟩
  | function | builtin | classObject | object => cases data

def Edge (rest : List Char) : Prop := ∀ c ∈ rest.head?, c = ',' ∨ c = ']'

theorem edge_nil : Edge [] := fun _ none => nomatch none

theorem edge_closing (more : List Value) (rest : List Char) : Edge (closing more ++ rest) := by
  intro c first
  cases more with
  | nil => exact .inr (Option.some.inj first).symm
  | cons value more => exact .inl (Option.some.inj first).symm

/-- A number ends where no digit follows. -/
theorem told_integer {m n : Int64} {rest rest' : List Char} (edge : Edge rest) (edge' : Edge rest')
    (same : (integer m).chars ++ rest = (integer n).chars ++ rest') : m = n ∧ rest = rest' := by
  have taken (k : Int64) {rest : List Char} (edge : Edge rest) :
      ((integer k).chars ++ rest).takeWhile isNumeral = (integer k).chars ∧
        ((integer k).chars ++ rest).dropWhile isNumeral = rest := by
    refine Lexeme.takeWhile_bounded (List.all_eq_true.2 (numerals_toString k.toInt).2) fun c first => ?_
    rcases edge c first with rfl | rfl <;> rfl
  obtain ⟨text, behind⟩ := taken m edge
  obtain ⟨text', behind'⟩ := taken n edge'
  rw [same] at text behind
  have texts : toString m.toInt = toString n.toInt := String.toList_inj.1 (text.symm.trans text')
  have numbers : some m = some n := by rw [← Text.decimal?_toString m, texts, Text.decimal?_toString]
  exact ⟨Option.some.inj numbers, behind.symm.trans behind'⟩

/-- A string ends at the second quote. -/
theorem told_string {s t : String} {rest rest' : List Char} (quotable : isQuotable s)
    (quotable' : isQuotable t)
    (same : (string s).chars ++ rest = (string t).chars ++ rest') : s = t ∧ rest = rest' := by
  have taken {s : String} (quotable : isQuotable s) (rest : List Char) :
      (s.toList ++ '"' :: rest).takeWhile (· != '"') = s.toList ∧
        (s.toList ++ '"' :: rest).dropWhile (· != '"') = '"' :: rest := by
    refine Lexeme.takeWhile_bounded (List.all_eq_true.2 fun c member => ?_) (by simp)
    rw [bne_iff_ne]
    rintro rfl
    simp [isQuotable, member] at quotable
  simp only [chars_string, List.cons_append, List.append_assoc, List.nil_append, List.cons.injEq, true_and] at same
  obtain ⟨text, behind⟩ := taken quotable rest
  obtain ⟨text', behind'⟩ := taken quotable' rest'
  rw [same] at text behind
  exact ⟨String.toList_inj.1 (text.symm.trans text'), (List.cons.inj (behind.symm.trans behind')).2⟩

/-! ## One reading -/

mutual

/-- Plain data is told by its text, whatever stands behind it. -/
theorem told {v w : Value} (data : v.isData) (data' : w.isData) {rest rest' : List Char}
    (edge : Edge rest)
    (edge' : Edge rest') (same : v.chars ++ rest = w.chars ++ rest') : v = w ∧ rest = rest' := by
  have kinds : v.typeName = w.typeName := by
    obtain ⟨c, more, written, kind, -⟩ := chars_head data
    obtain ⟨c', more', written', kind', -⟩ := chars_head data'
    rw [written, written'] at same
    rw [← kind, ← kind', (List.cons.inj same).1]
  cases v with
  | integer m =>
    cases w with
    | integer n =>
      obtain ⟨rfl, behind⟩ := told_integer edge edge' same
      exact ⟨rfl, behind⟩
    | _ => exact absurd kinds (by simp [typeName])
  | string s =>
    cases w with
    | string t =>
      obtain ⟨rfl, behind⟩ := told_string data data' same
      exact ⟨rfl, behind⟩
    | _ => exact absurd kinds (by simp [typeName])
  | boolean p =>
    cases w with
    | boolean q =>
      cases p <;> cases q <;> simp [chars, inspect, truthWord] at same
      all_goals exact ⟨rfl, same⟩
    | _ => exact absurd kinds (by simp [typeName])
  | null =>
    cases w with
    | null => exact ⟨rfl, List.append_cancel_left same⟩
    | _ => exact absurd kinds (by simp [typeName])
  | array vs =>
    cases w with
    | array ws =>
      obtain ⟨rfl, behind⟩ := told_array data data' same
      exact ⟨rfl, behind⟩
    | _ => exact absurd kinds (by simp [typeName])
  | function | builtin | classObject | object => cases data

theorem told_array {vs ws : List Value} (data : areData vs) (data' : areData ws)
    {rest rest' : List Char}
    (same : (array vs).chars ++ rest = (array ws).chars ++ rest') : vs = ws ∧ rest = rest' := by
  -- an element does not start with the bracket that closes an empty array
  have apart {w : Value} {ws : List Value} {rest rest' : List Char} (data : areData (w :: ws))
      (same : (array []).chars ++ rest = (array (w :: ws)).chars ++ rest') : False := by
    obtain ⟨here, -⟩ := Bool.and_eq_true_iff.1 data
    obtain ⟨c, more, written, -, opens⟩ := chars_head here
    rw [chars_empty, chars_array, written] at same
    exact opens (List.cons.inj (List.cons.inj same).2).1.symm
  cases vs with
  | nil =>
    cases ws with
    | nil => exact ⟨rfl, List.append_cancel_left same⟩
    | cons w ws => exact (apart data' same).elim
  | cons v vs =>
    cases ws with
    | nil => exact (apart data same.symm).elim
    | cons w ws =>
      obtain ⟨here, later⟩ := Bool.and_eq_true_iff.1 data
      obtain ⟨here', later'⟩ := Bool.and_eq_true_iff.1 data'
      simp only [chars_array, List.cons_append, List.append_assoc, List.cons.injEq, true_and] at same
      obtain ⟨rfl, behind⟩ := told here here' (edge_closing vs rest) (edge_closing ws rest') same
      obtain ⟨rfl, rfl⟩ := told_closing later later' behind
      exact ⟨rfl, rfl⟩

theorem told_closing {vs ws : List Value} (data : areData vs) (data' : areData ws)
    {rest rest' : List Char}
    (same : closing vs ++ rest = closing ws ++ rest') : vs = ws ∧ rest = rest' := by
  cases vs with
  | nil =>
    cases ws with
    | nil => exact ⟨rfl, List.append_cancel_left same⟩
    | cons w ws => exact absurd (List.cons.inj same).1 (by decide)
  | cons v vs =>
    cases ws with
    | nil => exact absurd (List.cons.inj same).1 (by decide)
    | cons w ws =>
      obtain ⟨here, later⟩ := Bool.and_eq_true_iff.1 data
      obtain ⟨here', later'⟩ := Bool.and_eq_true_iff.1 data'
      simp only [closing, List.cons_append, List.append_assoc, List.cons.injEq, true_and] at same
      obtain ⟨rfl, behind⟩ := told here here' (edge_closing vs rest) (edge_closing ws rest') same
      obtain ⟨rfl, rfl⟩ := told_closing later later' behind
      exact ⟨rfl, rfl⟩

end

/-! ## Equality -/

theorem equals_iff {v w : Value} (data : v.isData) (data' : w.isData) : v.equals w ↔ v = w := by
  constructor
  · intro equal
    simp only [equals, Bool.and_eq_true, beq_iff_eq] at equal
    have same : v.chars ++ [] = w.chars ++ [] := by rw [chars, chars, equal.2]
    exact (told data data' edge_nil edge_nil same).1
  · rintro rfl
    simp [equals]

theorem equals_array_iff {vs ws : List Value} (data : areData vs) (data' : areData ws) :
    (array vs).equals (array ws) ↔ List.Forall₂ (fun v w => v.equals w) vs ws := by
  have whole : (array vs).isData := data
  have whole' : (array ws).isData := data'
  rw [equals_iff whole whole', array.injEq]
  clear whole whole'
  induction vs generalizing ws with
  | nil => cases ws <;> simp
  | cons v vs ih =>
    cases ws with
    | nil => simp
    | cons w ws =>
      obtain ⟨here, later⟩ := Bool.and_eq_true_iff.1 data
      obtain ⟨here', later'⟩ := Bool.and_eq_true_iff.1 data'
      rw [List.forall₂_cons, equals_iff here here', List.cons.injEq]
      exact and_congr_right fun _ => ih later later'

/-- Two values of plain data are equal if and only if they are the same value: of one
    kind, with the same number, truth or text, and arrays with the same elements in the
    same order. So arrays are equal if and only if they are as long as each other and
    equal element by element. -/
theorem equality_structural :
    (∀ v w : Value, v.isData → w.isData → (v.equals w ↔ v = w)) ∧
    ∀ vs ws : List Value, areData vs → areData ws →
      ((array vs).equals (array ws) ↔
        vs.length = ws.length ∧ ∀ i (here : i < vs.length) (there : i < ws.length), vs[i].equals ws[i]) := by
  refine ⟨fun v w => equals_iff, fun vs ws data data' => ?_⟩
  rw [equals_array_iff data data', List.forall₂_iff_get]
  rfl

/-- The comma is in the string here, and between the strings there. -/
def oneString : List Value := [string "a, b", array [integer (-1), null]]

def twoStrings : List Value := [string "a", string "b", array [integer (-1), null]]

theorem equality_structural_commas :
    (areData oneString ∧ areData twoStrings) ∧ (array oneString).equals (array twoStrings) = false ∧
      (array oneString).equals (array oneString) := by
  have data : areData oneString ∧ areData twoStrings := by decide
  obtain ⟨identity, elements⟩ := equality_structural
  refine ⟨data, ?_, ?_⟩
  · rw [Bool.eq_false_iff]
    intro equal
    have lengths := ((elements oneString twoStrings data.1 data.2).1 equal).1
    exact absurd lengths (by decide)
  · exact (identity (array oneString) (array oneString) data.1 data.1).2 rfl

end Lantern.Value
