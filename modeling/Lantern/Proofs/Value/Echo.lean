/-
  Lantern.Proofs.Value.Echo — the text that shows a value evaluates to the value.

  Literals write numbers, truth values, strings without a quote in them, and arrays of
  these (`Value.isLiteral`). The least integer is no literal, since a sign is an
  operator and the number behind it would be out of range, and `null` is a name like
  others. The text of a literal value is laid out in marks (`chars_eq`), and wherever
  nothing extends an expression the layout is read as an expression that writes the
  value (`Expr.Writes`): the same shape, with a negative number as the negation of a
  positive one. Such an expression comes to the value in every scope and leaves the
  state alone (`Expr.Writes.evaluates`).

  Main statement:

  - `inspect_evaluates`: the text of a literal value parses to one statement, which
    comes to the value and does nothing else.
-/

import Lantern.Eval.Evaluate
import Lantern.Proofs.Parse.Completeness
import Lantern.Proofs.Parse.Spot
import Lantern.Proofs.Value.Data

namespace Lantern

open Grammar Spot

namespace Value

mutual

def isLiteral : Value → Bool
  | integer number => number != Int64.minValue
  | boolean _ => true
  | string text => isQuotable text
  | array items => areLiteral items
  | _ => false

def areLiteral : List Value → Bool
  | [] => true
  | value :: more => value.isLiteral && areLiteral more

end

/-! ## Layout -/

def numberMark (number : Int64) : Mark := .token .int (toString number.toInt)

mutual

def marks : Value → List Mark
  | integer number => if 0 ≤ number.toInt then [numberMark number] else [.of .minus, numberMark (-number)]
  | boolean truth => [.of (if truth then .trueWord else .falseWord)]
  | string text => [.token .str text]
  | array [] => [.of .lbracket, .of .rbracket]
  | array (first :: more) => .of .lbracket :: (first.marks ++ marksMore more)
  | _ => []

def marksMore : List Value → List Mark
  | [] => [.of .rbracket]
  | value :: more => .of .comma :: .gap :: (value.marks ++ marksMore more)

end

theorem toInt_neg_of_ne {number : Int64} (other : number ≠ Int64.minValue) :
    (-number).toInt = -number.toInt := by
  have low := Int64.le_toInt number
  have high := Int64.toInt_lt number
  have apart : number.toInt ≠ -2 ^ 63 := by
    rw [← Int64.toInt_minValue]
    exact fun same => other (Int64.toInt_inj.1 same)
  rw [Int64.toInt_neg, Int.bmod_eq_of_le] <;> omega

theorem neg_nonneg {number : Int64} (other : number ≠ Int64.minValue)
    (negative : ¬ 0 ≤ number.toInt) :
    0 ≤ (-number).toInt := by
  rw [toInt_neg_of_ne other]
  omega

theorem chars_integer_neg {number : Int64} (other : number ≠ Int64.minValue)
    (negative : ¬ 0 ≤ number.toInt) :
    (integer number).chars = '-' :: (toString (-number).toInt).toList := by
  rw [toInt_neg_of_ne other, chars, inspect]
  cases eq : number.toInt with
  | ofNat n => exact absurd (by rw [eq]; exact Int.natCast_nonneg n) negative
  | negSucc n =>
    rw [Int.toString_eq_repr, Int.toString_eq_repr, Int.neg_negSucc]
    change ("-" ++ (n + 1).repr).toList = '-' :: (n + 1).repr.toList
    rw [String.toList_append]
    rfl

theorem chars_numberMark (number : Int64) :
    (numberMark number).chars = (toString number.toInt).toList := rfl

mutual

/-- The text of a literal value is its layout, written down. -/
theorem chars_eq (v : Value) (literal : v.isLiteral) : v.chars = Mark.written v.marks := by
  cases v with
  | integer number =>
    rw [isLiteral, bne_iff_ne] at literal
    by_cases sign : 0 ≤ number.toInt
    · simp [marks, sign, chars_numberMark, chars, inspect]
    · simp only [marks, sign, if_false, Mark.written_cons, Mark.written_nil, chars_numberMark, chars_integer_neg literal sign,
        List.append_nil]
      rfl
  | boolean truth => cases truth <;> rfl
  | string text => simp [marks]
  | array items =>
    cases items with
    | nil => rfl
    | cons first more =>
      simp only [isLiteral, areLiteral, Bool.and_eq_true] at literal
      rw [chars_array, marks, Mark.written_cons, Mark.written_append, chars_eq first literal.1, closing_eq more literal.2]
      rfl
  | null | function | builtin | classObject | object => cases literal

theorem closing_eq (items : List Value) (literal : areLiteral items) :
    closing items = Mark.written (marksMore items) := by
  cases items with
  | nil => rfl
  | cons first more =>
    simp only [areLiteral, Bool.and_eq_true] at literal
    rw [closing, chars_eq first literal.1, closing_eq more literal.2, marksMore, Mark.written_cons, Mark.written_cons,
      Mark.written_append]
    rfl

end

/-! ## Tokens -/

theorem spelled_numberMark {number : Int64} (nonneg : 0 ≤ number.toInt) :
    Spelled .int (toString number.toInt) :=
  Text.toString_digits nonneg

/-- A number ends at a comma, a bracket or the end. -/
theorem bounds_edge {kind : Kind} {c : Char} (edge : c = ',' ∨ c = ']') : kind.bounds c := by
  rcases edge with rfl | rfl <;> cases kind <;> decide

mutual

/-- The layout is scannable up to a comma, a bracket or the end. -/
theorem scannable_marks (v : Value) (literal : v.isLiteral) {marks : List Mark}
    (scannable : Scannable marks)
    (edge : Edge (Mark.written marks)) : Scannable (v.marks ++ marks) := by
  have ended (kind : Kind) : ∀ c ∈ (Mark.written marks).head?, kind.bounds c := fun c first => bounds_edge (edge c first)
  cases v with
  | integer number =>
    rw [isLiteral, bne_iff_ne] at literal
    by_cases sign : 0 ≤ number.toInt
    · simp only [Value.marks, sign, if_true]
      exact ⟨spelled_numberMark sign, ended _, scannable⟩
    · simp only [Value.marks, sign, if_false]
      exact ⟨rfl, fun c _ => by rfl, spelled_numberMark (neg_nonneg literal sign), ended _, scannable⟩
  | boolean truth => cases truth <;> exact ⟨rfl, ended _, scannable⟩
  | string text => exact ⟨spelled_str literal, ended _, scannable⟩
  | array items =>
    cases items with
    | nil => exact ⟨rfl, fun c _ => by rfl, rfl, ended _, scannable⟩
    | cons first more =>
      simp only [isLiteral, areLiteral, Bool.and_eq_true] at literal
      rw [Value.marks, List.cons_append, List.append_assoc]
      refine ⟨rfl, fun c _ => by rfl, scannable_marks first literal.1 (scannable_marksMore more literal.2 scannable edge) ?_⟩
      rw [Mark.written_append, ← closing_eq more literal.2]
      exact edge_closing more _
  | null | function | builtin | classObject | object => cases literal

theorem scannable_marksMore (items : List Value) (literal : areLiteral items) {marks : List Mark}
    (scannable : Scannable marks)
    (edge : Edge (Mark.written marks)) : Scannable (marksMore items ++ marks) := by
  cases items with
  | nil => exact ⟨rfl, fun c first => bounds_edge (edge c first), scannable⟩
  | cons first more =>
    simp only [areLiteral, Bool.and_eq_true] at literal
    rw [marksMore, List.cons_append, List.cons_append, List.append_assoc]
    refine ⟨rfl, fun c _ => by rfl, scannable_marks first literal.1 (scannable_marksMore more literal.2 scannable edge) ?_⟩
    rw [Mark.written_append, ← closing_eq more literal.2]
    exact edge_closing more _

end

end Value

/-! ## Expressions that write a value -/

mutual

/-- The expression is the value written out; a negative number is the negation of a
    positive one. -/
inductive Expr.Writes : Expr → Value → Prop
  | integer (token : Token) (number : Int64) : Expr.Writes (.integer token number) (.integer number)
  | negative (token token' : Token) (number : Int64) :
      Expr.Writes (.unary token .neg (.integer token' number)) (.integer (-number))
  | boolean (token : Token) (truth : Bool) : Expr.Writes (.boolean token truth) (.boolean truth)
  | string (token : Token) (text : String) : Expr.Writes (.string token text) (.string text)
  | array (token : Token) {elements : List Expr} {items : List Value} :
      Expr.WriteAll elements items → Expr.Writes (.array token elements) (.array items)

inductive Expr.WriteAll : List Expr → List Value → Prop
  | nil : Expr.WriteAll [] []
  | cons {e : Expr} {v : Value} {elements : List Expr} {items : List Value} :
      e.Writes v → Expr.WriteAll elements items → Expr.WriteAll (e :: elements) (v :: items)

end

mutual

/-- What writes a value comes to it wherever it stands, and does nothing else. -/
theorem Expr.Writes.evaluates {e : Expr} {v : Value} (writes : e.Writes v) :
    ∃ enough, ∀ settings scope state fuel, enough ≤ fuel → Eval.expression settings fuel scope e state = .value v state := by
  cases writes with
  | integer | boolean | string =>
    refine ⟨1, fun settings scope state fuel le => ?_⟩
    obtain ⟨fuel, rfl⟩ := Nat.exists_eq_add_of_le' le
    rfl
  | negative =>
    refine ⟨2, fun settings scope state fuel le => ?_⟩
    obtain ⟨fuel, rfl⟩ := Nat.exists_eq_add_of_le' le
    rfl
  | array _ all =>
    obtain ⟨enough, evaluated⟩ := all.evaluate
    refine ⟨enough + 1, fun settings scope state fuel le => ?_⟩
    obtain ⟨fuel, rfl⟩ := Nat.exists_eq_add_of_le' (Nat.le_trans (Nat.le_add_left 1 enough) le)
    change Run.andThen (Eval.expressions settings fuel scope _) _ state = _
    rw [Run.andThen, evaluated settings scope state fuel (Nat.le_of_succ_le_succ le)]
    rfl

theorem Expr.WriteAll.evaluate {es : List Expr} {vs : List Value} (writes : Expr.WriteAll es vs) :
    ∃ enough, ∀ settings scope state fuel, enough ≤ fuel → Eval.expressions settings fuel scope es state = .value vs state := by
  cases writes with
  | nil =>
    refine ⟨1, fun settings scope state fuel le => ?_⟩
    obtain ⟨fuel, rfl⟩ := Nat.exists_eq_add_of_le' le
    rfl
  | cons first more =>
    obtain ⟨enough, evaluated⟩ := first.evaluates
    obtain ⟨enoughMore, evaluatedMore⟩ := more.evaluate
    refine ⟨max enough enoughMore + 1, fun settings scope state fuel le => ?_⟩
    obtain ⟨fuel, rfl⟩ := Nat.exists_eq_add_of_le' (Nat.le_trans (Nat.le_add_left 1 _) le)
    obtain ⟨firstLe, moreLe⟩ := Nat.max_le.1 (Nat.le_of_succ_le_succ le)
    change Run.andThen (Eval.expression settings fuel scope _) _ state = _
    rw [Run.andThen, evaluated settings scope state fuel firstLe]
    change Run.andThen (Eval.expressions settings fuel scope _) _ state = _
    rw [Run.andThen, evaluatedMore settings scope state fuel moreLe]
    rfl

end

/-! ## Reading a layout -/

variable {last : Token}

theorem reads_numberMark (number : Int64) (s : Spot) (marks : List Mark) :
    ∃ token, Reads last (s.place (Value.numberMark number :: marks)) (.operand (.integer token number))
      ((s.past (Value.numberMark number)).place marks) :=
  ⟨_, .integer (reads_token s .int (toString number.toInt) marks) (Text.decimal?_toString number)⟩

/-- Behind an element of an array stands a comma or the bracket that closes it. -/
theorem Value.ends_marksMore (items : List Value) (s : Spot) (marks : List Mark) :
    (s.place (marksMore items ++ marks)).Ends := by
  cases items with
  | nil => exact ends_of rfl
  | cons first more => exact ends_of rfl

mutual

/-- The layout of a literal value is read as an expression that writes it, if nothing
    extends it. -/
theorem Value.reads (v : Value) (literal : v.isLiteral) (s : Spot) (marks : List Mark)
    (ends : ((s.after v.marks).place marks).Ends) :
    ∃ e : Expr, e.Writes v ∧ Reads last (s.place (v.marks ++ marks)) (.operand e) ((s.after v.marks).place marks) := by
  cases v with
  | integer number =>
    by_cases sign : 0 ≤ number.toInt
    · simp only [Value.marks, sign, if_true]
      obtain ⟨token, reads⟩ := @reads_numberMark last number s marks
      exact ⟨_, .integer token number, reads⟩
    · simp only [Value.marks, sign, if_false] at ends ⊢
      obtain ⟨token, reads⟩ := @reads_numberMark last (-number) (s.past (.of .minus)) marks
      refine ⟨_, ?_, .negation (reads_of s .minus _) (.expression (.start reads) (ends _))⟩
      have writes := Expr.Writes.negative (s.token .minus) token (-number)
      rwa [Int64.neg_neg] at writes
  | boolean truth =>
    cases truth with
    | true => exact ⟨_, .boolean (s.token .trueWord) true, .truth (reads_of s .trueWord marks)⟩
    | false => exact ⟨_, .boolean (s.token .falseWord) false, .falsity (reads_of s .falseWord marks)⟩
  | string text => exact ⟨_, .string ⟨.str, text, s.line⟩ text, .string (reads_token s .str text marks)⟩
  | array items =>
    cases items with
    | nil =>
      exact ⟨_, .array (s.token .lbracket) .nil, .array (reads_of s .lbracket _) (.noExpressions (.inr rfl) (reads_of _ _ _))⟩
    | cons first more =>
      simp only [isLiteral, areLiteral, Bool.and_eq_true] at literal
      simp only [Value.marks, List.cons_append, List.append_assoc, after_cons, after_append]
      obtain ⟨e, writes, reads⟩ := Value.reads first literal.1 (s.past (.of .lbracket)) (marksMore more ++ marks)
        (ends_marksMore more _ marks)
      obtain ⟨es, writeAll, readsMore⟩ := Value.reads_more more literal.2 ((s.past (.of .lbracket)).after first.marks) marks
      refine ⟨_, .array (s.token .lbracket) (.cons writes writeAll), .array (reads_of s .lbracket _) ?_⟩
      exact .someExpressions (.expression (.start reads) (ends_marksMore more _ marks _)) readsMore
  | null | function | builtin | classObject | object => cases literal

theorem Value.reads_more (items : List Value) (literal : Value.areLiteral items) (s : Spot)
    (marks : List Mark) :
    ∃ es, Expr.WriteAll es items ∧
      Reads last (s.place (marksMore items ++ marks)) (.moreExpressions .rbracket es)
        ((s.after (marksMore items)).place marks) := by
  cases items with
  | nil => exact ⟨[], .nil, .lastExpression (.inr rfl) (reads_of s .rbracket marks)⟩
  | cons first more =>
    simp only [areLiteral, Bool.and_eq_true] at literal
    simp only [marksMore, List.cons_append, List.append_assoc, after_cons, after_append, past_gap]
    obtain ⟨e, writes, reads⟩ := Value.reads first literal.1 (s.past (.of .comma)) (marksMore more ++ marks)
      (ends_marksMore more _ marks)
    obtain ⟨es, writeAll, readsMore⟩ := Value.reads_more more literal.2 ((s.past (.of .comma)).after first.marks) marks
    refine ⟨_, .cons writes writeAll, .nextExpression (reads_of s .comma _) ?_ readsMore⟩
    exact .expression (.start reads) (ends_marksMore more _ marks _)

end

/-! ## Whole texts -/

/-- The text of a literal value reads as one statement, an expression that writes the
    value. -/
theorem Value.reads_inspect {v : Value} (literal : v.isLiteral) :
    ∃ (token : Token) (e : Expr) (line : Nat), e.Writes v ∧
      Reads (scan v.inspect).last (scan v.inspect).place (.statements [] [.expression token e]) ⟨line, []⟩ := by
  have scannable : Scannable v.marks := by
    have := @scannable_marks v literal [] trivial edge_nil
    rwa [List.append_nil] at this
  rw [scan_written (chars_eq v literal) scannable]
  let stream : Stream := ⟨Mark.tokens 1 v.marks, .eof (Mark.lineAfter 1 v.marks)⟩
  let s : Spot := ⟨(stream.tokens.headD stream.last).line, 1⟩
  obtain ⟨e, writes, reads⟩ := @Value.reads stream.last v literal s [] fun _ => rfl
  rw [List.append_nil] at reads
  -- a statement is read from its first token on, so there has to be one
  obtain ⟨t, ts, ahead⟩ : ∃ t ts, (s.place v.marks).ahead = t :: ts := by
    have opens := reads.opens rfl
    cases ahead : (s.place v.marks).ahead with
    | nil => simp [Place.opens, ahead] at opens
    | cons t ts => exact ⟨t, ts, rfl⟩
  refine ⟨t, e, (s.after v.marks).previous, writes, ?_⟩
  have same : stream.place = ⟨s.previous, t :: ts⟩ := by rw [← ahead]; rfl
  have whole : Reads stream.last ⟨s.previous, t :: ts⟩ (.expression .lowest e) ⟨(s.after v.marks).previous, []⟩ := by
    rw [← same]
    exact .expression (.start reads) rfl
  change Reads stream.last stream.place _ _
  rw [same]
  exact .someStatements (.plain whole) (.noStatements rfl)

/-- The text of a literal value parses without an error to one statement, which in every
    scope and from every state comes to the value and changes nothing, whatever the
    settings, with fuel enough. -/
theorem inspect_evaluates (v : Value) (literal : v.isLiteral) :
    (parseSource v.inspect).errors = [] ∧ (parseSource v.inspect).program.statements.length = 1 ∧
    ∃ enough, ∀ settings scope state fuel, enough ≤ fuel →
      evalProgram settings fuel (parseSource v.inspect).program scope state = some (.ok v, state) := by
  obtain ⟨token, e, line, writes, reads⟩ := Value.reads_inspect literal
  obtain ⟨clean, statements⟩ := parse_of_reads (scan_last v.inspect) reads
  obtain ⟨enough, evaluated⟩ := writes.evaluates
  refine ⟨clean, by rw [parseSource, statements]; rfl, enough + 2, fun settings scope state fuel le => ?_⟩
  obtain ⟨fuel, rfl⟩ := Nat.exists_eq_add_of_le' (Nat.le_trans (Nat.le_add_left 2 enough) le)
  have came : Eval.statement settings (fuel + 1) scope (.expression token e) state = .value v state :=
    evaluated settings scope state fuel (Nat.le_of_add_le_add_right le)
  have ran : Eval.block settings (fuel + 2) scope .null [.expression token e] state = .value v state := by
    change Run.andThen (Run.handled settings token.line (Eval.statement settings (fuel + 1) scope (.expression token e)))
      (fun value => Eval.block settings (fuel + 1) scope value []) state = _
    rw [Run.andThen, Run.handled, came]
    rfl
  rw [evalProgram, parseSource, statements, ran]

/-- A negative number, and a string of two lines in front of a bracket that opens on the
    second. -/
def nestedEcho : Value := .array [.integer (-7), .string "a;; [\nb", .array [.array [], .boolean true, .integer Int64.maxValue]]

theorem inspect_evaluates_nested :
    nestedEcho.inspect = "[-7, \"a;; [\nb\", [[], true, 9223372036854775807]]" ∧ nestedEcho.isLiteral ∧
    (parseSource nestedEcho.inspect).errors = [] ∧
    ∃ enough, ∀ fuel, enough ≤ fuel → ∀ policy,
      evalProgram ⟨policy, false, none⟩ fuel (parseSource nestedEcho.inspect).program 0 .fresh = some (.ok nestedEcho, .fresh) := by
  have literal : nestedEcho.isLiteral := by decide
  obtain ⟨clean, -, enough, evaluated⟩ := inspect_evaluates nestedEcho literal
  exact ⟨by decide, literal, clean, enough, fun fuel le policy => evaluated _ _ _ fuel le⟩

end Lantern
