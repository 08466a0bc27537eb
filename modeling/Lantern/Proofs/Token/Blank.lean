/-
  Lantern.Proofs.Token.Blank — what a text starts with behind white space.

  The scanner skips some white space and makes illegal tokens of the rest of it, and of
  colons. So a text without illegal tokens does not start with a colon behind white
  space, and if it is white space only it has no tokens at all (`scan_barren`). What a
  text starts with shows once the white space is trimmed off (`barren_of_trimmed`).
-/

import Mathlib.Data.List.TakeWhile
import Lantern.Parse.Parsed
import Lantern.Text.Lines

namespace Lantern

open Text

variable {c : Char}

/-! ## Characters -/

theorem isBlank_of_isGap (gap : isGap c) : isBlank c := by
  simp only [isGap, Bool.or_eq_true, beq_iff_eq] at gap
  rcases gap with (rfl | rfl) | rfl <;> decide

/-- White space is not among the characters ASCII has a sign for. -/
theorem isBlank_range (blank : isBlank c) : c.toNat ≤ 0x20 ∨ 0x7f ≤ c.toNat := by
  simp only [isBlank, Bool.or_eq_true, Bool.and_eq_true, decide_eq_true_eq, beq_iff_eq] at blank
  omega

/-- Between two characters, if these are among them. -/
theorem range_of_between {low high : Char} (least : low.val ≤ c.val) (most : c.val ≤ high.val)
    (above : 0x20 < low.toNat)
    (under : high.toNat < 0x7f) : 0x20 < c.toNat ∧ c.toNat < 0x7f :=
  ⟨Nat.lt_of_lt_of_le above (UInt32.le_iff_toNat_le.1 least), Nat.lt_of_le_of_lt (UInt32.le_iff_toNat_le.1 most) under⟩

theorem isWordChar_range (word : isWordChar c) : 0x20 < c.toNat ∧ c.toNat < 0x7f := by
  have parts : (c.isUpper || c.isLower || c == '_') = true := word
  simp only [Bool.or_eq_true, beq_iff_eq] at parts
  rcases parts with (upper | lower) | rfl
  · obtain ⟨least, most⟩ : 'A'.val ≤ c.val ∧ c.val ≤ 'Z'.val := of_decide_eq_true upper
    exact range_of_between least most (by decide) (by decide)
  · obtain ⟨least, most⟩ := Bool.and_eq_true_iff.1 lower
    exact range_of_between (of_decide_eq_true least) (of_decide_eq_true most) (by decide) (by decide)
  · decide

theorem isDigit_range (digit : c.isDigit) : 0x20 < c.toNat ∧ c.toNat < 0x7f := by
  obtain ⟨least, most⟩ := Bool.and_eq_true_iff.1 digit
  exact range_of_between (of_decide_eq_true least) (of_decide_eq_true most) (by decide) (by decide)

/-! ## Lexemes -/

/-- White space and colons are in no lexeme but those of gaps, comments and strings. -/
def isOutside (c : Char) : Bool := isBlank c || c == ':'

section

variable (outside : isOutside c)
include outside

theorem markKind_outside : markKind c = .illegal := by
  unfold markKind
  split <;> first | rfl | exact absurd outside (by decide)

theorem pairKind?_outside (d : Char) : pairKind? c d = none := by
  unfold pairKind?
  split <;> first | rfl | exact absurd outside (by decide)

theorem isOutside_no_word : isWordChar c = false ∧ c.isDigit = false := by
  simp only [isOutside, Bool.or_eq_true, beq_iff_eq] at outside
  rcases outside with blank | rfl
  · have range := isBlank_range blank
    refine ⟨Bool.eq_false_iff.2 fun word => ?_, Bool.eq_false_iff.2 fun digit => ?_⟩
    · have := isWordChar_range word
      omega
    · have := isDigit_range digit
      omega
  · decide

/-- A newline, the start of a gap, or an illegal token. -/
theorem Lexeme.cut_outside (input : List Char) :
    c = '\n' ∧ cut c input = ⟨.newline, [], input⟩ ∨ isGap c ∧ cut c input = run .blanks isGap input ∨
      cut c input = ⟨.token .illegal, [], input⟩ := by
  by_cases newline : c = '\n'
  · subst newline
    exact .inl ⟨rfl, rfl⟩
  by_cases gap : isGap c
  · exact .inr (.inl ⟨gap, by simp [cut, newline, gap]⟩)
  obtain ⟨notWord, notDigit⟩ := isOutside_no_word outside
  have notQuote : c ≠ '"' := by rintro rfl; cases outside
  have notSemicolon : c ≠ ';' := by rintro rfl; cases outside
  have isMark : cut c input = mark c input := by simp [cut, newline, gap, notWord, notDigit, notQuote, notSemicolon]
  refine .inr (.inr ?_)
  rw [isMark]
  cases input with
  | nil => simp only [mark, markKind_outside outside]
  | cons d rest => simp only [mark, pairKind?_outside outside d, markKind_outside outside]

end

/-! ## Tokens behind white space -/

theorem dropWhile_dropWhile {α : Type} {p q : α → Bool} (weaker : ∀ a, p a → q a) (input : List α) :
    (input.dropWhile p).dropWhile q = input.dropWhile q := by
  induction input with
  | nil => rfl
  | cons a input ih =>
    rw [List.dropWhile_cons]
    split
    · next holds => rw [ih, List.dropWhile_cons_of_pos (weaker a holds)]
    · rfl

def Barren (input : List Char) : Prop := ∀ c ∈ (input.dropWhile isBlank).head?, c = ':'

theorem Barren.outside {input : List Char} (barren : Barren (c :: input)) : isOutside c := by
  rw [Barren, List.dropWhile_cons] at barren
  split at barren
  · next blank => simp [isOutside, blank]
  · simp [isOutside, barren c rfl]

/-- What is skipped there is white space. -/
theorem Barren.cut {input : List Char} (barren : Barren (c :: input)) :
    (Lexeme.cut c input).lexeme = .token .illegal ∨
      ((Lexeme.cut c input).lexeme = .blanks ∨ (Lexeme.cut c input).lexeme = .newline) ∧
        (Lexeme.cut c input).rest.dropWhile isBlank = (c :: input).dropWhile isBlank := by
  obtain ⟨rfl, eq⟩ | ⟨gap, eq⟩ | eq := Lexeme.cut_outside barren.outside input
  · exact .inr ⟨.inr rfl, (List.dropWhile_cons_of_pos (by decide)).symm⟩
  · refine .inr ⟨.inl (by rw [eq]; rfl), ?_⟩
    rw [eq, List.dropWhile_cons_of_pos (isBlank_of_isGap gap)]
    exact dropWhile_dropWhile (fun _ => isBlank_of_isGap) input
  · exact .inl (by rw [eq])

/-- From there on the first token is an illegal one, if there is any. -/
theorem Scanner.next_barren (s : Scanner) (barren : Barren s.input) :
    s.next.1.kind = .illegal ∨ s.next.1.kind = .eof ∧ s.input.dropWhile isBlank = [] := by
  fun_induction next s with
  | case1 s ahead => exact .inr ⟨rfl, by rw [ahead]; rfl⟩
  | case2 s c input ahead cut skipped ih | case4 s c input ahead cut skipped ih =>
    rw [ahead] at barren ⊢
    rcases barren.cut with isToken | ⟨-, same⟩
    · cases isToken.symm.trans skipped
    · rw [Barren, ← same] at barren
      rw [← same]
      exact ih barren
  | case3 s c input ahead cut isComment ih =>
    rw [ahead] at barren
    have lexeme : (Lexeme.cut c input).lexeme = .comment := isComment
    rcases barren.cut with isToken | ⟨isBlanks | isNewline, -⟩ <;> simp_all
  | case5 s c input ahead cut kind isToken =>
    rw [ahead] at barren
    have lexeme : (Lexeme.cut c input).lexeme = .token kind := isToken
    rcases barren.cut with isToken | ⟨isBlanks | isNewline, -⟩ <;> simp_all

/-- A text without illegal tokens that starts with no more than a colon behind white
    space is all white space, and has no tokens. -/
theorem scan_barren {text : String} (barren : Barren text.toList)
    (legal : ∀ t ∈ (scan text).tokens, t.kind ≠ .illegal) :
    (scan text).tokens = [] ∧ text.toList.dropWhile isBlank = [] := by
  rw [scan, Scanner.drain] at legal ⊢
  rcases (Scanner.ofSource text).next_barren barren with illegal | ⟨ended, blank⟩
  · have more : (Scanner.ofSource text).next.1.kind ≠ .eof := by rw [illegal]; decide
    rw [dif_neg more] at legal
    exact absurd illegal (legal _ List.mem_cons_self)
  · rw [dif_pos ended]
    exact ⟨rfl, blank⟩

/-! ## The ends of a text -/

/-- What is left of a text without the white space at its ends starts as the text
    without the white space in front. -/
theorem trimmed_prefix (text : String) :
    (trimmed text).toList <+: text.toList.dropWhile isBlank := by
  rw [trimmed, String.toList_ofList]
  generalize text.toList.dropWhile isBlank = chars
  have suffix := List.dropWhile_suffix isBlank (l := chars.reverse)
  rw [← List.reverse_prefix] at suffix
  simpa using suffix

/-- White space at the end does not matter for how a text starts. -/
theorem barren_of_trimmed {text : String} (starts : ∀ c ∈ (trimmed text).toList.head?, c = ':') : Barren text.toList := by
  intro c here
  have visible := List.head?_dropWhile_not isBlank text.toList
  rw [Option.mem_def.1 here] at visible
  have start := trimmed_prefix text
  cases left : (trimmed text).toList with
  | nil =>
    rw [trimmed, String.toList_ofList, List.reverse_eq_nil_iff, List.dropWhile_eq_nil_iff] at left
    have blank := left c (List.mem_reverse.2 (List.mem_of_head? here))
    exact absurd blank (Bool.eq_false_iff.1 visible)
  | cons d more =>
    obtain ⟨rest, eq⟩ := start
    rw [left] at eq starts
    rw [← eq] at here
    cases here
    exact starts c rfl

end Lantern
