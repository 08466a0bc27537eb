/-
  Lantern.Proofs.Token.Sequel — the tokens of one text behind another.

  A newline ends every lexeme but a string that is not closed, and that makes an illegal
  token. So a text without illegal tokens keeps its tokens when another text follows on
  a line of its own, and the tokens of that one are what they are by themselves, further
  down (`scan_sequel`). The lines of tokens never go down along a text
  (`Scanner.drain_lines`).
-/

import Lantern.Proofs.Token.Proper
import Lantern.Proofs.Token.Spelling

namespace Lantern

/-- The token, this many lines further down. -/
def Token.down (lines : Nat) (token : Token) : Token := { token with line := token.line + lines }

/-! ## Lexemes in front of a newline -/

section

variable {p : Char → Bool} {c : Char} (stops : p c = false) (more : List Char)
include stops

theorem takeWhile_stop (input : List Char) :
    (input ++ c :: more).takeWhile p = input.takeWhile p := by
  induction input with
  | nil => simp [stops]
  | cons d input ih =>
    rw [List.cons_append, List.takeWhile_cons, List.takeWhile_cons, ih]

theorem dropWhile_stop (input : List Char) :
    (input ++ c :: more).dropWhile p = input.dropWhile p ++ c :: more := by
  induction input with
  | nil => simp [stops]
  | cons d input ih =>
    rw [List.cons_append, List.dropWhile_cons, List.dropWhile_cons, ih]
    split <;> rfl

end

/-- What ends within a text ends there whatever follows. -/
theorem while_append {p : Char → Bool} {input rest : List Char} {c : Char}
    (ends : input.dropWhile p = c :: rest)
    (more : List Char) :
    (input ++ more).takeWhile p = input.takeWhile p ∧
    (input ++ more).dropWhile p = c :: rest ++ more := by
  induction input with
  | nil => cases ends
  | cons d input ih =>
    rw [List.cons_append, List.takeWhile_cons, List.takeWhile_cons, List.dropWhile_cons]
    rw [List.dropWhile_cons] at ends
    by_cases holds : p d
    · simp only [holds, if_true] at ends ⊢
      exact ⟨by rw [(ih ends).1], (ih ends).2⟩
    · simp only [holds, Bool.false_eq_true, if_false] at ends ⊢
      exact ⟨trivial, by rw [← ends, List.cons_append]⟩

namespace Lexeme

def Cut.followed (cut : Cut) (more : List Char) : Cut := { cut with rest := cut.rest ++ more }

theorem run_sequel (lexeme : Lexeme) {continues : Char → Bool} (stops : continues '\n' = false) (input more : List Char) :
    run lexeme continues (input ++ '\n' :: more) = (run lexeme continues input).followed ('\n' :: more) := by
  rw [run, takeWhile_stop stops, dropWhile_stop stops]
  rfl

theorem word_sequel (c : Char) (input more : List Char) :
    word c (input ++ '\n' :: more) = (word c input).followed ('\n' :: more) := by
  unfold word
  rw [takeWhile_stop rfl, run_sequel _ rfl]

theorem string_sequel {input : List Char} (closed : (string input).lexeme ≠ .token .illegal)
    (more : List Char) :
    string (input ++ more) = (string input).followed more := by
  unfold string at closed ⊢
  split at closed
  · next quote rest ends =>
    obtain ⟨taken, dropped⟩ := while_append ends more
    rw [dropped, taken]
    rfl
  · exact absurd rfl closed

theorem pairKind?_newline (c : Char) : pairKind? c '\n' = none := by
  unfold pairKind?
  split <;> simp_all

theorem mark_sequel (c : Char) (input more : List Char) :
    mark c (input ++ '\n' :: more) = (mark c input).followed ('\n' :: more) := by
  cases input with
  | nil => simp only [mark, List.nil_append, pairKind?_newline]; rfl
  | cons d rest =>
    simp only [mark, List.cons_append]
    split <;> rfl

theorem semicolon_sequel {input : List Char} (legal : (semicolon input).lexeme ≠ .token .illegal)
    (more : List Char) :
    semicolon (input ++ '\n' :: more) = (semicolon input).followed ('\n' :: more) := by
  unfold semicolon at legal ⊢
  split at legal
  · next rest =>
    rw [List.cons_append]
    exact run_sequel .comment rfl (';' :: rest) more
  · exact absurd rfl legal

/-- What is cut off a text is cut off it in front of a newline too, unless it is illegal. -/
theorem cut_sequel {c : Char} {input : List Char} (legal : (cut c input).lexeme ≠ .token .illegal)
    (more : List Char) :
    cut c (input ++ '\n' :: more) = (cut c input).followed ('\n' :: more) := by
  unfold cut at legal ⊢
  split
  · rfl
  split
  · exact run_sequel .blanks rfl input more
  split
  · exact word_sequel c input more
  split
  · exact run_sequel (.token .int) rfl input more
  split
  · next noNewline noGap noWord noDigit quote =>
    simp only [noNewline, noGap, noWord, noDigit, quote, Bool.false_eq_true, if_false, if_true] at legal
    exact string_sequel legal _
  split
  · next noNewline noGap noWord noDigit noQuote semi =>
    simp only [noNewline, noGap, noWord, noDigit, noQuote, semi, Bool.false_eq_true, if_false, if_true] at legal
    exact semicolon_sequel legal more
  · exact mark_sequel c input more

theorem markKind_ne_eof (c : Char) : markKind c ≠ .eof := by
  unfold markKind
  split <;> decide

/-- Nothing that is cut off a text is its end. -/
theorem cut_ne_eof (c : Char) (input : List Char) : (cut c input).lexeme ≠ .token .eof := by
  unfold cut
  split
  · simp
  split
  · simp [run]
  split
  · simp only [word, run, ne_eq, Lexeme.token.injEq]
    cases reserved : Kind.keyword? (String.ofList (c :: input.takeWhile isWordChar)) with
    | none => simp
    | some kind => exact (Kind.keyword?_reserved reserved).2.2.2
  split
  · simp [run]
  split
  · unfold string; split <;> simp
  split
  · unfold semicolon; split <;> simp [run]
  · unfold mark
    split
    · simp [markKind_ne_eof]
    · split
      · next kind found =>
        unfold pairKind? at found
        split at found <;> cases found <;> simp
      · simp [markKind_ne_eof]

end Lexeme

/-! ## The scanner -/

namespace Scanner

def followed (s : Scanner) (more : List Char) : Scanner := ⟨s.input ++ more, s.line⟩

def down (lines : Nat) (s : Scanner) : Scanner := ⟨s.input, s.line + lines⟩

/-- At the end of the input the scanner answers with the line it has come to. -/
theorem next_eof {s : Scanner} (ended : s.next.1.kind = .eof) : s.next.1.line = s.next.2.line := by
  fun_induction next s with
  | case1 => rfl
  | case2 s c input ahead cut _ ih => exact ih ended
  | case3 s c input ahead cut _ ih => exact ih ended
  | case4 s c input ahead cut _ ih => exact ih ended
  | case5 s c input ahead cut kind isToken =>
    have isEnd : cut.lexeme = .token .eof := by rw [isToken, show kind = .eof from ended]
    exact absurd isEnd (Lexeme.cut_ne_eof c input)

/-- What the scanner does with the lexeme at the front of its input. -/
theorem next_cons (c : Char) (input : List Char) (line : Nat) :
    next ⟨c :: input, line⟩ =
      match (Lexeme.cut c input).lexeme with
      | .blanks | .comment => next ⟨(Lexeme.cut c input).rest, line⟩
      | .newline => next ⟨(Lexeme.cut c input).rest, line + 1⟩
      | .token kind =>
        (⟨kind, kind.keep (c :: (Lexeme.cut c input).more), line⟩,
          ⟨(Lexeme.cut c input).rest, line + newlines (c :: (Lexeme.cut c input).more)⟩) :=
  next.eq_def ⟨c :: input, line⟩

/-- The next token is the same with another line behind the input; where there is none,
    it is the first of that. -/
theorem next_sequel (s : Scanner) (legal : s.next.1.kind ≠ .illegal) (more : List Char) :
    (s.followed ('\n' :: more)).next =
      if s.next.1.kind = .eof then next ⟨more, s.next.2.line + 1⟩ else (s.next.1, s.next.2.followed ('\n' :: more)) := by
  fun_induction next s with
  | case1 s ahead =>
    rw [followed, ahead, List.nil_append, next_newline]
    rfl
  | case2 s c input ahead cut isBlank ih =>
    have lexeme : (Lexeme.cut c input).lexeme = .blanks := isBlank
    rw [followed, ahead, List.cons_append, next_cons, Lexeme.cut_sequel (by rw [lexeme]; decide)]
    simp only [Lexeme.Cut.followed, lexeme]
    exact ih legal
  | case3 s c input ahead cut isComment ih =>
    have lexeme : (Lexeme.cut c input).lexeme = .comment := isComment
    rw [followed, ahead, List.cons_append, next_cons, Lexeme.cut_sequel (by rw [lexeme]; decide)]
    simp only [Lexeme.Cut.followed, lexeme]
    exact ih legal
  | case4 s c input ahead cut isNewline ih =>
    have lexeme : (Lexeme.cut c input).lexeme = .newline := isNewline
    rw [followed, ahead, List.cons_append, next_cons, Lexeme.cut_sequel (by rw [lexeme]; decide)]
    simp only [Lexeme.Cut.followed, lexeme]
    exact ih legal
  | case5 s c input ahead cut kind isToken =>
    have lexeme : (Lexeme.cut c input).lexeme = .token kind := isToken
    have noEnd : kind ≠ .eof := by
      rintro rfl
      exact Lexeme.cut_ne_eof c input lexeme
    have noIllegal : (Lexeme.cut c input).lexeme ≠ .token .illegal := by
      rw [lexeme]
      rintro ⟨⟩
      exact legal rfl
    rw [followed, ahead, List.cons_append, next_cons, Lexeme.cut_sequel noIllegal, if_neg noEnd]
    simp only [Lexeme.Cut.followed, lexeme]
    rfl

/-- A text without illegal tokens keeps its tokens in front of another line, and that
    one starts on the line behind. -/
theorem drain_sequel (s : Scanner) (legal : ∀ t ∈ s.drain.tokens, t.kind ≠ .illegal)
    (more : List Char) :
    (s.followed ('\n' :: more)).drain =
      ⟨s.drain.tokens ++ (drain ⟨more, s.drain.last.line + 1⟩).tokens, (drain ⟨more, s.drain.last.line + 1⟩).last⟩ := by
  fun_induction drain s with
  | case1 s ended =>
    have first := next_sequel s (by rw [ended]; decide) more
    rw [if_pos ended, ← next_eof ended] at first
    exact drain_congr first
  | case2 s found behind ih =>
    obtain ⟨here, later⟩ := List.forall_mem_cons.1 legal
    have first := next_sequel s here more
    rw [if_neg found] at first
    rw [drain, first]
    simp only [found, dite_false, ih later, List.cons_append]
    rfl

/-! ### Lines -/

theorem next_down (s : Scanner) (lines : Nat) :
    (s.down lines).next = (s.next.1.down lines, s.next.2.down lines) := by
  fun_induction next s with
  | case1 s ahead =>
    have nothing : s.down lines = ⟨[], s.line + lines⟩ := by rw [down, ahead]
    rw [nothing, next]
    rfl
  | case2 s c input ahead cut isBlank ih =>
    have lexeme : (Lexeme.cut c input).lexeme = .blanks := isBlank
    rw [down, ahead, next_cons, lexeme]
    exact ih
  | case3 s c input ahead cut isComment ih =>
    have lexeme : (Lexeme.cut c input).lexeme = .comment := isComment
    rw [down, ahead, next_cons, lexeme]
    exact ih
  | case4 s c input ahead cut isNewline ih =>
    have lexeme : (Lexeme.cut c input).lexeme = .newline := isNewline
    rw [down, ahead, next_cons, lexeme, Nat.add_right_comm]
    exact ih
  | case5 s c input ahead cut kind isToken =>
    have lexeme : (Lexeme.cut c input).lexeme = .token kind := isToken
    rw [down, ahead, next_cons, lexeme]
    simp only [Nat.add_right_comm _ lines]
    rfl

theorem drain_down (s : Scanner) (lines : Nat) :
    (s.down lines).drain = ⟨s.drain.tokens.map (Token.down lines), s.drain.last.down lines⟩ := by
  fun_induction drain s with
  | case1 s ended =>
    have ended' : (s.down lines).next.1.kind = .eof := by rw [next_down]; exact ended
    rw [drain, dif_pos ended', next_down]
    rfl
  | case2 s found behind ih =>
    have found' : (s.down lines).next.1.kind ≠ .eof := by rw [next_down]; exact found
    rw [drain, dif_neg found', next_down, ih]
    rfl

theorem next_lines (s : Scanner) : s.line ≤ s.next.1.line ∧ s.next.1.line ≤ s.next.2.line := by
  fun_induction next s with
  | case1 => exact ⟨Nat.le_refl _, Nat.le_refl _⟩
  | case2 s c input ahead cut _ ih => exact ih
  | case3 s c input ahead cut _ ih => exact ih
  | case4 s c input ahead cut _ ih => exact ⟨Nat.le_of_succ_le ih.1, ih.2⟩
  | case5 s c input ahead cut kind isToken => exact ⟨Nat.le_refl _, Nat.le_add_right _ _⟩

/-- Every token stands between the line a text starts on and the line it ends on. -/
theorem drain_lines (s : Scanner) :
    (∀ t ∈ s.drain.tokens, s.line ≤ t.line ∧ t.line ≤ s.drain.last.line) ∧ s.line ≤ s.drain.last.line := by
  fun_induction drain s with
  | case1 s ended => exact ⟨fun _ none => (List.not_mem_nil none).elim, s.next_lines.1⟩
  | case2 s found behind ih =>
    obtain ⟨here, after⟩ := s.next_lines
    obtain ⟨tokens, last⟩ := ih
    have through : s.line ≤ s.next.2.line := Nat.le_trans here after
    refine ⟨List.forall_mem_cons.2 ⟨⟨here, Nat.le_trans after last⟩, fun t member => ?_⟩, Nat.le_trans through last⟩
    obtain ⟨low, high⟩ := tokens t member
    exact ⟨Nat.le_trans through low, high⟩

end Scanner

/-! ## Texts -/

/-- A text behind another one, on a line of its own: the tokens of both, those of the
    second further down by the lines of the first. -/
theorem scan_sequel {source : String} (legal : ∀ t ∈ (scan source).tokens, t.kind ≠ .illegal)
    (more : String) :
    scan (source ++ "\n" ++ more) =
      ⟨(scan source).tokens ++ (scan more).tokens.map (Token.down (scan source).last.line),
        (scan more).last.down (scan source).last.line⟩ := by
  have chars : (source ++ "\n" ++ more).toList = source.toList ++ '\n' :: more.toList := by simp
  have first := (Scanner.ofSource source).drain_sequel legal more.toList
  have second := (Scanner.ofSource more).drain_down (scan source).last.line
  have start : (Scanner.ofSource more).down (scan source).last.line = ⟨more.toList, (scan source).last.line + 1⟩ := by
    rw [Scanner.down, Scanner.ofSource, Nat.add_comm]
  rw [start] at second
  rw [scan, Scanner.ofSource, chars]
  refine first.trans ?_
  rw [show (Scanner.ofSource source).drain = scan source from rfl, second]
  rfl

end Lantern
