/-
  Lantern.Proofs.Token.Split — a text as gaps and lexemes.

  Between lexemes there are gaps: white space, and comments up to the end of their lines
  (`Gap`). A text splits into gaps and lexemes, each the longest one where it stands,
  and in one way only (`Split.Of`, `Split.Of.unique`): a gap ends where a token starts
  (`Gap.unique`).
  - `Scanner.next_splits`, `Scanner.drain_splits`: the next token, and all tokens, as in
    the split of the input.
  - `scan_splits`: of a whole source nothing is lost, the lexemes are the longest ones,
    every line is that of the newlines before it, and the end is found on the last line
    and for ever after.
-/

import Lantern.Proofs.Token.Longest

namespace Lantern

/-! ## Gaps -/

/-- White space and comments, in front of what follows. A comment ends where its line
    does. -/
inductive Gap : List Char → List Char → Prop
  | none (rest : List Char) : Gap [] rest
  | blank {c : Char} {gap rest : List Char} (isBlank : isGap c ∨ c = '\n') (behind : Gap gap rest) : Gap (c :: gap) rest
  | comment {words gap rest : List Char} (line : '\n' ∉ words) (ends : ∀ c ∈ (gap ++ rest).head?, c = '\n')
      (behind : Gap gap rest) : Gap (';' :: ';' :: (words ++ gap)) rest

def Settled : List Char → Prop
  | [] => True
  | c :: input => ∃ kind, (Lexeme.cut c input).lexeme = .token kind

/-- Words that end with their line are told from what follows them. -/
theorem line_unique {words words' rest rest' : List Char} (line : '\n' ∉ words) (line' : '\n' ∉ words')
    (ends : ∀ c ∈ rest.head?, c = '\n') (ends' : ∀ c ∈ rest'.head?, c = '\n') (same : words ++ rest = words' ++ rest') :
    words = words' ∧ rest = rest' := by
  have taken {words rest : List Char} (line : '\n' ∉ words) (ends : ∀ c ∈ rest.head?, c = '\n') :
      (words ++ rest).takeWhile (· != '\n') = words := by
    refine (Lexeme.takeWhile_bounded (List.all_eq_true.2 fun c member => ?_) fun c first => by simp [ends c first]).1
    rw [bne_iff_ne]
    rintro rfl
    exact line member
  have words_eq : words = words' := by rw [← taken line ends, same, taken line' ends']
  subst words_eq
  exact ⟨rfl, List.append_cancel_left same⟩

namespace Gap

variable {gap gap' rest rest' : List Char}

theorem not_settled_blank {c : Char} {input : List Char} (isBlank : isGap c ∨ c = '\n') : ¬ Settled (c :: input) := by
  rintro ⟨kind, token⟩
  rcases isBlank with gap | rfl
  · have noNewline : (c == '\n') = false := by
      rw [beq_eq_false_iff_ne]
      rintro rfl
      cases gap
    simp only [Lexeme.cut, noNewline, gap, Bool.false_eq_true, if_false, if_true] at token
    cases token
  · cases token

theorem not_settled_comment {input : List Char} : ¬ Settled (';' :: ';' :: input) := by
  rintro ⟨kind, token⟩
  cases token

/-- A gap ends where a token starts. -/
theorem unique (h : Gap gap rest) (h' : Gap gap' rest') (settled : Settled rest)
    (settled' : Settled rest')
    (same : gap ++ rest = gap' ++ rest') : gap = gap' ∧ rest = rest' := by
  induction h generalizing gap' with
  | none rest =>
    rw [List.nil_append] at same
    cases h' with
    | none => exact ⟨rfl, same⟩
    | blank isBlank => exact absurd (same ▸ settled) (not_settled_blank isBlank)
    | comment => exact absurd (same ▸ settled) not_settled_comment
  | blank isBlank behind ih =>
    cases h' with
    | none => exact absurd ((show _ = rest' from same) ▸ settled') (not_settled_blank isBlank)
    | blank isBlank' behind' =>
      obtain ⟨rfl, more⟩ := List.cons.inj same
      obtain ⟨rfl, rfl⟩ := ih behind' settled more
      exact ⟨rfl, rfl⟩
    | comment => obtain ⟨rfl, -⟩ := List.cons.inj same; rcases isBlank with h | h <;> cases h
  | comment line ends behind ih =>
    cases h' with
    | none => exact absurd ((show _ = rest' from same) ▸ settled') not_settled_comment
    | blank isBlank' => obtain ⟨rfl, -⟩ := List.cons.inj same; rcases isBlank' with h | h <;> cases h
    | comment line' ends' behind' =>
      simp only [List.cons_append, List.append_assoc, List.cons.injEq, true_and] at same
      obtain ⟨rfl, more⟩ := line_unique line line' ends ends' same
      obtain ⟨rfl, rfl⟩ := ih behind' settled more
      exact ⟨rfl, rfl⟩

theorem blanks {text : List Char} (all : ∀ c ∈ text, isGap c) (behind : Gap gap rest) :
    Gap (text ++ gap) rest := by
  induction text with
  | nil => exact behind
  | cons c text ih =>
    obtain ⟨first, more⟩ := List.forall_mem_cons.1 all
    exact .blank (.inl first) (ih more)

/-- What is cut off the input belongs to the gap, unless it is a token. -/
theorem front {text : List Char} {lexeme : Lexeme}
    (longest : Longest text lexeme (text ++ (gap ++ rest)))
    (noToken : ∀ kind, lexeme ≠ .token kind) (behind : Gap gap rest) : Gap (text ++ gap) rest := by
  cases lexeme with
  | blanks => exact behind.blanks longest.blanks
  | newline =>
    obtain rfl := longest.newline
    exact .blank (.inr rfl) behind
  | comment =>
    obtain ⟨words, rfl, line, ends⟩ := longest.comment
    exact .comment line ends behind
  | token kind => exact absurd rfl (noToken kind)

end Gap

/-- A token that is the longest lexeme starts where it stands. -/
theorem Longest.settled {text input : List Char} {kind : Kind}
    (h : Longest text (.token kind) input) : Settled input := by
  cases input with
  | nil => trivial
  | cons c input => exact ⟨kind, h.of_cut.2.symm⟩

/-! ## Splits -/

/-- A text cut up: gaps, each with the token behind it, and the gap at the end. -/
structure Split where
  pieces : List (List Char × Token)
  tail : List Char

namespace Split

def written : List (List Char × Token) → List Char → List Char
  | [], tail => tail
  | (gap, token) :: pieces, tail => gap ++ (token.lexeme ++ written pieces tail)

/-- Every piece is as it should be where it stands, behind the text before: a gap, and
    the longest lexeme, which is the token's on the line reached there. -/
def Fits (before : List Char) : List (List Char × Token) → List Char → Prop
  | [], tail => Gap tail []
  | (gap, token) :: pieces, tail =>
    Gap gap (token.lexeme ++ written pieces tail) ∧
      token.lexeme ≠ [] ∧
      Longest token.lexeme (.token token.kind) (token.lexeme ++ written pieces tail) ∧
      token.line = 1 + newlines (before ++ gap) ∧
      Fits (before ++ gap ++ token.lexeme) pieces tail

def tokens (split : Split) : List Token := split.pieces.map Prod.snd

def Of (text : List Char) (split : Split) : Prop :=
  written split.pieces split.tail = text ∧ Fits [] split.pieces split.tail

end Split

/-- A token is known by its kind, its lexeme and its line. -/
theorem Token.eq_of_lexeme {token other : Token} (kind : token.kind = other.kind)
    (lexeme : token.lexeme = other.lexeme)
    (line : token.line = other.line) : token = other := by
  obtain ⟨k, text, l⟩ := token
  obtain ⟨k', text', l'⟩ := other
  cases kind
  cases line
  have same : text.toList = text'.toList := by
    by_cases isString : k = .str
    · subst isString
      exact (List.append_left_inj _).1 (List.cons.inj lexeme).2
    · cases k <;> first | exact absurd rfl isString | exact lexeme
  rw [String.toList_inj.1 same]

namespace Split

variable {before tail tail' : List Char} {pieces pieces' : List (List Char × Token)}

/-- What starts behind a gap of a split. -/
theorem Fits.settled (fits : Fits before pieces tail) :
    pieces = [] ∨ ∃ gap rest, Gap gap rest ∧ Settled rest ∧
    rest ≠ [] ∧ written pieces tail = gap ++ rest := by
  cases pieces with
  | nil => exact .inl rfl
  | cons piece pieces =>
    obtain ⟨isGap, nonempty, longest, -, -⟩ := fits
    exact .inr ⟨_, _, isGap, longest.settled, by simp [nonempty], rfl⟩

/-- A text splits in one way only. -/
theorem Fits.unique (fits : Fits before pieces tail) (fits' : Fits before pieces' tail')
    (same : written pieces tail = written pieces' tail') : pieces = pieces' ∧ tail = tail' := by
  -- a gap that ends the text is no gap in front of a token
  have apart {gap rest tail : List Char} (ends : Gap tail []) (isGap : Gap gap rest) (settled : Settled rest)
      (nonempty : rest ≠ []) : tail ≠ gap ++ rest := fun same =>
    nonempty (ends.unique isGap trivial settled (by rw [List.append_nil, same])).2.symm
  induction pieces generalizing before pieces' with
  | nil =>
    rcases fits'.settled with rfl | ⟨gap, rest, isGap, settled, nonempty, written_eq⟩
    · exact ⟨rfl, same⟩
    · exact absurd (same.trans written_eq) (apart fits isGap settled nonempty)
  | cons piece pieces ih =>
    obtain ⟨gap, token⟩ := piece
    obtain ⟨isGap, nonempty, longest, line, more⟩ := fits
    cases pieces' with
    | nil =>
      exact absurd same.symm (apart fits' isGap longest.settled (by simp [nonempty]))
    | cons piece' pieces' =>
      obtain ⟨gap', token'⟩ := piece'
      obtain ⟨isGap', nonempty', longest', line', more'⟩ := fits'
      obtain ⟨rfl, rest⟩ := isGap.unique isGap' longest.settled longest'.settled same
      obtain ⟨lexeme, kind⟩ := longest.unique (rest ▸ longest')
      obtain rfl := Token.eq_of_lexeme (Lexeme.token.inj kind) lexeme (line.trans line'.symm)
      obtain ⟨rfl, rfl⟩ := ih more more' (List.append_cancel_left rest)
      exact ⟨rfl, rfl⟩

theorem Of.unique {text : List Char} {split other : Split} (h : split.Of text)
    (h' : other.Of text) : other = split := by
  obtain ⟨pieces, tail⟩ := split
  obtain ⟨pieces', tail'⟩ := other
  obtain ⟨rfl, rfl⟩ := h.2.unique h'.2 (h.1.trans h'.1.symm)
  rfl

end Split

/-! ## The scanner splits its input -/

/-- The text a token keeps is the one it was cut from. -/
theorem Token.lexeme_keep {kind : Kind} {text input : List Char}
    (longest : Longest text (.token kind) input) (line : Nat) :
    Token.lexeme ⟨kind, kind.keep text, line⟩ = text := by
  by_cases isString : kind = .str
  · subst isString
    obtain ⟨pattern, matches_, tells, -⟩ := longest.matches_of (by decide)
    cases pattern with
    | string =>
      obtain ⟨inner, rfl, -⟩ := matches_
      simp [lexeme, Kind.keep]
    | word =>
      simp only [Pattern.lexeme, Lexeme.token.injEq] at tells
      cases reserved : Kind.keyword? (String.ofList text) with
      | none => rw [reserved] at tells; cases tells
      | some kind =>
        rw [reserved] at tells
        exact absurd tells (Kind.keyword?_reserved reserved).2.2.1
    | mark kind => cases tells; cases matches_.1
    | _ => cases tells
  · cases kind <;> first | exact absurd rfl isString | exact String.toList_ofList

namespace Scanner

structure Splits (s : Scanner) (gap : List Char) (token : Token) (behind : Scanner) : Prop where
  whole : s.input = gap ++ (token.lexeme ++ behind.input)
  isGap : Gap gap (token.lexeme ++ behind.input)
  line : token.line = s.line + newlines gap
  lineBehind : behind.line = token.line + newlines token.lexeme
  longest : token.kind ≠ .eof → Longest token.lexeme (.token token.kind) (token.lexeme ++ behind.input)
  ended : token.kind = .eof → token.text = "" ∧ behind.input = []

/-- What is skipped joins the gap. -/
theorem Splits.skip {s : Scanner} {c : Char} {input gap : List Char} {line : Nat} {token : Token}
    {behind : Scanner}
    (splits : Splits ⟨(Lexeme.cut c input).rest, line⟩ gap token behind)
    (ahead : s.input = c :: input)
    (noToken : ∀ kind, (Lexeme.cut c input).lexeme ≠ .token kind)
    (counted : line = s.line + newlines (c :: (Lexeme.cut c input).more)) :
    Splits s (c :: (Lexeme.cut c input).more ++ gap) token behind := by
  have rest : (Lexeme.cut c input).rest = gap ++ (token.lexeme ++ behind.input) := splits.whole
  have whole : c :: input = c :: (Lexeme.cut c input).more ++ (gap ++ (token.lexeme ++ behind.input)) := by
    rw [← rest, Lexeme.cut_cons]
  have longest := Lexeme.cut_longest c input
  rw [whole] at longest
  refine ⟨by rw [ahead, whole, List.append_assoc], splits.isGap.front longest noToken, ?_, splits.lineBehind, splits.longest,
    splits.ended⟩
  rw [splits.line, counted, newlines, newlines, newlines, List.count_append, Nat.add_assoc]

/-- The scanner finds the next token of its input. -/
theorem next_splits (s : Scanner) : ∃ gap, s.Splits gap s.next.1 s.next.2 := by
  fun_induction next s with
  | case1 s ahead =>
    exact ⟨[], by rw [ahead]; rfl, .none _, rfl, rfl, fun h => absurd rfl h, fun _ => ⟨rfl, ahead⟩⟩
  | case2 s c input ahead cut isBlank ih =>
    have lexeme : (Lexeme.cut c input).lexeme = .blanks := isBlank
    obtain ⟨gap, splits⟩ := ih
    refine ⟨_, splits.skip ahead (by simp [lexeme]) ?_⟩
    have longest := Lexeme.cut_longest c input
    rw [lexeme] at longest
    rw [longest.blanks_newlines]
    rfl
  | case3 s c input ahead cut isComment ih =>
    have lexeme : (Lexeme.cut c input).lexeme = .comment := isComment
    obtain ⟨gap, splits⟩ := ih
    refine ⟨_, splits.skip ahead (by simp [lexeme]) ?_⟩
    have longest := Lexeme.cut_longest c input
    rw [lexeme] at longest
    rw [longest.comment_newlines]
    rfl
  | case4 s c input ahead cut isNewline ih =>
    have lexeme : (Lexeme.cut c input).lexeme = .newline := isNewline
    obtain ⟨gap, splits⟩ := ih
    refine ⟨_, splits.skip ahead (by simp [lexeme]) ?_⟩
    have longest := Lexeme.cut_longest c input
    rw [lexeme] at longest
    rw [longest.newline]
    rfl
  | case5 s c input ahead cut kind isToken =>
    have lexeme : (Lexeme.cut c input).lexeme = .token kind := isToken
    have longest := Lexeme.cut_longest c input
    rw [lexeme] at longest
    have spelled := Token.lexeme_keep longest s.line
    have whole := Lexeme.cut_cons c input
    refine ⟨[], ?_, .none _, rfl, ?_, fun _ => ?_, fun ended => ?_⟩
    · rw [spelled, List.nil_append, whole, ahead]
    · rw [spelled]
    · rw [spelled, whole]
      exact longest
    · cases show kind = .eof from ended
      exact absurd lexeme (Lexeme.cut_ne_eof c input)

/-- The scanner splits all of its input; the end stands on the last line. -/
theorem drain_splits (s : Scanner) (before : List Char) (line : s.line = 1 + newlines before) :
    ∃ split : Split, Split.written split.pieces split.tail = s.input ∧ Split.Fits before split.pieces split.tail ∧
      split.tokens = s.drain.tokens ∧ s.drain.last = .eof (1 + newlines (before ++ s.input)) := by
  have here (before gap : List Char) : 1 + newlines before + newlines gap = 1 + newlines (before ++ gap) := by
    rw [newlines, newlines, newlines, List.count_append, Nat.add_assoc]
  induction s using drain.induct generalizing before with
  | case1 s ended =>
    obtain ⟨gap, splits⟩ := s.next_splits
    obtain ⟨noText, noInput⟩ := splits.ended ended
    have noLexeme : s.next.1.lexeme = [] := by
      rw [Token.lexeme, ended]
      simp [noText]
    have whole := splits.whole
    have isGap := splits.isGap
    rw [noLexeme, noInput] at whole isGap
    rw [List.append_nil, List.append_nil] at whole
    rw [drain, dif_pos ended]
    refine ⟨⟨[], gap⟩, whole.symm, isGap, rfl, ?_⟩
    have lineHere := splits.line
    rw [line, here, ← whole] at lineHere
    calc s.next.1 = ⟨s.next.1.kind, s.next.1.text, s.next.1.line⟩ := rfl
      _ = _ := by rw [ended, noText, lineHere]; rfl
  | case2 s found ih =>
    obtain ⟨gap, splits⟩ := s.next_splits
    have lineHere := splits.line
    rw [line, here] at lineHere
    have lineBehind : s.next.2.line = 1 + newlines (before ++ gap ++ s.next.1.lexeme) := by
      rw [splits.lineBehind, lineHere, here]
    obtain ⟨⟨pieces, tail⟩, writes, fits, tokens, last⟩ := ih _ lineBehind
    have longest := splits.longest found
    rw [drain, dif_neg found]
    refine ⟨⟨(gap, s.next.1) :: pieces, tail⟩, ?_, ⟨?_, longest.ne_nil, ?_, lineHere, fits⟩, ?_, ?_⟩
    · rw [Split.written, writes, splits.whole]
    · rw [writes]
      exact splits.isGap
    · rw [writes]
      exact longest
    · exact congrArg (s.next.1 :: ·) tokens
    · refine last.trans ?_
      rw [splits.whole]
      simp only [List.append_assoc]

theorem drain_ne_eof (s : Scanner) : ∀ token ∈ s.drain.tokens, token.kind ≠ .eof := by
  fun_induction drain s with
  | case1 s ended => simp
  | case2 s found behind ih => exact List.forall_mem_cons.2 ⟨found, ih⟩

def after : Nat → Scanner → Scanner
  | 0, s => s
  | n + 1, s => s.next.2.after n

/-- The end is found again. -/
theorem next_ended {s : Scanner} (ended : s.next.1.kind = .eof) : s.next.2.next = s.next := by
  fun_induction next s with
  | case1 s ahead =>
    obtain ⟨input, line⟩ := s
    cases ahead
    rw [next]
  | case2 s c input ahead cut _ ih => exact ih ended
  | case3 s c input ahead cut _ ih => exact ih ended
  | case4 s c input ahead cut _ ih => exact ih ended
  | case5 s c input ahead cut kind isToken =>
    have isEnd : cut.lexeme = .token .eof := by rw [isToken, show kind = .eof from ended]
    exact absurd isEnd (Lexeme.cut_ne_eof c input)

/-- One token after the other, and the end for ever after. -/
theorem next_after (s : Scanner) (n : Nat) :
    (s.after n).next.1 = s.drain.tokens.getD n s.drain.last := by
  induction n generalizing s with
  | zero =>
    rw [drain]
    split <;> rfl
  | succ n ih =>
    rw [after, ih, drain.eq_def s]
    split
    · next ended =>
      rw [drain_congr (next_ended ended), drain, dif_pos ended]
      rfl
    · rfl

end Scanner

/-- The end stands on the last line. -/
theorem scan_last_eq (source : String) :
    (scan source).last = .eof (1 + newlines source.toList) := by
  obtain ⟨-, -, -, -, last⟩ := (Scanner.ofSource source).drain_splits [] rfl
  exact last

/-- No character is lost. A text splits in one way into gaps and the longest lexemes,
    these are those of its tokens, and each stands on the line of the newlines before
    it. There is one end token, on the last line, and it is found for ever. -/
theorem scan_splits (source : String) :
    (∃ split : Split, split.Of source.toList ∧ split.tokens = (scan source).tokens ∧
      ∀ other : Split, other.Of source.toList → other = split) ∧
    (scan source).toList = (scan source).tokens ++ [.eof (1 + newlines source.toList)] ∧
    (∀ token ∈ (scan source).tokens, token.kind ≠ .eof) ∧
    ∀ n, ((Scanner.ofSource source).after n).next.1 =
      (scan source).tokens.getD n (.eof (1 + newlines source.toList)) := by
  obtain ⟨split, writes, fits, tokens, -⟩ := (Scanner.ofSource source).drain_splits [] rfl
  have isLast := scan_last_eq source
  refine ⟨⟨split, ⟨writes, fits⟩, tokens, fun other h => Split.Of.unique ⟨writes, fits⟩ h⟩, ?_, ?_, fun n => ?_⟩
  · rw [Stream.toList, isLast]
  · exact Scanner.drain_ne_eof _
  · rw [Scanner.next_after, ← isLast]
    rfl

end Lantern
