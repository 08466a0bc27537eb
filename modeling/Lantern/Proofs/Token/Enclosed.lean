/-
  Lantern.Proofs.Token.Enclosed — a text in brackets, behind another text.

  No word, number, mark or closed string goes on with a bracket (`Fence`,
  `Longest.fenced`). So if no comment stands at the end of a text, its gaps and lexemes
  are the same in front of a bracket (`Split.Fits.bracket`), and they do not depend on
  the line it starts on (`Split.Fits.down`). With that, the split of the whole is put
  together from those of the parts, and it is the only one.
  - `scan_enclosed`: the tokens of the first text, the bracket, the tokens of the second
    text further down, the bracket.
  - `Split.Of.last_line`: a text with nothing behind its last token ends on the line
    that token ends on.
-/

import Lantern.Proofs.Token.Split

namespace Lantern

/-! ## Fences -/

/-- A character that no word, number or mark goes on with. -/
structure Fence (d : Char) : Prop where
  word : isWordChar d = false
  digit : d.isDigit = false
  pair (c : Char) : pairKind? c d = none

/-- An opening bracket with the one that closes it: those of an index, and those of a
    call. -/
def brackets : List (Kind × Kind) := [(.lbracket, .rbracket), (.lparen, .rparen)]

theorem brackets_cases {pair : Kind × Kind} (known : pair ∈ brackets) :
    pair = (.lbracket, .rbracket) ∨ pair = (.lparen, .rparen) := by
  simpa [brackets] using known

structure Kind.IsBracket (kind : Kind) (d : Char) : Prop where
  mark : markKind d = kind
  legal : kind ≠ .illegal
  alone (e : Char) : pairKind? d e = none
  fence : Fence d

theorem isBracket_of_brackets {pair : Kind × Kind} (known : pair ∈ brackets) :
    (∃ d, pair.1.IsBracket d) ∧ ∃ d, pair.2.IsBracket d := by
  have bracket {kind : Kind} {d : Char} (mark : markKind d = kind) (known : d ∈ ['(', ')', '[', ']']) :
      kind.IsBracket d := by
    simp only [List.mem_cons, List.not_mem_nil, or_false] at known
    rcases known with rfl | rfl | rfl | rfl
    all_goals
      refine ⟨mark, by rw [← mark]; decide, fun e => ?_, rfl, rfl, fun c => ?_⟩
      · unfold pairKind?; split <;> simp_all
      · unfold pairKind?; split <;> simp_all
  rcases brackets_cases known with rfl | rfl
  · exact ⟨⟨'[', bracket rfl (by decide)⟩, ⟨']', bracket rfl (by decide)⟩⟩
  · exact ⟨⟨'(', bracket rfl (by decide)⟩, ⟨')', bracket rfl (by decide)⟩⟩

namespace Kind.IsBracket

variable {kind : Kind} {d : Char} (bracket : kind.IsBracket d)
include bracket

theorem spelled : kind.spelling.toList = [d] := (isMark_markKind bracket.mark bracket.legal).2

theorem lexeme (line : Nat) : Token.lexeme ⟨kind, kind.spelling, line⟩ = [d] := by
  obtain ⟨isMark, spelled⟩ := isMark_markKind bracket.mark bracket.legal
  cases kind <;> first | exact spelled | cases isMark

theorem newlines_eq : newlines [d] = 0 := by
  refine List.count_eq_zero.2 fun member => ?_
  obtain rfl := List.mem_singleton.1 member
  exact bracket.legal bracket.mark.symm

/-- A bracket is a lexeme whatever follows. -/
theorem longest (rest : List Char) : Longest [d] (.token kind) (d :: rest) := by
  have longest := Lexeme.cut_longest d rest
  rwa [Lexeme.cut_mark bracket.mark bracket.legal fun e _ => bracket.alone e] at longest

end Kind.IsBracket

/-- No pattern goes on from a token over a fence. -/
theorem Pattern.not_matches_fenced {pattern other : Pattern} {text rest behind : List Char}
    {kind : Kind} {d : Char}
    (fence : Fence d) (legal : kind ≠ .illegal) (matches_ : pattern.Matches text)
    (tells : pattern.lexeme text = .token kind) :
    ¬ other.Matches (text ++ rest ++ d :: behind) := by
  intro h
  obtain ⟨c, text, rfl⟩ := List.exists_cons_of_ne_nil (ne_nil matches_)
  have starts := starts_of_matches matches_
  have starts' : other.starts c := starts_of_matches h
  cases pattern with
  | word =>
    obtain rfl := starts_word starts starts'
    exact absurd (h.2 d (by simp)) (by simp [fence.word])
  | number =>
    obtain rfl := starts_digit starts starts'
    exact absurd (h.2 d (by simp)) (by simp [fence.digit])
  | string =>
    obtain ⟨inner, eq, -⟩ := matches_
    obtain ⟨rfl, rfl⟩ := List.cons.inj eq
    cases other with
    | string =>
      -- the quote that closes the token would stand within the longer string
      obtain ⟨inner', same, clear⟩ := h
      have inside : inner ++ '"' :: (rest ++ d :: behind) = inner' ++ ['"'] := by simpa using same
      rcases List.append_eq_append_iff.1 inside with ⟨mid, rfl, closes⟩ | ⟨mid, rfl, closes⟩
      · cases mid with
        | nil => simp at closes
        | cons e mid =>
          obtain ⟨rfl, -⟩ := List.cons.inj closes
          simp at clear
      · cases mid <;> simp at closes
    | unclosed =>
      obtain ⟨inner', same, clear⟩ := h
      obtain ⟨-, rfl⟩ := List.cons.inj same
      simp at clear
    | _ => cases starts'
  | mark kind' =>
    have only := marksOnly_of_legal (bne_iff_ne.1 starts)
    rcases Lexeme.mark_front only h List.prefix_rfl with ⟨one, -⟩ | ⟨e, _, two, pair⟩
    · simp at one
    · -- two characters are the token and the fence
      have same : text ++ rest ++ d :: behind = [e] := by simpa using two
      obtain rfl : d = e := by
        have member : d ∈ [e] := same ▸ by simp
        exact List.mem_singleton.1 member
      rw [fence.pair] at pair
      cases pair
  | unclosed | semicolon =>
    cases tells
    exact legal rfl
  | _ => cases tells

/-- So a token is the longest lexeme in front of a fence too. -/
theorem Longest.fenced {text rest : List Char} {kind : Kind} {d : Char} (fence : Fence d)
    (legal : kind ≠ .illegal)
    (h : Longest text (.token kind) (text ++ rest)) (more : List Char) :
    Longest text (.token kind) (text ++ rest ++ d :: more) := by
  obtain ⟨pattern, matches_, tells, most⟩ := h.matches_of (by simpa using legal)
  refine ⟨⟨rest ++ d :: more, by simp⟩, .inl ⟨pattern, matches_, tells, fun other longer h front => ?_⟩⟩
  by_cases within : longer.length ≤ (text ++ rest).length
  · exact most other longer h (List.prefix_of_prefix_length_le front ⟨d :: more, rfl⟩ within)
  · -- what goes on beyond has the fence in it
    have whole : text ++ rest ++ [d] <+: longer := by
      refine List.prefix_of_prefix_length_le ⟨more, by simp⟩ front ?_
      rw [List.length_append, List.length_singleton]
      omega
    obtain ⟨behind, rfl⟩ := whole
    rw [List.append_assoc _ [d], List.singleton_append] at h
    exact absurd h (Pattern.not_matches_fenced fence legal matches_ tells)

/-! ## Gaps in front of more -/

namespace Gap

variable {gap rest : List Char}

/-- A gap in front of a token is one whatever follows that. -/
theorem followed (h : Gap gap rest) (ahead : rest ≠ []) (more : List Char) :
    Gap gap (rest ++ more) := by
  induction h with
  | none rest => exact .none _
  | blank isBlank _ ih => exact .blank isBlank (ih ahead)
  | @comment words gap rest line ends _ ih =>
    refine .comment line (fun c first => ends c ?_) (ih ahead)
    rw [← List.append_assoc] at first
    obtain ⟨e, ahead, eq⟩ := List.exists_cons_of_ne_nil (List.append_ne_nil_of_right_ne_nil gap ahead)
    rw [eq] at first ⊢
    exact first

/-- So is white space. -/
theorem blanks_only (h : Gap gap rest) (noComment : ';' ∉ gap) (more : List Char) : Gap gap more := by
  induction h with
  | none => exact .none _
  | blank isBlank _ ih => exact .blank isBlank (ih fun member => noComment (List.mem_cons_of_mem _ member))
  | comment => exact absurd List.mem_cons_self noComment

end Gap

/-! ## Splits behind each other -/

theorem Token.newlines_lexeme (token : Token) :
    newlines token.lexeme = newlines token.text.toList := by
  unfold Token.lexeme
  split
  · simp [newlines]
  · rfl

theorem newlines_append (chars more : List Char) :
    newlines (chars ++ more) = newlines chars + newlines more :=
  List.count_append

namespace Split

variable {before tail tail' : List Char} {pieces pieces' : List (List Char × Token)}

theorem written_append (pieces pieces' : List (List Char × Token)) (tail : List Char) :
    written (pieces ++ pieces') tail = written pieces [] ++ written pieces' tail := by
  induction pieces with
  | nil => rfl
  | cons piece pieces ih => simp only [written, List.cons_append, ih, List.append_assoc]

theorem written_tail (pieces : List (List Char × Token)) (tail : List Char) :
    written pieces tail = written pieces [] ++ tail := by
  have whole := written_append pieces [] tail
  rwa [List.append_nil] at whole

def moved (lines : Nat) (pieces : List (List Char × Token)) : List (List Char × Token) :=
  pieces.map fun piece => (piece.1, piece.2.down lines)

theorem written_moved (lines : Nat) (pieces : List (List Char × Token)) (tail : List Char) :
    written (moved lines pieces) tail = written pieces tail := by
  induction pieces with
  | nil => rfl
  | cons piece pieces ih => exact congrArg (fun rest => piece.1 ++ (piece.2.lexeme ++ rest)) ih

/-- Behind another text the pieces are the same, further down. -/
theorem Fits.down {front : List Char} {lines : Nat} (fits : Fits before pieces tail)
    (counted : newlines front = newlines before + lines) :
    Fits front (moved lines pieces) tail := by
  induction pieces generalizing before front with
  | nil => exact fits
  | cons piece pieces ih =>
    obtain ⟨gap, token⟩ := piece
    obtain ⟨isGap, nonempty, longest, line, more⟩ := fits
    rw [← written_moved lines pieces tail] at isGap longest
    refine ⟨isGap, nonempty, longest, ?_, ih more ?_⟩
    · show token.line + lines = 1 + newlines (front ++ gap)
      rw [line, newlines_append, newlines_append, counted]
      omega
    · show newlines (front ++ gap ++ token.lexeme) = _
      rw [newlines_append, newlines_append, newlines_append, newlines_append, counted]
      omega

/-- A split goes on behind a bracket. The gap at its end, if it is white space, is the
    one in front of the bracket. -/
theorem Fits.bracket {kind : Kind} {d : Char} (bracket : kind.IsBracket d)
    (fits : Fits before pieces tail)
    (legal : ∀ piece ∈ pieces, piece.2.kind ≠ .illegal) (noComment : ';' ∉ tail)
    (behind : Fits (before ++ written pieces tail ++ [d]) pieces' tail') :
    Fits before (pieces ++ (tail, ⟨kind, kind.spelling, 1 + newlines (before ++ written pieces tail)⟩) :: pieces') tail' := by
  induction pieces generalizing before with
  | nil =>
    have isGap : Gap tail [] := fits
    refine ⟨isGap.blanks_only noComment _, ?_, ?_, rfl, ?_⟩ <;> rw [bracket.lexeme]
    · exact List.cons_ne_nil _ _
    · exact bracket.longest _
    · exact behind
  | cons piece pieces ih =>
    obtain ⟨gap, first⟩ := piece
    obtain ⟨isGap, nonempty, longest, line, more⟩ := fits
    obtain ⟨here, later⟩ := List.forall_mem_cons.1 legal
    have front : before ++ written ((gap, first) :: pieces) tail = before ++ gap ++ first.lexeme ++ written pieces tail := by
      simp only [written, List.append_assoc]
    rw [front] at behind ⊢
    have whole (line : Nat) : first.lexeme ++ written (pieces ++ (tail, ⟨kind, kind.spelling, line⟩) :: pieces') tail' =
        first.lexeme ++ written pieces tail ++ d :: written pieces' tail' := by
      rw [written_append, written_tail pieces tail, written, bracket.lexeme]
      simp only [List.append_assoc, List.cons_append, List.nil_append]
    refine ⟨?_, nonempty, ?_, line, ih more later behind⟩
    · rw [List.append_eq, whole]
      exact isGap.followed (List.append_ne_nil_of_left_ne_nil nonempty _) _
    · rw [List.append_eq, whole]
      exact longest.fenced bracket.fence here _

/-- With nothing behind its last token, a text ends on the line that token ends on. -/
theorem Fits.last_line (fits : Fits before pieces []) {gap : List Char} {token : Token}
    (last : pieces.getLast? = some (gap, token)) :
    1 + newlines (before ++ written pieces []) = token.line + newlines token.lexeme := by
  induction pieces generalizing before with
  | nil => cases last
  | cons piece pieces ih =>
    obtain ⟨gap', first⟩ := piece
    obtain ⟨-, -, -, line, more⟩ := fits
    cases pieces with
    | nil =>
      cases last
      rw [line, written, written, List.append_nil, ← List.append_assoc, newlines_append _ token.lexeme, Nat.add_assoc]
    | cons second pieces =>
      rw [List.getLast?_cons_cons] at last
      have rest := ih more last
      rw [← rest, written]
      simp only [List.append_assoc]

end Split

/-! ## Texts -/

/-- The tokens of a text are those of its split. -/
theorem scan_of_fits {source : String} {pieces : List (List Char × Token)} {tail : List Char}
    (writes : Split.written pieces tail = source.toList) (fits : Split.Fits [] pieces tail) :
    (scan source).tokens = pieces.map Prod.snd := by
  obtain ⟨⟨own, -, tokens, only⟩, -⟩ := scan_splits source
  rw [← tokens, ← only ⟨pieces, tail⟩ ⟨writes, fits⟩]
  rfl

theorem Split.Of.last_line {source : String} {split : Split} (h : split.Of source.toList)
    (ends : split.tail = [])
    {token : Token} (last : (scan source).tokens.getLast? = some token) :
    1 + newlines source.toList = token.line + newlines token.text.toList := by
  obtain ⟨pieces, tail⟩ := split
  subst ends
  rw [scan_of_fits h.1 h.2, List.getLast?_map] at last
  obtain ⟨⟨gap, token⟩, isLast, rfl⟩ := Option.map_eq_some_iff.1 last
  have line := h.2.last_line isLast
  rwa [List.nil_append, h.1, Token.newlines_lexeme] at line

/-- Two texts that end with no comment, the second in brackets behind the first: the
    tokens of both, those of the second further down by the newlines of the first, and
    the brackets. -/
theorem scan_enclosed {source inner : String} {outside inside : Split}
    (outer : outside.Of source.toList)
    (within : inside.Of inner.toList) (noComment : ';' ∉ outside.tail) (noComment' : ';' ∉ inside.tail)
    (legal : ∀ t ∈ (scan source).tokens, t.kind ≠ .illegal)
    (legal' : ∀ t ∈ (scan inner).tokens, t.kind ≠ .illegal)
    {pair : Kind × Kind} (known : pair ∈ brackets) :
    (scan (source ++ pair.1.spelling ++ inner ++ pair.2.spelling)).tokens = (scan source).tokens ++
      ⟨pair.1, pair.1.spelling, 1 + newlines source.toList⟩ ::
        ((scan inner).tokens.map (Token.down (newlines source.toList)) ++
          [⟨pair.2, pair.2.spelling, 1 + newlines source.toList + newlines inner.toList⟩]) := by
  obtain ⟨⟨d, opens⟩, ⟨e, closes⟩⟩ := isBracket_of_brackets known
  obtain ⟨writes, fits⟩ := outer
  obtain ⟨writes', fits'⟩ := within
  rw [scan_of_fits writes fits] at legal ⊢
  rw [scan_of_fits writes' fits'] at legal' ⊢
  have legalPieces : ∀ piece ∈ outside.pieces, piece.2.kind ≠ .illegal := fun piece member =>
    legal _ (List.mem_map_of_mem member)
  have legalMoved : ∀ piece ∈ Split.moved (newlines source.toList) inside.pieces, piece.2.kind ≠ .illegal := by
    intro piece member
    obtain ⟨piece, here, rfl⟩ := List.mem_map.1 member
    exact legal' piece.2 (List.mem_map_of_mem here)
  -- the inner text stands behind the outer one and the bracket
  have behind : newlines (source.toList ++ [d]) = newlines [] + newlines source.toList := by
    rw [newlines_append, opens.newlines_eq]
    exact Nat.add_comm _ _
  have nothing (before : List Char) : Split.Fits before [] [] := Gap.none []
  have enclosed := Split.Fits.bracket closes (fits'.down behind) legalMoved noComment' (nothing _)
  rw [← writes, Split.written_moved, writes'] at enclosed
  have whole := Split.Fits.bracket opens fits legalPieces noComment enclosed
  refine (scan_of_fits ?_ whole).trans ?_
  · rw [Split.written_append, Split.written, opens.lexeme, Split.written_append, Split.written_moved, Split.written,
      closes.lexeme, Split.written]
    simp only [String.toList_append, opens.spelled, closes.spelled, ← writes, ← writes',
      Split.written_tail _ outside.tail, Split.written_tail _ inside.tail, List.append_assoc, List.append_nil]
  · have lines : newlines (source.toList ++ [d] ++ inner.toList) = newlines source.toList + newlines inner.toList := by
      rw [newlines_append, newlines_append, opens.newlines_eq]
      rfl
    rw [writes, lines, List.map_append, List.map_cons, List.map_append, Split.moved, List.map_map, List.map_map,
      Nat.add_assoc]
    rfl

end Lantern
