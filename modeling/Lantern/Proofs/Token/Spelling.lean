/-
  Lantern.Proofs.Token.Spelling — scanning undoes spelling.

  A text is laid out as a list of marks: gaps, newlines, and tokens with their texts.
  `chars` writes the marks down, `tokens` says which tokens they are and on which lines.
  A text may hold more than one token only where no character continues the token before
  it (`Kind.bounds`), and a token has to be written the way its kind is (`Spelled`);
  `Scannable` asks for both.

  Main statements:

  - `Mark.written_inj`: a scannable layout can be told from its text.
  - `drain_written`: the scanner takes a scannable text apart into its tokens, and finds
    the end on the last line.
  - `scan_written`: the same for a whole source.
-/

import Lantern.Token.Scan

namespace Lantern

/-! ## Marks -/

inductive Mark where
  | gap
  | newline
  | token (kind : Kind) (text : String)
  deriving DecidableEq, Repr

namespace Mark

def chars : Mark → List Char
  | gap => [' ']
  | newline => ['\n']
  | token kind text => (Token.mk kind text 0).lexeme

def written (marks : List Mark) : List Char := marks.flatMap chars

def lineAfter (line : Nat) (marks : List Mark) : Nat := line + newlines (written marks)

def tokens : Nat → List Mark → List Token
  | _, [] => []
  | line, gap :: marks => tokens line marks
  | line, newline :: marks => tokens (line + 1) marks
  | line, token kind text :: marks => ⟨kind, text, line⟩ :: tokens (line + newlines text.toList) marks

@[simp] theorem written_nil : written [] = [] := rfl

@[simp] theorem written_cons (mark : Mark) (marks : List Mark) : written
    (mark :: marks) = mark.chars ++ written marks := rfl

@[simp] theorem written_append (marks more : List Mark) :
    written (marks ++ more) = written marks ++ written more :=
  List.flatMap_append

end Mark

/-! ## How a kind is written -/

def Kind.isWord : Kind → Bool
  | .ident | .trueWord | .falseWord | .ifWord | .elseWord | .elifWord | .thenWord | .endWord | .whileWord | .fnWord
  | .returnWord | .testWord | .classWord => true
  | _ => false

/-- Whether `c` ends what is written as a token of this kind. -/
def Kind.bounds (kind : Kind) (c : Char) : Bool :=
  match kind with
  | .int => !c.isDigit
  | .assign | .bang | .lt | .gt => c != '='
  | .amp => c != '&'
  | .pipe => c != '|'
  | kind => !(kind.isWord && isWordChar c)

def Spelled (kind : Kind) (text : String) : Prop :=
  match kind with
  | .eof | .illegal => False
  | .ident => text.toList ≠ [] ∧ text.toList.all isWordChar ∧ Kind.keyword? text = none
  | .int => text.toList ≠ [] ∧ text.toList.all Char.isDigit
  | .str => '"' ∉ text.toList
  | kind => text = kind.spelling

/-- Whether the marks are written as their kinds are, and no token runs into the next. -/
def Scannable : List Mark → Prop
  | [] => True
  | .gap :: marks | .newline :: marks => Scannable marks
  | .token kind text :: marks => Spelled kind text ∧ (∀ c ∈ (Mark.written marks).head?, kind.bounds c) ∧ Scannable marks

instance (kind : Kind) (text : String) : Decidable (Spelled kind text) := by
  cases kind <;> dsimp only [Spelled] <;> infer_instance

instance decidableScannable : (marks : List Mark) → Decidable (Scannable marks)
  | [] => inferInstanceAs (Decidable True)
  | .gap :: marks | .newline :: marks => decidableScannable marks
  | .token kind text :: marks =>
    have := decidableScannable marks
    -- asked of the next character only, not of all there are
    have : Decidable (∀ c ∈ (Mark.written marks).head?, kind.bounds c) := Option.decidableForallMem _
    inferInstanceAs (Decidable (Spelled kind text ∧ (∀ c ∈ (Mark.written marks).head?, kind.bounds c) ∧ Scannable marks))

/-! ## One lexeme -/

namespace Lexeme

variable {text : List Char} {rest : List Char}

theorem takeWhile_bounded {p : Char → Bool} (all : text.all p)
    (bounded : ∀ c ∈ rest.head?, p c = false) :
    (text ++ rest).takeWhile p = text ∧ (text ++ rest).dropWhile p = rest := by
  rw [List.all_eq_true] at all
  rw [List.takeWhile_append_of_pos all, List.dropWhile_append_of_pos all]
  cases rest with
  | nil => simp
  | cons c rest =>
    have stops : p c = false := bounded c rfl
    simp [stops]

theorem cut_word {c : Char} (all : (c :: text).all isWordChar)
    (bounded : ∀ d ∈ rest.head?, isWordChar d = false) :
    cut c (text ++ rest) = ⟨.token ((Kind.keyword? (String.ofList (c :: text))).getD .ident), text, rest⟩ := by
  simp only [List.all_cons, Bool.and_eq_true] at all
  obtain ⟨first, all⟩ := all
  have noNewline : (c == '\n') = false := by
    rw [beq_eq_false_iff_ne]; rintro rfl; simp [isWordChar] at first
  have noGap : isGap c = false := by
    rw [Bool.eq_false_iff]
    intro gap
    simp only [isGap, Bool.or_eq_true, beq_iff_eq] at gap
    rcases gap with (rfl | rfl) | rfl <;> simp [isWordChar] at first
  obtain ⟨taken, dropped⟩ := takeWhile_bounded all bounded
  simp only [cut, noNewline, noGap, first, word, run, taken, dropped, Bool.false_eq_true, if_false, if_true]

theorem digit_not_word {c : Char} (digit : c.isDigit) : isWordChar c = false := by
  rw [Bool.eq_false_iff]
  intro word
  simp only [Char.isDigit, Bool.and_eq_true, decide_eq_true_eq, UInt32.le_iff_toNat_le] at digit
  change decide (c.val ≥ 'A'.val ∧ c.val ≤ 'Z'.val) || (c.val ≥ 'a'.val && c.val ≤ 'z'.val) || c == '_' at word
  simp only [Bool.or_eq_true, Bool.and_eq_true, decide_eq_true_eq, beq_iff_eq, UInt32.le_iff_toNat_le] at word
  rcases word with (⟨low, high⟩ | ⟨low, high⟩) | rfl
  · simp at digit low; omega
  · simp at digit low; omega
  · simp at digit

theorem cut_int {c : Char} (all : (c :: text).all Char.isDigit)
    (bounded : ∀ d ∈ rest.head?, d.isDigit = false) :
    cut c (text ++ rest) = ⟨.token .int, text, rest⟩ := by
  simp only [List.all_cons, Bool.and_eq_true] at all
  obtain ⟨first, all⟩ := all
  have noWord := digit_not_word first
  have noNewline : (c == '\n') = false := by
    rw [beq_eq_false_iff_ne]; rintro rfl; simp at first
  have noGap : isGap c = false := by
    rw [Bool.eq_false_iff]
    intro gap
    simp only [isGap, Bool.or_eq_true, beq_iff_eq] at gap
    rcases gap with (rfl | rfl) | rfl <;> simp at first
  obtain ⟨taken, dropped⟩ := takeWhile_bounded all bounded
  simp only [cut, noNewline, noGap, noWord, first, run, taken, dropped, Bool.false_eq_true, if_false, if_true]

theorem cut_str (noQuote : '"' ∉ text) : cut '"' (text ++ '"' :: rest) = ⟨.token .str, text ++ ['"'], rest⟩ := by
  have all : text.all (· != '"') := by
    rw [List.all_eq_true]
    intro c mem
    have other : c ≠ '"' := by rintro rfl; exact noQuote mem
    simpa using other
  have bounded : ∀ c ∈ ('"' :: rest).head?, (c != '"') = false := by simp
  obtain ⟨taken, dropped⟩ := takeWhile_bounded all bounded
  change string (text ++ '"' :: rest) = _
  unfold string
  rw [dropped, taken]

/-- An operator or mark of one character. -/
theorem cut_mark {c : Char} {kind : Kind} (eq : markKind c = kind) (legal : kind ≠ .illegal)
    (bounded : ∀ d ∈ rest.head?, pairKind? c d = none) : cut c rest = ⟨.token kind, [], rest⟩ := by
  have noOther : cut c rest = mark c rest := by
    rw [← eq] at legal
    unfold markKind at legal
    split at legal <;> first | rfl | exact absurd rfl legal
  rw [noOther, ← eq]
  cases rest with
  | nil => rfl
  | cons d rest =>
    have single : pairKind? c d = none := bounded d rfl
    simp only [mark, single]

/-- Two characters are an operator only if the second does not end the first. -/
theorem pairKind?_none {c d : Char} {kind : Kind} (eq : markKind c = kind)
    (bounds : kind.bounds d) :
    pairKind? c d = none := by
  subst eq
  unfold pairKind?
  split <;> first | rfl | cases bounds

/-- An operator of two characters. -/
theorem cut_pair {c d : Char} {kind : Kind} (eq : pairKind? c d = some kind) : cut c
    (d :: rest) = ⟨.token kind, [d], rest⟩ := by
  have isMark : cut c (d :: rest) = mark c (d :: rest) := by
    unfold pairKind? at eq
    split at eq <;> first | rfl | cases eq
  rw [isMark]
  simp only [mark, eq]

/-- A word that is known not to be a name, or known to be one, by its kind. -/
theorem cut_word_of {kind : Kind} {word : String} (nonempty : word.toList ≠ [])
    (all : word.toList.all isWordChar)
    (eq : (Kind.keyword? word).getD .ident = kind)
    (bounded : ∀ d ∈ rest.head?, isWordChar d = false) :
    ∃ c more, word.toList = c :: more ∧ cut c (more ++ rest) = ⟨.token kind, more, rest⟩ := by
  obtain ⟨c, more, chars⟩ := List.exists_cons_of_ne_nil nonempty
  refine ⟨c, more, chars, ?_⟩
  rw [chars] at all
  rw [cut_word all bounded, ← chars, String.ofList_toList, eq]

/-- A token that is written as its kind is, up to where it ends. -/
theorem cut_spelled {kind : Kind} {word : String} (spelled : Spelled kind word)
    (bounded : ∀ c ∈ rest.head?, kind.bounds c) :
    ∃ c more, (Mark.token kind word).chars = c :: more ∧ cut c (more ++ rest) = ⟨.token kind, more, rest⟩ := by
  cases kind
  case eof | illegal => exact spelled.elim
  case ident =>
    obtain ⟨nonempty, all, free⟩ := spelled
    exact cut_word_of nonempty all (by rw [free]; rfl) (by simpa [Kind.bounds, Kind.isWord] using bounded)
  case int =>
    obtain ⟨nonempty, all⟩ := spelled
    obtain ⟨c, more, chars⟩ := List.exists_cons_of_ne_nil nonempty
    refine ⟨c, more, chars, ?_⟩
    rw [chars] at all
    exact cut_int all (by simpa [Kind.bounds] using bounded)
  case str =>
    refine ⟨'"', word.toList ++ ['"'], rfl, ?_⟩
    rw [List.append_assoc]
    exact cut_str spelled
  case trueWord | falseWord | ifWord | elseWord | elifWord | thenWord | endWord | whileWord | fnWord | returnWord | testWord
      | classWord =>
    cases spelled
    exact cut_word_of (by decide) (by decide) (by decide) (by simpa [Kind.bounds, Kind.isWord] using bounded)
  case eqEq | notEq | ltEq | gtEq | andAnd | orOr =>
    cases spelled
    exact ⟨_, _, rfl, cut_pair rfl⟩
  case plus | minus | star | slash | percent | dot | comma | lparen | rparen | lbracket | rbracket | assign | bang | lt | gt | amp
      | pipe =>
    cases spelled
    exact ⟨_, _, rfl, cut_mark rfl (by decide) fun d next => pairKind?_none rfl (bounded d next)⟩

end Lexeme

/-! ## Whole layouts -/

namespace Mark

/-- The text a token keeps is the one it is written with. -/
theorem keep_chars (kind : Kind) (text : String) : kind.keep (token kind text).chars = text := by
  cases kind <;> simp [Kind.keep, chars, Token.lexeme]

theorem newlines_chars (kind : Kind) (text : String) :
    newlines (token kind text).chars = newlines text.toList := by
  cases kind <;> simp [newlines, chars, Token.lexeme]

theorem lineAfter_gap (line : Nat) (marks : List Mark) :
    lineAfter line (gap :: marks) = lineAfter line marks := by
  simp [lineAfter, newlines, chars]

theorem lineAfter_newline (line : Nat) (marks : List Mark) :
    lineAfter line (newline :: marks) = lineAfter (line + 1) marks := by
  simp [lineAfter, newlines, chars]; omega

theorem lineAfter_token (line : Nat) (kind : Kind) (text : String) (marks : List Mark) :
    lineAfter line (token kind text :: marks) = lineAfter (line + newlines text.toList) marks := by
  rw [← newlines_chars kind]
  simp only [lineAfter, newlines, written_cons, List.count_append]
  omega

end Mark

/-- A token starts with no blank. -/
theorem Lexeme.cut_token_ne {c : Char} {input more rest : List Char} {kind : Kind}
    (cut : Lexeme.cut c input = ⟨.token kind, more, rest⟩) : c ≠ ' ' ∧ c ≠ '\n' := by
  constructor <;> rintro rfl <;> cases cut

/-- A layout that starts with a token starts with that and no other mark. -/
theorem Mark.head_token {kind : Kind} {text : String} {marks : List Mark} {mark' : Mark}
    {marks' : List Mark}
    (scannable : Scannable (.token kind text :: marks)) (scannable' : Scannable (mark' :: marks'))
    (eq : Mark.written (.token kind text :: marks) = Mark.written (mark' :: marks')) :
    mark' = .token kind text ∧ Mark.written marks = Mark.written marks' := by
  obtain ⟨c, more, chars, cut⟩ := Lexeme.cut_spelled scannable.1 scannable.2.1
  obtain ⟨noGap, noNewline⟩ := Lexeme.cut_token_ne cut
  rw [Mark.written_cons, Mark.written_cons, chars, List.cons_append] at eq
  cases mark' with
  | gap => exact absurd (List.cons.inj eq).1 noGap
  | newline => exact absurd (List.cons.inj eq).1 noNewline
  | token kind' text' =>
    obtain ⟨c', more', chars', cut'⟩ := Lexeme.cut_spelled scannable'.1 scannable'.2.1
    rw [chars', List.cons_append] at eq
    obtain ⟨rfl, rest⟩ := List.cons.inj eq
    rw [rest, cut'] at cut
    obtain ⟨kinds, rfl, rests⟩ := Lexeme.Cut.mk.inj cut
    cases kinds
    refine ⟨?_, rests.symm⟩
    rw [← Mark.keep_chars kind text, chars, ← chars', Mark.keep_chars]

/-- A layout can be told from its text. -/
theorem Mark.written_inj {marks marks' : List Mark} (scannable : Scannable marks)
    (scannable' : Scannable marks')
    (eq : Mark.written marks = Mark.written marks') : marks = marks' := by
  induction marks generalizing marks' with
  | nil => cases marks' with
    | nil => rfl
    | cons mark marks' => cases mark with
      | gap | newline => cases eq
      | token kind text =>
        obtain ⟨c, more, chars, -⟩ := Lexeme.cut_spelled scannable'.1 scannable'.2.1
        rw [Mark.written_cons, chars] at eq
        cases eq
  | cons mark marks ih => cases mark with
    | token kind text => cases marks' with
      | nil =>
        obtain ⟨c, more, chars, -⟩ := Lexeme.cut_spelled scannable.1 scannable.2.1
        rw [Mark.written_cons, chars] at eq
        cases eq
      | cons mark' marks' =>
        obtain ⟨rfl, rest⟩ := Mark.head_token scannable scannable' eq
        rw [ih scannable.2.2 scannable'.2.2 rest]
    | gap => cases marks' with
      | nil => cases eq
      | cons mark' marks' => cases mark' with
        | gap =>
          have rest : Scannable marks' := scannable'
          rw [ih scannable rest (List.cons.inj eq).2]
        | newline => cases eq
        | token kind text =>
          obtain ⟨absurd, -⟩ := Mark.head_token scannable' scannable eq.symm
          cases absurd
    | newline => cases marks' with
      | nil => cases eq
      | cons mark' marks' => cases mark' with
        | gap => cases eq
        | newline =>
          have rest : Scannable marks' := scannable'
          rw [ih scannable rest (List.cons.inj eq).2]
        | token kind text =>
          obtain ⟨absurd, -⟩ := Mark.head_token scannable' scannable eq.symm
          cases absurd

namespace Scanner

theorem drain_congr {s s' : Scanner} (h : s.next = s'.next) : s.drain = s'.drain := by
  rw [drain.eq_def s, drain.eq_def s', h]

theorem drain_nil (line : Nat) : drain ⟨[], line⟩ = ⟨[], .eof line⟩ := by
  rw [drain, next]
  rfl

theorem next_newline (rest : List Char) (line : Nat) :
    next ⟨'\n' :: rest, line⟩ = next ⟨rest, line + 1⟩ := by
  rw [next]
  rfl

theorem next_gap (rest : List Char) (line : Nat) : next ⟨' ' :: rest, line⟩ = next ⟨rest, line⟩ := by
  have skip (c : Char) (gap : isGap c) (rest : List Char) :
      next ⟨c :: rest, line⟩ = next ⟨rest.dropWhile isGap, line⟩ := by
    have noNewline : (c == '\n') = false := by
      rw [beq_eq_false_iff_ne]; rintro rfl; cases gap
    rw [next]
    simp only [Lexeme.cut, noNewline, gap, Lexeme.run, Bool.false_eq_true, if_false, if_true]
  rw [skip ' ' rfl]
  cases rest with
  | nil => rfl
  | cons d rest =>
    by_cases gap : isGap d
    · rw [skip d gap, List.dropWhile_cons_of_pos gap]
    · rw [List.dropWhile_cons_of_neg gap]

/-- A token that is cut off the input comes first, and its newlines are counted behind
    it. -/
theorem drain_token {c : Char} {more rest : List Char} {kind : Kind} (line : Nat)
    (cut : Lexeme.cut c (more ++ rest) = ⟨.token kind, more, rest⟩) (isToken : kind ≠ .eof) :
    drain ⟨c :: more ++ rest, line⟩ =
      ⟨⟨kind, kind.keep (c :: more), line⟩ :: (drain ⟨rest, line + newlines (c :: more)⟩).tokens,
        (drain ⟨rest, line + newlines (c :: more)⟩).last⟩ := by
  have found : next ⟨c :: more ++ rest, line⟩ =
      (⟨kind, kind.keep (c :: more), line⟩, ⟨rest, line + newlines (c :: more)⟩) := by
    rw [next]
    simp only [List.cons_append, cut]
  rw [drain, found]
  simp only [isToken, dite_false]

end Scanner

/-- The scanner takes a scannable text apart into its tokens, and finds the end on the
    last line. -/
theorem drain_written {marks : List Mark} (scannable : Scannable marks) (line : Nat) :
    Scanner.drain ⟨Mark.written marks, line⟩ = ⟨Mark.tokens line marks, .eof (Mark.lineAfter line marks)⟩ := by
  induction marks generalizing line with
  | nil => exact Scanner.drain_nil line
  | cons mark marks ih =>
    cases mark with
    | gap =>
      rw [Mark.lineAfter_gap]
      exact (Scanner.drain_congr (Scanner.next_gap _ line)).trans (ih scannable line)
    | newline =>
      rw [Mark.lineAfter_newline]
      exact (Scanner.drain_congr (Scanner.next_newline _ line)).trans (ih scannable (line + 1))
    | token kind text =>
      obtain ⟨spelled, bounded, rest⟩ := scannable
      obtain ⟨c, more, chars, cut⟩ := Lexeme.cut_spelled spelled bounded
      have isToken : kind ≠ .eof := by rintro rfl; exact spelled
      have drained := Scanner.drain_token line cut isToken
      rw [← chars, Mark.keep_chars, Mark.newlines_chars, ih rest] at drained
      rw [Mark.lineAfter_token]
      exact drained

/-- A source that is laid out scannably scans as its layout. -/
theorem scan_written {source : String} {marks : List Mark}
    (writes : source.toList = Mark.written marks)
    (scannable : Scannable marks) :
    scan source = ⟨Mark.tokens 1 marks, .eof (Mark.lineAfter 1 marks)⟩ := by
  rw [scan, Scanner.ofSource, writes]
  exact drain_written scannable 1

end Lantern
