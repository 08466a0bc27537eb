/-
  Lantern.Proofs.Token.Longest — the lexemes the scanner cuts are the longest ones.

  The scanner cuts its input by looking at one or two characters. What it should come to
  can be said without it: there is a table of patterns (`Pattern.Matches`), and every
  lexeme is the longest text that some pattern matches at the front of the input, or a
  single character where none does (`Longest`).
  - `Lexeme.cut_longest`: what is cut off the input is the longest lexeme, and nothing
    is lost (`Lexeme.cut_whole`).
  - `Longest.unique`: there is only one.
-/

import Lantern.Proofs.Token.Sequel

namespace Lantern

/-! ## Patterns -/

def Kind.isMark : Kind → Bool
  | .assign | .plus | .minus | .star | .slash | .percent | .bang | .eqEq | .notEq | .lt | .gt | .ltEq | .gtEq
  | .andAnd | .orOr | .amp | .pipe | .dot | .comma | .lparen | .rparen | .lbracket | .rbracket => true
  | _ => false

inductive Pattern where
  | blanks
  | newline
  | comment
  | word
  | number
  | string
  /-- A string that nothing closes. -/
  | unclosed
  | semicolon
  | mark (kind : Kind)

namespace Pattern

def Matches : Pattern → List Char → Prop
  | blanks, text => text ≠ [] ∧ ∀ c ∈ text, isGap c
  | newline, text => text = ['\n']
  | comment, text => ∃ words, text = ';' :: ';' :: words ∧ '\n' ∉ words
  | word, text => text ≠ [] ∧ ∀ c ∈ text, isWordChar c
  | number, text => text ≠ [] ∧ ∀ c ∈ text, c.isDigit
  | string, text => ∃ inner, text = '"' :: (inner ++ ['"']) ∧ '"' ∉ inner
  | unclosed, text => ∃ inner, text = '"' :: inner ∧ '"' ∉ inner
  | semicolon, text => text = [';']
  | mark kind, text => kind.isMark ∧ text = kind.spelling.toList

/-- What a text of the pattern is. A word may be reserved; a quote that nothing closes
    and a semicolon alone start no token that means anything. -/
def lexeme : Pattern → List Char → Lexeme
  | blanks, _ => .blanks
  | newline, _ => .newline
  | comment, _ => .comment
  | word, text => .token ((Kind.keyword? (String.ofList text)).getD .ident)
  | number, _ => .token .int
  | string, _ => .token .str
  | unclosed, _ | semicolon, _ => .token .illegal
  | mark kind, _ => .token kind

def starts (c : Char) : Pattern → Bool
  | blanks => isGap c
  | newline => c == '\n'
  | comment | semicolon => c == ';'
  | word => isWordChar c
  | number => c.isDigit
  | string | unclosed => c == '"'
  | mark _ => markKind c != .illegal

end Pattern

/-- At the front of the input this is a lexeme, and there is none longer: no pattern
    matches more, or else no pattern matches anything and the lexeme is one character
    that means nothing. -/
def Longest (text : List Char) (lexeme : Lexeme) (input : List Char) : Prop :=
  text <+: input ∧
    ((∃ pattern : Pattern, pattern.Matches text ∧ pattern.lexeme text = lexeme ∧
        ∀ (other : Pattern) (more : List Char), other.Matches more → more <+: input → more.length ≤ text.length) ∨
      ((∀ (other : Pattern) (more : List Char), other.Matches more → ¬ more <+: input) ∧ text.length = 1 ∧
        lexeme = .token .illegal))

/-! ### Marks -/

/-- A mark is one character or two. -/
theorem Kind.isMark_spelling {kind : Kind} (isMark : kind.isMark) :
    (∃ c, kind.spelling.toList = [c] ∧ markKind c = kind) ∨
      ∃ c d, kind.spelling.toList = [c, d] ∧ markKind c ≠ .illegal ∧ pairKind? c d = some kind := by
  cases kind <;> first
    | exact .inl ⟨_, rfl, rfl⟩
    | exact .inr ⟨_, _, rfl, by decide, rfl⟩
    | cases isMark

theorem isMark_markKind {c : Char} {kind : Kind} (eq : markKind c = kind)
    (legal : kind ≠ .illegal) :
    kind.isMark ∧ kind.spelling.toList = [c] := by
  unfold markKind at eq
  split at eq <;> subst eq <;> first | exact ⟨rfl, rfl⟩ | exact absurd rfl legal

theorem isMark_pairKind {c d : Char} {kind : Kind} (pair : pairKind? c d = some kind) :
    kind.isMark ∧ kind.spelling.toList = [c, d] := by
  unfold pairKind? at pair
  split at pair <;> cases pair <;> exact ⟨rfl, rfl⟩

/-- A character that nothing starts with but marks, if they do. -/
structure MarksOnly (c : Char) : Prop where
  newline : (c == '\n') = false
  gap : isGap c = false
  word : isWordChar c = false
  digit : c.isDigit = false
  quote : (c == '"') = false
  semicolon : (c == ';') = false

theorem marksOnly_of_legal {c : Char} (legal : markKind c ≠ .illegal) : MarksOnly c := by
  unfold markKind at legal
  split at legal <;> first | exact absurd rfl legal | (constructor <;> decide)

namespace Pattern

variable {pattern : Pattern} {c : Char} {text : List Char}

theorem ne_nil (h : pattern.Matches text) : text ≠ [] := by
  cases pattern with
  | blanks | word | number => exact h.1
  | newline | semicolon => rintro rfl; cases h
  | comment | string | unclosed => obtain ⟨_, rfl, -⟩ := h; simp
  | mark kind =>
    obtain ⟨isMark, rfl⟩ := h
    rcases Kind.isMark_spelling isMark with ⟨_, eq, -⟩ | ⟨_, _, eq, -⟩ <;> simp [eq]

theorem starts_of_matches (h : pattern.Matches (c :: text)) : pattern.starts c := by
  cases pattern with
  | blanks | word | number => exact h.2 c List.mem_cons_self
  | newline | semicolon => cases h; rfl
  | comment | string | unclosed => obtain ⟨_, eq, -⟩ := h; cases eq; rfl
  | mark kind =>
    obtain ⟨isMark, eq⟩ := h
    rcases Kind.isMark_spelling isMark with ⟨_, eq', same⟩ | ⟨_, _, eq', legal, -⟩
    · rw [eq'] at eq
      cases eq
      rw [starts, same]
      cases kind <;> first | rfl | cases isMark
    · rw [eq'] at eq
      cases eq
      simpa [starts] using legal

/-- What matches at the front of an input starts with its first character. -/
theorem starts_front {input : List Char} (h : pattern.Matches text) (front : text <+: c :: input) :
    pattern.starts c := by
  cases text with
  | nil => exact absurd rfl (ne_nil h)
  | cons d text =>
    obtain rfl : d = c := (List.cons_prefix_cons.1 front).1
    exact starts_of_matches h

/-! White space, words and numbers each start with characters that no other pattern
starts with. -/

theorem starts_gap (gap : isGap c) (starts : pattern.starts c) : pattern = blanks := by
  simp only [isGap, Bool.or_eq_true, beq_iff_eq] at gap
  rcases gap with (rfl | rfl) | rfl <;> cases pattern <;> first | rfl | cases starts

theorem starts_word (isWord : isWordChar c) (starts : pattern.starts c) : pattern = word := by
  cases pattern with
  | word => rfl
  | blanks => cases @starts_gap word c starts isWord
  | number => rw [Lexeme.digit_not_word starts] at isWord; cases isWord
  | newline | comment | semicolon | string | unclosed =>
    obtain rfl := beq_iff_eq.1 starts
    cases isWord
  | mark kind => rw [(marksOnly_of_legal (bne_iff_ne.1 starts)).word] at isWord; cases isWord

theorem starts_digit (isDigit : c.isDigit) (starts : pattern.starts c) : pattern = number := by
  cases pattern with
  | number => rfl
  | blanks => cases @starts_gap number c starts isDigit
  | word => cases @starts_word number c starts isDigit
  | newline | comment | semicolon | string | unclosed =>
    obtain rfl := beq_iff_eq.1 starts
    cases isDigit
  | mark kind => rw [(marksOnly_of_legal (bne_iff_ne.1 starts)).digit] at isDigit; cases isDigit

theorem mark_of_starts (only : MarksOnly c) (starts : pattern.starts c) :
    ∃ kind, pattern = mark kind := by
  cases pattern with
  | mark kind => exact ⟨kind, rfl⟩
  | blanks => cases only.gap.symm.trans starts
  | word => cases only.word.symm.trans starts
  | number => cases only.digit.symm.trans starts
  | newline => cases only.newline.symm.trans starts
  | comment | semicolon => cases only.semicolon.symm.trans starts
  | string | unclosed => cases only.quote.symm.trans starts

end Pattern

/-! ## What is cut off the input -/

theorem length_le_takeWhile {p : Char → Bool} {text input : List Char} (all : ∀ c ∈ text, p c)
    (front : text <+: input) :
    text.length ≤ (input.takeWhile p).length := by
  obtain ⟨rest, rfl⟩ := front
  rw [List.takeWhile_append_of_pos all, List.length_append]
  exact Nat.le_add_right _ _

theorem all_takeWhile {p : Char → Bool} (input : List Char) : ∀ c ∈ input.takeWhile p, p c :=
  List.all_eq_true.1 List.all_takeWhile

namespace Lexeme

open Pattern (starts_front)

/-- Nothing is lost between what is cut off and what is left. -/
theorem cut_whole (c : Char) (input : List Char) :
    (cut c input).more ++ (cut c input).rest = input := by
  have run_whole (lexeme : Lexeme) (p : Char → Bool) : (run lexeme p input).more ++ (run lexeme p input).rest = input :=
    List.takeWhile_append_dropWhile
  unfold cut
  repeat' split
  · rfl
  · exact run_whole _ _
  · exact run_whole _ _
  · exact run_whole _ _
  · have whole := List.takeWhile_append_dropWhile (p := (· != '"')) (l := input)
    unfold string
    split
    · next ends =>
      rw [ends] at whole
      simpa using whole
    · simp
  · unfold semicolon
    split
    · exact List.takeWhile_append_dropWhile
    · rfl
  · unfold mark
    split
    · rfl
    · split <;> rfl

theorem cut_cons (c : Char) (input : List Char) :
    c :: (cut c input).more ++ (cut c input).rest = c :: input := by
  rw [List.cons_append, cut_whole]

/-- A run of characters is the longest text of its pattern. Here no other pattern starts
    with the character. -/
theorem run_longest {c : Char} {input : List Char} {p : Char → Bool} (pattern : Pattern)
    (matches_ : pattern.Matches (c :: input.takeWhile p))
    (only : ∀ other : Pattern, other.starts c →
      ∀ more, other.Matches more → more <+: c :: input → ∀ d ∈ more.tail, p d) :
    Longest (c :: input.takeWhile p) (pattern.lexeme (c :: input.takeWhile p)) (c :: input) := by
  refine ⟨List.cons_prefix_cons.2 ⟨rfl, List.takeWhile_prefix p⟩, .inl ⟨pattern, matches_, rfl, ?_⟩⟩
  intro other more h front
  have all := only other (starts_front h front) more h front
  cases more with
  | nil => exact Nat.zero_le _
  | cons d more => exact Nat.succ_le_succ (length_le_takeWhile all (List.cons_prefix_cons.1 front).2)

theorem string_longest (input : List Char) :
    Longest ('"' :: (string input).more) (string input).lexeme ('"' :: input) := by
  have whole : (string input).more <+: input := ⟨(string input).rest, by
    have := cut_whole '"' input
    exact this⟩
  refine ⟨List.cons_prefix_cons.2 ⟨rfl, whole⟩, .inl ?_⟩
  have noQuote : '"' ∉ input.takeWhile (· != '"') := fun member => by simpa using all_takeWhile input _ member
  -- the characters of a text of either pattern up to a second quote
  have inner_le {inner : List Char} (clear : '"' ∉ inner) (front : inner <+: input) :
      inner.length ≤ (input.takeWhile (· != '"')).length := by
    refine length_le_takeWhile (fun c member => ?_) front
    rw [bne_iff_ne]
    rintro rfl
    exact clear member
  unfold string
  split
  · next quote rest ends =>
    obtain rfl : quote = '"' := by
      have stops := List.head?_dropWhile_not (p := (· != '"')) (l := input)
      rw [ends] at stops
      simpa using stops
    refine ⟨.string, ⟨_, rfl, noQuote⟩, rfl, fun other more h front => ?_⟩
    have starts := starts_front h front
    cases other with
    | string =>
      obtain ⟨inner, rfl, clear⟩ := h
      have := inner_le clear ((List.prefix_append _ _).trans (List.cons_prefix_cons.1 front).2)
      simpa using this
    | unclosed =>
      obtain ⟨inner, rfl, clear⟩ := h
      have := inner_le clear (List.cons_prefix_cons.1 front).2
      simp only [List.length_cons, List.length_append, List.length_nil]
      omega
    | _ => cases starts
  · next ends =>
    have closed : '"' ∉ input := by
      have all := List.takeWhile_append_dropWhile (p := (· != '"')) (l := input)
      rw [ends, List.append_nil] at all
      rwa [all] at noQuote
    exact ⟨.unclosed, ⟨_, rfl, closed⟩, rfl, fun _ _ _ front => front.length_le⟩

theorem semicolon_longest (input : List Char) :
    Longest (';' :: (semicolon input).more) (semicolon input).lexeme (';' :: input) := by
  unfold semicolon
  split
  · next rest =>
    refine run_longest .comment ⟨rest.takeWhile (· != '\n'), by simp, fun member => ?_⟩ fun other starts more h front => ?_
    · simpa using all_takeWhile rest _ member
    · cases other with
      | comment =>
        obtain ⟨words, rfl, line⟩ := h
        intro d member
        rw [bne_iff_ne]
        rintro rfl
        exact line ((List.mem_cons.1 member).resolve_left (by decide))
      | semicolon => cases h; simp
      | _ => cases starts
  · next single =>
    refine ⟨by simp, .inl ⟨.semicolon, rfl, rfl, fun other more h front => ?_⟩⟩
    have starts := starts_front h front
    cases other with
    | comment =>
      obtain ⟨words, rfl, -⟩ := h
      obtain ⟨rest, eq⟩ := (List.cons_prefix_cons.1 front).2
      exact absurd eq.symm (single _)
    | semicolon => cases h; exact Nat.le_refl _
    | _ => cases starts

/-- What starts with such a character is a mark, of that character alone or of it and
    the one behind it. -/
theorem mark_front {c : Char} (only : MarksOnly c) {input more : List Char} {other : Pattern}
    (h : other.Matches more)
    (front : more <+: c :: input) :
    (more = [c] ∧ markKind c ≠ .illegal) ∨ ∃ d kind, more = [c, d] ∧ pairKind? c d = some kind := by
  have starts := starts_front h front
  obtain ⟨kind, rfl⟩ := Pattern.mark_of_starts only starts
  obtain ⟨isMark, rfl⟩ := h
  rcases Kind.isMark_spelling isMark with ⟨d, eq, -⟩ | ⟨d, e, eq, -, pair⟩
  · rw [eq] at front ⊢
    obtain ⟨rfl, -⟩ := List.cons_prefix_cons.1 front
    exact .inl ⟨rfl, by simpa [Pattern.starts] using starts⟩
  · rw [eq] at front ⊢
    obtain ⟨rfl, -⟩ := List.cons_prefix_cons.1 front
    exact .inr ⟨e, kind, rfl, pair⟩

/-- Where no pair starts, the character stands alone. -/
theorem mark_alone {c : Char} (only : MarksOnly c) {input : List Char}
    (noPair : ∀ d, [d] <+: input → pairKind? c d = none) :
    Longest [c] (.token (markKind c)) (c :: input) := by
  refine ⟨by simp, ?_⟩
  by_cases legal : markKind c = .illegal
  · refine .inr ⟨fun other more h front => ?_, rfl, by rw [legal]⟩
    rcases mark_front only h front with ⟨-, known⟩ | ⟨d, kind, rfl, pair⟩
    · exact known legal
    · rw [noPair d (List.cons_prefix_cons.1 front).2] at pair
      cases pair
  · obtain ⟨isMark, spelled⟩ := isMark_markKind rfl legal
    refine .inl ⟨.mark (markKind c), ⟨isMark, spelled.symm⟩, rfl, fun other more h front => ?_⟩
    rcases mark_front only h front with ⟨rfl, -⟩ | ⟨d, kind, rfl, pair⟩
    · exact Nat.le_refl _
    · rw [noPair d (List.cons_prefix_cons.1 front).2] at pair
      cases pair

theorem mark_longest {c : Char} (only : MarksOnly c) (input : List Char) :
    Longest (c :: (mark c input).more) (mark c input).lexeme (c :: input) := by
  unfold mark
  split
  · exact mark_alone only fun d front => by simp at front
  · next d rest =>
    split
    · next kind pair =>
      obtain ⟨isMark, spelled⟩ := isMark_pairKind pair
      refine ⟨by simp, .inl ⟨.mark kind, ⟨isMark, spelled.symm⟩, rfl, fun other more h front => ?_⟩⟩
      rcases mark_front only h front with ⟨rfl, -⟩ | ⟨_, _, rfl, -⟩
      · exact Nat.le_succ _
      · exact Nat.le_refl _
    · next noPair =>
      refine mark_alone only fun e front => ?_
      obtain ⟨rfl, -⟩ := List.cons_prefix_cons.1 front
      exact noPair

/-- What is cut off the input is the longest lexeme at its front. -/
theorem cut_longest (c : Char) (input : List Char) :
    Longest (c :: (cut c input).more) (cut c input).lexeme (c :: input) := by
  unfold cut
  split
  · next newline =>
    obtain rfl : c = '\n' := by simpa using newline
    refine ⟨by simp, .inl ⟨.newline, rfl, rfl, fun other more h front => ?_⟩⟩
    have starts := starts_front h front
    cases other with
    | newline => cases h; exact Nat.le_refl _
    | _ => cases starts
  next noNewline =>
  split
  · next gap =>
    have all : ∀ d ∈ c :: input.takeWhile isGap, isGap d := List.forall_mem_cons.2 ⟨gap, all_takeWhile input⟩
    refine run_longest .blanks ⟨by simp, all⟩ fun other starts more h _ => ?_
    obtain rfl := Pattern.starts_gap gap starts
    exact fun d member => h.2 d (List.mem_of_mem_tail member)
  next noGap =>
  split
  · next isWord =>
    have all : ∀ d ∈ c :: input.takeWhile isWordChar, isWordChar d := List.forall_mem_cons.2 ⟨isWord, all_takeWhile input⟩
    refine run_longest .word ⟨by simp, all⟩ fun other starts more h _ => ?_
    obtain rfl := Pattern.starts_word isWord starts
    exact fun d member => h.2 d (List.mem_of_mem_tail member)
  next noWord =>
  split
  · next isDigit =>
    have all : ∀ d ∈ c :: input.takeWhile Char.isDigit, d.isDigit := List.forall_mem_cons.2 ⟨isDigit, all_takeWhile input⟩
    refine run_longest .number ⟨by simp, all⟩ fun other starts more h _ => ?_
    obtain rfl := Pattern.starts_digit isDigit starts
    exact fun d member => h.2 d (List.mem_of_mem_tail member)
  next noDigit =>
  split
  · next quote =>
    obtain rfl : c = '"' := by simpa using quote
    exact string_longest input
  next noQuote =>
  split
  · next semi =>
    obtain rfl : c = ';' := by simpa using semi
    exact semicolon_longest input
  · next noSemicolon =>
    exact mark_longest ⟨by simpa using noNewline, by simpa using noGap, by simpa using noWord, by simpa using noDigit,
      by simpa using noQuote, by simpa using noSemicolon⟩ input

end Lexeme

/-! ## One lexeme only -/

/-- A mark is known by its spelling. -/
theorem Kind.isMark_inj {kind other : Kind} (isMark : kind.isMark) (isMark' : other.isMark)
    (same : kind.spelling.toList = other.spelling.toList) : kind = other := by
  rcases isMark_spelling isMark with ⟨c, eq, rfl⟩ | ⟨c, d, eq, -, pair⟩ <;>
    rcases isMark_spelling isMark' with ⟨c', eq', rfl⟩ | ⟨c', d', eq', -, pair'⟩ <;>
    rw [eq, eq'] at same <;> cases same
  · rfl
  · exact Option.some.inj (pair.symm.trans pair')

/-- Two patterns of one text say the same of it. -/
theorem Pattern.lexeme_unique {pattern other : Pattern} {text : List Char}
    (h : pattern.Matches text)
    (h' : other.Matches text) : pattern.lexeme text = other.lexeme text := by
  cases text with
  | nil => exact absurd rfl (ne_nil h)
  | cons c text =>
    have starts := starts_of_matches h
    have starts' := starts_of_matches h'
    cases pattern with
    | blanks => rw [starts_gap starts starts']
    | word => rw [starts_word starts starts']
    | number => rw [starts_digit starts starts']
    | newline =>
      obtain rfl := beq_iff_eq.1 starts
      cases other <;> first | rfl | cases starts'
    | comment =>
      obtain ⟨words, eq, -⟩ := h
      cases eq
      cases other with
      | comment => rfl
      | semicolon => cases h'
      | _ => cases starts'
    | semicolon =>
      cases h
      cases other with
      | semicolon => rfl
      | comment => obtain ⟨_, eq, -⟩ := h'; cases eq
      | _ => cases starts'
    | string =>
      obtain ⟨inner, eq, -⟩ := h
      cases eq
      cases other with
      | string => rfl
      | unclosed =>
        obtain ⟨inner', eq, clear⟩ := h'
        cases eq
        simp at clear
      | _ => cases starts'
    | unclosed =>
      obtain ⟨inner, eq, clear⟩ := h
      cases eq
      cases other with
      | unclosed => rfl
      | string =>
        obtain ⟨inner', eq, -⟩ := h'
        cases eq
        simp at clear
      | _ => cases starts'
    | mark kind =>
      obtain ⟨kind', rfl⟩ := mark_of_starts (marksOnly_of_legal (bne_iff_ne.1 starts)) starts'
      rw [lexeme, lexeme, Kind.isMark_inj h.1 h'.1 (h.2.symm.trans h'.2)]

namespace Longest

variable {text text' input rest : List Char} {lexeme lexeme' : Lexeme}

/-- There is one longest lexeme. -/
theorem unique (h : Longest text lexeme input) (h' : Longest text' lexeme' input) :
    text = text' ∧ lexeme = lexeme' := by
  have same (length : text.length = text'.length) : text = text' :=
    (List.prefix_of_prefix_length_le h.1 h'.1 (Nat.le_of_eq length)).eq_of_length length
  rcases h with ⟨front, ⟨pattern, matches_, rfl, most⟩ | ⟨none, one, rfl⟩⟩ <;>
    rcases h' with ⟨front', ⟨pattern', matches', rfl, most'⟩ | ⟨none', one', rfl⟩⟩
  · obtain rfl := same (Nat.le_antisymm (most' _ _ matches_ front) (most _ _ matches' front'))
    exact ⟨rfl, Pattern.lexeme_unique matches_ matches'⟩
  · exact absurd front (none' _ _ matches_)
  · exact absurd front' (none _ _ matches')
  · exact ⟨same (one.trans one'.symm), rfl⟩

theorem ne_nil (h : Longest text lexeme input) : text ≠ [] := by
  rcases h.2 with ⟨pattern, matches_, -⟩ | ⟨-, one, -⟩
  · exact pattern.ne_nil matches_
  · rintro rfl
    cases one

/-- The longest lexeme is what is cut off the input. -/
theorem of_cut {c : Char} (h : Longest text lexeme (c :: input)) :
    text = c :: (Lexeme.cut c input).more ∧ lexeme = (Lexeme.cut c input).lexeme :=
  h.unique (Lexeme.cut_longest c input)

/-- The lexeme of a pattern, unless it is a single character that means nothing. -/
theorem matches_of (h : Longest text lexeme input) (legal : lexeme ≠ .token .illegal) :
    ∃ pattern : Pattern, pattern.Matches text ∧ pattern.lexeme text = lexeme ∧
      ∀ (other : Pattern) (more : List Char), other.Matches more → more <+: input → more.length ≤ text.length :=
  h.2.resolve_right fun unknown => legal unknown.2.2

theorem blanks (h : Longest text .blanks input) : ∀ c ∈ text, isGap c := by
  obtain ⟨pattern, matches_, tells, -⟩ := h.matches_of (by decide)
  cases pattern <;> first | exact matches_.2 | cases tells

theorem newline (h : Longest text .newline input) : text = ['\n'] := by
  obtain ⟨pattern, matches_, tells, -⟩ := h.matches_of (by decide)
  cases pattern <;> first | exact matches_ | cases tells

/-- A comment goes on to the end of its line. -/
theorem comment (h : Longest text .comment (text ++ rest)) :
    ∃ words, text = ';' :: ';' :: words ∧ '\n' ∉ words ∧ ∀ c ∈ rest.head?, c = '\n' := by
  obtain ⟨pattern, matches_, tells, most⟩ := h.matches_of (by decide)
  cases pattern with
  | comment =>
    obtain ⟨words, rfl, line⟩ := matches_
    refine ⟨words, rfl, line, fun c first => ?_⟩
    obtain ⟨rest, rfl⟩ := List.head?_eq_some_iff.1 first
    -- one character more would be a comment as well
    refine Decidable.byContradiction fun other => ?_
    have longer := most .comment (';' :: ';' :: (words ++ [c])) ⟨_, rfl, by simp [line, Ne.symm other]⟩ ⟨rest, by simp⟩
    simp only [List.length_cons, List.length_append, List.length_nil] at longer
    omega
  | _ => cases tells

theorem blanks_newlines (h : Longest text .blanks input) : newlines text = 0 :=
  List.count_eq_zero.2 fun member => by cases h.blanks _ member

theorem comment_newlines (h : Longest text .comment input) : newlines text = 0 := by
  obtain ⟨rest, rfl⟩ := h.1
  obtain ⟨words, rfl, line, -⟩ := h.comment
  exact List.count_eq_zero.2 (by simp [line])

end Longest

end Lantern
