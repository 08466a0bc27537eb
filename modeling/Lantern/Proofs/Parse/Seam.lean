/-
  Lantern.Proofs.Parse.Seam — a source behind another one, well formed or not.

  The first source has no syntax errors, the second may have any, and its first token is
  none that could go on with the line above (`Kind.continues`). The first one is read as
  if it were alone (`statements_behind`). What follows is then read as if it were alone
  too, further down: the two parsers go abreast (`allAbreast`), and statements do not
  see where the tokens before them stood (`statements_relined`). So the errors are those
  of the second source, in their order, and nothing of the first is lost to them.
  - `parse_composes`: the statements of both and the errors of the second, with its
    lines moved down.
-/

import Lantern.Proofs.Parse.Abreast
import Lantern.Proofs.Parse.Charge
import Lantern.Proofs.Parse.Sequel
import Lantern.Proofs.Token.Split

namespace Lantern

open Grammar

/-! ## The line before the first token -/

def Parser.relined (line : Nat) (s : Parser) : Parser :=
  { s with cursor := { s.cursor with previousLine := line } }

namespace Grammar

open Production Reply

variable {α β : Type} {s : Parser}

theorem advance_relined {f : Token → Production α} (inside : s.cursor.ahead ≠ []) (line : Nat) :
    (advance >>= f) (s.relined line) = (advance >>= f) s := by
  obtain ⟨t, ts, ahead⟩ := List.exists_cons_of_ne_nil inside
  have ahead' : (s.relined line).cursor.ahead = t :: ts := ahead
  rw [advance_bind ahead, advance_bind ahead', Parser.passed_eq ahead, Parser.passed_eq ahead']
  rfl

theorem bind_relined {p : Production α} {f : α → Production β} {line : Nat}
    (same : p (s.relined line) = p s) :
    (p >>= f) (s.relined line) = (p >>= f) s := by
  change andThen p f (s.relined line) = andThen p f s
  rw [andThen, andThen, same]

variable (inside : s.cursor.ahead ≠ []) (bound line : Nat)
include inside

theorem operand_relined : Grammar.operand bound (s.relined line) = Grammar.operand bound s := by
  cases bound with
  | zero => rfl
  | succ bound =>
    unfold Grammar.operand
    rw [ask_bind, ask_bind]
    have current : (s.relined line).cursor.current = s.cursor.current := rfl
    rw [current]
    cases s.cursor.current.kind <;> exact advance_relined inside line

theorem expression_relined (min : Precedence) :
    Grammar.expression bound min (s.relined line) = Grammar.expression bound min s := by
  cases bound with
  | zero => rfl
  | succ bound => exact bind_relined (operand_relined inside bound line)

theorem functionStatement_relined :
    Grammar.functionStatement bound (s.relined line) = Grammar.functionStatement bound s := by
  cases bound with
  | zero => rfl
  | succ bound => exact advance_relined inside line

theorem statement_relined :
    Grammar.statement bound (s.relined line) = Grammar.statement bound s := by
  cases bound with
  | zero => rfl
  | succ bound =>
    unfold Grammar.statement
    rw [ask_bind, ask_bind]
    have current : (s.relined line).cursor.current = s.cursor.current := rfl
    rw [current]
    cases s.cursor.current.kind
    case returnWord | whileWord | testWord | classWord => exact advance_relined inside line
    all_goals
      dsimp only
      rw [ask_bind, ask_bind]
      have starts : startsFunction (s.relined line).cursor = startsFunction s.cursor := rfl
      rw [starts]
      split
      · exact bind_relined (functionStatement_relined inside bound line)
      · exact bind_relined (expression_relined inside bound line _)

omit inside in
/-- Statements do not see where the token before them stood. -/
theorem statements_relined {list : List Stmt} {s₁ : Parser}
    (built : Grammar.statements bound [] (s.relined line) = .built list s₁) :
    ∃ s₂, Grammar.statements bound [] s = .built list s₂ ∧ s₂.errors = s₁.errors := by
  cases bound with
  | zero => cases built
  | succ bound =>
    unfold Grammar.statements at built ⊢
    rw [ask_bind] at built ⊢
    have stops : ((s.relined line).cursor.atEnd || [].contains (s.relined line).cursor.kind) =
        (s.cursor.atEnd || [].contains s.cursor.kind) := rfl
    rw [stops] at built
    split at built
    · next stop =>
      rw [if_pos stop]
      cases built
      exact ⟨s, rfl, rfl⟩
    · next goesOn =>
      rw [if_neg goesOn]
      have inside : s.cursor.ahead ≠ [] := by
        rintro none
        simp [Cursor.atEnd, none] at goesOn
      refine ⟨s₁, ?_, rfl⟩
      rw [← built, ask_bind, ask_bind]
      refine (bind_relined ?_).symm
      rw [attempt, attempt, statement_relined inside]

end Grammar

/-! ## Behind well-formed statements -/

namespace Grammar

open Production Reply

variable {last last' : Token} {c : Place}

/-- Statements that can be read to the end are built in front of others as they are
    alone, and the others behind them. -/
theorem statements_behind {bound lines behind : Nat} {more : List Token} {list : List Stmt}
    (apart : Apart bound lines more)
    (atLast : last'.kind = .eof) (h : Reads last c (.statements [] list) ⟨behind, []⟩)
    (within : c.Within bound)
    {depth : Nat} {s : Parser} (hlast : s.cursor.last = last')
    (place : s.place = c.moved lines more)
    (enough : 8 * s.cursor.ahead.length + 5 ≤ depth) :
    ∃ depth' s', s'.cursor.last = last' ∧ s'.cursor.ahead = more ∧ s'.errors = s.errors ∧
      8 * s'.cursor.ahead.length + 5 ≤ depth' ∧
      ∀ others s'', Grammar.statements depth' [] s' = .built others s'' →
        Grammar.statements depth [] s = .built (Stmt.retokenAll (Token.down lines) list ++ others) s'' := by
  induction list generalizing c depth s with
  | nil =>
    cases h with
    | noStatements => exact ⟨depth, s, hlast, congrArg Place.ahead place, rfl, enough, fun _ _ built => built⟩
  | cons first list ih =>
    cases h with
    | someStatements head rest =>
      obtain ⟨depth, rfl, left⟩ := exists_left enough
      have moved := head.moved apart last' within trivial
      have ahead : s.cursor.ahead = (c.moved lines more).ahead := congrArg Place.ahead place
      have shorter := moved.shorter
      simp only [Phrase.least, Phrase.retoken, ← ahead] at shorter
      obtain ⟨s₁, run, hlast₁, place₁, clean⟩ := moved.runs atLast depth (by rw [← ahead]; omega) s hlast place
      have enough₁ : 8 * s₁.cursor.ahead.length + 5 ≤ depth := by
        rw [← place₁] at shorter
        change s₁.cursor.ahead.length + 1 ≤ _ at shorter
        omega
      obtain ⟨depth', s', hlast', ahead', clean', enough', built'⟩ :=
        ih rest (head.within rfl within) hlast₁ place₁ enough₁
      refine ⟨depth', s', hlast', ahead', clean'.trans clean, enough', fun others s'' built => ?_⟩
      have goesOn : s.place.stops [] = false := by
        obtain ⟨t, ts, ahead, -⟩ := moved.statement_starts
        rw [place, Place.stops, ahead]
        rfl
      have attempted : attempt (Grammar.statement depth) s = .built (some (first.retoken (Token.down lines))) s₁ := by
        rw [attempt, run]
      unfold Grammar.statements
      rw [ask_bind, stops_eq, goesOn, if_neg Bool.false_ne_true, ask_bind, bind_built attempted]
      exact bind_built (built' others s'' built)

end Grammar

/-! ## The seam -/

/-- The kinds of tokens that go on with an expression on the line above. -/
def Kind.continues : Kind → Bool
  | .assign | .plus | .minus | .star | .slash | .percent | .eqEq | .notEq | .lt | .gt | .ltEq | .gtEq | .andAnd | .orOr
  | .amp | .pipe | .dot => true
  | _ => false

theorem Kind.isFresh_of_not_continues {kind : Kind} (fresh : kind.continues = false) :
    kind.isFresh := by
  cases kind <;> first | rfl | cases fresh

def ParseError.down (lines : Nat) (error : ParseError) : ParseError :=
  { error with line := error.line + lines }

theorem relines_down (lines : Nat) : Relines (Token.down lines) := ⟨fun _ => rfl, fun _ => rfl⟩

theorem moved_down {lines : Nat} {errors errors' : List ParseError}
    (moved : List.Forall₂ (ParseError.Moved (Token.down lines)) errors errors') :
    errors' = errors.map (ParseError.down lines) := moved_map (· + lines) (fun _ => rfl) moved

/-- Further down, a source stands apart from what ends above it, if it starts with
    nothing that goes on with that. -/
theorem apart_down {source : String}
    (fresh : ∀ t ∈ (scan source).tokens.head?, t.kind.continues = false) (lines : Nat) :
    Apart lines 0 ((scan source).tokens.map (Token.down lines)) := by
  intro line early min
  have low := ((Scanner.ofSource source).drain_lines).1
  cases ahead : (scan source).tokens with
  | nil => rfl
  | cons t ts =>
    rw [ahead] at fresh
    have first : 1 ≤ t.line := (low t (by rw [show (Scanner.ofSource source).drain = scan source from rfl, ahead]; simp)).1
    have isFresh : (t.down lines).kind.isFresh := Kind.isFresh_of_not_continues (fresh t rfl)
    have below : line + 0 < (t.down lines).line := by
      change line + 0 < t.line + lines
      omega
    exact Place.ends_fresh isFresh below min

/-- With the tokens of a source ahead, all some lines further down, and no errors so
    far, the statements and the errors are those of the source, that much further
    down. -/
theorem statements_below (source : String) (lines : Nat) {depth : Nat} {s : Parser}
    (ahead : s.cursor.ahead = (scan source).tokens.map (Token.down lines))
    (last : s.cursor.last = (scan source).last.down lines) (clean : s.errors.toList = [])
    (enough : 8 * s.cursor.ahead.length + 5 ≤ depth) :
    ∃ behind, Grammar.statements depth [] s =
        .built (Stmt.retokenAll (Token.down lines) (parseSource source).program.statements) behind ∧
      behind.errors.toList = (parseSource source).errors.map (ParseError.down lines) := by
  let alone : Parser := .ofStream (scan source)
  have atLast : s.cursor.last.kind = .eof := last ▸ scan_last source
  obtain ⟨list, _, builtAlone⟩ := statements_built [] (scan_last source) alone.enough_bound
  -- it does not matter on which line the parser takes itself to be
  let below := s.relined (alone.cursor.previousLine + lines)
  obtain ⟨others, s₁, builtBelow⟩ := statements_built [] (s := below) atLast enough
  obtain ⟨s₂, built, errors⟩ := statements_relined depth _ builtBelow
  have beside : alone.Beside (Token.down lines) lines s.cursor.consumed below := by
    refine ⟨⟨ahead, fun _ _ => rfl, last, rfl, (Nat.zero_add _).symm⟩, ?_⟩
    change List.Forall₂ _ [] s.errors.toList
    rw [clean]
    exact .nil
  have replies := (allAbreast (relines_down lines) lines _ alone.bound depth).statements [] _ _ beside
  rw [builtAlone, builtBelow] at replies
  obtain ⟨rfl, besideEnd⟩ := replies
  rw [show parseSource source = parse (scan source) from rfl, parse_of_built builtAlone]
  exact ⟨s₂, built, errors ▸ moved_down besideEnd.errors⟩

/-- A source free of syntax errors, and behind it on a line of its own any other that
    does not start with a token that could go on with it: the statements of the first
    and then those of the second, and the errors of the second, where all lines of the
    second are moved down. -/
theorem parse_composes {source : String} (clean : (parseSource source).errors = []) (more : String)
    (fresh : ∀ t ∈ (scan more).tokens.head?, t.kind.continues = false) :
    parseSource (source ++ "\n" ++ more) =
      ⟨⟨(parseSource source).program.statements ++
          Stmt.retokenAll (Token.down (newlines source.toList + 1)) (parseSource more).program.statements⟩,
        (parseSource more).errors.map (ParseError.down (newlines source.toList + 1))⟩ := by
  obtain ⟨behind, reads⟩ := parse_reads (scan_last source) clean
  have joined := scan_sequel (reads.legal rfl) more
  have ends := scan_last (source ++ "\n" ++ more)
  have within := scan_within source
  have lastLine : (scan source).last.line = newlines source.toList + 1 := by
    rw [scan_last_eq, Nat.add_comm]
    rfl
  rw [show parseSource (source ++ "\n" ++ more) = parse (scan (source ++ "\n" ++ more)) from rfl]
  rw [lastLine] at joined within
  generalize newlines source.toList + 1 = lines at joined within ⊢
  rw [joined] at ends ⊢
  -- the first source, where it is
  let both : Parser :=
    .ofStream ⟨(scan source).tokens ++ (scan more).tokens.map (Token.down lines), (scan more).last.down lines⟩
  have still : Token.down 0 = id := rfl
  have place : (both.relined (scan source).place.line).place =
      (scan source).place.moved 0 ((scan more).tokens.map (Token.down lines)) := by
    rw [Place.moved, still, List.map_id]
    rfl
  obtain ⟨depth, s', hlast', ahead', clean', enough', built⟩ :=
    statements_behind (apart_down fresh lines) ends reads within rfl place both.enough_bound
  -- the second source, behind the first
  obtain ⟨s₁, builtBehind, errors₁⟩ := statements_below more lines ahead' hlast' (congrArg Array.toList clean') enough'
  obtain ⟨s₂, built₂, errors₂⟩ := statements_relined both.bound _ (built _ _ builtBehind)
  rw [parse_of_built built₂, errors₂, errors₁, still, Stmt.retokenAll_id]
  rfl

/-- An assignment that ends a line further down than it starts, for a broken list to
    follow. -/
def twoLines : String := "a = \"x\ny\""

def brokenList : String := "[1) b"

theorem twoLines_scan :
    scan twoLines = ⟨Mark.tokens 1 [.token .ident "a", .gap, .of .assign, .gap, .token .str "x\ny"], .eof 2⟩ :=
  scan_written (by decide) (by decide)

theorem brokenList_scan :
    scan brokenList = ⟨Mark.tokens 1 [.of .lbracket, .token .int "1", .of .rparen, .gap, .token .ident "b"], .eof 1⟩ :=
  scan_written (by decide) (by decide)

theorem twoLines_clean : (parseSource twoLines).errors = [] := by
  rw [parseSource, twoLines_scan]
  decide +kernel

theorem brokenList_fresh : ∀ t ∈ (scan brokenList).tokens.head?, t.kind.continues = false := by
  rw [brokenList_scan]
  decide +kernel

theorem brokenList_errors :
    (parseSource brokenList).errors =
      [⟨.unexpectedToken, "expected next token to be ], got ) instead", 1⟩,
        ⟨.noPrefixParser, "no prefix parse function for ) found", 1⟩] := by
  rw [parseSource, brokenList_scan]
  decide +kernel

/-- The bracket opens a statement of its own, and its errors are on the third line. -/
theorem parse_composes_brokenList :
    (parseSource twoLines).errors = [] ∧ (∀ t ∈ (scan brokenList).tokens.head?, t.kind.continues = false) ∧
      parseSource (twoLines ++ "\n" ++ brokenList) =
        ⟨⟨(parseSource twoLines).program.statements ++
            Stmt.retokenAll (Token.down 2) (parseSource brokenList).program.statements⟩,
          [⟨.unexpectedToken, "expected next token to be ], got ) instead", 3⟩,
            ⟨.noPrefixParser, "no prefix parse function for ) found", 3⟩]⟩ := by
  have lines : newlines twoLines.toList + 1 = 2 := by decide
  refine ⟨twoLines_clean, brokenList_fresh, ?_⟩
  rw [parse_composes twoLines_clean brokenList brokenList_fresh, brokenList_errors, lines]
  rfl

end Lantern
