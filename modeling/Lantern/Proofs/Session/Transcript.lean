/-
  Lantern.Proofs.Session.Transcript — a session, and its lines as one file.

  All that a session hands from line to line is its state; the errors of a line are
  shown and gone. So the lines of a session that have no syntax errors are run like the
  statements of one block (`Session.Plays`), each line going on where the one before
  ended, and a line that has some, or is a command, does nothing. A file of the same
  lines has the same statements but for the lines its tokens stand on (`parse_joined`),
  and those do not show (`Eval.block_resembles`).

  - `plays_line`: what a line does to a session, beside a block of its statements.
  - `plays_feed`: the same for any number of lines.
  - `session_as_program`: a session, and the program its lines make.
-/

import Lantern.Session
import Lantern.Proofs.Eval.Fuel
import Lantern.Proofs.Eval.Lockstep
import Lantern.Proofs.Eval.Path
import Lantern.Proofs.Parse.Sequel
import Lantern.Proofs.Token.Blank

namespace Lantern

def Shown.error? : Shown → Option String
  | error text => some text
  | output _ => none

def Reaction.errors : Reaction → List String
  | proceed shown => shown.filterMap Shown.error?
  | quit => []

/-- The errors reported and not taken out since, as a session shows them. -/
def State.errors (state : State) : List String := state.diagnostics.toList.map Diagnostic.text

namespace Session

/-! ## Lines -/

def accepts (text : String) : Bool := !(parseSource text).hasErrors

def IsCommand (text : String) : Prop :=
  (Text.trimmed text = ":quit" ∨ Text.trimmed text = ":q") ∨ Text.trimmed text = ":help" ∨ Text.trimmed text = ":h"

/-- Take lines one after the other: what each was answered with, and the session after
    the last. -/
def feed (session : Session) (fuel : Nat) :
    List String → Option (List (String × Reaction) × Session)
  | [] => some ([], session)
  | text :: more =>
    match session.line fuel text with
    | none => none
    | some (reaction, behind) => (behind.feed fuel more).map fun (steps, last) => ((text, reaction) :: steps, last)

def Returns (session : Session) (fuel : Nat) (text : String) : Prop :=
  ∃ result behind, Eval.block .lenient fuel session.root .null (parseSource text).program.statements session.state =
    .returned result behind

/-- None of the lines without syntax errors does, when they are taken one after the
    other. -/
def NeverReturns (session : Session) (fuel : Nat) : List String → Prop
  | [] => True
  | text :: more => (accepts text → ¬ session.Returns fuel text) ∧
      ∀ reaction behind, session.line fuel text = some (reaction, behind) → behind.NeverReturns fuel more

variable {session behind last : Session} {fuel : Nat} {text : String} {reaction : Reaction} {lines : List String}
  {steps : List (String × Reaction)}

theorem accepts_iff : accepts text ↔ (parseSource text).errors = [] := by
  simp [accepts, Parsed.hasErrors]

/-- Lines with syntax errors and commands leave the session as it is. -/
theorem line_rejected (rejected : accepts text = false ∨ IsCommand text)
    (taken : session.line fuel text = some (reaction, behind)) : behind = session := by
  unfold line at taken
  dsimp only at taken
  split at taken
  · cases taken; rfl
  next notQuit =>
    split at taken
    · cases taken; rfl
    next notHelp =>
      split at taken
      · cases taken; rfl
      split at taken
      · cases taken; rfl
      next clean =>
        have accepted : accepts text := by simpa [accepts] using clean
        rcases rejected with errors | quit | help
        · rw [errors] at accepted; cases accepted
        · exact absurd quit notQuit
        · exact absurd help notHelp

theorem IsCommand.colon (command : IsCommand text) : (Text.trimmed text).toList.head? = some ':' := by
  rcases command with (is | is) | is | is <;> rw [is] <;> decide

/-- A line without syntax errors is no command, and if it is white space only it has no
    statements. -/
theorem accepts_trimmed (accepted : accepts text) :
    ¬ IsCommand text ∧ (Text.trimmed text = "" → (parseSource text).program.statements = []) := by
  obtain ⟨line, reads⟩ := parse_reads (scan_last text) (accepts_iff.1 accepted)
  have legal := reads.legal rfl
  constructor
  · intro command
    have colon := command.colon
    have barren : Barren text.toList := barren_of_trimmed fun c here => by rw [colon] at here; cases here; rfl
    have start := trimmed_prefix text
    rw [(scan_barren barren legal).2, List.prefix_nil] at start
    rw [start] at colon
    cases colon
  · intro blank
    have barren : Barren text.toList := barren_of_trimmed fun c here => by rw [blank] at here; cases here
    exact (parse_of_no_tokens (scan_barren barren legal).1).2

/-- What is done with a line without syntax errors: it is run, or it is white space. -/
theorem line_accepted (accepted : accepts text)
    (taken : session.line fuel text = some (reaction, behind)) :
    (∃ shown, session.run fuel (parseSource text).program = some (shown, behind) ∧ reaction = .proceed shown) ∨
      (parseSource text).program.statements = [] ∧ reaction = .proceed [] ∧ behind = session := by
  obtain ⟨noCommand, blank⟩ := accepts_trimmed accepted
  have clean : (parseSource text).hasErrors = false := by simpa [accepts] using accepted
  unfold line at taken
  dsimp only at taken
  rw [if_neg (fun quit => noCommand (.inl quit)), if_neg (fun help => noCommand (.inr help))] at taken
  split at taken
  · next empty => cases taken; exact .inr ⟨blank empty, rfl, rfl⟩
  · rw [clean, if_neg Bool.false_ne_true, Option.map_eq_some_iff] at taken
    obtain ⟨⟨shown, behind⟩, run, eq⟩ := taken
    cases eq
    exact .inl ⟨shown, run, rfl⟩

/-! ## A session beside a block -/

/-- Between the two sessions, the first without errors left from before, the statements
    were run and the errors shown: a block of the statements, run from a state like the
    first session's, leaves one like the second's and queues those errors. -/
structure Plays (before : Session) (list : List Stmt) (errors : List String) (after : Session) : Prop where
  root : after.root = before.root
  settled : after.state.diagnostics = .empty
  block {state : State} (first : Value) : before.state.Resembles state →
    ∃ fuel result behind, Eval.block .lenient fuel before.root first list state = .value result behind ∧
      after.state.Resembles behind ∧ behind.errors = state.errors ++ errors

theorem plays_nothing (settled : session.state.diagnostics = .empty) : session.Plays [] [] session where
  root := rfl
  settled := settled
  block first pair := ⟨1, first, _, rfl, pair, (List.append_nil _).symm⟩

theorem Plays.trans {list more : List Stmt} {errors others : List String}
    (here : session.Plays list errors behind)
    (later : behind.Plays more others last) : session.Plays (list ++ more) (errors ++ others) last where
  root := later.root.trans here.root
  settled := later.settled
  block := by
    intro state first pair
    obtain ⟨fuel, value, middle, ends, pair, errors⟩ := here.block first pair
    obtain ⟨fuel', result, after, ends', pair', errors'⟩ := later.block value pair
    rw [here.root] at ends'
    have together := Eval.block_append ends (by rw [ends']; nofun)
    refine ⟨fuel + fuel', result, after, together.trans ends', pair', ?_⟩
    rw [errors', errors, List.append_assoc]

/-- Neither the tree nor the value of a line counts as an error. -/
theorem errors_shown {tree : List Shown} (quiet : tree.filterMap Shown.error? = [])
    (diagnostics : List Diagnostic)
    (result : Except EvalError Value) :
    (tree ++ diagnostics.map (fun diagnostic => Shown.error diagnostic.text) ++ echo result).filterMap Shown.error? =
      diagnostics.map Diagnostic.text := by
  have echoed : (echo result).filterMap Shown.error? = [] := by
    cases result with
    | ok value => rw [echo]; split <;> rfl
    | error => rfl
  have each : (Shown.error? ∘ fun diagnostic : Diagnostic => Shown.error diagnostic.text) = some ∘ Diagnostic.text := rfl
  rw [List.filterMap_append, List.filterMap_append, quiet, echoed, List.filterMap_map, each, List.filterMap_eq_map,
    List.nil_append, List.append_nil]

/-- What diagnostics say is all that is shown of them. -/
theorem texts_of_said {more more' : List Diagnostic}
    (same : more'.map Diagnostic.said = more.map Diagnostic.said) :
    more'.map Diagnostic.text = more.map Diagnostic.text := by
  have text : Diagnostic.text = (fun said => "error[" ++ said.1.text ++ "]: " ++ said.2) ∘ Diagnostic.said := rfl
  rw [text, ← List.map_map, ← List.map_map, same]

/-- A run that does not end by a `return`. -/
theorem plays_run {program : Program} {shown : List Shown}
    (settled : session.state.diagnostics = .empty)
    (noReturn : ∀ result behind, Eval.block .lenient fuel session.root .null program.statements session.state ≠
      .returned result behind)
    (run : session.run fuel program = some (shown, behind)) :
    session.Plays program.statements (shown.filterMap Shown.error?) behind := by
  have noError := @Eval.block_proceed_ne_failed .lenient rfl fuel session.root .null program.statements session.state
  have beside {state : State} (pair : session.state.Resembles state) :=
    Eval.block_resembles .lenient fuel session.root (rfl : Value.null.Resembles .null)
      (rfl : Stmt.bareAll program.statements = _) pair
  unfold Session.run evalProgram at run
  generalize Eval.block .lenient fuel session.root .null program.statements session.state = flow at *
  cases flow with
  | returned result middle => exact absurd rfl (noReturn result middle)
  | failed error middle => exact absurd rfl (noError error middle)
  | outOfFuel => cases run
  | value result middle =>
    simp only [Option.map_some, Option.some.injEq, Prod.mk.injEq] at run
    obtain ⟨rfl, rfl⟩ := run
    refine ⟨rfl, rfl, fun {state} first pair => ?_⟩
    have flows := beside pair
    generalize ended : Eval.block .lenient fuel session.root .null program.statements state = flow at flows
    cases flows with
    | @value _ result' _ after _ pair' logs =>
      obtain ⟨value, ends⟩ := Eval.block_first first ended
      obtain ⟨new, new', queue, queue', same⟩ := logs.queued
      rw [settled] at queue
      refine ⟨fuel, value, after, ends, ⟨pair'.heap, pair'.console, pair'.callDepth⟩, ?_⟩
      have quiet : (if session.printTree then [Shown.output program.dump] else []).filterMap Shown.error? = [] := by
        split <;> rfl
      rw [errors_shown quiet, State.errors, State.errors, queue', List.map_append, texts_of_said same]
      congr 2
      exact queue.symm

/-- A line, if its program does not end by a `return`. -/
theorem plays_line (settled : session.state.diagnostics = .empty)
    (noReturn : accepts text → ¬ session.Returns fuel text)
    (taken : session.line fuel text = some (reaction, behind)) :
    if accepts text then session.Plays (parseSource text).program.statements reaction.errors behind
    else behind = session := by
  split
  · next accepted =>
    have noReturn' := fun result behind ends => noReturn accepted ⟨result, behind, ends⟩
    obtain ⟨shown, run, rfl⟩ | ⟨nothing, rfl, rfl⟩ := line_accepted accepted taken
    · exact plays_run settled noReturn' run
    · rw [nothing]
      exact plays_nothing settled
  · next rejected => exact line_rejected (.inl (by simpa using rejected)) taken

def runtimeErrors (steps : List (String × Reaction)) : List String :=
  (steps.filter fun step => accepts step.1).flatMap fun step => step.2.errors

/-- Lines taken one after the other do what their statements do in one block. -/
theorem plays_feed (settled : session.state.diagnostics = .empty)
    (noReturn : session.NeverReturns fuel lines)
    (fed : session.feed fuel lines = some (steps, last)) :
    session.Plays (statementsOf (lines.filter accepts)) (runtimeErrors steps) last := by
  induction lines generalizing session steps with
  | nil => cases fed; exact plays_nothing settled
  | cons text more ih =>
    obtain ⟨here, later⟩ := noReturn
    rw [feed] at fed
    split at fed
    · cases fed
    next reaction behind taken =>
      obtain ⟨⟨steps, last⟩, rest, eq⟩ := Option.map_eq_some_iff.1 fed
      cases eq
      have line := plays_line settled here taken
      by_cases accepted : accepts text
      · rw [if_pos accepted] at line
        have both := line.trans (ih line.settled (later _ _ taken) rest)
        simpa [statementsOf, runtimeErrors, accepted] using both
      · rw [if_neg accepted] at line
        subst line
        have others := ih settled (later _ _ taken) rest
        simpa [statementsOf, runtimeErrors, accepted] using others

/-- Without the lines that have syntax errors a session goes the same way. -/
theorem feed_accepted (fed : session.feed fuel lines = some (steps, last)) :
    session.feed fuel (lines.filter accepts) = some (steps.filter fun step => accepts step.1, last) := by
  induction lines generalizing session steps with
  | nil => cases fed; rfl
  | cons text more ih =>
    rw [feed] at fed
    split at fed
    · cases fed
    next reaction behind taken =>
      obtain ⟨⟨steps, last⟩, rest, eq⟩ := Option.map_eq_some_iff.1 fed
      cases eq
      by_cases accepted : accepts text
      · rw [List.filter_cons_of_pos accepted, List.filter_cons_of_pos (by exact accepted), feed, taken]
        simp only [ih rest, Option.map_some]
      · rw [List.filter_cons_of_neg accepted, List.filter_cons_of_neg (by exact accepted)]
        have unchanged := line_rejected (.inl (by simpa using accepted)) taken
        subst unchanged
        exact ih rest

end Session

/-! ## A session beside a file -/

open Session

theorem State.Resembles.refl (state : State) : state.Resembles state := ⟨rfl, rfl, rfl⟩

/-- Take the lines of a session that have no syntax errors, of which none ends by a
    `return` outside of functions and none but the first starts with a minus. Put
    together in one file they have no syntax errors either, and running the file ends,
    prints the same, reports the same errors and leaves the same bindings as the whole
    session. What else was typed, lines with syntax errors and commands, changes
    nothing. -/
theorem session_as_program (printTree : Bool) (fuel : Nat) (lines : List String) (steps : List (String × Reaction))
    (last : Session) (fed : (Session.start printTree).feed fuel lines = some (steps, last))
    (noReturn : (Session.start printTree).NeverReturns fuel lines)
    (noMinus : ∀ text ∈ (lines.filter accepts).tail, ∀ t ∈ (scan text).tokens.head?, t.kind ≠ .minus) :
    let file := parseSource ("\n".intercalate (lines.filter accepts))
    file.hasErrors = false ∧
    (∃ enough, ∀ more ≥ enough, ∃ result behind,
      evalProgram .lenient more file.program State.withBuiltins.1 State.withBuiltins.2 = some (result, behind) ∧
      behind.console.text = last.state.console.text ∧
      behind.diagnostics.toList.map Diagnostic.text = runtimeErrors steps ∧
      (behind.heap.bindings State.withBuiltins.1).seen = (last.state.heap.bindings last.root).seen) ∧
    (Session.start printTree).feed fuel (lines.filter accepts) = some (steps.filter fun step => accepts step.1, last) ∧
    ∀ text, accepts text = false ∨ IsCommand text → ∀ (session : Session) (fuel : Nat) (reaction : Reaction)
      (behind : Session), session.line fuel text = some (reaction, behind) → behind = session := by
  have plays := plays_feed rfl noReturn fed
  have cleanAll (text : String) (member : text ∈ lines.filter accepts) : (parseSource text).errors = [] :=
    accepts_iff.1 (List.mem_filter.1 member).2
  obtain ⟨clean, same⟩ := parse_joined cleanAll noMinus
  obtain ⟨enough, value, middle, ends, pair, errors⟩ := plays.block .null (.refl _)
  -- the file's own statements, beside those of the lines
  have flows := Eval.block_resembles .lenient enough State.withBuiltins.1 (rfl : Value.null.Resembles .null) same.symm
    (.refl State.withBuiltins.2)
  rw [show Eval.block .lenient enough State.withBuiltins.1 _ _ State.withBuiltins.2 = _ from ends] at flows
  generalize ended : Eval.block .lenient enough State.withBuiltins.1 .null _ State.withBuiltins.2 = flow at flows
  cases flows with
  | @value _ result _ behind _ pair' logs =>
    refine ⟨by simp [Parsed.hasErrors, clean], ⟨enough, fun more le => ⟨.ok result, behind, ?_, ?_, ?_, ?_⟩⟩,
      feed_accepted fed, fun _ rejected _ _ _ _ => line_rejected rejected⟩
    · have kept := Eval.block_more le (by rw [ended]; nofun)
      rw [evalProgram, kept, ended]
    · rw [pair.console, pair'.console]
    · have started : middle.errors = runtimeErrors steps := errors
      rw [← started]
      exact texts_of_said logs.queued.map_eq.symm
    · rw [pair.bindings, ← pair'.bindings, plays.root]
      rfl

/-- An error, a line with a syntax error, a command, and a definition. -/
def mixedLines : List String := ["1 / 0", ")", ":help", "fn f() 2 end"]

theorem scan_dividing : scan "1 / 0" =
    ⟨Mark.tokens 1 [.token .int "1", .gap, .of .slash, .gap, .token .int "0"], .eof 1⟩ :=
  scan_written (by decide) (by decide)

theorem scan_closing : scan ")" = ⟨Mark.tokens 1 [.of .rparen], .eof 1⟩ :=
  scan_written (by decide) (by decide)

theorem scan_defining : scan "fn f() 2 end" =
    ⟨Mark.tokens 1 [.of .fnWord, .gap, .token .ident "f", .of .lparen, .of .rparen, .gap, .token .int "2", .gap,
      .of .endWord], .eof 1⟩ :=
  scan_written (by decide) (by decide)

theorem accepts_dividing : accepts "1 / 0" := by
  rw [accepts, parseSource, scan_dividing]
  decide +kernel

theorem rejects_closing : accepts ")" = false := by
  rw [accepts, parseSource, scan_closing]
  decide +kernel

theorem rejects_help : accepts ":help" = false :=
  Bool.eq_false_iff.2 fun accepted => (accepts_trimmed accepted).1 (.inr (.inl (by decide +kernel)))

theorem accepts_defining : accepts "fn f() 2 end" := by
  rw [accepts, parseSource, scan_defining]
  decide +kernel

theorem mixedLines_accepted : mixedLines.filter accepts = ["1 / 0", "fn f() 2 end"] := by
  simp [mixedLines, accepts_dividing, rejects_closing, rejects_help, accepts_defining]

theorem mixedLines_fed :
    ((Session.start false).feed 12 mixedLines).map
    (fun fed => fed.1.map fun step => (step.1, step.2.errors)) =
      some [("1 / 0", ["error[E2008]: Division by zero"]), (")", ["line 1: no prefix parse function for ) found"]),
        (":help", []), ("fn f() 2 end", [])] := by
  simp only [mixedLines, feed, line, parseSource, scan_dividing, scan_closing, scan_defining]
  decide +kernel

theorem mixedLines_file : "\n".intercalate (mixedLines.filter accepts) = "1 / 0\nfn f() 2 end" := by
  rw [mixedLines_accepted]
  decide

/-- Neither program ends by a `return`, whatever the session. -/
theorem mixedLines_neverReturns (session : Session) : session.NeverReturns 12 mixedLines := by
  have dividing (session : Session) : ¬ session.Returns 12 "1 / 0" := by
    rintro ⟨result, behind, ends⟩
    rw [parseSource, scan_dividing] at ends
    cases ends
  have defining (session : Session) : ¬ session.Returns 12 "fn f() 2 end" := by
    rintro ⟨result, behind, ends⟩
    rw [parseSource, scan_defining] at ends
    cases ends
  refine ⟨fun _ => dividing session, fun _ second _ => ⟨fun closing => ?_, fun _ third _ => ⟨fun help => ?_, fun _ fourth _ =>
    ⟨fun _ => defining fourth, fun _ _ _ => trivial⟩⟩⟩⟩
  · rw [rejects_closing] at closing; cases closing
  · rw [rejects_help] at help; cases help

theorem mixedLines_noMinus :
    ∀ text ∈ (mixedLines.filter accepts).tail, ∀ t ∈ (scan text).tokens.head?, t.kind ≠ .minus := by
  intro text member t here
  rw [mixedLines_accepted] at member
  obtain rfl := List.mem_singleton.1 member
  rw [scan_defining] at here
  cases here
  decide

/-- A file of the first and the last line reports the one error that was shown while it
    ran. -/
theorem session_as_program_mixedLines :
    ∃ steps last, (Session.start false).feed 12 mixedLines = some (steps, last) ∧
      (parseSource "1 / 0\nfn f() 2 end").hasErrors = false ∧
      ∃ enough result behind,
        evalProgram .lenient enough (parseSource "1 / 0\nfn f() 2 end").program State.withBuiltins.1 State.withBuiltins.2 =
          some (result, behind) ∧
        behind.diagnostics.toList.map Diagnostic.text = ["error[E2008]: Division by zero"] ∧
        (behind.heap.bindings State.withBuiltins.1).seen = (last.state.heap.bindings last.root).seen := by
  obtain ⟨⟨steps, last⟩, fed, shown⟩ := Option.map_eq_some_iff.1 mixedLines_fed
  obtain ⟨clean, ⟨enough, runs⟩, -⟩ :=
    session_as_program false 12 mixedLines steps last fed (mixedLines_neverReturns _) mixedLines_noMinus
  obtain ⟨result, behind, ends, -, errors, bindings⟩ := runs enough (Nat.le_refl _)
  rw [mixedLines_file] at clean ends
  refine ⟨steps, last, fed, clean, enough, result, behind, ends, ?_, bindings⟩
  have pairs : runtimeErrors steps =
      ((steps.map fun step => (step.1, step.2.errors)).filter fun step => accepts step.1).flatMap (·.2) := by
    simp [runtimeErrors, List.filter_map, List.flatMap_map, Function.comp_def]
  dsimp only at shown
  rw [errors, pairs, shown]
  simp [accepts_dividing, rejects_closing, rejects_help, accepts_defining]

end Lantern
