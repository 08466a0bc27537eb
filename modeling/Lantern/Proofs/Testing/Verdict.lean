/-
  Lantern.Proofs.Testing.Verdict — tests fail exactly when something went wrong.

  Whether a run of tests went wrong is read off three counts: tests that failed, errors
  met outside of tests (a difference that may come out too small, see
  `Lantern.Proofs.Testing.Stray`) and errors of the file. Together they are right:
  - `reported_iff_troubled`: an error is reported during a run if and only if a test
    fails or there are stray errors. If the tests list no error at all, no error is
    taken off the number of stray ones.
  - `testAt_hasFailures_iff`: a file has failures if and only if something is wrong with
    it (`Wrong`).
  - `runTests_code_iff`, `execute_run_iff`: the command that runs the tests of all files
    and the one that runs a single file come to the verdict of the summaries. The second
    one sets no limit to the call depth, so it agrees only where the limit is not
    reached.
-/

import Lantern.Command.Run
import Lantern.Proofs.Eval.Depth
import Lantern.Proofs.Testing.Stray

namespace Lantern

/-! ## Failed tests and errors listed -/

def TestOutcome.Fair (outcome : TestOutcome) : Prop := outcome.passed = outcome.errors.isEmpty

theorem TestOutcome.Fair.failed_iff {outcome : TestOutcome} (fair : outcome.Fair) :
    outcome.passed = false ↔ 0 < outcome.errors.length := by
  rw [fair, List.isEmpty_eq_false_iff, List.length_pos_iff]

theorem Eval.keeps_fair (settings : Settings) :
    Eval.Keeps settings fun state behind =>
      (∀ outcome ∈ state.outcomes, outcome.Fair) → ∀ outcome ∈ behind.outcomes, outcome.Fair where
  refl _ fair := fair
  trans h h' fair := h' (h fair)
  define _ _ _ _ fair := fair
  setField _ _ _ _ fair := fair
  enclose _ _ fair := fair
  addObject _ _ fair := fair
  print _ _ fair := fair
  nested h := h
  report _ _ _ fair := fair
  tested _ _ _ _ _ h _ fair outcome member := by
    rcases Array.mem_push.1 member with earlier | rfl
    · exact h fair outcome earlier
    · rfl

theorem foldr_add_pos {α : Type} (count : α → Nat) (list : List α) :
    0 < (list.map count).foldr (· + ·) 0 ↔ ∃ a ∈ list, 0 < count a := by
  rw [← List.sum, List.sum_pos_iff_exists_pos_nat]
  simp

theorem listedCount_pos {outcomes : List TestOutcome} :
    0 < listedCount outcomes ↔ ∃ outcome ∈ outcomes, 0 < outcome.errors.length :=
  foldr_add_pos _ outcomes

theorem Event.length_depths (depth : Nat) (events : List Event) :
    (depths depth events).length = (events.filterMap error?).length := by
  fun_induction depths depth events <;> simp_all [error?, List.filterMap_cons]

/-! ## The verdict on a run -/

namespace Execution

/-- An error ended the run, or a test in it failed, or there are stray errors. -/
def Troubled (execution : Execution) : Prop :=
  (∃ error, execution.result = .error error) ∨ (∃ outcome ∈ execution.outcomes, outcome.passed = false) ∨ 0 < execution.stray

def ofEnd (result : Except EvalError Value) (behind : State) : Execution :=
  ⟨result, behind.console.text, behind.outcomes.toList, behind.diagnostics.toList⟩

end Execution

theorem Program.execute_ofEnd {settings : Settings} {fuel : Nat} {program : Program}
    {result : Except EvalError Value}
    {behind : State}
    (ends : evalProgram settings fuel program State.withBuiltins.1 State.withBuiltins.2 = some (result, behind)) :
    program.execute settings fuel = some (.ofEnd result behind) := by
  simp only [execute, ends]
  rfl

/-- An error is reported during a run if and only if the run is in trouble, though some
    stray errors may go unseen. -/
theorem reported_iff_troubled {settings : Settings} (lenient : settings.policy = .proceed)
    {fuel : Nat} {program : Program}
    {result : Except EvalError Value} {behind : State}
    (ends : evalProgram settings fuel program State.withBuiltins.1 State.withBuiltins.2 = some (result, behind)) :
    behind.journal.errors ≠ [] ↔ (Execution.ofEnd result behind).Troubled := by
  obtain ⟨⟨value, rfl⟩, queued, listed⟩ := audited lenient ends
  have fair := ((Eval.keeps_fair settings).program lenient ends).2 (by simp [State.withBuiltins, State.fresh])
  have reported : behind.journal.errors ≠ [] ↔ 0 < behind.journal.depths.length := by
    rw [← List.length_pos_iff, Journal.errors, Journal.depths, Event.length_depths]
  have failed : (∃ outcome ∈ behind.outcomes.toList, outcome.passed = false) ↔ 0 < behind.journal.depths.sum := by
    rw [← listed, listedCount_pos]
    exact exists_congr fun outcome => and_congr_right fun member => (fair outcome (by simpa using member)).failed_iff
  have counted (sum : 0 < behind.journal.depths.sum) : 0 < behind.journal.depths.length := by
    refine List.length_pos_iff.2 fun none => ?_
    rw [none] at sum
    exact absurd sum (Nat.lt_irrefl 0)
  simp only [Execution.Troubled, Execution.ofEnd, Execution.stray, strayCount, failed, queued, listed, reported]
  constructor
  · intro some
    -- the tests list some error, or none is taken off
    omega
  · rintro (⟨error, ⟨⟩⟩ | sum | stray)
    · exact counted sum
    · omega

/-- A summary made of a run has failures if and only if the run is in trouble. -/
theorem Execution.hasFailures_iff (path : String) (execution : Execution) :
    (FileSummary.mk path execution.outcomes execution.fileErrors execution.output).hasFailures = true ↔
      execution.Troubled := by
  have failed : 0 < execution.outcomes.countP (!·.passed) ↔ ∃ outcome ∈ execution.outcomes, outcome.passed = false := by
    simp [List.countP_pos_iff]
  have errors : execution.fileErrors ≠ [] ↔ (∃ error, execution.result = .error error) ∨ 0 < execution.stray := by
    unfold fileErrors
    cases execution.result <;> simp
  simp only [FileSummary.hasFailures, FileSummary.failed, Bool.or_eq_true, decide_eq_true_eq, Bool.not_eq_true',
    List.isEmpty_eq_false_iff, failed, errors, Troubled]
  exact or_left_comm

/-- The command that runs one file with its tests ends badly if and only if the run is
    in trouble. -/
theorem executed_code_iff (path tree : String) (execution : Execution) :
    (Command.executed path true tree execution).code ≠ 0 ↔ execution.Troubled := by
  have failed : 0 < execution.failedTests ↔ ∃ outcome ∈ execution.outcomes, outcome.passed = false := by
    simp [Execution.failedTests, List.length_pos_iff, List.filter_eq_nil_iff]
  unfold Command.executed Execution.Troubled
  rw [← failed]
  cases execution.result with
  | error error => simp [Report.failure]
  | ok value =>
    by_cases trouble : 0 < execution.failedTests ∨ 0 < execution.stray <;>
      simp [trouble, Report.failure, Report.success]

/-! ## The verdict on a file -/

def HoldsProgram (found : Except ReadError Entry) (program : Program) : Prop :=
  ∃ source, found.bind Entry.text = .ok source ∧ (parseSource source).hasErrors = false ∧
    (parseSource source).program = program

/-- If a program stands at a path, its run ends, in a good state. -/
def EndsIn (good : State → Prop) (settings : Settings) (fuel : Nat)
    (found : Except ReadError Entry) : Prop :=
  ∀ program, HoldsProgram found program → ∃ result behind,
    evalProgram settings fuel program State.withBuiltins.1 State.withBuiltins.2 = some (result, behind) ∧ good behind

/-- Something is wrong with what stands at a path: it cannot be read, it has syntax
    errors, or an error is reported while it runs with its tests. -/
inductive Wrong (fuel : Nat) (found : Except ReadError Entry) : Prop
  | unreadable {reason : ReadError} : found.bind Entry.text = .error reason → Wrong fuel found
  | malformed {source : String} : found.bind Entry.text = .ok source → (parseSource source).hasErrors = true →
      Wrong fuel found
  | reported {program : Program} {result : Except EvalError Value} {behind : State} : HoldsProgram found program →
      evalProgram .testing fuel program State.withBuiltins.1 State.withBuiltins.2 = some (result, behind) →
      behind.journal.errors ≠ [] → Wrong fuel found

section

variable {fuel : Nat} {found : Except ReadError Entry}

theorem testAt_unreadable (fuel : Nat) (path : String) {reason : ReadError}
    (unreadable : found.bind Entry.text = .error reason) :
    ∃ summary, testAt fuel path found = some summary ∧ summary.hasFailures = true := by
  refine ⟨(FileSummary.empty path).addError ("Failed to read file: " ++ reason.message), by rw [testAt, unreadable], ?_⟩
  simp [FileSummary.hasFailures, FileSummary.addError, FileSummary.empty]

theorem testAt_malformed (fuel : Nat) (path : String) {source : String}
    (text : found.bind Entry.text = .ok source)
    (malformed : (parseSource source).hasErrors = true) :
    ∃ summary, testAt fuel path found = some summary ∧ summary.hasFailures = true := by
  refine ⟨⟨path, [], (parseSource source).messages, ""⟩, by simp only [testAt, text, testSource, malformed, if_true], ?_⟩
  simpa [FileSummary.hasFailures, FileSummary.failed, Parsed.messages, Parsed.hasErrors] using malformed

theorem testAt_program (path : String) {program : Program} {result : Except EvalError Value}
    {behind : State}
    (holds : HoldsProgram found program)
    (ends : evalProgram .testing fuel program State.withBuiltins.1 State.withBuiltins.2 = some (result, behind)) :
    ∃ summary, testAt fuel path found = some summary ∧
      (summary.hasFailures = true ↔ (Execution.ofEnd result behind).Troubled) := by
  obtain ⟨source, text, clean, rfl⟩ := holds
  refine ⟨_, ?_, (Execution.ofEnd result behind).hasFailures_iff path⟩
  simp only [testAt, text, testSource, clean, Bool.false_eq_true, if_false, Program.execute_ofEnd ends, Option.map_some]

/-- There is nothing else that can stand at a path. -/
theorem unreadable_or_malformed_or_program (found : Except ReadError Entry) :
    (∃ reason, found.bind Entry.text = .error reason) ∨
      (∃ source, found.bind Entry.text = .ok source ∧ (parseSource source).hasErrors = true) ∨
      ∃ program, HoldsProgram found program := by
  cases text : found.bind Entry.text with
  | error reason => exact .inl ⟨reason, rfl⟩
  | ok source =>
    by_cases malformed : (parseSource source).hasErrors = true
    · exact .inr (.inl ⟨source, rfl, malformed⟩)
    · exact .inr (.inr ⟨_, source, text, by simpa using malformed, rfl⟩)

theorem wrong_iff_reported {program : Program} {result : Except EvalError Value} {behind : State}
    (holds : HoldsProgram found program)
    (ends : evalProgram .testing fuel program State.withBuiltins.1 State.withBuiltins.2 = some (result, behind)) :
    Wrong fuel found ↔ behind.journal.errors ≠ [] := by
  refine ⟨fun wrong => ?_, .reported holds ends⟩
  obtain ⟨source, text, clean, rfl⟩ := holds
  cases wrong with
  | unreadable unreadable => rw [text] at unreadable; cases unreadable
  | malformed text' malformed =>
    rw [text] at text'
    cases text'
    rw [clean] at malformed
    cases malformed
  | reported holds ends' reported =>
    obtain ⟨_, text', -, rfl⟩ := holds
    rw [text] at text'
    cases text'
    rw [ends] at ends'
    cases ends'
    exact reported

/-- What stands at a path has failures if and only if something is wrong with it. -/
theorem testAt_hasFailures_iff (path : String)
    (ended : EndsIn (fun _ => True) .testing fuel found) :
    ∃ summary, testAt fuel path found = some summary ∧ (summary.hasFailures = true ↔ Wrong fuel found) := by
  rcases unreadable_or_malformed_or_program found with ⟨reason, unreadable⟩ | ⟨source, text, malformed⟩ | ⟨program, holds⟩
  · obtain ⟨summary, tested, failures⟩ := testAt_unreadable fuel path unreadable
    exact ⟨summary, tested, iff_of_true failures (.unreadable unreadable)⟩
  · obtain ⟨summary, tested, failures⟩ := testAt_malformed fuel path text malformed
    exact ⟨summary, tested, iff_of_true failures (.malformed text malformed)⟩
  · obtain ⟨result, behind, ends, -⟩ := ended program holds
    obtain ⟨summary, tested, failures⟩ := testAt_program path holds ends
    refine ⟨summary, tested, ?_⟩
    rw [failures, wrong_iff_reported holds ends, reported_iff_troubled rfl ends]

/-! ## Running a single file -/

theorem execute_run_unreadable (fuel : Nat) (path : String) {reason : ReadError} (printTree : Bool)
    (input : ByteArray)
    (unreadable : found.bind Entry.text = .error reason) :
    ∃ report, (Command.run path printTree true).execute fuel found input = some report ∧ report.code ≠ 0 := by
  simp only [Command.execute, Command.withSource, readSource, unreadable]
  cases reason <;> exact ⟨_, rfl, Nat.one_ne_zero⟩

theorem execute_run_malformed (fuel : Nat) (path : String) {source : String} (printTree : Bool)
    (input : ByteArray)
    (text : found.bind Entry.text = .ok source)
    (malformed : (parseSource source).hasErrors = true) :
    ∃ report, (Command.run path printTree true).execute fuel found input = some report ∧ report.code ≠ 0 := by
  simp only [Command.execute, Command.withSource, readSource, text, Command.runFile, malformed, if_true]
  exact ⟨_, rfl, Nat.one_ne_zero⟩

theorem execute_run_program (path : String) {program : Program} {result : Except EvalError Value}
    {behind : State}
    (printTree : Bool) (input : ByteArray) (holds : HoldsProgram found program)
    (ends : evalProgram (.ofRun true) fuel program State.withBuiltins.1 State.withBuiltins.2 = some (result, behind)) :
    ∃ report, (Command.run path printTree true).execute fuel found input = some report ∧
      (report.code ≠ 0 ↔ (Execution.ofEnd result behind).Troubled) := by
  obtain ⟨source, text, clean, rfl⟩ := holds
  simp only [Command.execute, Command.withSource, readSource, text, Command.runFile, clean, Bool.false_eq_true, if_false,
    Program.execute_ofEnd ends, Option.map_some]
  exact ⟨_, rfl, executed_code_iff path _ _⟩

/-- Where calls do not nest too deep for a run of tests, running a file with its tests
    ends badly if and only if the file has failures. -/
theorem execute_run_iff (path : String) (printTree : Bool) (input : ByteArray)
    (ended : EndsIn (·.journal.NestsWithin 10000) (.ofRun true) fuel found) :
    ∃ report summary, (Command.run path printTree true).execute fuel found input = some report ∧
      testAt fuel path found = some summary ∧ (report.code ≠ 0 ↔ summary.hasFailures = true) := by
  rcases unreadable_or_malformed_or_program found with ⟨reason, unreadable⟩ | ⟨source, text, malformed⟩ | ⟨program, holds⟩
  · obtain ⟨report, ran, bad⟩ := execute_run_unreadable fuel path printTree input unreadable
    obtain ⟨summary, tested, failures⟩ := testAt_unreadable fuel path unreadable
    exact ⟨report, summary, ran, tested, iff_of_true bad failures⟩
  · obtain ⟨report, ran, bad⟩ := execute_run_malformed fuel path printTree input text malformed
    obtain ⟨summary, tested, failures⟩ := testAt_malformed fuel path text malformed
    exact ⟨report, summary, ran, tested, iff_of_true bad failures⟩
  · obtain ⟨result, behind, ends, within⟩ := ended program holds
    have free : (Settings.ofRun true).maxCallDepth = none := rfl
    have limited := evalProgram_limited free State.counted_withBuiltins ends within
    obtain ⟨report, ran, bad⟩ := execute_run_program path printTree input holds ends
    obtain ⟨summary, tested, failures⟩ := testAt_program path holds limited
    exact ⟨report, summary, ran, tested, bad.trans failures.symm⟩

end

/-! ## Running many files -/

namespace TestSummary

theorem foldl_addFile (files : List FileSummary) (summary : TestSummary) :
    files.foldl addFile summary = ⟨summary.files ++ files⟩ := by
  induction files generalizing summary with
  | nil => simp
  | cons file files ih => rw [List.foldl_cons, ih, addFile, List.append_assoc, List.singleton_append]

theorem total_pos (summary : TestSummary) :
    0 < summary.total ↔ ∃ file ∈ summary.files, file.results ≠ [] := by
  have counted (file : FileSummary) : file.results ≠ [] ↔ 0 < file.passed ∨ 0 < file.failed := by
    rw [← List.length_pos_iff, List.length_eq_countP_add_countP (·.passed), Nat.add_pos_iff_pos_or_pos]
    simp [FileSummary.passed, FileSummary.failed]
  simp only [counted, total, Nat.add_pos_iff_pos_or_pos, passed, failed, foldr_add_pos, and_or_left, exists_or]

/-- A summary has failures if and only if a file in it has. -/
theorem hasFailures_iff (summary : TestSummary) :
    summary.hasFailures = true ↔ ∃ file ∈ summary.files, file.hasFailures = true := by
  simp only [hasFailures, FileSummary.hasFailures, Bool.or_eq_true, decide_eq_true_eq, failed, errorFiles,
    foldr_add_pos, List.countP_pos_iff, and_or_left, exists_or]

/-- Failures come first, and then that there is nothing to run. -/
theorem exitCode_eq (summary : TestSummary) :
    summary.exitCode = if summary.hasFailures = true then 1 else if 0 < summary.total then 0 else 2 := by
  have failures : summary.hasFailures = true ↔ 0 < summary.failed ∨ 0 < summary.errorFiles := by simp [hasFailures]
  have total : summary.total = summary.passed + summary.failed := rfl
  by_cases failing : summary.hasFailures = true
  · have something : ¬(summary.total = 0 ∧ summary.errorFiles = 0) := by
      rw [failures] at failing
      omega
    simp only [exitCode, something, failing, if_true, if_false]
  · have troubles : summary.errorFiles = 0 := by
      rw [failures] at failing
      omega
    simp only [exitCode, troubles, failing, and_true, Nat.pos_iff_ne_zero, ite_not]
    rfl

/-- The exit code of files, added up in any order. -/
theorem exitCode_of_perm {files order : List FileSummary} (perm : order.Perm files) :
    ((order.foldl addFile empty).exitCode = 1 ↔ ∃ file ∈ files, file.hasFailures = true) ∧
      ((order.foldl addFile empty).exitCode = 2 ↔
        (¬ ∃ file ∈ files, file.hasFailures = true) ∧ ¬ ∃ file ∈ files, file.results ≠ []) ∧
      ((order.foldl addFile empty).exitCode = 0 ↔
        (¬ ∃ file ∈ files, file.hasFailures = true) ∧ ∃ file ∈ files, file.results ≠ []) := by
  rw [exitCode_eq]
  simp only [hasFailures_iff, total_pos, foldl_addFile, empty, List.nil_append, perm.mem_iff]
  by_cases failing : ∃ file ∈ files, file.hasFailures = true
  · simp [failing]
  · by_cases recorded : ∃ file ∈ files, file.results ≠ []
    · simp only [failing, recorded, if_true, if_false]
      decide
    · simp only [failing, recorded, if_false]
      decide

end TestSummary

/-- The pool runs every file, and keeps the results in the order of the files. -/
def Pool.InOrder (pool : Pool) : Prop := ∀ work files, pool work files = files.mapM work

theorem mapM_testFile {fuel : Nat} {files : List (String × ByteArray)}
    (each : ∀ file ∈ files, ∃ summary, testFile fuel file = some summary) :
    ∃ summaries, files.mapM (testFile fuel) = some summaries ∧
      ∀ summary, summary ∈ summaries ↔ ∃ file ∈ files, testFile fuel file = some summary := by
  induction files with
  | nil => exact ⟨[], rfl, by simp⟩
  | cons file files ih =>
    obtain ⟨summary, tested⟩ := each file List.mem_cons_self
    obtain ⟨summaries, all, members⟩ := ih fun file member => each file (List.mem_cons_of_mem _ member)
    refine ⟨summary :: summaries, by simp [List.mapM_cons, tested, all], fun other => ?_⟩
    simp [members, tested, eq_comm]

theorem TestRunner.run_eq {runner : TestRunner} (inOrder : ∀ pool ∈ runner.pool, pool.InOrder)
    (fuel : Nat)
    (files : List (String × ByteArray)) : runner.run fuel files = testFiles fuel files := by
  unfold run
  split
  · split
    · next pool found => rw [inOrder pool found, testFiles]
    · rfl
  · rfl

/-- The command that runs the tests at a path ends badly if and only if a file found
    there has failures. -/
theorem runTests_code_iff {runner : TestRunner} (inOrder : ∀ pool ∈ runner.pool, pool.InOrder)
    {fuel : Nat} (path : String)
    (verbose : Bool) (entry : Entry)
    (each : ∀ file ∈ discoverAt path entry, ∃ summary, testFile fuel file = some summary) :
    ∃ report, Command.runTests runner fuel path verbose (.ok entry) = some report ∧
      (report.code ≠ 0 ↔ ∃ file ∈ discoverAt path entry, ∃ summary, testFile fuel file = some summary ∧
        summary.hasFailures = true) := by
  obtain ⟨summaries, all, members⟩ := mapM_testFile each
  simp only [Command.runTests, TestRunner.run_eq inOrder, testFiles, all, Option.map_some]
  refine ⟨_, rfl, ?_⟩
  have bad : (if (TestSummary.mk summaries).hasFailures = true then 1 else 0) ≠ 0 ↔
      (TestSummary.mk summaries).hasFailures = true := by simp
  rw [bad, TestSummary.hasFailures_iff]
  simp only [members]
  constructor
  · rintro ⟨summary, ⟨file, found, tested⟩, failures⟩
    exact ⟨file, found, summary, tested, failures⟩
  · rintro ⟨file, found, summary, tested, failures⟩
    exact ⟨summary, ⟨file, found, tested⟩, failures⟩

theorem text_toUTF8 (source : String) :
    (Except.ok (Entry.file source.toUTF8)).bind Entry.text = .ok source := by
  have valid : source.toUTF8.IsValidUTF8 := source.isValidUTF8
  simp only [Except.bind, Entry.text, String.fromUTF8?, valid, dif_pos]
  rfl

theorem endsIn_of_ends {good : State → Prop} {settings : Settings} {fuel : Nat} {source : String}
    {result : Except EvalError Value} {behind : State}
    (ends : evalProgram settings fuel (parseSource source).program State.withBuiltins.1 State.withBuiltins.2 =
      some (result, behind)) (fine : good behind) : EndsIn good settings fuel (.ok (.file source.toUTF8)) := by
  rintro _ ⟨other, text, -, rfl⟩
  rw [text_toUTF8] at text
  cases text
  exact ⟨result, behind, ends, fine⟩

/-- An error outside of tests, and one inside of two tests that both list it. -/
def leakyTests : String := "fn half(x) 4 / x end half(0) test \"outer\" test \"inner\" half(0) end end"

def fineTests : String := "fn half(x) 4 / x end test \"halves\" half(2) end"

def halfMarks : List Mark :=
  [.of .fnWord, .gap, .token .ident "half", .of .lparen, .token .ident "x", .of .rparen, .gap, .token .int "4", .gap,
    .of .slash, .gap, .token .ident "x", .gap, .of .endWord, .gap]

theorem leakyTests_scan :
    scan leakyTests = ⟨Mark.tokens 1 (halfMarks ++ [.token .ident "half", .of .lparen, .token .int "0", .of .rparen, .gap,
      .of .testWord, .gap, .token .str "outer", .gap, .of .testWord, .gap, .token .str "inner", .gap, .token .ident "half",
      .of .lparen, .token .int "0", .of .rparen, .gap, .of .endWord, .gap, .of .endWord]), .eof 1⟩ :=
  scan_written (by decide) (by decide)

theorem fineTests_scan :
    scan fineTests = ⟨Mark.tokens 1 (halfMarks ++ [.of .testWord, .gap, .token .str "halves", .gap, .token .ident "half",
      .of .lparen, .token .int "2", .of .rparen, .gap, .of .endWord]), .eof 1⟩ :=
  scan_written (by decide) (by decide)

theorem leakyTests_clean : (parseSource leakyTests).hasErrors = false := by
  rw [parseSource, leakyTests_scan]
  decide +kernel

theorem leakyTests_run :
    (evalProgram .testing 20 (parseSource leakyTests).program State.withBuiltins.1 State.withBuiltins.2).map
      (fun ended => ended.2.journal.errors.length) = some 2 := by
  rw [parseSource, leakyTests_scan]
  decide +kernel

theorem fineTests_clean : (parseSource fineTests).hasErrors = false := by
  rw [parseSource, fineTests_scan]
  decide +kernel

theorem fineTests_run (settings : Settings) (tests : settings = .testing ∨ settings = .ofRun true) :
    (evalProgram settings 20 (parseSource fineTests).program State.withBuiltins.1 State.withBuiltins.2).map
      (fun ended => (ended.2.journal.errors.length, decide (ended.2.journal.NestsWithin 10000))) = some (0, true) := by
  rw [parseSource, fineTests_scan]
  rcases tests with rfl | rfl <;> decide +kernel

def leakyAndFine : Entry := .directory [⟨"leaky.fn", .file leakyTests.toUTF8⟩, ⟨"fine.fn", .file fineTests.toUTF8⟩]

theorem leakyAndFine_found :
    discoverAt "tests" leakyAndFine = [("tests/fine.fn", fineTests.toUTF8), ("tests/leaky.fn", leakyTests.toUTF8)] := by
  have sources : isSourceName "leaky.fn" ∧ isSourceName "fine.fn" := by decide +kernel
  have shown : isHidden "leaky.fn" = false ∧ isHidden "fine.fn" = false := by decide +kernel
  have order : pathLe ["leaky.fn"] ["fine.fn"] = false := by decide +kernel
  have paths : joinPath "tests" "fine.fn" = "tests/fine.fn" ∧ joinPath "tests" "leaky.fn" = "tests/leaky.fn" := by
    decide +kernel
  simp [discoverAt, leakyAndFine, Source.discover, Source.listed, sources, shown, List.mergeSort,
    List.MergeSort.Internal.splitInTwo, order, paths]

end Lantern
