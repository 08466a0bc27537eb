/-
  Lantern.Proofs.Testing.Stray — the errors of a file that are met outside of its tests.

  A run of tests does not count them as they are met: it takes all errors reported, less
  those that tests list. A test lists every error reported while its body runs, so one
  met inside of two tests at once is listed twice, and then hides an error that no test
  lists. The journal shows what each count should be (`Journal.depths`: for every error
  reported, how many test bodies were being run at that moment):
  - `Eval.accounted`: from one state of a run to a later one, as many diagnostics are
    queued as errors reported, and tests list each error as often as its depth says.
  - `stray_exact_iff`: a file's error for stray errors is that of the errors at depth
    zero, less one for each further test an error is met inside of; so it tells their
    number if and only if there are none of the first or none of the second.
-/

import Mathlib.Algebra.Ring.Nat
import Lantern.Proofs.Eval.Path
import Lantern.Proofs.Token.Spelling
import Lantern.Testing.Suite

namespace Lantern

/-! ## The depth of an error -/

/-- For each error reported among the events, the number of test bodies being run at
    that moment, when they start inside of `depth` of them. -/
def Event.depths (depth : Nat) : List Event → List Nat
  | [] => []
  | .reported _ :: more => depth :: depths depth more
  | .testBegins :: more => depths (depth + 1) more
  | .testEnds :: more => depths (depth - 1) more
  | .callBegins :: more | .callEnds :: more => depths depth more

namespace Journal

def depths (journal : Journal) : List Nat := Event.depths 0 journal.toList

/-- The errors reported while no test body was being run. -/
def outside (journal : Journal) : Nat := journal.depths.count 0

/-- The errors reported inside of tests, one for each test body being run beyond the
    first. -/
def surplus (journal : Journal) : Nat := (journal.depths.map (· - 1)).sum

end Journal

/-- The events of a run, started inside of no matter how many tests, report errors at
    these depths further in, and leave as many tests as they found. -/
def Event.Spans (events : List Event) (ds : List Nat) : Prop :=
  ∀ depth more, depths depth (events ++ more) = ds.map (depth + ·) ++ depths depth more

namespace Event

theorem spans_nil : Spans [] [] := fun _ _ => rfl

theorem Spans.append {events events' : List Event} {ds ds' : List Nat} (h : Spans events ds)
    (h' : Spans events' ds') :
    Spans (events ++ events') (ds ++ ds') := by
  intro depth more
  rw [List.append_assoc, h, h', List.map_append, List.append_assoc]

theorem spans_reported (error : EvalError) : Spans [.reported error] [0] := fun _ _ => rfl

theorem Spans.call {events : List Event} {ds : List Nat} (h : Spans events ds) :
    Spans (.callBegins :: events ++ [.callEnds]) ds := by
  intro depth more
  rw [List.cons_append, List.cons_append, List.append_assoc, depths, h]
  rfl

theorem Spans.test {events : List Event} {ds : List Nat} (h : Spans events ds) :
    Spans (.testBegins :: events ++ [.testEnds]) (ds.map (· + 1)) := by
  intro depth more
  rw [List.cons_append, List.cons_append, List.append_assoc, depths, h, List.map_map, List.singleton_append, depths,
    Nat.add_sub_cancel]
  congr 2
  funext d
  simp only [Function.comp_apply]
  omega

end Event

/-! ## The books of a run -/

theorem listedCount_append (outcomes more : List TestOutcome) :
    listedCount (outcomes ++ more) = listedCount outcomes + listedCount more := by
  induction outcomes with
  | nil => simp [listedCount]
  | cons outcome outcomes ih =>
    have := ih
    simp only [listedCount, List.cons_append, List.map_cons, List.foldr_cons] at this ⊢
    omega

/-- From `state` to `behind` errors were reported at these depths, a diagnostic for
    each, and tests list each one as often as its depth. -/
structure State.Accounts (state behind : State) (ds : List Nat) : Prop where
  journal : ∃ events, behind.journal.toList = state.journal.toList ++ events ∧ Event.Spans events ds
  diagnostics : behind.diagnostics.length = state.diagnostics.length + ds.length
  outcomes : listedCount behind.outcomes.toList = listedCount state.outcomes.toList + ds.sum

namespace State

variable {a b c : State} {ds ds' : List Nat}

theorem Accounts.trans (h : a.Accounts b ds) (h' : b.Accounts c ds') :
    a.Accounts c (ds ++ ds') := by
  obtain ⟨events, eq, spans⟩ := h.journal
  obtain ⟨more, eq', spans'⟩ := h'.journal
  refine ⟨⟨events ++ more, by rw [eq', eq, List.append_assoc], spans.append spans'⟩, ?_, ?_⟩
  · rw [h'.diagnostics, h.diagnostics, List.length_append, Nat.add_assoc]
  · rw [h'.outcomes, h.outcomes, List.sum_append, Nat.add_assoc]

/-- A step that reports nothing and ends no test. -/
theorem accounts_of_eq (journal : b.journal = a.journal)
    (diagnostics : b.diagnostics = a.diagnostics)
    (outcomes : b.outcomes = a.outcomes) : a.Accounts b [] := by
  refine ⟨⟨[], ?_, Event.spans_nil⟩, ?_, ?_⟩
  · rw [journal, List.append_nil]
  · rw [diagnostics]; rfl
  · rw [outcomes]; rfl

theorem accounts_report (a : State) (error : EvalError) : a.Accounts (a.report error) [0] := by
  refine ⟨⟨[.reported error], ?_, Event.spans_reported error⟩, ?_, rfl⟩
  · simp [report, note]
  · simp [report, note, Diagnostic.Queue.push, Diagnostic.Queue.length]

/-- A call adds its begin and its end to the journal, and nothing to the other books. -/
theorem Accounts.nested (h : (Run.beginCall a).Accounts b ds) : a.Accounts (Run.endCall b) ds := by
  obtain ⟨events, eq, spans⟩ := h.journal
  refine ⟨⟨.callBegins :: events ++ [.callEnds], ?_, spans.call⟩, h.diagnostics, h.outcomes⟩
  simp only [Run.beginCall, Run.endCall, note, Journal.toList_note] at eq ⊢
  simp [eq]

theorem length_since (queue : Diagnostic.Queue) (before : Nat) :
    (queue.since before).length = queue.length - before := by
  simp [Diagnostic.Queue.since, Diagnostic.Queue.toList, Diagnostic.Queue.length]

theorem sum_map_succ (ds : List Nat) : (ds.map (· + 1)).sum = ds.sum + ds.length := by
  induction ds with
  | nil => rfl
  | cons d ds ih => simp only [List.map_cons, List.sum_cons, List.length_cons, ih]; omega

/-- A test lists every error reported while its body ran, whichever other tests list it
    already. -/
theorem Accounts.tested (label : String) (h : (a.note .testBegins).Accounts b ds) :
    a.Accounts (Run.conclude label a.diagnostics.length [] b) (ds.map (· + 1)) := by
  obtain ⟨events, eq, spans⟩ := h.journal
  have queued : b.diagnostics.length = a.diagnostics.length + ds.length := h.diagnostics
  have listed : listedCount b.outcomes.toList = listedCount a.outcomes.toList + ds.sum := h.outcomes
  refine ⟨⟨.testBegins :: events ++ [.testEnds], ?_, spans.test⟩, ?_, ?_⟩
  · simp only [Run.conclude, note, Journal.toList_note] at eq ⊢
    simp [eq]
  · rw [List.length_map]
    exact queued
  · have more : ((b.diagnostics.since a.diagnostics.length).map (·.message)).length = ds.length := by
      rw [List.length_map, length_since, queued, Nat.add_sub_cancel_left]
    simp only [Run.conclude, note, Array.toList_push, List.append_nil, listedCount_append, listed, sum_map_succ]
    simp only [listedCount, List.map_cons, List.map_nil, List.foldr_cons, List.foldr_nil, more]
    omega

end State

/-- Where errors are reported at the statement they arise in, every step keeps the books. -/
theorem Eval.accounted {settings : Settings} (lenient : settings.policy = .proceed) :
    Eval.Keeps settings fun state behind => ∃ ds, state.Accounts behind ds where
  refl a := ⟨[], State.accounts_of_eq rfl rfl rfl⟩
  trans h h' := by
    obtain ⟨ds, accounts⟩ := h
    obtain ⟨ds', accounts'⟩ := h'
    exact ⟨ds ++ ds', accounts.trans accounts'⟩
  define _ _ _ _ := ⟨[], State.accounts_of_eq rfl rfl rfl⟩
  setField _ _ _ _ := ⟨[], State.accounts_of_eq rfl rfl rfl⟩
  enclose _ _ := ⟨[], State.accounts_of_eq rfl rfl rfl⟩
  addObject _ _ := ⟨[], State.accounts_of_eq rfl rfl rfl⟩
  print _ _ := ⟨[], State.accounts_of_eq rfl rfl rfl⟩
  nested h := h.imp fun _ accounts => accounts.nested
  report _ a error := ⟨[0], a.accounts_report error⟩
  tested label _ _ _ _ h none := by
    obtain ⟨ds, accounts⟩ := h
    obtain rfl := none lenient
    exact ⟨ds.map (· + 1), accounts.tested label⟩

/-! ## The error of a file -/

def strayErrors (count : Nat) : List String := if 0 < count then [strayMessage count] else []

theorem strayMessage_inj {n m : Nat} (h : strayMessage n = strayMessage m) : n = m := by
  have numerals : n.repr.toList = m.repr.toList := by
    have letters := congrArg String.toList h
    simp only [strayMessage, String.toList_append, List.append_cancel_right_eq] at letters
    exact letters
  exact Option.some.inj ((Text.natural?_repr n).symm.trans ((congrArg Text.natural? numerals).trans (Text.natural?_repr m)))

theorem strayErrors_inj {n m : Nat} : strayErrors n = strayErrors m ↔ n = m := by
  refine ⟨fun h => ?_, fun h => by rw [h]⟩
  unfold strayErrors at h
  split at h <;> split at h
  · exact strayMessage_inj (List.singleton_inj.1 h)
  · cases h
  · cases h
  · omega

/-- Of errors at these depths, those at depth zero are all of them less the sum of the
    depths, but for what the deeper ones are deep beyond one. -/
theorem length_sub_sum (ds : List Nat) :
    ds.length - ds.sum = ds.count 0 - (ds.map (· - 1)).sum := by
  have balance : ds.length + (ds.map (· - 1)).sum = ds.count 0 + ds.sum := by
    induction ds with
    | nil => rfl
    | cons d ds ih =>
      rcases d with - | d
      · simp only [List.length_cons, List.map_cons, List.sum_cons, List.count_cons_self]; omega
      · simp only [List.length_cons, List.map_cons, List.sum_cons, List.count_cons_of_ne (Nat.succ_ne_zero d)]; omega
  omega

/-- A run that starts from nothing, and reports errors where they arise, leaves its
    books as its journal tells. -/
theorem audited {settings : Settings} (lenient : settings.policy = .proceed) {fuel : Nat}
    {program : Program}
    {root : ScopeId} {heap : Heap} {result : Except EvalError Value} {behind : State}
    (ends : evalProgram settings fuel program root { State.fresh with heap } = some (result, behind)) :
    (∃ value, result = .ok value) ∧ behind.diagnostics.toList.length = behind.journal.depths.length ∧
      listedCount behind.outcomes.toList = behind.journal.depths.sum := by
  obtain ⟨value, ds, ⟨events, eq, spans⟩, queued, listed⟩ := (Eval.accounted lenient).program lenient ends
  have depths : behind.journal.depths = ds := by
    have started : behind.journal.toList = events := eq
    have := spans 0 []
    simpa [Journal.depths, started, Event.depths] using this
  refine ⟨value, ?_, ?_⟩
  · rw [depths, ← Nat.zero_add ds.length]
    exact queued
  · rw [depths, ← Nat.zero_add ds.sum]
    exact listed

/-- A run under the settings of tests that starts from nothing leaves as its journal
    says: the errors at depth zero, less one for each further test an error was met
    inside of, are what it takes for stray. -/
theorem stray_eq {fuel : Nat} {program : Program} {root : ScopeId} {heap : Heap}
    {result : Except EvalError Value}
    {behind : State} (ends : evalProgram .testing fuel program root { State.fresh with heap } = some (result, behind)) :
    (∃ value, result = .ok value) ∧
      strayCount behind.diagnostics.toList behind.outcomes.toList = behind.journal.outside - behind.journal.surplus := by
  obtain ⟨value, queued, listed⟩ := audited rfl ends
  exact ⟨value, by rw [strayCount, queued, listed, Journal.outside, Journal.surplus, length_sub_sum]⟩

/-- The error of a file without syntax errors is that of the errors met outside of its
    tests, less one for each further test around an error met inside of a test. So it is
    there and tells their number exactly when there is no such error, or no error is met
    inside of two tests at once. -/
theorem stray_exact_iff (fuel : Nat) (path source : String) (clean : (parseSource source).hasErrors = false)
    (result : Except EvalError Value) (behind : State)
    (ends : evalProgram .testing fuel (parseSource source).program State.withBuiltins.1 State.withBuiltins.2 =
      some (result, behind)) :
    ∃ summary, testSource fuel path source = some summary ∧
      summary.errors = strayErrors (behind.journal.outside - behind.journal.surplus) ∧
      (summary.errors = strayErrors behind.journal.outside ↔ behind.journal.outside = 0 ∨ behind.journal.surplus = 0) := by
  obtain ⟨⟨value, rfl⟩, stray⟩ := stray_eq ends
  have errors : (Execution.mk (.ok value) behind.console.text behind.outcomes.toList behind.diagnostics.toList).fileErrors =
      strayErrors (behind.journal.outside - behind.journal.surplus) := by
    rw [Execution.fileErrors, Execution.stray, stray, strayErrors, List.nil_append]
  refine ⟨⟨path, behind.outcomes.toList, strayErrors (behind.journal.outside - behind.journal.surplus),
    behind.console.text⟩, ?_, rfl, ?_⟩
  · simp only [testSource, clean, Program.execute, ends, Option.map_some, errors, Bool.false_eq_true, if_false]
  · rw [strayErrors_inj]
    omega

/-- An error outside of all tests, and one inside of two. -/
def hiddenStray : String := "1 / 0 test \"outer\" test \"inner\" 1 / 0 end end"

theorem hiddenStray_scan :
    scan hiddenStray = ⟨Mark.tokens 1 [.token .int "1", .gap, .of .slash, .gap, .token .int "0", .gap, .of .testWord, .gap,
      .token .str "outer", .gap, .of .testWord, .gap, .token .str "inner", .gap, .token .int "1", .gap, .of .slash, .gap,
      .token .int "0", .gap, .of .endWord, .gap, .of .endWord], .eof 1⟩ :=
  scan_written (by decide) (by decide)

theorem hiddenStray_clean : (parseSource hiddenStray).hasErrors = false := by
  rw [parseSource, hiddenStray_scan]
  decide +kernel

theorem hiddenStray_depths :
    (evalProgram .testing 12 (parseSource hiddenStray).program State.withBuiltins.1 State.withBuiltins.2).map
      (fun ended => ended.2.journal.depths) = some [0, 2] := by
  rw [parseSource, hiddenStray_scan]
  decide +kernel

/-- Both tests list the error inside of them, so that of the two diagnostics none seems
    to be outside. -/
theorem stray_missed_hiddenStray :
    ∃ result behind,
      evalProgram .testing 12 (parseSource hiddenStray).program State.withBuiltins.1 State.withBuiltins.2 =
        some (result, behind) ∧
      behind.journal.depths = [0, 2] ∧
      ∃ summary, testSource 12 "hidden.fn" hiddenStray = some summary ∧
        summary.errors = [] ∧ strayErrors behind.journal.outside = ["1 runtime error(s) outside test blocks"] := by
  obtain ⟨⟨result, behind⟩, ends, depths⟩ := Option.map_eq_some_iff.1 hiddenStray_depths
  dsimp only at depths
  obtain ⟨summary, tested, errors, -⟩ := stray_exact_iff 12 "hidden.fn" hiddenStray hiddenStray_clean result behind ends
  refine ⟨result, behind, ends, depths, summary, tested, ?_, ?_⟩
  · rw [errors, Journal.outside, Journal.surplus, depths]
    rfl
  · rw [Journal.outside, depths]
    rfl

end Lantern
