/-
  Lantern.Proofs.Testing.InOrder — where all tests stand on top level, each runs once,
  in order, whatever the others do.

  A test ends with its outcome however its body ends: a failure in it is reported, a
  `return` ends no more than the test. So there is an outcome for each test that began.
  That there are no others takes a look at the heap: a call runs a body that was put
  there earlier, and that might be a body with a test in it. None is, and it is shown
  without a word about bodies:
  - `State.Testless`: the heap would be the same if all tests in it had other labels.
  - `Run.Twin.untested`: a run that goes like itself, with other labels on its tests,
    from such a state ends in such a state, and no test ends in it: its label would be
    another one.
  - `Eval.block_ended`: the statements of a program, one after the other.

  What a test lists is cut out of the queue of diagnostics by the length the queue had
  before. The journal tells what it should list (`Journal.testErrors`), and it does,
  inside of other tests as well (`Eval.keeps_lists`).
-/

import Lantern.Proofs.Eval.Fuel
import Lantern.Proofs.Eval.Lockstep
import Lantern.Proofs.Eval.Policy
import Lantern.Proofs.Testing.Verdict

namespace Lantern

open Eval

/-! ## Tests on top level -/

/-- No test stands inside of the statement. It may be one itself. -/
def Stmt.noTestInside : Stmt → Bool
  | .test _ _ body => body.throughout Stmt.noTest
  | statement => statement.throughout Stmt.noTest

def Stmt.testLabel? : Stmt → Option String
  | .test _ label _ => some label
  | _ => none

namespace Program

def testsOnTop (program : Program) : Bool := program.statements.all Stmt.noTestInside

def testLabels (program : Program) : List String := program.statements.filterMap Stmt.testLabel?

def Returns (settings : Settings) (fuel : Nat) (program : Program) (scope : ScopeId)
    (state : State) : Prop :=
  ∃ value behind, Eval.block settings fuel scope .null program.statements state = .returned value behind

instance (settings : Settings) (fuel : Nat) (program : Program) (scope : ScopeId) (state : State) :
    Decidable (program.Returns settings fuel scope state) :=
  match flow : Eval.block settings fuel scope .null program.statements state with
  | .returned value behind => isTrue ⟨value, behind, flow⟩
  | .value .. | .failed .. | .outOfFuel => isFalse fun ⟨_, _, returned⟩ => by rw [flow] at returned; cases returned

end Program

/-! ## What tests should list -/

/-- For each test that ends among the events, the errors reported while its body ran, in
    the order the tests end. The events start inside of tests in which the errors
    `inside` were reported before, innermost test first. -/
def Event.testErrors (inside : List (List EvalError)) : List Event → List (List EvalError)
  | [] => []
  | .reported error :: more => testErrors (inside.map (· ++ [error])) more
  | .testBegins :: more => testErrors ([] :: inside) more
  | .testEnds :: more => inside.head?.toList ++ testErrors inside.tail more
  | .callBegins :: more | .callEnds :: more => testErrors inside more

def Journal.testErrors (journal : Journal) : List (List EvalError) :=
  Event.testErrors [] journal.toList

/-- The events of a run, started inside of no matter which tests, report `errors` to
    these, and end the tests that begin among them with the errors in `lists`. -/
def Event.Lists (events : List Event) (errors : List EvalError) (lists : List (List EvalError)) :
    Prop :=
  ∀ inside more, testErrors inside (events ++ more) = lists ++ testErrors (inside.map (· ++ errors)) more

namespace Event

theorem lists_nil : Lists [] [] [] := fun inside more => by simp

theorem Lists.append {events events' : List Event} {errors errors' : List EvalError}
    {lists lists' : List (List EvalError)}
    (h : Lists events errors lists) (h' : Lists events' errors' lists') :
    Lists (events ++ events') (errors ++ errors') (lists ++ lists') := by
  intro inside more
  rw [List.append_assoc, h, h', List.map_map, List.append_assoc]
  simp only [Function.comp_def, List.append_assoc]

theorem lists_reported (error : EvalError) : Lists [.reported error] [error] [] := fun _ _ => rfl

theorem Lists.call {events : List Event} {errors : List EvalError} {lists : List (List EvalError)}
    (h : Lists events errors lists) :
    Lists (.callBegins :: events ++ [.callEnds]) errors lists := by
  intro inside more
  rw [List.cons_append, List.cons_append, List.append_assoc, testErrors, h]
  rfl

/-- A test ends behind the tests in its body, with all errors reported in it. -/
theorem Lists.test {events : List Event} {errors : List EvalError} {lists : List (List EvalError)}
    (h : Lists events errors lists) :
    Lists (.testBegins :: events ++ [.testEnds]) errors (lists ++ [errors]) := by
  intro inside more
  rw [List.cons_append, List.cons_append, List.append_assoc, testErrors, h, List.append_assoc]
  rfl

end Event

/-- From `state` to `behind` exactly `errors` were reported, and tests ended that list
    the messages of the errors in `lists`, which are those reported in each. -/
structure State.Lists (state behind : State) (errors : List EvalError) (lists : List (List EvalError)) : Prop where
  reports : state.Reports behind errors
  journal : ∃ events, behind.journal.toList = state.journal.toList ++ events ∧ Event.Lists events errors lists
  outcomes : behind.outcomes.toList.map (·.errors) = state.outcomes.toList.map (·.errors) ++ lists.map (·.map (·.message))

namespace State

variable {a b c : State} {errors errors' : List EvalError} {lists lists' : List (List EvalError)}

theorem Lists.trans (h : a.Lists b errors lists) (h' : b.Lists c errors' lists') :
    a.Lists c (errors ++ errors') (lists ++ lists') := by
  obtain ⟨events, eq, listed⟩ := h.journal
  obtain ⟨more, eq', listed'⟩ := h'.journal
  refine ⟨h.reports.trans h'.reports, ⟨events ++ more, ?_, listed.append listed'⟩, ?_⟩
  · rw [eq', eq, List.append_assoc]
  · rw [h'.outcomes, h.outcomes, List.map_append, List.append_assoc]

/-- A step that reports nothing and ends no test. -/
theorem lists_of_eq (journal : b.journal = a.journal) (diagnostics : b.diagnostics = a.diagnostics)
    (outcomes : b.outcomes = a.outcomes) : a.Lists b [] [] := by
  refine ⟨⟨by simp [journal], by simp [diagnostics]⟩, ⟨[], ?_, Event.lists_nil⟩, ?_⟩
  · rw [journal, List.append_nil]
  · rw [outcomes, List.map_nil, List.append_nil]

theorem lists_report (a : State) (error : EvalError) : a.Lists (a.report error) [error] [] := by
  refine ⟨a.reports_report error, ⟨[.reported error], ?_, Event.lists_reported error⟩, ?_⟩ <;> simp [report, note]

theorem Lists.nested (h : (Run.beginCall a).Lists b errors lists) :
    a.Lists (Run.endCall b) errors lists := by
  obtain ⟨events, eq, listed⟩ := h.journal
  refine ⟨(h.reports.note_left rfl).note_right rfl, ⟨.callBegins :: events ++ [.callEnds], ?_, listed.call⟩, h.outcomes⟩
  simp only [Run.beginCall, Run.endCall, note, Journal.toList_note] at eq ⊢
  simp [eq]

/-- A test lists what was queued while its body ran, and that is what was reported. -/
theorem Lists.tested (label : String) (h : (a.note .testBegins).Lists b errors lists) :
    a.Lists (Run.conclude label a.diagnostics.length [] b) errors (lists ++ [errors]) := by
  obtain ⟨events, eq, listed⟩ := h.journal
  have reports : a.Reports b errors := h.reports.note_left rfl
  have since := Diagnostic.Queue.since_of_append reports.2
  have ended : b.outcomes.toList.map (·.errors) = a.outcomes.toList.map (·.errors) ++ lists.map (·.map (·.message)) :=
    h.outcomes
  refine ⟨Reports.note_right rfl reports, ⟨.testBegins :: events ++ [.testEnds], ?_, listed.test⟩, ?_⟩
  · simp only [Run.conclude, note, Journal.toList_note] at eq ⊢
    simp [eq]
  · simp only [Run.conclude, note, Array.toList_push, List.map_append, ended, since, List.append_assoc]
    simp [EvalError.toDiagnostic]

end State

/-- Where errors are reported at the statement they arise in, each test lists the errors
    reported while its body ran. -/
theorem Eval.keeps_lists {settings : Settings} (lenient : settings.policy = .proceed) :
    Eval.Keeps settings fun state behind => ∃ errors lists, state.Lists behind errors lists where
  refl a := ⟨[], [], State.lists_of_eq rfl rfl rfl⟩
  trans h h' := by
    obtain ⟨errors, lists, listed⟩ := h
    obtain ⟨errors', lists', listed'⟩ := h'
    exact ⟨errors ++ errors', lists ++ lists', listed.trans listed'⟩
  define _ _ _ _ := ⟨[], [], State.lists_of_eq rfl rfl rfl⟩
  setField _ _ _ _ := ⟨[], [], State.lists_of_eq rfl rfl rfl⟩
  enclose _ _ := ⟨[], [], State.lists_of_eq rfl rfl rfl⟩
  addObject _ _ := ⟨[], [], State.lists_of_eq rfl rfl rfl⟩
  print _ _ := ⟨[], [], State.lists_of_eq rfl rfl rfl⟩
  nested h := by
    obtain ⟨errors, lists, listed⟩ := h
    exact ⟨errors, lists, listed.nested⟩
  report _ a error := ⟨[error], [], a.lists_report error⟩
  tested label _ _ _ _ h none := by
    obtain ⟨errors, lists, listed⟩ := h
    obtain rfl := none lenient
    exact ⟨errors, lists ++ [errors], listed.tested label⟩

/-- The outcomes of a run from nothing list, in order, what its journal says the tests
    should list. -/
theorem listed_in_order {settings : Settings} (lenient : settings.policy = .proceed) {fuel : Nat}
    {program : Program}
    {root : ScopeId} {heap : Heap} {result : Except EvalError Value} {behind : State}
    (ends : evalProgram settings fuel program root { State.fresh with heap } = some (result, behind)) :
    behind.outcomes.toList.map (·.errors) = behind.journal.testErrors.map (·.map (·.message)) := by
  obtain ⟨-, errors, lists, -, ⟨events, eq, listed⟩, outcomes⟩ := (Eval.keeps_lists lenient).program lenient ends
  have started : behind.journal.toList = events := eq
  have lists_eq : behind.journal.testErrors = lists := by
    have := listed [] []
    simpa [Journal.testErrors, started, Event.testErrors] using this
  rw [lists_eq]
  exact outcomes

/-! ## Where there is no test to run -/

abbrev Recast.renamed : Recast := ⟨id, (· ++ "!"), true⟩

/-- There is no test in the heap: other labels make no difference to it. -/
def State.Testless (state : State) : Prop := state.heap.recast .renamed = state.heap

theorem TestOutcome.relabel_ne (outcome : TestOutcome) :
    outcome.relabel Recast.renamed.label ≠ outcome := by
  intro same
  have length := congrArg (fun outcome => outcome.label.length) same
  simp [relabel] at length

/-- A run that goes like itself, with other labels on its tests, ends no test if there
    is none in the heap, and puts none there. -/
theorem Run.Twin.untested {p : Run Value} (twin : Run.Twin .renamed .value p p)
    {state behind : State}
    (free : state.Testless) (ends : (p state).state? = some behind) :
    behind.Testless ∧ behind.outcomes = state.outcomes := by
  have none (logs : state.Logs .renamed id behind state behind) : behind.outcomes = state.outcomes := by
    obtain ⟨more, more', grown, grown', same⟩ := logs.ended
    obtain rfl := List.append_cancel_left (grown.symm.trans grown')
    cases more with
    | nil => exact Array.toList_inj.1 (by rw [grown, List.append_nil])
    | cons outcome more => exact absurd (List.cons.inj same).1.symm outcome.relabel_ne
  have self := twin state state ⟨free.symm, rfl, rfl⟩
  generalize p state = flow at ends self
  cases self with
  | value _ pair logs => cases ends; exact ⟨pair.heap.symm, none logs⟩
  | returned _ pair logs => cases ends; exact ⟨pair.heap.symm, none logs⟩
  | failed _ pair logs => cases ends; exact ⟨pair.heap.symm, none logs⟩
  | outOfFuel => cases ends

/-- A statement without tests in it goes like itself, whatever tests are called. -/
theorem Eval.statement_renamed (settings : Settings) (fuel : Nat) (scope : ScopeId)
    {statement : Stmt}
    (plain : statement.throughout Stmt.noTest) :
    Run.Twin .renamed .value (Eval.statement settings fuel scope statement) (Eval.statement settings fuel scope statement) := by
  have all (node : Node) : Likeness.anywhere node := trivial
  have run := ((Eval.lockstep .renamed settings fun _ => rfl).evaluation fuel).statement scope (all (.scope scope)) statement
    all
  rwa [Stmt.recast_eq statement (.inr plain), Stmt.retoken_id] at run

theorem Eval.block_renamed (settings : Settings) (fuel : Nat) (scope : ScopeId) {body : Block}
    (plain : body.throughout Stmt.noTest) :
    Run.Twin .renamed .value (Eval.block settings fuel scope .null body.statements)
      (Eval.block settings fuel scope .null body.statements) := by
  have all (node : Node) : Likeness.anywhere node := trivial
  have run := ((Eval.lockstep .renamed settings fun _ => rfl).evaluation fuel).block scope (all (.scope scope))
    Parallel.like_null body.statements all
  rwa [← Block.recast_statements, Block.recast_eq body (.inr plain), Block.retoken_id] at run

/-! ## One statement after the other -/

namespace Run

/-- To report an error changes neither the heap nor the outcomes. -/
theorem handled_ends {settings : Settings} {line : Nat} {p : Run Value} {state behind : State}
    (ends : (handled settings line p state).state? = some behind) :
    ∃ last, (p state).state? = some last ∧ behind.heap = last.heap ∧ behind.outcomes = last.outcomes := by
  unfold handled at ends
  cases flow : p state with
  | failed error last =>
    refine ⟨last, rfl, ?_⟩
    cases policy : settings.policy <;> rw [flow, policy] at ends <;> cases ends <;> exact ⟨rfl, rfl⟩
  | value => rw [flow] at ends; cases ends; exact ⟨behind, rfl, rfl, rfl⟩
  | returned => rw [flow] at ends; cases ends; exact ⟨behind, rfl, rfl, rfl⟩
  | outOfFuel => rw [flow] at ends; cases ends

/-- However the body of a test ends, the test adds its outcome. -/
theorem tested_ends {label : String} {p : Run Value} {state behind : State}
    (ends : (tested label p state).state? = some behind) :
    ∃ last errors, (p (state.note .testBegins)).state? = some last ∧ behind.heap = last.heap ∧
      behind.outcomes = last.outcomes.push ⟨label, errors.isEmpty, errors⟩ := by
  unfold tested at ends
  dsimp only at ends
  cases flow : p (state.note .testBegins) with
  | value _ last => rw [flow] at ends; cases ends; exact ⟨last, _, rfl, rfl, rfl⟩
  | returned _ last => rw [flow] at ends; cases ends; exact ⟨last, _, rfl, rfl, rfl⟩
  | failed _ last => rw [flow] at ends; cases ends; exact ⟨last, _, rfl, rfl, rfl⟩
  | outOfFuel => rw [flow] at ends; cases ends

end Run

def State.ended (state : State) : List String := state.outcomes.toList.map (·.label)

variable {settings : Settings} {fuel : Nat} {scope : ScopeId} {state behind : State}

/-- A test without tests in it adds its label, whatever happens in its body. -/
theorem Eval.test_ended (mode : settings.testMode = true) {token : Token} {label : String}
    {body : Block}
    (plain : body.throughout Stmt.noTest) (free : state.Testless)
    (ends : (Eval.statement settings fuel scope (.test token label body) state).state? = some behind) :
    behind.Testless ∧ behind.ended = state.ended ++ [label] := by
  cases fuel with
  | zero => cases ends
  | succ fuel =>
    simp only [Eval.statement, mode, if_true] at ends
    obtain ⟨last, errors, inside, heap, outcomes⟩ := Run.tested_ends ends
    have begun : (state.note .testBegins).Testless := free
    obtain ⟨still, same⟩ := (Eval.block_renamed settings fuel scope plain).untested begun inside
    refine ⟨by rw [State.Testless, heap]; exact still, ?_⟩
    rw [State.ended, outcomes, same, Array.toList_push, List.map_append]
    rfl

/-- A statement on top level adds its label if it is a test, and otherwise none. -/
theorem Eval.statement_ended (mode : settings.testMode = true) {statement : Stmt}
    (plain : statement.noTestInside)
    (free : state.Testless)
    (ends : (Run.handled settings statement.token.line (Eval.statement settings fuel scope statement) state).state? =
      some behind) :
    behind.Testless ∧ behind.ended = state.ended ++ statement.testLabel?.toList := by
  have other (free' : statement.throughout Stmt.noTest) : behind.Testless ∧ behind.ended = state.ended := by
    obtain ⟨still, same⟩ := ((Eval.statement_renamed settings fuel scope free').handled settings statement.token).untested
      free ends
    exact ⟨still, by rw [State.ended, same]; rfl⟩
  cases statement with
  | test token label body =>
    obtain ⟨last, inside, heap, outcomes⟩ := Run.handled_ends ends
    obtain ⟨still, added⟩ := Eval.test_ended mode plain free inside
    exact ⟨by rw [State.Testless, heap]; exact still, by rw [State.ended, outcomes]; exact added⟩
  | _ => simpa [Stmt.testLabel?] using other plain

/-- Statements on top level that come to their end add the labels of the tests among
    them, in order. -/
theorem Eval.block_ended (mode : settings.testMode = true) {statements : List Stmt}
    (plain : statements.all Stmt.noTestInside) (free : state.Testless) {first value : Value}
    (ends : Eval.block settings fuel scope first statements state = .value value behind) :
    behind.ended = state.ended ++ statements.filterMap Stmt.testLabel? := by
  induction statements generalizing fuel first state with
  | nil =>
    cases fuel with
    | zero => cases ends
    | succ fuel => cases ends; simp
  | cons head more ih =>
    cases fuel with
    | zero => cases ends
    | succ fuel =>
      rw [List.all_cons, Bool.and_eq_true] at plain
      rw [Eval.block_cons] at ends
      unfold Run.andThen at ends
      cases flow : Run.handled settings head.token.line (Eval.statement settings fuel scope head) state with
      | value result middle =>
        rw [flow] at ends
        obtain ⟨still, added⟩ := Eval.statement_ended mode plain.1 free (congrArg Flow.state? flow)
        rw [ih plain.2 still ends, added, List.append_assoc, List.filterMap_cons]
        cases head.testLabel? <;> rfl
      | _ => rw [flow] at ends; cases ends

theorem State.testless_withBuiltins : State.withBuiltins.2.Testless := by
  simp only [State.Testless, State.withBuiltins, Heap.recast_addBuiltinRoot, Heap.recast_empty]

/-- Where all tests stand on top level, and nothing but tests ends with a `return`
    there, a run that reports errors and goes on has one outcome for each test, in the
    order of the tests, with its label. It lists the messages of the errors that were
    reported while the body of the test ran, in order, and it passed if and only if
    there were none. -/
theorem tests_in_order (settings : Settings) (lenient : settings.policy = .proceed) (mode : settings.testMode = true)
    (fuel : Nat) (program : Program) (onTop : program.testsOnTop) (result : Except EvalError Value) (behind : State)
    (ends : evalProgram settings fuel program State.withBuiltins.1 State.withBuiltins.2 = some (result, behind))
    (stays : ¬ program.Returns settings fuel State.withBuiltins.1 State.withBuiltins.2) :
    behind.outcomes.toList.map (·.label) = program.testLabels ∧
      behind.outcomes.toList.map (·.errors) = behind.journal.testErrors.map (·.map (·.message)) ∧
      ∀ outcome ∈ behind.outcomes, outcome.passed = true ↔ outcome.errors = [] := by
  refine ⟨?_, listed_in_order lenient ends, fun outcome member => ?_⟩
  · rcases evalProgram_cases ends with ⟨value, -, flow | flow⟩ | ⟨error, last, flow, -⟩
    · exact Eval.block_ended mode onTop State.testless_withBuiltins flow
    · exact absurd ⟨value, behind, flow⟩ stays
    · exact absurd flow (block_proceed_ne_failed lenient _ _ _ _ _ _ _)
  · have fair := ((Eval.keeps_fair settings).program lenient ends).2 (by simp [State.withBuiltins, State.fresh]) outcome member
    rw [fair, List.isEmpty_iff]

/-- A test with two errors, an error outside of tests, a test that ends early, and a
    test with one error. -/
def mixedTests : String :=
  "fn half(x) 4 / x end test \"first\" half(0) half(0) end half(0) test \"second\" return 1 end test \"third\" half() end"

def halfCall (arguments : List Mark) : List Mark :=
  [.token .ident "half", .of .lparen] ++ arguments ++ [.of .rparen, .gap]

def testAround (label : String) (body : List Mark) : List Mark :=
  [.of .testWord, .gap, .token .str label, .gap] ++ body ++ [.of .endWord]

theorem mixedTests_scan :
    scan mixedTests =
      ⟨Mark.tokens 1 (halfMarks ++ testAround "first" (halfCall [.token .int "0"] ++ halfCall [.token .int "0"]) ++ [.gap] ++
        halfCall [.token .int "0"] ++ testAround "second" [.of .returnWord, .gap, .token .int "1", .gap] ++ [.gap] ++
        testAround "third" (halfCall [])), .eof 1⟩ :=
  scan_written (by decide) (by decide)

theorem mixedTests_onTop :
    (parseSource mixedTests).program.testsOnTop ∧ (parseSource mixedTests).program.testLabels = ["first", "second", "third"] := by
  rw [parseSource, mixedTests_scan]
  decide +kernel

theorem mixedTests_stays :
    ¬ (parseSource mixedTests).program.Returns .testing 20 State.withBuiltins.1 State.withBuiltins.2 := by
  rw [parseSource, mixedTests_scan]
  decide +kernel

theorem mixedTests_run :
    (evalProgram .testing 20 (parseSource mixedTests).program State.withBuiltins.1 State.withBuiltins.2).map
      (fun ended => ended.2.journal.testErrors.map (·.map (·.message))) =
    some [["Division by zero", "Division by zero"], [], ["Expected 1 arguments, got 0"]] := by
  rw [parseSource, mixedTests_scan]
  decide +kernel

/-- Neither the errors nor the `return` keep any of the three from being listed, in its
    place. -/
theorem tests_in_order_mixedTests :
    ∃ result behind,
      evalProgram .testing 20 (parseSource mixedTests).program State.withBuiltins.1 State.withBuiltins.2 =
        some (result, behind) ∧
      behind.outcomes.toList.map (·.label) = ["first", "second", "third"] ∧
      behind.outcomes.toList.map (·.errors) =
        [["Division by zero", "Division by zero"], [], ["Expected 1 arguments, got 0"]] := by
  obtain ⟨⟨result, behind⟩, ends, listed⟩ := Option.map_eq_some_iff.1 mixedTests_run
  obtain ⟨labels, errors, -⟩ :=
    tests_in_order .testing rfl rfl 20 _ mixedTests_onTop.1 result behind ends mixedTests_stays
  exact ⟨result, behind, ends, labels.trans mixedTests_onTop.2, errors.trans listed⟩

end Lantern
