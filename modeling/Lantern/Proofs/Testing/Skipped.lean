/-
  Lantern.Proofs.Testing.Skipped — outside of test mode tests do not show.

  A test that does not run is passed over, but it stays in the bodies of functions and
  methods and so gets into the heap with them. Two programs that only differ in what
  their tests are called and do have one hollow program in common (`Program.hollow`),
  and outside of test mode each runs in lockstep with that; so they run in lockstep with
  each other, on heaps that differ wherever functions are kept. Tokens are the same,
  hence errors have the same lines.

  Main statement:

  - `tests_unseen`: programs that only differ in labels and bodies of tests come to the
    same outside of test mode, and no test ends.
-/

import Lantern.Proofs.Eval.Lockstep
import Lantern.Proofs.Eval.Path
import Lantern.Eval.Execute

namespace Lantern

open Eval

/-- What a run came to, as far as it shows, with the lines of errors. -/
structure Observed where
  /-- Kind and text of the value, or the error. -/
  result : Except EvalError (String × String)
  printed : String
  reported : List EvalError
  queued : List Diagnostic
  /-- The names bound in each scope, with kind and text of what they are bound to. -/
  bindings : ScopeId → List (String × String × String)

def observed (ended : Except EvalError Value × State) : Observed where
  result := ended.1.map fun value => (value.typeName, value.inspect)
  printed := ended.2.console.text
  reported := ended.2.journal.errors
  queued := ended.2.diagnostics.toList
  bindings id := (ended.2.heap.bindings id).seen

/-! ## The same with lines -/

/-- Lists that grew alike in two respects, which leave nothing else to differ in, are
    the same. -/
theorem Grew.eq {α β γ : Type} {key : α → β} {place : α → γ} {start after after' : List α}
    (only : ∀ a b, key a = key b → place a = place b → a = b)
    (keys : Grew key key start after start after')
    (places : Grew place place start after start after') : after = after' := by
  have both : after.map (fun a => (key a, place a)) = after'.map fun a => (key a, place a) := by
    rw [← List.zip_map', ← List.zip_map', keys.map_eq, places.map_eq]
  exact (List.map_inj_right fun a b same => only a b (Prod.mk.inj same).1 (Prod.mk.inj same).2).1 both

theorem EvalError.eq_of_said {error error' : EvalError} (said : error.said = error'.said)
    (line : error.line = error'.line) :
    error = error' := by
  cases error
  cases error'
  simp_all [EvalError.said]

theorem Diagnostic.eq_of_said {diagnostic diagnostic' : Diagnostic}
    (said : diagnostic.said = diagnostic'.said)
    (line : diagnostic.line = diagnostic'.line) : diagnostic = diagnostic' := by
  cases diagnostic
  cases diagnostic'
  simp_all [Diagnostic.said]

theorem observed_eq {g : Recast} (keeps : g.KeepsLines) {state behind behind' : State}
    {result result' : Except EvalError Value}
    (results : (observed (result, behind)).result = (observed (result', behind')).result)
    (pair : behind.Matches g behind') (logs : state.Logs g g.label behind state behind') :
    observed (result, behind) = observed (result', behind') := by
  have printed : behind.console.text = behind'.console.text := by rw [pair.console]
  have reported := logs.reported.eq (fun _ _ => EvalError.eq_of_said) (logs.reportedOn keeps)
  have queued := logs.queued.eq (fun _ _ => Diagnostic.eq_of_said) (logs.queuedOn keeps)
  have bindings := funext pair.bindings
  unfold observed at results ⊢
  simp only [Observed.mk.injEq]
  exact ⟨results, printed, reported, queued, bindings⟩

/-- Programs that a recast does not keep apart, but whose lines it keeps, come to the
    same, if tests that run keep their bodies. -/
theorem observed_recast (g : Recast) (keeps : g.KeepsLines) (settings : Settings)
    (bodies : settings.testMode = true → g.bodies = true) (fuel : Nat) {program other : Program}
    (same : Stmt.recastAll g program.statements = Stmt.recastAll g other.statements)
    (scope : ScopeId) (state : State) :
    (evalProgram settings fuel program scope state).map observed =
    (evalProgram settings fuel other scope state).map observed := by
  have flows := Eval.block_matches g settings bodies fuel scope (rfl : Value.null.Matches g .null) same
    (⟨rfl, rfl, rfl⟩ : state.Matches g state)
  unfold evalProgram
  generalize Eval.block settings fuel scope .null program.statements state = flow at flows ⊢
  generalize Eval.block settings fuel scope .null other.statements state = flow' at flows ⊢
  cases flows with
  | value alike pair logs =>
    refine congrArg some (observed_eq keeps ?_ pair logs)
    simp [observed, Except.map, alike.seen]
  | returned alike pair logs =>
    refine congrArg some (observed_eq keeps ?_ pair logs)
    simp [observed, Except.map, alike.seen]
  | failed matched pair logs =>
    have sameError := EvalError.eq_of_said matched.1.symm (matched.2 keeps).symm
    refine congrArg some (observed_eq keeps ?_ ⟨pair.heap, pair.console, pair.callDepth⟩ (logs.trans (.report matched ..)))
    simp [observed, Except.map, sameError]
  | outOfFuel => rfl

/-! ## No test -/

/-- Outside of test mode no test ends. -/
theorem Eval.keeps_outcomes {settings : Settings} (outside : settings.testMode = false) :
    Eval.Keeps settings fun state behind => behind.outcomes = state.outcomes where
  refl _ := rfl
  trans h h' := h'.trans h
  define _ _ _ _ := rfl
  setField _ _ _ _ := rfl
  enclose _ _ := rfl
  addObject _ _ := rfl
  print _ _ := rfl
  nested h := h
  report _ _ _ := rfl
  tested _ _ _ _ mode _ _ := by rw [outside] at mode; cases mode

/-- Two programs that only differ in labels and bodies of tests, at any depth, run from
    the same state outside of test mode, either both use up their fuel or both end, and
    then they came to the same, lines of errors included; and no test has ended. -/
theorem tests_unseen (settings : Settings) (outside : settings.testMode = false) (fuel : Nat) (program other : Program)
    (same : program.hollow = other.hollow) (scope : ScopeId) (state : State) :
    (evalProgram settings fuel program scope state).map observed = (evalProgram settings fuel other scope state).map observed ∧
    ∀ result behind, evalProgram settings fuel program scope state = some (result, behind) →
      behind.outcomes = state.outcomes := by
  constructor
  · have bodies : settings.testMode = true → Recast.hollow.bodies = true := fun mode => by rw [outside] at mode; cases mode
    exact observed_recast .hollow (fun _ => rfl) settings bodies fuel (congrArg Program.statements same) scope state
  · intro result behind ends
    obtain ⟨last, ended, stopped⟩ := evalProgram_state? ends
    have kept : last.outcomes = state.outcomes :=
      ((Eval.keeps_outcomes outside).congruence.evaluation fuel).block scope .null program.statements state last ended
    rcases stopped with rfl | ⟨error, rfl⟩ <;> exact kept

/-- `fn f() test "..." ... end 1 / 0 end` and then `f()`, on lines of their own, with a
    test of any label and body. -/
def testInside (label : String) (body : List Stmt) : Program :=
  let name : Identifier := ⟨.eof 1, "f"⟩
  let dividing : Expr := .binary (.eof 3) (.integer (.eof 3) 1) .div (.integer (.eof 3) 0)
  ⟨[.function ⟨.eof 1, name, ⟨[], ⟨.eof 2, [.test (.eof 2) label ⟨.eof 2, body⟩, .expression (.eof 3) dividing]⟩⟩⟩,
    .expression (.eof 4) (.call (.eof 4) (.identifier name) [])]⟩

theorem testInside_fails :
    (evalProgram ⟨.abort, false, none⟩ 12 (testInside "one" []) State.withBuiltins.1 State.withBuiltins.2).map
      (fun ended => ended.2.journal.errors) = some [EvalError.divisionByZero.onLine 3] := by
  decide +kernel

/-- The test of the one does nothing and that of the other returns; both functions fail
    on the third line. -/
theorem tests_unseen_inside :
    let start := State.withBuiltins
    let one := testInside "one" []
    let two := testInside "two" [.returning (.eof 2) (.integer (.eof 2) 7)]
    (evalProgram ⟨.abort, false, none⟩ 12 one start.1 start.2).map observed =
      (evalProgram ⟨.abort, false, none⟩ 12 two start.1 start.2).map observed ∧
    ∃ result behind, evalProgram ⟨.abort, false, none⟩ 12 one start.1 start.2 = some (result, behind) ∧
      behind.journal.errors = [EvalError.divisionByZero.onLine 3] ∧ behind.outcomes = #[] := by
  intro start one two
  obtain ⟨unseen, noTest⟩ := tests_unseen ⟨.abort, false, none⟩ rfl 12 one two rfl start.1 start.2
  obtain ⟨⟨result, behind⟩, ends, errors⟩ := Option.map_eq_some_iff.1 testInside_fails
  exact ⟨unseen, result, behind, ends, errors, noTest _ _ ends⟩

end Lantern
