/-
  Lantern.Proofs.Eval.Policy — ending a run at its first error, against reporting errors
  and going on.

  Up to the first error the two policies take the same steps through the same states.
  There the lenient run reports the error and goes on, inside whatever it was doing; the
  other one hands the error on, and every statement, call and test around it only passes
  it along. So the strict run is the lenient one cut at its first error:
  - `Onward`: a run only adds to what was printed and reported, and queues one
    diagnostic for each error it reports.
  - `Cut`: what a strict run came to, beside a lenient one from the same state. `cuts`
    says that all evaluation is cut so.
  - `abort_cuts_proceed`: whole programs.
-/

import Lantern.Proofs.Eval.Path

namespace Lantern

/-! ## What a run adds -/

/-- From `state` to `behind` exactly the errors `new` were reported, a diagnostic for
    each. -/
def State.Reports (state behind : State) (new : List EvalError) : Prop :=
  behind.journal.errors = state.journal.errors ++ new ∧
    behind.diagnostics.toList = state.diagnostics.toList ++ new.map EvalError.toDiagnostic

def State.Prints (state behind : State) : Prop :=
  ∃ more, behind.console.text = state.console.text ++ more

namespace State

@[simp] theorem note_console (state : State) (event : Event) :
    (state.note event).console = state.console := rfl
@[simp] theorem note_diagnostics (state : State) (event : Event) :
    (state.note event).diagnostics = state.diagnostics := rfl

theorem note_errors {event : Event} (state : State) (h : event.error? = none) :
    (state.note event).journal.errors = state.journal.errors := by
  simp [note, Journal.errors_note, h]

theorem Reports.refl (state : State) : state.Reports state [] := ⟨by simp, by simp⟩

theorem Reports.trans {a b c : State} {new more : List EvalError} (h : a.Reports b new)
    (h' : b.Reports c more) :
    a.Reports c (new ++ more) := by
  refine ⟨?_, ?_⟩
  · rw [h'.1, h.1, List.append_assoc]
  · rw [h'.2, h.2, List.map_append, List.append_assoc]

/-- Events other than reports leave the books as they are, before a run and after it. -/
theorem Reports.note_left {a b : State} {new : List EvalError} {event : Event}
    (quiet : event.error? = none)
    (h : (a.note event).Reports b new) : a.Reports b new := by
  refine ⟨?_, h.2⟩
  rw [h.1, note_errors a quiet]

theorem Reports.note_right {a b : State} {new : List EvalError} {event : Event}
    (quiet : event.error? = none)
    (h : a.Reports b new) : a.Reports (b.note event) new := by
  refine ⟨?_, h.2⟩
  rw [note_errors b quiet, h.1]

theorem reports_report (state : State) (error : EvalError) :
    state.Reports (state.report error) [error] := by
  refine ⟨?_, ?_⟩
  · simp [report, note, Journal.errors_note, Event.error?]
  · simp [report]

theorem Prints.refl (state : State) : state.Prints state := ⟨"", by simp⟩

theorem Prints.trans {a b c : State} (h : a.Prints b) (h' : b.Prints c) : a.Prints c := by
  obtain ⟨more, h⟩ := h
  obtain ⟨rest, h'⟩ := h'
  exact ⟨more ++ rest, by rw [h', h, String.append_assoc]⟩

end State

theorem Console.println_text (console : Console) (line : String) :
    ∃ more, (console.println line).text = console.text ++ more := by
  unfold println
  split
  · exact ⟨"", by simp⟩
  · exact ⟨line ++ "\n", by rw [String.append_assoc]⟩

theorem Console.printAll_text (lines : List String) (console : Console) :
    ∃ more, (lines.foldl println console).text = console.text ++ more := by
  induction lines generalizing console with
  | nil => exact ⟨"", by simp⟩
  | cons line rest ih =>
    obtain ⟨first, h⟩ := console.println_text line
    obtain ⟨more, h'⟩ := ih (console.println line)
    exact ⟨first ++ more, by rw [List.foldl_cons, h', h, String.append_assoc]⟩

namespace Run

def Onward {α : Type} (p : Run α) : Prop :=
  p.Along fun state behind => (∃ new, state.Reports behind new) ∧ state.Prints behind

def Still {α : Type} (p : Run α) : Prop :=
  ∀ state behind, (p state).state? = some behind →
    behind.journal = state.journal ∧ behind.diagnostics = state.diagnostics ∧ behind.console = state.console

theorem still_done {α : Type} (result : α) : (done result).Still :=
  fun _ _ ends => by cases ends; exact ⟨rfl, rfl, rfl⟩

theorem still_fail {α : Type} (error : EvalError) : (fail error : Run α).Still :=
  fun _ _ ends => by cases ends; exact ⟨rfl, rfl, rfl⟩

theorem still_leave (result : Value) : (leave result : Run Value).Still :=
  fun _ _ ends => by cases ends; exact ⟨rfl, rfl, rfl⟩

theorem still_ask {α : Type} (question : Heap → α) : (ask question).Still :=
  fun _ _ ends => by cases ends; exact ⟨rfl, rfl, rfl⟩

theorem still_alter (change : Heap → Heap) : (alter change).Still :=
  fun _ _ ends => by cases ends; exact ⟨rfl, rfl, rfl⟩

theorem still_extend {α : Type} (change : Heap → α × Heap) : (extend change).Still :=
  fun _ _ ends => by cases ends; exact ⟨rfl, rfl, rfl⟩

theorem still_checkDepth (settings : Settings) : (checkDepth settings).Still :=
  along_checkDepth (fun _ => ⟨rfl, rfl, rfl⟩) settings

theorem Still.onward {α : Type} {p : Run α} (still : p.Still) : p.Onward := by
  intro state behind ends
  obtain ⟨journal, diagnostics, console⟩ := still state behind ends
  exact ⟨⟨[], by simp [journal], by simp [diagnostics]⟩, "", by simp [console]⟩

end Run

/-- To add to what was printed and reported is kept by every step, under either policy. -/
theorem Eval.keeps_onward (settings : Settings) :
    Eval.Keeps settings fun state behind => (∃ new, state.Reports behind new) ∧ state.Prints behind where
  refl a := ⟨⟨[], .refl a⟩, .refl a⟩
  trans h h' := by
    obtain ⟨⟨new, reports⟩, prints⟩ := h
    obtain ⟨⟨more, reports'⟩, prints'⟩ := h'
    exact ⟨⟨new ++ more, reports.trans reports'⟩, prints.trans prints'⟩
  define _ _ _ _ := ⟨⟨[], by simp [State.Reports]⟩, "", by simp⟩
  setField _ _ _ _ := ⟨⟨[], by simp [State.Reports]⟩, "", by simp⟩
  enclose _ _ := ⟨⟨[], by simp [State.Reports]⟩, "", by simp⟩
  addObject _ _ := ⟨⟨[], by simp [State.Reports]⟩, "", by simp⟩
  print a lines := ⟨⟨[], by simp [State.Reports]⟩, Console.printAll_text lines a.console⟩
  nested h := by
    obtain ⟨⟨new, reports⟩, prints⟩ := h
    exact ⟨⟨new, (reports.note_left rfl).note_right rfl⟩, prints⟩
  report _ a error := ⟨⟨[error], a.reports_report error⟩, "", by simp [State.report]⟩
  tested _ _ _ _ _ h _ := by
    obtain ⟨⟨new, reports⟩, prints⟩ := h
    exact ⟨⟨new, State.Reports.note_right rfl (reports.note_left rfl)⟩, prints⟩

/-- Evaluation only adds to what was printed and reported. -/
theorem Eval.onward (settings : Settings) : Eval.Congruence settings settings fun p _ => p.Onward :=
  (Eval.keeps_onward settings).congruence

namespace Run

theorem Onward.andThen {α β : Type} {p : Run α} {f : α → Run β} (hp : p.Onward)
    (hf : ∀ result, (f result).Onward) :
    (p.andThen f).Onward :=
  (Eval.onward default).andThen (q := p) (g := f) hp hf

theorem Onward.untilReturn {p : Run Value} (hp : p.Onward) : (Run.untilReturn p).Onward :=
  (Eval.onward default).untilReturn (q := p) hp

theorem Onward.nested {p : Run Value} (hp : p.Onward) : (Run.nested p).Onward :=
  (Eval.onward default).nested (q := p) hp

theorem Onward.handled {p : Run Value} (hp : p.Onward) (settings : Settings) (line : Nat) :
    (Run.handled settings line p).Onward :=
  (Eval.onward settings).handled (q := p) line hp

/-- Whatever a test takes from the books, it leaves them as its body does. -/
theorem Onward.tested {p : Run Value} (hp : p.Onward) (label : String) :
    (Run.tested label p).Onward :=
  Along.tested (fun inside _ => ⟨inside.1.imp fun _ reports => .note_right rfl (reports.note_left rfl), inside.2⟩) hp

end Run

/-! ## The first error -/

/-- What a run that ends at its first error came to, beside a lenient one, both started
    from `state`. -/
inductive Cut (state : State) {α : Type} : Flow α → Flow α → Prop
  /-- The lenient run did not end. -/
  | unended (flow : Flow α) : Cut state .outOfFuel flow
  /-- No error was reported, and both came to the same. -/
  | same {flow : Flow α} {behind : State} : flow.state? = some behind → state.Reports behind [] → Cut state flow flow
  /-- The lenient run reported `error` and went on; the other is on its way out with it. -/
  | later {flow : Flow α} {behind cut : State} {error : EvalError} {more : List EvalError} :
      flow.state? = some behind → error.line.isSome → state.Reports behind (error :: more) → state.Reports cut [] →
      cut.Prints behind → Cut state flow (.failed error cut)

def Run.Cuts {α : Type} (p q : Run α) : Prop := p.Onward ∧ ∀ state, Cut state (p state) (q state)

theorem Flow.state?_or {α : Type} (flow : Flow α) :
    flow = .outOfFuel ∨ ∃ behind, flow.state? = some behind := by
  cases flow with
  | outOfFuel => exact Or.inl rfl
  | _ => exact Or.inr ⟨_, rfl⟩

/-- Nothing was reported from `state` to `middle`, so it does not matter which of them
    counts as the start. -/
theorem Cut.rebase {α : Type} {state middle : State} {left right : Flow α}
    (quiet : state.Reports middle [])
    (h : Cut middle left right) : Cut state left right := by
  cases h with
  | unended => exact .unended _
  | same ends reports => exact .same ends (quiet.trans reports)
  | later ends placed reports cutQuiet prints => exact .later ends placed (quiet.trans reports) (quiet.trans cutQuiet) prints

/-- After the first error the lenient run goes on by itself. -/
theorem Cut.goesOn {α : Type} {state middle cut : State} {error : EvalError} {more : List EvalError}
    {p : Run α}
    (hp : p.Onward) (placed : error.line.isSome) (reports : state.Reports middle (error :: more))
    (quiet : state.Reports cut []) (prints : cut.Prints middle) :
    Cut state (p middle) (.failed error cut) := by
  rcases (p middle).state?_or with unended | ⟨behind, ends⟩
  · rw [unended]; exact .unended _
  · obtain ⟨⟨new, reports'⟩, prints'⟩ := hp middle behind ends
    exact .later ends placed (reports.trans reports') quiet (prints.trans prints')

namespace Run

/-- A step that reports nothing is the same under both policies. -/
theorem cuts_self {α : Type} {p : Run α} (hp : p.Onward)
    (silent : ∀ state behind, (p state).state? = some behind → state.Reports behind []) :
    p.Cuts p := by
  refine ⟨hp, fun state => ?_⟩
  rcases (p state).state?_or with unended | ⟨behind, ends⟩
  · rw [unended]; exact .unended _
  · exact .same ends (silent state behind ends)

theorem Still.cuts {α : Type} {p : Run α} (still : p.Still) : p.Cuts p := by
  refine cuts_self still.onward fun state behind ends => ?_
  obtain ⟨journal, diagnostics, -⟩ := still state behind ends
  exact ⟨by simp [journal], by simp [diagnostics]⟩

theorem Cuts.andThen {α β : Type} {p q : Run α} {f g : α → Run β} (hp : p.Cuts q)
    (hf : ∀ result, (f result).Cuts (g result)) : (p.andThen f).Cuts (q.andThen g) := by
  refine ⟨hp.1.andThen fun result => (hf result).1, fun state => ?_⟩
  have cut := hp.2 state
  unfold Run.andThen
  generalize p state = left at cut
  generalize q state = right at cut
  cases cut with
  | unended => exact .unended _
  | same ends reports =>
    cases left with
    | value result middle => cases ends; exact ((hf result).2 _).rebase reports
    | returned result middle => exact .same ends reports
    | failed error middle => exact .same ends reports
    | outOfFuel => cases ends
  | later ends placed reports quiet prints =>
    cases left with
    | value result middle => cases ends; exact Cut.goesOn (hf result).1 placed reports quiet prints
    | returned result middle => exact .later ends placed reports quiet prints
    | failed error middle => exact .later ends placed reports quiet prints
    | outOfFuel => cases ends

theorem Cuts.untilReturn {p q : Run Value} (hp : p.Cuts q) :
    (Run.untilReturn p).Cuts (Run.untilReturn q) := by
  refine ⟨hp.1.untilReturn, fun state => ?_⟩
  have cut := hp.2 state
  unfold Run.untilReturn
  generalize p state = left at cut
  generalize q state = right at cut
  cases cut with
  | unended => exact .unended _
  | same ends reports => cases left <;> exact .same ends reports
  | later ends placed reports quiet prints =>
    cases left <;> exact .later ends placed reports quiet prints

theorem Cuts.nested {p q : Run Value} (hp : p.Cuts q) : (Run.nested p).Cuts (Run.nested q) := by
  refine ⟨hp.1.nested, fun state => ?_⟩
  have cut := hp.2 (beginCall state)
  have through {behind : State} {new : List EvalError} (h : (beginCall state).Reports behind new) :
      state.Reports (endCall behind) new := (h.note_left rfl).note_right rfl
  unfold Run.nested
  generalize p (beginCall state) = left at cut
  generalize q (beginCall state) = right at cut
  cases cut with
  | unended => exact .unended _
  | same ends reports => cases left <;> cases ends <;> exact .same rfl (through reports)
  | later ends placed reports quiet prints =>
    cases left <;> cases ends <;> exact .later rfl placed (through reports) (through quiet) prints

theorem Cuts.tested {p q : Run Value} (hp : p.Cuts q) (label : String) :
    (Run.tested label p).Cuts (Run.tested label q) := by
  refine ⟨hp.1.tested label, fun state => ?_⟩
  have cut := hp.2 (state.note .testBegins)
  have through {behind : State} {new : List EvalError} (last : List String) (h : (state.note .testBegins).Reports behind new) :
      state.Reports (conclude label state.diagnostics.length last behind) new :=
    State.Reports.note_right rfl (h.note_left rfl)
  unfold Run.tested
  dsimp only
  generalize p (state.note .testBegins) = left at cut
  generalize q (state.note .testBegins) = right at cut
  cases cut with
  | unended => exact .unended _
  | same ends reports => cases left <;> cases ends <;> exact .same rfl (through _ reports)
  | later ends placed reports quiet prints =>
    cases left <;> cases ends <;> exact .later rfl placed (through _ reports) (through _ quiet) prints

/-- Here the two part: the one reports the error the other hands on. -/
theorem Cuts.handled {s t : Settings} (lenient : s.policy = .proceed) (strict : t.policy = .abort)
    {p q : Run Value}
    (hp : p.Cuts q) (line : Nat) : (Run.handled s line p).Cuts (Run.handled t line q) := by
  refine ⟨hp.1.handled s line, fun state => ?_⟩
  have cut := hp.2 state
  unfold Run.handled
  rw [lenient, strict]
  generalize p state = left at cut
  generalize q state = right at cut
  cases cut with
  | unended => exact .unended _
  | same ends reports =>
    cases left with
    | failed error middle =>
      cases ends
      exact .later rfl rfl (reports.trans (State.reports_report _ _)) reports (State.Prints.refl _)
    | outOfFuel => cases ends
    | _ => exact .same ends reports
  | @later _ _ _ error _ ends placed reports quiet prints =>
    -- the error has its line already, and keeps it
    have kept : error.onLine line = error := by
      obtain ⟨found, h⟩ := Option.isSome_iff_exists.1 placed
      cases error
      simp_all [EvalError.onLine]
    dsimp only
    rw [kept]
    cases left with
    | failed last middle =>
      cases ends
      exact .later rfl placed (reports.trans (State.reports_report _ _)) quiet prints
    | outOfFuel => cases ends
    | _ => exact .later ends placed reports quiet prints

end Run

/-- Evaluation under `abort` is evaluation under `proceed` cut at its first error. -/
theorem Eval.cuts {s t : Settings} (lenient : s.policy = .proceed) (strict : t.policy = .abort)
    (testMode : s.testMode = t.testMode) (limit : s.maxCallDepth = t.maxCallDepth) :
    Eval.Congruence s t fun p q => p.Cuts q where
  testMode := testMode
  stop := ⟨(Eval.onward s).stop, fun _ => .unended _⟩
  done result := (Run.still_done result).cuts
  andThen hp hf := hp.andThen hf
  fail error := (Run.still_fail error).cuts
  leave result := (Run.still_leave result).cuts
  ask question := (Run.still_ask question).cuts
  assign _ _ _ := (Run.still_alter _).cuts
  define _ _ _ := (Run.still_alter _).cuts
  setField _ _ _ := (Run.still_alter _).cuts
  enclose _ := (Run.still_extend _).cuts
  defineAll _ _ := (Run.still_alter _).cuts
  addObject _ := (Run.still_extend _).cuts
  callBuiltin primitive arguments := by
    refine Run.cuts_self ((Eval.onward s).callBuiltin primitive arguments) fun state behind ends => ?_
    unfold Run.callBuiltin Builtin.call Run.lift at ends
    dsimp only at ends
    split at ends <;> cases ends <;> exact ⟨by simp, by simp⟩
  checkDepth := by
    have same : Run.checkDepth s = Run.checkDepth t := by unfold Run.checkDepth; rw [limit]
    rw [same]
    exact (Run.still_checkDepth t).cuts
  untilReturn hp := hp.untilReturn
  nested hp := hp.nested
  handled line _ _ hp := hp.handled lenient strict line
  tested label _ _ _ _ _ hp := hp.tested label

/-! ## Whole programs -/

/-- A program run under `abort` is the run under `proceed` cut at its first error. The
    lenient run, once it ends, always has a value. If it reported nothing, the strict
    run comes to the same value in the same state. Otherwise the strict run comes to the
    first error reported, kind, message and line; that is the one error it reports, and
    what it printed the lenient run printed first. -/
theorem abort_cuts_proceed (testMode : Bool) (limit : Option Nat) (fuel : Nat) (program : Program) (scope : ScopeId)
    (state behind : State) (result : Except EvalError Value)
    (ends : evalProgram ⟨.proceed, testMode, limit⟩ fuel program scope state = some (result, behind)) :
    (∃ value, result = .ok value) ∧
    ∃ reported : List EvalError,
      behind.journal.errors = state.journal.errors ++ reported ∧
      behind.diagnostics.toList = state.diagnostics.toList ++ reported.map EvalError.toDiagnostic ∧
      match reported with
      | [] => evalProgram ⟨.abort, testMode, limit⟩ fuel program scope state = some (result, behind)
      | first :: _ =>
        ∃ cut : State,
          evalProgram ⟨.abort, testMode, limit⟩ fuel program scope state = some (.error first, cut) ∧
          cut.journal.errors = state.journal.errors ++ [first] ∧
          cut.diagnostics.toList = state.diagnostics.toList ++ [first.toDiagnostic] ∧
          ∃ more, behind.console.text = cut.console.text ++ more := by
  have cut := (((Eval.cuts (s := ⟨.proceed, testMode, limit⟩) (t := ⟨.abort, testMode, limit⟩) rfl rfl rfl rfl).evaluation
    fuel).block scope .null program.statements).2 state
  have fine := @Eval.block_proceed_ne_failed ⟨.proceed, testMode, limit⟩ rfl fuel scope .null program.statements state
  unfold evalProgram at ends ⊢
  generalize Eval.block ⟨.proceed, testMode, limit⟩ fuel scope .null program.statements state = lenient at *
  generalize Eval.block ⟨.abort, testMode, limit⟩ fuel scope .null program.statements state = strict at *
  have value : (∃ value, result = .ok value) ∧ lenient.state? = some behind := by
    cases lenient with
    | failed error last => exact absurd rfl (fine error last)
    | outOfFuel => cases ends
    | _ => cases ends; exact ⟨⟨_, rfl⟩, rfl⟩
  refine ⟨value.1, ?_⟩
  cases cut with
  | unended => cases ends
  | same ends' reports =>
    obtain rfl := Option.some.inj (ends'.symm.trans value.2)
    exact ⟨[], reports.1, reports.2, ends⟩
  | @later _ _ strictly error more ends' placed reports quiet prints =>
    obtain rfl := Option.some.inj (ends'.symm.trans value.2)
    obtain ⟨errors, diagnostics⟩ := quiet.trans (strictly.reports_report error)
    exact ⟨error :: more, reports.1, reports.2, strictly.report error, rfl, errors, diagnostics, prints⟩

/-- `1 / 0`, `2` and `1 % 0`, each on a line of its own. -/
def dividingTwice : Program :=
  let dividing (line : Nat) (op : InfixOp) : Stmt :=
    .expression (.eof line) (.binary (.eof line) (.integer (.eof line) 1) op (.integer (.eof line) 0))
  ⟨[dividing 1 .div, .expression (.eof 2) (.integer (.eof 2) 2), dividing 3 .mod]⟩

/-- The lenient run reports both errors; the strict one ends at the division on line 1. -/
theorem abort_cuts_dividingTwice :
    ∃ behind cut : State,
      evalProgram ⟨.proceed, false, none⟩ 9 dividingTwice 0 .fresh = some (.ok .null, behind) ∧
      behind.journal.errors = [EvalError.divisionByZero.onLine 1, EvalError.modulusByZero.onLine 3] ∧
      evalProgram ⟨.abort, false, none⟩ 9 dividingTwice 0 .fresh =
        some (.error (EvalError.divisionByZero.onLine 1), cut) ∧
      cut.journal.errors = [EvalError.divisionByZero.onLine 1] := by
  obtain ⟨-, reported, errors, -, strict⟩ := abort_cuts_proceed false none 9 dividingTwice 0 .fresh _ _ rfl
  obtain rfl : reported = [EvalError.divisionByZero.onLine 1, EvalError.modulusByZero.onLine 3] := errors.symm.trans rfl
  obtain ⟨cut, ends, reports, -⟩ := strict
  exact ⟨_, cut, rfl, rfl, ends, reports⟩

end Lantern
