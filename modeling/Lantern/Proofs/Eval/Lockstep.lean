/-
  Lantern.Proofs.Eval.Lockstep — a run does not read tokens, nor labels of tests.

  Nodes keep a copy of the token they start with, for error lines. Functions keep their
  bodies, so after a while the heap is full of such copies too, and of tests, and they
  are called, compared and printed long after their program is gone. The proof runs a
  program and a recast of it side by side, on heaps of which the second is recast in the
  same way (`Heap.recast`): step by step they come to the same but for the recast,
  report the same errors but for their lines, and tests end alike but for their labels.
  Where tests do not run, the recast may even drop their bodies.
  - `Flow.Alike`: two flows of one kind, their values and states as asked for, and what
    was reported meanwhile the same.
  - `Eval.lockstep`: a run and its twin.
  - `Eval.block_matches`: two runs with one twin; `Eval.block_resembles`: of blocks with
    the same bare statements.
  - `tokens_unseen`: whole programs that differ in tokens.
-/

import Lantern.Proofs.Eval.Steps
import Lantern.Proofs.Value.Twin

namespace Lantern

open Likeness Eval

/-! ## What was reported -/

def EvalError.said (error : EvalError) : EvalErrorKind × String := (error.kind, error.message)

def Diagnostic.said (diagnostic : Diagnostic) : Code × String :=
  (diagnostic.code, diagnostic.message)

def TestOutcome.relabel (label : String → String) (outcome : TestOutcome) : TestOutcome :=
  { outcome with label := label outcome.label }

@[simp] theorem TestOutcome.relabel_id : TestOutcome.relabel id = id := rfl

/-- Two lists grew, by entries that have the same keys, each list with its own. -/
def Grew {α β : Type} (key key' : α → β) (before after before' after' : List α) : Prop :=
  ∃ more more', after = before ++ more ∧ after' = before' ++ more' ∧ more'.map key' = more.map key

section

variable {α β : Type} {key key' : α → β} {before middle after before' middle' after' : List α}

theorem Grew.refl (before before' : List α) : Grew key key' before before before' before' :=
  ⟨[], [], by simp, by simp, rfl⟩

theorem Grew.trans (h : Grew key key' before middle before' middle')
    (h' : Grew key key' middle after middle' after') :
    Grew key key' before after before' after' := by
  obtain ⟨first, first', rfl, rfl, same⟩ := h
  obtain ⟨more, more', rfl, rfl, same'⟩ := h'
  exact ⟨first ++ more, first' ++ more', List.append_assoc .., List.append_assoc .., by simp [same, same']⟩

theorem Grew.snoc {a b : α} (same : key' b = key a) (before before' : List α) :
    Grew key key' before (before ++ [a]) before' (before' ++ [b]) :=
  ⟨[a], [b], rfl, rfl, by simp [same]⟩

/-- Two lists that grew like a third one grew like each other. -/
theorem Grew.common {start end' : List α} (h : Grew key key' before after start end')
    (h' : Grew key key' before' after' start end') : Grew key key before after before' after' := by
  obtain ⟨more, common, rfl, grown, same⟩ := h
  obtain ⟨more', common', rfl, grown', same'⟩ := h'
  obtain rfl := List.append_cancel_left (grown.symm.trans grown')
  exact ⟨more, more', rfl, rfl, same'.symm.trans same⟩

end

abbrev EvalError.Matches (g : Recast) (error error' : EvalError) : Prop :=
  error'.said = error.said ∧ (g.KeepsLines → error'.line = error.line)

theorem EvalError.Matches.refl (g : Recast) (error : EvalError) : error.Matches g error :=
  ⟨rfl, fun _ => rfl⟩

/-- From `state` to `behind` the same was reported, and the same tests ended, as from
    `state'` to `behind'`; lines may differ where the recast does not keep them. Labels
    are compared as the recast changes those on the left, and `label'` those on the
    right. -/
structure State.Logs (g : Recast) (label' : String → String) (state behind state' behind' : State) : Prop where
  reported : Grew EvalError.said EvalError.said state.journal.errors behind.journal.errors state'.journal.errors
    behind'.journal.errors
  queued : Grew Diagnostic.said Diagnostic.said state.diagnostics.toList behind.diagnostics.toList state'.diagnostics.toList
    behind'.diagnostics.toList
  ended : Grew (TestOutcome.relabel g.label) (TestOutcome.relabel label') state.outcomes.toList behind.outcomes.toList
    state'.outcomes.toList behind'.outcomes.toList
  reportedOn : g.KeepsLines → Grew EvalError.line EvalError.line state.journal.errors behind.journal.errors
    state'.journal.errors behind'.journal.errors
  queuedOn : g.KeepsLines → Grew Diagnostic.line Diagnostic.line state.diagnostics.toList behind.diagnostics.toList
    state'.diagnostics.toList behind'.diagnostics.toList

namespace State.Logs

variable {g : Recast} {label' : String → String} {a b c a' b' c' : State}

theorem refl (a a' : State) : State.Logs g label' a a a' a' :=
  ⟨.refl .., .refl .., .refl .., fun _ => .refl .., fun _ => .refl ..⟩

theorem trans (h : State.Logs g label' a b a' b') (h' : State.Logs g label' b c b' c') :
    State.Logs g label' a c a' c' :=
  ⟨h.reported.trans h'.reported, h.queued.trans h'.queued, h.ended.trans h'.ended,
    fun keeps => (h.reportedOn keeps).trans (h'.reportedOn keeps), fun keeps => (h.queuedOn keeps).trans (h'.queuedOn keeps)⟩

/-- A step that leaves the books alone, whatever it does to the rest. -/
theorem still (journal : b.journal.errors = a.journal.errors)
    (diagnostics : b.diagnostics = a.diagnostics)
    (outcomes : b.outcomes = a.outcomes) (journal' : b'.journal.errors = a'.journal.errors)
    (diagnostics' : b'.diagnostics = a'.diagnostics) (outcomes' : b'.outcomes = a'.outcomes) :
    State.Logs g label' a b a' b' := by
  constructor
  · rw [journal, journal']; exact .refl ..
  · rw [diagnostics, diagnostics']; exact .refl ..
  · rw [outcomes, outcomes']; exact .refl ..
  · rw [journal, journal']; exact fun _ => .refl ..
  · rw [diagnostics, diagnostics']; exact fun _ => .refl ..

theorem report {error error' : EvalError} (same : error.Matches g error') (a a' : State) :
    State.Logs g label' a (a.report error) a' (a'.report error') := by
  obtain ⟨said, line⟩ := same
  have code : error'.toDiagnostic.said = error.toDiagnostic.said := by
    simp only [EvalError.said, Prod.mk.injEq] at said
    simp [EvalError.toDiagnostic, Diagnostic.said, EvalError.code, said]
  constructor
  · simp only [State.report, State.note, Journal.errors_note]
    exact .snoc said ..
  · simp only [State.report, State.note, Diagnostic.Queue.toList_push]
    exact .snoc code ..
  · exact .refl ..
  · simp only [State.report, State.note, Journal.errors_note]
    exact fun keeps => .snoc (line keeps) ..
  · simp only [State.report, State.note, Diagnostic.Queue.toList_push]
    exact fun keeps => .snoc (show error'.toDiagnostic.line = error.toDiagnostic.line from line keeps) ..

theorem common {start end' : State} (h : State.Logs g label' a b start end')
    (h' : State.Logs g label' a' b' start end') :
    State.Logs g g.label a b a' b' :=
  ⟨h.reported.common h'.reported, h.queued.common h'.queued, h.ended.common h'.ended,
    fun keeps => (h.reportedOn keeps).common (h'.reportedOn keeps), fun keeps => (h.queuedOn keeps).common (h'.queuedOn keeps)⟩

end State.Logs

/-! ## Flows side by side -/

/-- Two flows, from `state` and from `state'`, of the same kind: with values that `V`
    relates, returned ones that `W` does, errors that match, and states that `S`
    relates, after the same reports. -/
inductive Flow.Alike {α : Type} (g : Recast) (label' : String → String) (V : α → α → Prop) (W : Value → Value → Prop)
    (S : State → State → Prop) (state state' : State) : Flow α → Flow α → Prop
  | value {a b : α} {behind behind' : State} : V a b → S behind behind' → state.Logs g label' behind state' behind' →
      Alike g label' V W S state state' (.value a behind) (.value b behind')
  | returned {a b : Value} {behind behind' : State} : W a b → S behind behind' →
      state.Logs g label' behind state' behind' → Alike g label' V W S state state' (.returned a behind) (.returned b behind')
  | failed {error error' : EvalError} {behind behind' : State} : error.Matches g error' → S behind behind' →
      state.Logs g label' behind state' behind' →
      Alike g label' V W S state state' (.failed error behind) (.failed error' behind')
  | outOfFuel : Alike g label' V W S state state' .outOfFuel .outOfFuel

/-- Only later logs count. -/
theorem Flow.Alike.after {α : Type} {g : Recast} {label' : String → String} {V : α → α → Prop}
    {W : Value → Value → Prop}
    {S : State → State → Prop} {start state start' state' : State} {flow flow' : Flow α}
    (logs : start.Logs g label' state start' state')
    (h : Flow.Alike g label' V W S state state' flow flow') :
    Flow.Alike g label' V W S start start' flow flow' := by
  cases h with
  | value same twin more => exact .value same twin (logs.trans more)
  | returned same twin more => exact .returned same twin (logs.trans more)
  | failed same twin more => exact .failed same twin (logs.trans more)
  | outOfFuel => exact .outOfFuel

/-! ## A run and its twin -/

structure State.Twin (g : Recast) (state twin : State) : Prop where
  heap : twin.heap = state.heap.recast g
  console : twin.console = state.console
  callDepth : twin.callDepth = state.callDepth

def Run.Twin (g : Recast) (k : Answer) (p q : Run k.type) : Prop :=
  ∀ state twin, state.Twin g twin →
    Flow.Alike g id (k.Alike ⟨g, anywhere⟩) (Like ⟨g, anywhere⟩) (State.Twin g) state twin (p state) (q twin)

variable {g : Recast} {k m : Answer}

namespace Run

theorem Twin.andThen {p q : Run k.type} {f f' : k.type → Run m.type} (hp : Run.Twin g k p q)
    (hf : ∀ a b, k.Alike ⟨g, anywhere⟩ a b → Run.Twin g m (f a) (f' b)) :
    Run.Twin g m (p.andThen f) (q.andThen f') := by
  intro state twin pair
  have first := hp state twin pair
  unfold Run.andThen
  generalize p state = flow at first ⊢
  generalize q twin = flow' at first ⊢
  cases first with
  | value alike pair logs => exact (hf _ _ alike _ _ pair).after logs
  | returned like pair logs => exact .returned like pair logs
  | failed same pair logs => exact .failed same pair logs
  | outOfFuel => exact .outOfFuel

theorem Twin.untilReturn {p q : Run Value} (hp : Run.Twin g .value p q) :
    Run.Twin g .value (Run.untilReturn p) (Run.untilReturn q) := by
  intro state twin pair
  have inner := hp state twin pair
  unfold Run.untilReturn
  generalize p state = flow at inner ⊢
  generalize q twin = flow' at inner ⊢
  cases inner with
  | value alike pair logs => exact .value alike pair logs
  | returned like pair logs => exact .value like pair logs
  | failed same pair logs => exact .failed same pair logs
  | outOfFuel => exact .outOfFuel

theorem beginCall_logs (state twin : State) :
    state.Logs g id (beginCall state) twin (beginCall twin) :=
  .still (by simp [beginCall, State.note, Journal.errors_note, Event.error?]) rfl rfl
    (by simp [beginCall, State.note, Journal.errors_note, Event.error?]) rfl rfl

theorem endCall_logs (state twin : State) : state.Logs g id (endCall state) twin (endCall twin) :=
  .still (by simp [endCall, State.note, Journal.errors_note, Event.error?]) rfl rfl
    (by simp [endCall, State.note, Journal.errors_note, Event.error?]) rfl rfl

theorem Twin.nested {p q : Run Value} (hp : Run.Twin g .value p q) :
    Run.Twin g .value (Run.nested p) (Run.nested q) := by
  intro state twin pair
  have inside : (beginCall state).Twin g (beginCall twin) :=
    ⟨pair.heap, pair.console, by simp [beginCall, State.note, pair.callDepth]⟩
  have inner := (hp _ _ inside).after (beginCall_logs state twin)
  have outside {behind behind' : State} (h : behind.Twin g behind') : (endCall behind).Twin g (endCall behind') :=
    ⟨h.heap, h.console, by simp [endCall, State.note, h.callDepth]⟩
  unfold Run.nested
  generalize p (beginCall state) = flow at inner ⊢
  generalize q (beginCall twin) = flow' at inner ⊢
  cases inner with
  | value alike pair logs => exact .value alike (outside pair) (logs.trans (endCall_logs ..))
  | returned like pair logs => exact .returned like (outside pair) (logs.trans (endCall_logs ..))
  | failed same pair logs => exact .failed same (outside pair) (logs.trans (endCall_logs ..))
  | outOfFuel => exact .outOfFuel

/-- The same error, on another line perhaps. -/
theorem Twin.handled {p q : Run Value} (settings : Settings) (token : Token)
    (hp : Run.Twin g .value p q) :
    Run.Twin g .value (Run.handled settings token.line p) (Run.handled settings (g.token token).line q) := by
  intro state twin pair
  have inner := hp state twin pair
  unfold Run.handled
  generalize p state = flow at inner ⊢
  generalize q twin = flow' at inner ⊢
  cases inner with
  | value alike pair logs => exact .value alike pair logs
  | returned like pair logs => exact .returned like pair logs
  | @failed error error' behind behind' same pair logs =>
    have placed : (error.onLine token.line).Matches g (error'.onLine (g.token token).line) :=
      ⟨same.1, fun keeps => by simp [EvalError.onLine, same.2 keeps, keeps token]⟩
    cases settings.policy with
    | proceed => exact .value Parallel.like_null ⟨pair.heap, pair.console, pair.callDepth⟩ (logs.trans (.report placed ..))
    | abort => exact .failed placed pair logs
  | outOfFuel => exact .outOfFuel

/-- What a test lists is what was reported meanwhile, and what it hands on. -/
theorem conclude_logs {state behind twin behind' : State} (label : String)
    {last last' : List String} (same : last' = last)
    (logs : state.Logs g id behind twin behind') :
    state.Logs g id (conclude label state.diagnostics.length last behind) twin
      (conclude (g.label label) twin.diagnostics.length last' behind') := by
  obtain ⟨more, more', queue, queue', said⟩ := logs.queued
  have since := Diagnostic.Queue.since_of_append queue
  have since' := Diagnostic.Queue.since_of_append queue'
  have messages : more'.map (·.message) = more.map (·.message) := by
    have := congrArg (List.map Prod.snd) said
    simpa [List.map_map, Function.comp_def, Diagnostic.said] using this
  refine ⟨?_, logs.queued, ?_, fun keeps => ?_, logs.queuedOn⟩
  · simpa [conclude, State.note, Journal.errors_note, Event.error?] using logs.reported
  · simp only [conclude, State.note, Array.toList_push, since, since', messages, same]
    exact logs.ended.trans (.snoc (by rfl) ..)
  · simpa [conclude, State.note, Journal.errors_note, Event.error?] using logs.reportedOn keeps

theorem testBegins_logs (state twin : State) :
    state.Logs g id (state.note .testBegins) twin (twin.note .testBegins) :=
  .still (by simp [State.note, Journal.errors_note, Event.error?]) rfl rfl
    (by simp [State.note, Journal.errors_note, Event.error?]) rfl rfl

theorem Twin.tested {p q : Run Value} (label : String) (hp : Run.Twin g .value p q) :
    Run.Twin g .value (Run.tested label p) (Run.tested (g.label label) q) := by
  intro state twin pair
  have inner := (hp (state.note .testBegins) (twin.note .testBegins) ⟨pair.heap, pair.console, pair.callDepth⟩).after
    (testBegins_logs state twin)
  unfold Run.tested
  dsimp only
  generalize p (state.note .testBegins) = flow at inner ⊢
  generalize q (twin.note .testBegins) = flow' at inner ⊢
  cases inner with
  | value _ pair logs =>
    exact .value Parallel.like_null ⟨pair.heap, pair.console, pair.callDepth⟩ (conclude_logs label rfl logs)
  | returned _ pair logs =>
    exact .value Parallel.like_null ⟨pair.heap, pair.console, pair.callDepth⟩ (conclude_logs label rfl logs)
  | failed same pair logs =>
    have message := congrArg (fun said => [said.2]) same.1
    exact .failed same ⟨pair.heap, pair.console, pair.callDepth⟩ (conclude_logs label message logs)
  | outOfFuel => exact .outOfFuel

theorem twin_callBuiltin (primitive : Builtin) {as bs : List Value}
    (alike : LikeAll ⟨g, anywhere⟩ as bs) :
    Run.Twin g .value (Run.callBuiltin primitive as) (Run.callBuiltin primitive bs) := by
  intro state twin pair
  have agree := primitive.value_alike alike
  unfold Run.callBuiltin Builtin.call Run.lift
  rw [primitive.lines_alike alike, pair.console, agree.1]
  cases outcome : primitive.value as with
  | ok value => exact .value ⟨rfl, fun _ _ => trivial⟩ ⟨pair.heap, rfl, pair.callDepth⟩ (.still rfl rfl rfl rfl rfl rfl)
  | error error => exact .failed (.refl g error) ⟨pair.heap, rfl, pair.callDepth⟩ (.still rfl rfl rfl rfl rfl rfl)

theorem twin_checkDepth (settings : Settings) :
    Run.Twin g .nothing (Run.checkDepth settings) (Run.checkDepth settings) := by
  intro state twin pair
  unfold Run.checkDepth
  rw [pair.callDepth]
  repeat' split
  all_goals first | exact .value trivial pair (.refl ..) | exact .failed (.refl g _) pair (.refl ..)

/-- A change of the heap, and the same change of its twin. -/
theorem twin_alter {change change' : Heap → Heap}
    (same : ∀ heap, (change heap).recast g = change' (heap.recast g)) :
    Run.Twin g .nothing (Run.alter change) (Run.alter change') := by
  intro state twin pair
  refine .value trivial ⟨?_, pair.console, pair.callDepth⟩ (.still rfl rfl rfl rfl rfl rfl)
  rw [same, ← pair.heap]

end Run

/-- All evaluation goes like its twin, if tests that run keep their bodies. -/
theorem Eval.lockstep (g : Recast) (settings : Settings)
    (bodies : settings.testMode = true → g.bodies = true) :
    Parallel g settings settings fun live k p q => (∀ node, live node) → Run.Twin g k p q where
  testMode := rfl
  bodies := bodies
  stop _ _ _ _ _ _ := .outOfFuel
  done _ _ _ alike _ _ _ pair := .value (alike.grow fun _ _ => trivial) pair (.refl ..)
  andThen _ _ _ _ _ _ hp hf all :=
    (hp all).andThen fun a b alike => hf _ (.refl _) a b (alike.grow fun node _ => all node) all
  fail _ _ error _ _ _ pair := .failed (.refl g error) pair (.refl ..)
  leave like _ _ _ pair := .returned (like.grow fun _ _ => trivial) pair (.refl ..)
  get scope name _ _ state twin pair := by
    refine .value ⟨?_, fun _ _ _ _ => trivial⟩ pair (.refl ..)
    rw [pair.heap]
    exact state.heap.recast_get? g scope name
  member id name _ _ state twin pair := by
    refine .value ⟨?_, fun _ _ _ _ => trivial⟩ pair (.refl ..)
    rw [pair.heap]
    exact state.heap.recast_member? g id name
  assign scope name a _ _ like _ := by
    rw [like.1]
    exact Run.twin_alter fun heap => heap.recast_assign g scope name a
  define scope name a _ _ like _ := by
    rw [like.1]
    exact Run.twin_alter fun heap => heap.recast_define g scope name a
  setField id name a _ _ like _ := by
    rw [like.1]
    exact Run.twin_alter fun heap => heap.recast_setField g id name a
  enclose outer _ _ state twin pair := by
    refine .value ⟨?_, trivial⟩ ⟨?_, pair.console, pair.callDepth⟩ (.still rfl rfl rfl rfl rfl rfl)
    · simp [pair.heap, Heap.recast]
    · rw [pair.heap]
      exact (state.heap.recast_enclose g outer).symm
  defineAll scope names as _ _ alike _ := by
    rw [alike.1]
    exact Run.twin_alter fun heap => heap.recast_defineAll g scope names as
  addObject definition _ _ state twin pair := by
    refine .value ⟨?_, trivial⟩ ⟨?_, pair.console, pair.callDepth⟩ (.still rfl rfl rfl rfl rfl rfl)
    · simp [pair.heap, Heap.recast]
    · rw [pair.heap]
      exact (state.heap.recast_addObject g definition).symm
  callBuiltin primitive _ _ alike _ := Run.twin_callBuiltin primitive (alike.grow fun _ _ => trivial)
  checkDepth _ _ := Run.twin_checkDepth settings
  untilReturn hp all := (hp all).untilReturn
  nested hp all := (hp all).nested
  handled token _ _ hp all := (hp all).handled settings token
  tested label _ _ _ _ _ hp all := (hp all).tested label

/-! ## Runs with one twin -/

def Value.Matches (g : Recast) (a b : Value) : Prop := a.recast g = b.recast g

structure State.Matches (g : Recast) (state other : State) : Prop where
  heap : state.heap.recast g = other.heap.recast g
  console : state.console = other.console
  callDepth : state.callDepth = other.callDepth

theorem State.Twin.matches {a b twin : State} (h : a.Twin g twin) (h' : b.Twin g twin) :
    a.Matches g b :=
  ⟨h.heap.symm.trans h'.heap, h.console.symm.trans h'.console, h.callDepth.symm.trans h'.callDepth⟩

abbrev Flow.Matches (g : Recast) : State → State → Flow Value → Flow Value → Prop :=
  Flow.Alike g g.label (Value.Matches g) (Value.Matches g) (State.Matches g)

/-- Flows alike to one flow match each other. -/
theorem Flow.matches_of_twin {state other twin : State} {flow flow' common : Flow Value}
    (h : Flow.Alike g id (Like ⟨g, anywhere⟩) (Like ⟨g, anywhere⟩) (State.Twin g) state twin flow common)
    (h' : Flow.Alike g id (Like ⟨g, anywhere⟩) (Like ⟨g, anywhere⟩) (State.Twin g) other twin flow' common) :
    Flow.Matches g state other flow flow' := by
  cases h with
  | value like pair logs =>
    cases h' with
    | value like' pair' logs' => exact .value (like.1.symm.trans like'.1) (pair.matches pair') (logs.common logs')
  | returned like pair logs =>
    cases h' with
    | returned like' pair' logs' => exact .returned (like.1.symm.trans like'.1) (pair.matches pair') (logs.common logs')
  | failed same pair logs =>
    cases h' with
    | failed same' pair' logs' =>
      have both : EvalError.Matches g _ _ := ⟨same'.1.symm.trans same.1, fun keeps => (same'.2 keeps).symm.trans (same.2 keeps)⟩
      exact .failed both (pair.matches pair') (logs.common logs')
  | outOfFuel =>
    cases h' with
    | outOfFuel => exact .outOfFuel

/-- Blocks that a recast does not keep apart match wherever they run, if tests that run
    keep their bodies: from states that match they come to the same but for the
    recast. -/
theorem Eval.block_matches (g : Recast) (settings : Settings)
    (bodies : settings.testMode = true → g.bodies = true)
    (fuel : Nat) (scope : ScopeId) {a b : Value} (first : a.Matches g b) {list other : List Stmt}
    (same : Stmt.recastAll g list = Stmt.recastAll g other) {state state' : State}
    (pair : state.Matches g state') :
    Flow.Matches g state state' (Eval.block settings fuel scope a list state)
      (Eval.block settings fuel scope b other state') := by
  have all (node : Node) : anywhere node := trivial
  have like (value : Value) : Like ⟨g, anywhere⟩ value (value.recast g) := ⟨rfl, fun _ _ => trivial⟩
  have run (value : Value) (statements : List Stmt) :=
    ((Eval.lockstep g settings bodies).evaluation fuel).block scope (all (.scope scope)) (like value) statements all
  let twin : State := { state with heap := state.heap.recast g }
  have left : state.Twin g twin := ⟨rfl, rfl, rfl⟩
  have right : state'.Twin g twin := ⟨pair.heap, pair.console, pair.callDepth⟩
  have one := run a list state twin left
  have two := run b other state' twin right
  rw [← first, ← same] at two
  exact Flow.matches_of_twin one two

/-! ### One token in all places -/

/-- Values that only differ in the tokens of their functions. -/
abbrev Value.Resembles : Value → Value → Prop := Value.Matches (.tokens blanked)

abbrev State.Resembles : State → State → Prop := State.Matches (.tokens blanked)

abbrev Flow.Resembles : State → State → Flow Value → Flow Value → Prop := Flow.Matches (.tokens blanked)

/-- Blocks of the same bare statements resemble each other wherever they run: from
    states that resemble each other they come to the same but for tokens and lines. -/
theorem Eval.block_resembles (settings : Settings) (fuel : Nat) (scope : ScopeId) {a b : Value}
    (first : a.Resembles b)
    {list other : List Stmt} (same : Stmt.bareAll list = Stmt.bareAll other) {state state' : State}
    (pair : state.Resembles state') :
    Flow.Resembles state state' (Eval.block settings fuel scope a list state)
      (Eval.block settings fuel scope b other state') := by
  have blank (statements : List Stmt) : Stmt.recastAll (.tokens blanked) statements = Stmt.bareAll statements := by
    rw [Stmt.recastAll_eq statements (.inl (Recast.sparesTests_tokens blanked)), Stmt.bareAll_eq_retokenAll]
  rw [← blank, ← blank] at same
  exact Eval.block_matches (.tokens blanked) settings (fun _ => rfl) fuel scope first same pair

/-! ## Whole programs -/

/-- What a run came to, as far as it shows: all but the lines of errors. -/
structure Seen where
  /-- Kind and text of the value, or kind and message of the error. -/
  result : Except (EvalErrorKind × String) (String × String)
  printed : String
  outcomes : List TestOutcome
  reported : List (EvalErrorKind × String)
  queued : List (Code × String)
  /-- The names bound in each scope, with kind and text of what they are bound to. -/
  bindings : ScopeId → List (String × String × String)

/-- The names of a scope with kind and text of their values. -/
def Bindings.seen (bindings : Bindings) : List (String × String × String) :=
  bindings.map fun entry => (entry.1, entry.2.typeName, entry.2.inspect)

def seen (ended : Except EvalError Value × State) : Seen where
  result := match ended.1 with
    | .ok value => .ok (value.typeName, value.inspect)
    | .error error => .error error.said
  printed := ended.2.console.text
  outcomes := ended.2.outcomes.toList
  reported := ended.2.journal.errors.map EvalError.said
  queued := ended.2.diagnostics.toList.map Diagnostic.said
  bindings id := (ended.2.heap.bindings id).seen

theorem Bindings.seen_recast (bindings : Bindings) (g : Recast) :
    Bindings.seen (bindings.recast g) = bindings.seen := by
  simp [seen, recast, Function.comp_def]

theorem State.Matches.bindings {state other : State} (h : state.Matches g other) (id : ScopeId) :
    (state.heap.bindings id).seen = (other.heap.bindings id).seen := by
  have same := congrArg (fun heap => (heap.bindings id).seen) h.heap
  simpa only [Heap.recast_bindings, Bindings.seen_recast] using same

theorem Value.Matches.seen {a b : Value} (h : a.Matches g b) :
    a.typeName = b.typeName ∧ a.inspect = b.inspect :=
  ⟨by simpa using congrArg typeName h, by simpa using congrArg inspect h⟩

/-- What grew alike from the same start reads the same. -/
theorem Grew.map_eq {α β : Type} {key : α → β} {start after after' : List α}
    (h : Grew key key start after start after') :
    after.map key = after'.map key := by
  obtain ⟨more, more', rfl, rfl, same⟩ := h
  simp [same]

theorem seen_eq {state behind behind' : State} {result result' : Except EvalError Value}
    (results : (seen (result, behind)).result = (seen (result', behind')).result)
    (pair : behind.Resembles behind')
    (logs : state.Logs (.tokens blanked) id behind state behind') :
    seen (result, behind) = seen (result', behind') := by
  have printed : behind.console.text = behind'.console.text := by rw [pair.console]
  have outcomes : behind.outcomes.toList = behind'.outcomes.toList := by simpa using logs.ended.map_eq
  have reported := logs.reported.map_eq
  have queued := logs.queued.map_eq
  have bindings := funext pair.bindings
  unfold seen at results ⊢
  simp only [Seen.mk.injEq]
  exact ⟨results, printed, outcomes, reported, queued, bindings⟩

/-- Programs that are the same but for tokens, run from the same state under the same
    settings, either both use up their fuel or both end, and then they came to the same
    in everything but the lines of errors. -/
theorem tokens_unseen (settings : Settings) (fuel : Nat) (program other : Program) (same : program.bare = other.bare)
    (scope : ScopeId) (state : State) :
    (evalProgram settings fuel program scope state).map seen = (evalProgram settings fuel other scope state).map seen := by
  have statements : Stmt.bareAll program.statements = Stmt.bareAll other.statements := congrArg Program.statements same
  have flows := Eval.block_resembles settings fuel scope (rfl : Value.null.Resembles .null) statements
    (⟨rfl, rfl, rfl⟩ : state.Resembles state)
  unfold evalProgram
  generalize Eval.block settings fuel scope .null program.statements state = flow at flows ⊢
  generalize Eval.block settings fuel scope .null other.statements state = flow' at flows ⊢
  cases flows with
  | value alike pair logs =>
    refine congrArg some (seen_eq ?_ pair logs)
    simp [seen, alike.seen]
  | returned alike pair logs =>
    refine congrArg some (seen_eq ?_ pair logs)
    simp [seen, alike.seen]
  | failed said pair logs =>
    refine congrArg some (seen_eq ?_ ⟨pair.heap, pair.console, pair.callDepth⟩ (logs.trans (.report said ..)))
    simp [seen, said]
  | outOfFuel => rfl

/-- `1 / 0`, on a line. -/
def dividingOn (line : Nat) : Program :=
  ⟨[.expression (.eof line) (.binary (.eof line) (.integer (.eof line) 1) .div (.integer (.eof line) 0))]⟩

/-- Both end with the error, and only its line tells them apart. -/
theorem tokens_unseen_dividingOn :
    (evalProgram ⟨.abort, false, none⟩ 9 (dividingOn 1) 0 .fresh).map seen =
      (evalProgram ⟨.abort, false, none⟩ 9 (dividingOn 7) 0 .fresh).map seen ∧
    ∃ behind behind',
      evalProgram ⟨.abort, false, none⟩ 9 (dividingOn 1) 0 .fresh = some (.error (EvalError.divisionByZero.onLine 1), behind) ∧
      evalProgram ⟨.abort, false, none⟩ 9 (dividingOn 7) 0 .fresh = some (.error (EvalError.divisionByZero.onLine 7), behind') :=
  ⟨tokens_unseen ⟨.abort, false, none⟩ 9 (dividingOn 1) (dividingOn 7) rfl 0 .fresh, _, _, rfl, rfl⟩

end Lantern
