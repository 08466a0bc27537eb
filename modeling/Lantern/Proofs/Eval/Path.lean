/-
  Lantern.Proofs.Eval.Path — from the first state of a run to its last.

  A run leaves a state behind however it ends. Many laws only compare that state with
  the one the run started from: text is printed and none taken back, books balance, the
  heap grows. `Run.Along T` says that of a run. A relation that composes, that every
  change of the heap, print and report has, and that can be taken across the frames of a
  call and of a test (`Eval.Keeps`) is a law of all evaluation
  (`Eval.Keeps.congruence`).

  Under the policy that reports errors where they arise no block ends with one
  (`Eval.block_proceed_ne_failed`), so a test there never lists an error that nothing
  has reported.

  What a program or a call from outside comes to is what its block or the call inside
  came to (`evalProgram_cases`, `callValue_state?`).
-/

import Lantern.Proofs.Eval.Steps

namespace Lantern

def Flow.state? {α : Type} : Flow α → Option State
  | .value _ behind | .returned _ behind | .failed _ behind => some behind
  | .outOfFuel => none

namespace Run

theorem state?_untilReturn (p : Run Value) (state : State) :
    (Run.untilReturn p state).state? = (p state).state? := by
  unfold Run.untilReturn
  cases p state <;> rfl

theorem state?_nested (p : Run Value) (state : State) :
    (Run.nested p state).state? = (p (beginCall state)).state?.map endCall := by
  unfold Run.nested
  cases p (beginCall state) <;> rfl

/-- Wherever the run ends, its last state stands to its first one as `T` says. -/
def Along (T : State → State → Prop) {α : Type} (p : Run α) : Prop :=
  ∀ state behind, (p state).state? = some behind → T state behind

variable {T : State → State → Prop}

theorem Along.andThen {α β : Type} {p : Run α} {f : α → Run β}
    (trans : ∀ {a b c}, T a b → T b c → T a c)
    (hp : p.Along T) (hf : ∀ result, (f result).Along T) : (p.andThen f).Along T := by
  intro state behind ends
  unfold Run.andThen at ends
  cases first : p state with
  | value result middle =>
    rw [first] at ends
    exact trans (hp state middle (by rw [first]; rfl)) (hf result middle behind ends)
  | returned result middle => rw [first] at ends; exact hp state behind (by rw [first]; exact ends)
  | failed error middle => rw [first] at ends; exact hp state behind (by rw [first]; exact ends)
  | outOfFuel => rw [first] at ends; cases ends

theorem Along.untilReturn {p : Run Value} (hp : p.Along T) : (Run.untilReturn p).Along T := by
  intro state behind ends
  rw [state?_untilReturn] at ends
  exact hp state behind ends

theorem Along.nested {p : Run Value} (frame : ∀ {a b}, T (beginCall a) b → T a (endCall b))
    (hp : p.Along T) :
    (Run.nested p).Along T := by
  intro state behind ends
  rw [state?_nested, Option.map_eq_some_iff] at ends
  obtain ⟨middle, inner, rfl⟩ := ends
  exact frame (hp _ middle inner)

theorem Along.handled {p : Run Value} {settings : Settings}
    (trans : ∀ {a b c}, T a b → T b c → T a c)
    (report : settings.policy = .proceed → ∀ a error, T a (a.report error)) (hp : p.Along T)
    (line : Nat) :
    (Run.handled settings line p).Along T := by
  intro state behind ends
  unfold Run.handled at ends
  cases inner : p state with
  | failed error middle =>
    have inside : T state middle := hp state middle (by rw [inner]; rfl)
    cases policy : settings.policy with
    | proceed => rw [inner, policy] at ends; cases ends; exact trans inside (report policy middle _)
    | abort => rw [inner, policy] at ends; cases ends; exact inside
  | value result middle => rw [inner] at ends; exact hp state behind (by rw [inner]; exact ends)
  | returned result middle => rw [inner] at ends; exact hp state behind (by rw [inner]; exact ends)
  | outOfFuel => rw [inner] at ends; cases ends

/-- The frame of a test has to hold of an error that is passed on only if the body can
    fail. -/
theorem Along.tested {p : Run Value} {label : String}
    (frame : ∀ {a b last}, T (a.note .testBegins) b → (last = [] ∨ ∃ error, p (a.note .testBegins) = .failed error b) →
      T a (conclude label a.diagnostics.length last b)) (hp : p.Along T) : (Run.tested label p).Along T := by
  intro state behind ends
  unfold Run.tested at ends
  have inside {middle : State} (h : (p (state.note .testBegins)).state? = some middle) :
      T (state.note .testBegins) middle := hp _ middle h
  cases inner : p (state.note .testBegins) with
  | value result middle =>
    simp only [inner] at ends; cases ends; exact frame (inside (by rw [inner]; rfl)) (.inl rfl)
  | returned result middle =>
    simp only [inner] at ends; cases ends; exact frame (inside (by rw [inner]; rfl)) (.inl rfl)
  | failed error middle =>
    simp only [inner] at ends; cases ends; exact frame (inside (by rw [inner]; rfl)) (.inr ⟨error, inner⟩)
  | outOfFuel => simp only [inner] at ends; cases ends

theorem along_callBuiltin
    (print : ∀ (a : State) (lines : List String), T a { a with console := lines.foldl Console.println a.console })
    (primitive : Builtin) (arguments : List Value) : (callBuiltin primitive arguments).Along T := by
  intro state behind ends
  unfold callBuiltin Builtin.call lift at ends
  dsimp only at ends
  split at ends <;> cases ends <;> exact print state _

/-- The check of the depth changes nothing: it is passed where there is room for one
    more call, and fails where there is none. -/
theorem checkDepth_cases (settings : Settings) (state : State) :
    (checkDepth settings state = .value () state ∧
      ∀ most, settings.maxCallDepth = some most → state.callDepth < most) ∨
    ∃ limit, checkDepth settings state = .failed (.tooDeep limit) state ∧
      settings.maxCallDepth = some limit ∧ limit ≤ state.callDepth := by
  unfold checkDepth
  cases settings.maxCallDepth with
  | none => exact .inl ⟨rfl, nofun⟩
  | some limit =>
    by_cases full : limit ≤ state.callDepth
    · exact .inr ⟨limit, if_pos full, rfl, full⟩
    · refine .inl ⟨if_neg full, ?_⟩
      rintro _ ⟨⟩
      exact Nat.lt_of_not_le full

theorem along_checkDepth (refl : ∀ a, T a a) (settings : Settings) :
    (checkDepth settings).Along T := by
  intro state behind ends
  rcases checkDepth_cases settings state with ⟨passed, -⟩ | ⟨limit, refused, -⟩
  · rw [passed] at ends; cases ends; exact refl _
  · rw [refused] at ends; cases ends; exact refl _

end Run

/-- Where errors are reported at the statement they arise in, no block hands one on. -/
theorem Eval.block_proceed_ne_failed {settings : Settings} (lenient : settings.policy = .proceed)
    (fuel : Nat)
    (scope : ScopeId) (result : Value) (statements : List Stmt) (state : State) (error : EvalError)
    (behind : State) :
    Eval.block settings fuel scope result statements state ≠ .failed error behind := by
  induction fuel generalizing result statements state with
  | zero => simp [Eval.block, Run.stop]
  | succ fuel ih =>
    cases statements with
    | nil => intro h; unfold Eval.block at h; cases h
    | cons first more =>
      intro h
      unfold Eval.block at h
      -- the first statement comes to a value or a `return`, never to an error
      change Run.andThen (Run.handled settings first.token.line (Eval.statement settings fuel scope first))
        (fun value => Eval.block settings fuel scope value more) state = _ at h
      unfold Run.andThen Run.handled at h
      rw [lenient] at h
      cases inner : Eval.statement settings fuel scope first state <;> rw [inner] at h
      · exact ih _ _ _ h
      · cases h
      · exact ih _ _ _ h
      · cases h

section

variable {settings : Settings} {fuel : Nat} {state behind : State} {result : Except EvalError Value}

/-- A program comes to what its block comes to. An error that ends it is reported behind
    it. -/
theorem evalProgram_cases {program : Program} {scope : ScopeId}
    (ends : evalProgram settings fuel program scope state = some (result, behind)) :
    (∃ value, result = .ok value ∧
      (Eval.block settings fuel scope .null program.statements state = .value value behind ∨
        Eval.block settings fuel scope .null program.statements state = .returned value behind)) ∨
    ∃ error last, Eval.block settings fuel scope .null program.statements state = .failed error last ∧
      result = .error error ∧ behind = last.report error := by
  unfold evalProgram at ends
  cases flow : Eval.block settings fuel scope .null program.statements state with
  | value value last => rw [flow] at ends; cases ends; exact .inl ⟨value, rfl, .inl rfl⟩
  | returned value last => rw [flow] at ends; cases ends; exact .inl ⟨value, rfl, .inr rfl⟩
  | failed error last => rw [flow] at ends; cases ends; exact .inr ⟨error, last, rfl, rfl, rfl⟩
  | outOfFuel => rw [flow] at ends; cases ends

theorem evalProgram_state? {program : Program} {scope : ScopeId}
    (ends : evalProgram settings fuel program scope state = some (result, behind)) :
    ∃ last, (Eval.block settings fuel scope .null program.statements state).state? = some last ∧
      (behind = last ∨ ∃ error, behind = last.report error) := by
  rcases evalProgram_cases ends with ⟨value, -, flow | flow⟩ | ⟨error, last, flow, -, reported⟩
  · exact ⟨behind, by rw [flow]; rfl, .inl rfl⟩
  · exact ⟨behind, by rw [flow]; rfl, .inl rfl⟩
  · exact ⟨last, by rw [flow]; rfl, .inr ⟨error, reported⟩⟩

theorem callValue_state? {callee : Value} {arguments : List Value}
    (ends : callValue settings fuel callee arguments state = some (result, behind)) :
    (Eval.apply settings fuel callee arguments state).state? = some behind := by
  unfold callValue at ends
  cases flow : Eval.apply settings fuel callee arguments state <;> rw [flow] at ends <;> cases ends <;> rfl

end

namespace Eval

/-- A relation between states that every step of evaluation keeps, from the state before
    it to the state behind. -/
structure Keeps (settings : Settings) (T : State → State → Prop) : Prop where
  refl (a : State) : T a a
  trans {a b c : State} : T a b → T b c → T a c
  define (a : State) (scope : ScopeId) (name : String) (value : Value) :
    T a { a with heap := a.heap.define scope name value }
  setField (a : State) (id : ObjectId) (name : String) (value : Value) :
    T a { a with heap := a.heap.setField id name value }
  enclose (a : State) (outer : ScopeId) : T a { a with heap := (a.heap.enclose outer).2 }
  addObject (a : State) (definition : Class) : T a { a with heap := (a.heap.addObject definition).2 }
  print (a : State) (lines : List String) : T a { a with console := lines.foldl Console.println a.console }
  nested {a b : State} : T (Run.beginCall a) b → T a (Run.endCall b)
  report : settings.policy = .proceed → ∀ (a : State) (error : EvalError), T a (a.report error)
  /-- Tests run in test mode only. Where errors are reported at once, the body of a test
      hands none on. -/
  tested (label : String) {a b : State} {last : List String} : settings.testMode = true → T (a.note .testBegins) b →
    (settings.policy = .proceed → last = []) → T a (Run.conclude label a.diagnostics.length last b)

namespace Keeps

variable {settings : Settings} {T : State → State → Prop}

theorem defineAll (h : Keeps settings T) (a : State) (scope : ScopeId)
    (pairs : List (String × Value)) :
    T a { a with heap := a.heap.defineAll scope pairs } := by
  induction pairs generalizing a with
  | nil => exact h.refl a
  | cons pair pairs ih => exact h.trans (h.define a scope pair.1 pair.2) (ih _)

theorem alter (change : Heap → Heap) (h : ∀ a : State, T a { a with heap := change a.heap }) :
    (Run.alter change).Along T :=
  fun a _ ends => by cases ends; exact h a

theorem extend {α : Type} (change : Heap → α × Heap)
    (h : ∀ a : State, T a { a with heap := (change a.heap).2 }) :
    (Run.extend change).Along T :=
  fun a _ ends => by cases ends; exact h a

/-- What every step keeps, every run keeps. -/
theorem congruence (h : Keeps settings T) : Congruence settings settings fun p _ => p.Along T where
  testMode := rfl
  stop := fun _ _ ends => by cases ends
  done _ := fun a _ ends => by cases ends; exact h.refl a
  andThen hp hf := hp.andThen h.trans hf
  fail _ := fun a _ ends => by cases ends; exact h.refl a
  leave _ := fun a _ ends => by cases ends; exact h.refl a
  ask _ := fun a _ ends => by cases ends; exact h.refl a
  assign _ _ _ := alter _ fun a => h.define a _ _ _
  define _ _ _ := alter _ fun a => h.define a _ _ _
  setField _ _ _ := alter _ fun a => h.setField a _ _ _
  enclose _ := extend _ fun a => h.enclose a _
  defineAll _ _ := alter _ fun a => h.defineAll a _ _
  addObject _ := extend _ fun a => h.addObject a _
  callBuiltin := Run.along_callBuiltin h.print
  checkDepth := Run.along_checkDepth h.refl settings
  untilReturn hp := hp.untilReturn
  nested hp := hp.nested h.nested
  handled line _ _ hp := Run.Along.handled (T := T) h.trans h.report hp line
  tested label _ _ _ _ mode hp := by
    refine hp.tested fun inside ended => h.tested label mode inside fun lenient => ?_
    rcases ended with none | ⟨error, failed⟩
    · exact none
    · exact absurd failed (block_proceed_ne_failed lenient _ _ _ _ _ _ _)

/-- Where errors are reported at the statement they arise in, a program comes to a value. -/
theorem program (h : Keeps settings T) (lenient : settings.policy = .proceed) {fuel : Nat}
    {program : Program}
    {scope : ScopeId} {state behind : State} {result : Except EvalError Value}
    (ends : evalProgram settings fuel program scope state = some (result, behind)) :
    (∃ value, result = .ok value) ∧ T state behind := by
  have kept := (h.congruence.evaluation fuel).block scope .null program.statements state behind
  rcases evalProgram_cases ends with ⟨value, isValue, flow | flow⟩ | ⟨error, last, flow, -⟩
  · exact ⟨⟨value, isValue⟩, kept (by rw [flow]; rfl)⟩
  · exact ⟨⟨value, isValue⟩, kept (by rw [flow]; rfl)⟩
  · exact absurd flow (block_proceed_ne_failed lenient _ _ _ _ _ _ _)

end Keeps

end Eval

end Lantern
