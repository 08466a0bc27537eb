/-
  Lantern.Proofs.Eval.Depth — a limit of the call depth is not seen by a run that never
  reaches it.

  The journal shows how many calls are open at each moment, and `callDepth` is that
  number (`State.Counted`): a call notes its begin and its end however its body ends, so
  every step leaves as many calls open as it found (`Eval.keeps_level`). A run without a
  limit beside one with it:
  - `Run.Unhindered limit p q`: where `p` ends and never more than `limit` calls are
    open, `q` comes to the same.
  - Every step has that but the check of the depth, which fails in the run with the
    limit when so many calls are open. It is followed by a call though, so that the
    other run opens one more. The relation holds of calls as a whole
    (`Eval.unhindered`), and so of whole programs (`evalProgram_limited`).
-/

import Mathlib.Data.List.Infix
import Lantern.Eval.Execute
import Lantern.Proofs.Eval.Path

namespace Lantern

/-! ## Open calls -/

def Event.opened (depth : Nat) : Event → Nat
  | .callBegins => depth + 1
  | .callEnds => depth - 1
  | _ => depth

def Event.openAfter (events : List Event) : Nat := events.foldl Event.opened 0

theorem Event.openAfter_append_singleton (events : List Event) (event : Event) :
    openAfter (events ++ [event]) = event.opened (openAfter events) :=
  List.foldl_append

namespace Journal

def openCalls (journal : Journal) : Nat := Event.openAfter journal.toList

/-- At no moment were more calls than `limit` open. -/
def NestsWithin (limit : Nat) (journal : Journal) : Prop :=
  ∀ events ∈ journal.toList.inits, Event.openAfter events ≤ limit

instance (limit : Nat) (journal : Journal) : Decidable (journal.NestsWithin limit) :=
  inferInstanceAs (Decidable (∀ events ∈ journal.toList.inits, Event.openAfter events ≤ limit))

theorem openCalls_note (journal : Journal) (event : Event) :
    (journal.note event).openCalls = event.opened journal.openCalls := by
  rw [openCalls, toList_note, Event.openAfter_append_singleton, openCalls]

variable {limit : Nat} {journal more : Journal}

theorem NestsWithin.openAfter_le (within : journal.NestsWithin limit) {events : List Event}
    (early : events <+: journal.toList) : Event.openAfter events ≤ limit :=
  within events ((List.mem_inits events journal.toList).2 early)

theorem NestsWithin.of_prefix (within : more.NestsWithin limit)
    (early : journal.toList <+: more.toList) :
    journal.NestsWithin limit :=
  fun events member => within.openAfter_le (((List.mem_inits events journal.toList).1 member).trans early)

end Journal

namespace State

def Counted (state : State) : Prop := state.callDepth = state.journal.openCalls

/-- From `state` to `behind` events were only added, and every call that began has ended. -/
structure Level (state behind : State) : Prop where
  journal : state.journal.toList <+: behind.journal.toList
  openCalls : behind.journal.openCalls = state.journal.openCalls
  callDepth : behind.callDepth = state.callDepth

theorem counted_withBuiltins : withBuiltins.2.Counted := rfl

variable {a b c : State}

theorem level_of_eq (journal : b.journal = a.journal) (callDepth : b.callDepth = a.callDepth) :
    a.Level b :=
  ⟨journal ▸ List.prefix_refl _, by rw [journal], callDepth⟩

theorem Level.trans (h : a.Level b) (h' : b.Level c) : a.Level c :=
  ⟨h.journal.trans h'.journal, h'.openCalls.trans h.openCalls, h'.callDepth.trans h.callDepth⟩

theorem Level.counted (h : a.Level b) (counted : a.Counted) : b.Counted := by
  rw [Counted, h.callDepth, h.openCalls]
  exact counted

/-- To note that something other than a call begins or ends. -/
theorem level_of_note (event : Event) (journal : b.journal = a.journal.note event)
    (callDepth : b.callDepth = a.callDepth)
    (still : ∀ depth, event.opened depth = depth) : a.Level b where
  journal := by simp [journal]
  openCalls := by rw [journal, Journal.openCalls_note, still]
  callDepth := callDepth

theorem Counted.beginCall (counted : a.Counted) : (Run.beginCall a).Counted := by
  simp only [Counted, Run.beginCall, note, Journal.openCalls_note, Event.opened]
  rw [counted]

/-- The events of a call go on from its begin. -/
theorem Level.begins (h : (Run.beginCall a).Level b) :
    a.journal.toList ++ [.callBegins] <+: (Run.endCall b).journal.toList := by
  have early := h.journal
  simp only [Run.beginCall, Run.endCall, note, Journal.toList_note] at early ⊢
  exact early.trans (List.prefix_append ..)

theorem Level.nested (h : (Run.beginCall a).Level b) : a.Level (Run.endCall b) where
  journal := (List.prefix_append ..).trans h.begins
  openCalls := by
    have same := h.openCalls
    simp only [Run.beginCall, Run.endCall, note, Journal.openCalls_note, Event.opened] at same ⊢
    omega
  callDepth := by
    have same := h.callDepth
    simp only [Run.beginCall, Run.endCall, note] at same ⊢
    omega

theorem level_testBegins (a : State) : a.Level (a.note .testBegins) :=
  level_of_note .testBegins rfl rfl fun _ => rfl

theorem Level.tested {label : String} {last : List String} (h : (a.note .testBegins).Level b) :
    a.Level (Run.conclude label a.diagnostics.length last b) := by
  have ended : b.Level (Run.conclude label a.diagnostics.length last b) :=
    level_of_note .testEnds rfl rfl fun _ => rfl
  exact (level_testBegins a).trans (h.trans ended)

end State

/-- Every step leaves as many calls open as it found. -/
theorem Eval.keeps_level (settings : Settings) : Eval.Keeps settings State.Level where
  refl _ := State.level_of_eq rfl rfl
  trans := .trans
  define _ _ _ _ := State.level_of_eq rfl rfl
  setField _ _ _ _ := State.level_of_eq rfl rfl
  enclose _ _ := State.level_of_eq rfl rfl
  addObject _ _ := State.level_of_eq rfl rfl
  print _ _ := State.level_of_eq rfl rfl
  nested := .nested
  report _ _ error := State.level_of_note (.reported error) rfl rfl fun _ => rfl
  tested _ _ _ _ _ h _ := h.tested

/-! ## With a limit and without -/

namespace Run

/-- Where the first run ends and no more than `limit` calls are ever open, the second
    one comes to the same. -/
structure Unhindered (limit : Nat) {α : Type} (p q : Run α) : Prop where
  level : p.Along State.Level
  same (state : State) : state.Counted → ∀ behind, (p state).state? = some behind → behind.journal.NestsWithin limit →
    q state = p state

namespace Unhindered

variable {limit : Nat}

theorem refl {α : Type} {p : Run α} (level : p.Along State.Level) : Unhindered limit p p :=
  ⟨level, fun _ _ _ _ _ => rfl⟩

theorem andThen {α β : Type} {p q : Run α} {f g : α → Run β} (hp : Unhindered limit p q)
    (hf : ∀ result, Unhindered limit (f result) (g result)) : Unhindered limit (p.andThen f) (q.andThen g) where
  level := hp.level.andThen .trans fun result => (hf result).level
  same state counted behind ends within := by
    unfold Run.andThen at ends ⊢
    cases first : p state with
    | value result middle =>
      rw [first] at ends
      have level : state.Level middle := hp.level state middle (by rw [first]; rfl)
      -- what follows only adds to the journal, so the first part keeps within the limit
      -- as well
      have early : middle.journal.NestsWithin limit := within.of_prefix ((hf result).level middle behind ends).journal
      rw [hp.same state counted middle (by rw [first]; rfl) early, first]
      exact (hf result).same middle (level.counted counted) behind ends within
    | returned result middle =>
      rw [first] at ends
      rw [hp.same state counted behind (by rw [first]; exact ends) within, first]
    | failed error middle =>
      rw [first] at ends
      rw [hp.same state counted behind (by rw [first]; exact ends) within, first]
    | outOfFuel => rw [first] at ends; cases ends

/-- A frame that starts its body at `enter state`, does with what the body comes to as
    it will, and only adds to the journal behind it. -/
theorem frame {p q : Run Value} {around : Run Value → Run Value} (enter : State → State)
    (hp : Unhindered limit p q)
    (level : (around p).Along State.Level)
    (counted : ∀ state, state.Counted → (enter state).Counted)
    (adds : ∀ state behind, (around p state).state? = some behind →
      ∃ middle, (p (enter state)).state? = some middle ∧ middle.journal.toList <+: behind.journal.toList)
    (alike : ∀ state, q (enter state) = p (enter state) → around q state = around p state) :
    Unhindered limit (around p) (around q) where
  level := level
  same state start behind ends within := by
    obtain ⟨middle, inner, early⟩ := adds state behind ends
    exact alike state (hp.same _ (counted state start) middle inner (within.of_prefix early))

section

variable {p q : Run Value} (hp : Unhindered limit p q)
include hp

theorem untilReturn : Unhindered limit (Run.untilReturn p) (Run.untilReturn q) := by
  refine frame id hp hp.level.untilReturn (fun _ start => start) (fun state behind ends => ?_) fun state same => ?_
  · exact ⟨behind, (state?_untilReturn p state).symm.trans ends, List.prefix_refl _⟩
  · simp only [id] at same
    rw [Run.untilReturn, Run.untilReturn, same]

theorem nested : Unhindered limit (Run.nested p) (Run.nested q) := by
  refine frame beginCall hp (hp.level.nested .nested) (fun _ start => start.beginCall) (fun state behind ends => ?_)
    fun state same => ?_
  · rw [state?_nested, Option.map_eq_some_iff] at ends
    obtain ⟨middle, inner, rfl⟩ := ends
    exact ⟨middle, inner, by simp [endCall, State.note]⟩
  · rw [Run.nested, Run.nested, same]

theorem handled (settings : Settings) (line : Nat) :
    Unhindered limit (Run.handled settings line p) (Run.handled settings line q) := by
  refine frame id hp (hp.level.handled .trans (Eval.keeps_level settings).report line) (fun _ start => start)
    (fun state behind ends => ?_) fun state same => ?_
  · unfold Run.handled at ends
    simp only [id]
    cases flow : p state with
    | failed error middle =>
      rw [flow] at ends
      refine ⟨middle, rfl, ?_⟩
      cases policy : settings.policy <;> rw [policy] at ends <;> cases ends
      · simp [State.report, State.note]
      · exact List.prefix_refl _
    | _ => rw [flow] at ends; cases ends <;> exact ⟨_, rfl, List.prefix_refl _⟩
  · simp only [id] at same
    rw [Run.handled, Run.handled, same]

theorem tested (label : String) : Unhindered limit (Run.tested label p) (Run.tested label q) := by
  refine frame (·.note .testBegins) hp (hp.level.tested fun inside _ => inside.tested)
    (fun state start => (State.level_testBegins state).counted start)
    (fun state behind ends => ?_) fun state same => ?_
  · unfold Run.tested at ends
    cases flow : p (state.note .testBegins) <;> simp only [flow] at ends <;> cases ends <;>
      exact ⟨_, rfl, by simp [conclude, State.note]⟩
  · rw [Run.tested, Run.tested, same]

end

end Unhindered

end Run

namespace Eval

variable {settings : Settings} {limit : Nat}

/-- Where the depth allows of one more call, the check of the depth is passed. -/
theorem checkDepth_of_room {state : State}
    (room : ∀ most, settings.maxCallDepth = some most → state.callDepth < most) :
    Run.checkDepth settings state = .value () state := by
  rcases Run.checkDepth_cases settings state with ⟨passed, -⟩ | ⟨limit, -, limited, full⟩
  · exact passed
  · exact absurd full (Nat.not_le_of_lt (room limit limited))

theorem checkDepth_of_full {state : State} (limited : settings.maxCallDepth = some limit)
    (full : limit ≤ state.callDepth) :
    Run.checkDepth settings state = .failed (.tooDeep limit) state := by
  rcases Run.checkDepth_cases settings state with ⟨-, room⟩ | ⟨most, refused, isMost, -⟩
  · exact absurd full (Nat.not_le_of_lt (room limit limited))
  · rw [refused, Option.some.inj (isMost.symm.trans limited)]

/-- Where there is room for a call, it opens its scope and runs its body. -/
theorem called_of_room {state : State}
    (room : ∀ most, settings.maxCallDepth = some most → state.callDepth < most)
    (outer : ScopeId) (pairs : List (String × Value)) (body : ScopeId → Run Value) :
    called settings outer pairs body state =
      Run.untilReturn (Run.nested (body (state.heap.enclose outer).1))
        { state with heap := ((state.heap.enclose outer).2.defineAll (state.heap.enclose outer).1 pairs) } := by
  simp only [called, Run.andThen, checkDepth_of_room room]
  rfl

/-- A call that has ended was open for some time. -/
theorem lt_of_called {p : Run Value} (level : p.Along State.Level) {state behind : State}
    (counted : state.Counted)
    (ends : (Run.untilReturn (Run.nested p) state).state? = some behind)
    (within : behind.journal.NestsWithin limit) :
    state.callDepth < limit := by
  rw [Run.state?_untilReturn, Run.state?_nested, Option.map_eq_some_iff] at ends
  obtain ⟨middle, inner, rfl⟩ := ends
  have opened := within.openAfter_le (level _ middle inner).begins
  rw [Event.openAfter_append_singleton] at opened
  rw [counted]
  exact opened

/-- A call that a run with the limit refuses is one too deep. -/
theorem unhindered_call (free : settings.maxCallDepth = none) (outer : ScopeId)
    (pairs : List (String × Value))
    {body body' : ScopeId → Run Value}
    (inside : ∀ scope, Run.Unhindered limit (body scope) (body' scope)) :
    Run.Unhindered limit (called settings outer pairs body)
      (called { settings with maxCallDepth := some limit } outer pairs body') where
  level := @Congruence.Joint.call _ _ _ (keeps_level settings).congruence.joint outer pairs body body' fun scope =>
    (inside scope).level
  same state counted behind ends within := by
    have unlimited : ∀ most, settings.maxCallDepth = some most → state.callDepth < most := by simp [free]
    rw [called_of_room unlimited] at ends ⊢
    -- opening the scope of the call leaves the journal and the depth as they are
    have opened : State.Counted { state with heap :=
        (state.heap.enclose outer).2.defineAll (state.heap.enclose outer).1 pairs } := counted
    have room := lt_of_called (inside _).level opened ends within
    rw [called_of_room (by rintro _ ⟨⟩; exact room)]
    exact (inside _).nested.untilReturn.same _ opened behind ends within

/-- Every step of a run without a limit has a like one in a run with a limit that is not
    reached. -/
theorem unhindered (free : settings.maxCallDepth = none) (limit : Nat) :
    Congruence.Joint settings { settings with maxCallDepth := some limit } fun p q => Run.Unhindered limit p q :=
  have level := (keeps_level settings).congruence
  { testMode := rfl
    stop := .refl level.stop
    done := fun result => .refl (level.done result)
    andThen := fun hp hf => hp.andThen hf
    fail := fun error => .refl (level.fail error)
    leave := fun result => .refl (level.leave result)
    ask := fun question => .refl (level.ask question)
    assign := fun scope name value => .refl (level.assign scope name value)
    define := fun scope name value => .refl (level.define scope name value)
    setField := fun id name value => .refl (level.setField id name value)
    addObject := fun definition => .refl (level.addObject definition)
    callBuiltin := fun primitive arguments => .refl (level.callBuiltin primitive arguments)
    handled := fun line _ _ hp => hp.handled settings line
    tested := fun label _ _ _ _ _ hp => hp.tested label
    call := fun outer pairs _ _ inside => unhindered_call free outer pairs inside }

end Eval

open Eval in
/-- A run that ends without a limit of the call depth, and never has more calls open
    than `limit`, comes to the same with that limit. -/
theorem evalProgram_limited {settings : Settings} (free : settings.maxCallDepth = none)
    {limit fuel : Nat}
    {program : Program} {scope : ScopeId} {state behind : State} {result : Except EvalError Value}
    (counted : state.Counted)
    (ends : evalProgram settings fuel program scope state = some (result, behind))
    (within : behind.journal.NestsWithin limit) :
    evalProgram { settings with maxCallDepth := some limit } fuel program scope state = some (result, behind) := by
  have same := (((unhindered free limit).evaluation fuel).block scope .null program.statements).same state counted
  rcases evalProgram_cases ends with ⟨value, rfl, flow | flow⟩ | ⟨error, last, flow, rfl, rfl⟩
  · rw [evalProgram, same behind (by rw [flow]; rfl) within, flow]
  · rw [evalProgram, same behind (by rw [flow]; rfl) within, flow]
  · have early : last.journal.NestsWithin limit := within.of_prefix (by simp [State.report, State.note])
    rw [evalProgram, same last (by rw [flow]; rfl) early, flow]

end Lantern
