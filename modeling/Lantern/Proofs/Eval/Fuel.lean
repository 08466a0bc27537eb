/-
  Lantern.Proofs.Eval.Fuel — how much fuel a run is given does not show, once it is
  enough.

  `Run.Extends p q`: wherever `p` ends, `q` comes to the same. Every step extends
  itself, sequencing and the frames keep it, and to run out of fuel is extended by
  everything; so evaluation with more fuel extends evaluation with less
  (`Eval.block_more`). With that a block can be run in parts: what is enough fuel for
  either part is, put together, enough for both (`Eval.block_append`).
-/

import Lantern.Proofs.Eval.Steps

namespace Lantern

open Run

/-- Wherever the first run ends, the second comes to the same. -/
def Run.Extends {α : Type} (p q : Run α) : Prop := ∀ state, p state ≠ .outOfFuel → q state = p state

namespace Run

theorem Extends.refl {α : Type} (p : Run α) : p.Extends p := fun _ _ => rfl

theorem Extends.andThen {α β : Type} {p q : Run α} {f g : α → Run β} (hp : p.Extends q)
    (hf : ∀ result, (f result).Extends (g result)) : (p.andThen f).Extends (q.andThen g) := by
  intro state ends
  unfold Run.andThen at ends ⊢
  have first : p state ≠ .outOfFuel := fun out => by simp [out] at ends
  rw [hp state first]
  cases flow : p state with
  | value result behind =>
    rw [flow] at ends
    exact hf result behind ends
  | _ => rfl

section

variable {p q : Run Value} (hp : p.Extends q)
include hp

theorem Extends.untilReturn : (Run.untilReturn p).Extends (Run.untilReturn q) := by
  intro state ends
  have inner : p state ≠ .outOfFuel := fun out => by simp [Run.untilReturn, out] at ends
  rw [Run.untilReturn, Run.untilReturn, hp _ inner]

theorem Extends.nested : (Run.nested p).Extends (Run.nested q) := by
  intro state ends
  have inner : p (beginCall state) ≠ .outOfFuel := fun out => by simp [Run.nested, out] at ends
  rw [Run.nested, Run.nested, hp _ inner]

theorem Extends.handled (settings : Settings) (line : Nat) :
    (Run.handled settings line p).Extends (Run.handled settings line q) := by
  intro state ends
  have inner : p state ≠ .outOfFuel := fun out => by simp [Run.handled, out] at ends
  rw [Run.handled, Run.handled, hp _ inner]

theorem Extends.tested (label : String) : (Run.tested label p).Extends (Run.tested label q) := by
  intro state ends
  have inner : p (state.note .testBegins) ≠ .outOfFuel := fun out => by simp [Run.tested, out] at ends
  rw [Run.tested, Run.tested, hp _ inner]

end

end Run

namespace Eval

theorem steps_extend (settings : Settings) : Congruence settings settings Run.Extends where
  testMode := rfl
  stop := .refl _
  done _ := .refl _
  andThen := .andThen
  fail _ := .refl _
  leave _ := .refl _
  ask _ := .refl _
  assign _ _ _ := .refl _
  define _ _ _ := .refl _
  setField _ _ _ := .refl _
  enclose _ := .refl _
  defineAll _ _ := .refl _
  addObject _ := .refl _
  callBuiltin _ _ := .refl _
  checkDepth := .refl _
  untilReturn := .untilReturn
  nested := .nested
  handled line _ _ hp := hp.handled settings line
  tested label _ _ _ _ _ hp := hp.tested label

/-- More fuel changes nothing. -/
theorem extends_of_le (settings : Settings) {fuel fuel' : Nat} (le : fuel ≤ fuel') :
    Congruence.At settings settings Run.Extends fuel fuel' :=
  (steps_extend settings).evaluation_le (fun _ _ ends => absurd rfl ends) le

variable {settings : Settings} {fuel fuel' : Nat} {scope : ScopeId} {first result : Value} {list more : List Stmt}
  {state middle : State}

theorem block_more (le : fuel ≤ fuel')
    (ends : block settings fuel scope first list state ≠ .outOfFuel) :
    block settings fuel' scope first list state = block settings fuel scope first list state :=
  (extends_of_le settings le).block scope first list state ends

/-- What a block comes to where there is a statement does not depend on what it would
    come to where there is none. -/
theorem block_first (other : Value)
    (ends : block settings fuel scope first list state = .value result middle) :
    ∃ result', block settings fuel scope other list state = .value result' middle := by
  cases fuel with
  | zero => cases ends
  | succ fuel =>
    cases list with
    | nil => cases ends; exact ⟨other, rfl⟩
    | cons => exact ⟨result, ends⟩

theorem block_cons (settings : Settings) (fuel : Nat) (scope : ScopeId) (first : Value)
    (head : Stmt) (list : List Stmt) :
    block settings (fuel + 1) scope first (head :: list) =
      (handled settings head.token.line (statement settings fuel scope head)).andThen fun value =>
        block settings fuel scope value list := rfl

/-- A block whose first part ends goes on with the second part, from there. -/
theorem block_append (ends : block settings fuel scope first list state = .value result middle)
    (ends' : block settings fuel' scope result more middle ≠ .outOfFuel) :
    block settings (fuel + fuel') scope first (list ++ more) state = block settings fuel' scope result more middle := by
  induction fuel generalizing first list state with
  | zero => cases ends
  | succ fuel ih =>
    cases list with
    | nil =>
      cases ends
      exact block_more (Nat.le_add_left ..) ends'
    | cons head list =>
      have le : fuel ≤ fuel + fuel' := Nat.le_add_right ..
      have here := ((extends_of_le settings le).statement scope head).handled settings head.token.line state
      rw [Nat.succ_add, List.cons_append, block_cons]
      rw [block_cons] at ends
      unfold andThen at ends ⊢
      cases flow : handled settings head.token.line (statement settings fuel scope head) state with
      | value value behind =>
        rw [here (by rw [flow]; nofun), flow]
        rw [flow] at ends
        exact ih ends
      | _ => rw [flow] at ends; cases ends

end Eval

end Lantern
