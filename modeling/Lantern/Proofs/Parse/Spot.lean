/-
  Lantern.Proofs.Parse.Spot — places in a layout.

  A spot is a line in a layout together with the line of the token before it, which is
  all a place among the tokens keeps of what was read. `after` moves past marks, and
  `place` is the place among the tokens of the marks that follow.

  Three things settle how reading goes on at a spot: whether what follows stands on the
  line of the token before (`Level`), whether nothing there extends an expression
  (`Place.Ends`), and whether what follows can open a line of its own (`Fresh`).
-/

import Lantern.Proofs.Parse.Reading
import Lantern.Proofs.Syntax.Layout

namespace Lantern

open Grammar

structure Spot where
  /-- The line of the token before. -/
  previous : Nat
  /-- The line of what follows. -/
  line : Nat

namespace Spot

def past (s : Spot) : Mark → Spot
  | .gap => s
  | .newline => ⟨s.previous, s.line + 1⟩
  | .token _ text => ⟨s.line, s.line + newlines text.toList⟩

def after (s : Spot) (marks : List Mark) : Spot := marks.foldl past s

def place (s : Spot) (marks : List Mark) : Place := ⟨s.previous, Mark.tokens s.line marks⟩

@[simp] theorem past_gap (s : Spot) : s.past .gap = s := rfl

@[simp] theorem after_nil (s : Spot) : s.after [] = s := rfl

@[simp] theorem after_cons (s : Spot) (mark : Mark) (marks : List Mark) : s.after (mark :: marks) =
    (s.past mark).after marks := rfl

@[simp] theorem after_append (s : Spot) (marks more : List Mark) : s.after (marks ++ more) =
    (s.after marks).after more :=
  List.foldl_append

@[simp] theorem place_gap (s : Spot) (marks : List Mark) :
    s.place (.gap :: marks) = s.place marks := rfl

@[simp] theorem place_newline (s : Spot) (marks : List Mark) : s.place (.newline :: marks) =
    (s.past .newline).place marks := rfl

theorem reads_token {last : Token} (s : Spot) (kind : Kind) (text : String) (marks : List Mark) :
    Reads last (s.place (.token kind text :: marks)) (.token kind ⟨kind, text, s.line⟩)
      ((s.past (.token kind text)).place marks) :=
  .token _ _ rfl

def token (s : Spot) (kind : Kind) : Token := ⟨kind, kind.spelling, s.line⟩

def name (s : Spot) (name : Identifier) : Identifier := .ofToken ⟨.ident, name.name, s.line⟩

theorem reads_of {last : Token} (s : Spot) (kind : Kind) (marks : List Mark) :
    Reads last (s.place (.of kind :: marks)) (.token kind (s.token kind)) ((s.past (.of kind)).place marks) :=
  .token _ _ rfl

theorem reads_name {last : Token} (s : Spot) (name : Identifier) (marks : List Mark) :
    Reads last (s.place (name.mark :: marks)) (.token .ident ⟨.ident, name.name, s.line⟩) ((s.past name.mark).place marks) :=
  .token _ _ rfl

/-! ## Lines -/

def Level (s : Spot) : Prop := s.previous = s.line

def Ordered (s : Spot) : Prop := s.previous ≤ s.line

theorem past_ordered {s : Spot} (h : s.Ordered) (mark : Mark) : (s.past mark).Ordered := by
  cases mark with
  | gap => exact h
  | newline => exact Nat.le_succ_of_le h
  | token => exact Nat.le_add_right _ _

theorem after_ordered {s : Spot} (h : s.Ordered) (marks : List Mark) : (s.after marks).Ordered := by
  induction marks generalizing s with
  | nil => exact h
  | cons mark marks ih => exact ih (past_ordered h mark)

theorem past_level (s : Spot) {kind : Kind} {text : String} (oneLine : '\n' ∉ text.toList) :
    (s.past (.token kind text)).Level := by
  simp [Level, past, newlines, List.count_eq_zero.2 oneLine]

theorem past_of_level (s : Spot) (kind : Kind) : (s.past (.of kind)).Level := by
  refine s.past_level ?_
  cases kind <;> decide

end Spot

/-! ## Where expressions end -/

def Grammar.Place.Ends (place : Place) : Prop := ∀ min, place.extends? min = false

/-- The kinds that may open a line without continuing the one above. -/
def Kind.isFresh (kind : Kind) : Bool :=
  Precedence.of kind == .lowest || kind == .lparen || kind == .lbracket

def Fresh : List Mark → Prop
  | [] => True
  | .token kind _ :: _ => kind.isFresh
  | _ => False

/-- Nothing goes on with a token that does not bind. -/
theorem Grammar.Place.ends_loose {line : Nat} {t : Token} {ts : List Token}
    (loose : Precedence.of t.kind = .lowest) :
    Place.Ends ⟨line, t :: ts⟩ := by
  intro min
  simp [Place.extends?, loose, Precedence.below_lowest]

/-- Nothing goes on with a fresh one on a later line. -/
theorem Grammar.Place.ends_fresh {line : Nat} {t : Token} {ts : List Token} (fresh : t.kind.isFresh)
    (later : line < t.line) :
    Place.Ends ⟨line, t :: ts⟩ := by
  simp only [Kind.isFresh, Bool.or_eq_true, beq_iff_eq] at fresh
  rcases fresh with (loose | bracket) | bracket
  · exact ends_loose loose
  · intro min
    simp [Place.extends?, bracket, later]
  · intro min
    simp [Place.extends?, bracket, later]

namespace Spot

variable {s : Spot} {marks : List Mark}

theorem ends_of {kind : Kind} (loose : Precedence.of kind = .lowest) :
    (s.place (.of kind :: marks)).Ends :=
  Place.ends_loose loose

theorem ends_newline (ordered : s.Ordered) (fresh : Fresh marks) :
    (s.place (.newline :: marks)).Ends := by
  cases marks with
  | nil => exact fun _ => rfl
  | cons mark marks =>
    cases mark with
    | gap | newline => exact fresh.elim
    | token kind text =>
      have later : s.previous < s.line + 1 := Nat.lt_succ_of_le ordered
      exact Place.ends_fresh fresh later

/-- An operator, a dot or `=` extends what stands before it, if it binds tighter. -/
theorem extends_of {min : Precedence} {kind : Kind} (tight : min.below (.of kind))
    (noBracket : kind ≠ .lparen ∧ kind ≠ .lbracket) :
    (s.place (.of kind :: marks)).extends? min := by
  simp [place, Mark.tokens, Mark.of, Place.extends?, tight, noBracket]

/-- So does a bracket on the same line. -/
theorem extends_bracket {min : Precedence} {kind : Kind} (tight : min.below (.of kind))
    (level : s.Level) :
    (s.place (.of kind :: marks)).extends? min := by
  have sameLine : ¬ s.previous < s.line := by rw [show s.previous = s.line from level]; exact Nat.lt_irrefl _
  simp [place, Mark.tokens, Mark.of, Place.extends?, tight, sameLine]

end Spot

end Lantern
