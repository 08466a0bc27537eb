/-
  Lantern.Proofs.Parse.Stable — when formatting what was formatted changes nothing.

  The canonical text of a program need not read as that program. `(a = 1) + 2` is
  written `(a = 1 + 2)`, which is an assignment of a sum and written `a = (1 + 2)`; the
  string of `("x⏎y")(1)` ends its line, so that the call is read as two statements.
  Nothing else goes wrong: formatting is stable on the steady programs, and on no
  others.

  A steady program has a twin of the same text whose parts stay together, and that twin
  is what the text reads as (`Program.readsBack`). The other way round, a program that
  is written like the one its text was taken from is read from its own layout, so its
  parts stay together (`apart_of_reads`); and programs of one layout are steady or not
  together.

  Main statement:

  - `format_stable_iff`: the canonical text of the program of a clean source reads
    without an error, as as many statements, and is the canonical text of what it reads
    as, if and only if the program is steady.
-/

import Lantern.Proofs.Parse.Levels
import Lantern.Proofs.Parse.RoundTrip
import Lantern.Proofs.Syntax.Watch

namespace Lantern

open Survey (lexical apart steady)

def Program.reread (program : Program) : Parsed := parseSource program.render

/-- What is read from the canonical text of a steady program has the same text. -/
theorem Program.stable_of_steady {p : Program} (ok : p.meets lexical) (calm : p.meets steady) :
    p.reread.errors = [] ∧ p.reread.program.length = p.length ∧ p.reread.program.render = p.render := by
  obtain ⟨twin, marks, length, lexicalToo, together⟩ := Program.twin calm
  have okTwin : twin.meets lexical := lexicalToo.trans ok
  have text : twin.render = p.render := (Program.render_eq_iff okTwin ok).2 marks
  obtain ⟨list, line, same, reads⟩ := Program.readsBack okTwin together
  rw [text] at reads
  obtain ⟨clean, built⟩ := parse_of_reads (scan_last p.render) reads
  have back : p.reread.program.bare = twin.bare := by
    rw [← same, ← built]
    rfl
  obtain ⟨render, count⟩ := Program.render_congr back
  exact ⟨clean, count.trans length, render.trans text⟩

/-- A program whose canonical text reads as something with the same text is steady. -/
theorem Program.steady_of_stable {p : Program} (ok : p.meets lexical) (clean : p.reread.errors = [])
    (same : p.reread.program.render = p.render) : p.meets steady := by
  have marks : p.reread.program.marks = p.marks := (Program.render_eq_iff (lexical_parse clean) ok).1 same
  obtain ⟨line, reads⟩ := parse_reads (scan_last p.render) clean
  -- the text was taken from `p`, but its tokens are those of the layout of what was read
  have itself : (scan p.render).tokens = Mark.tokens 1 (Stmt.marksLines p.reread.program.statements) := by
    rw [scan_render ok, Program.marks_eq_iff.1 marks]
  have together : p.reread.program.meets apart := Grammar.apart_of_reads reads itself
  rw [← Program.steady_congr marks]
  exact Stmt.allMeet_of_covers Survey.steady_covers _ together

theorem format_stable_iff {source : String} (clean : (parseSource source).errors = []) :
    ((parseSource source).program.reread.errors = [] ∧
        (parseSource source).program.reread.program.length = (parseSource source).program.length ∧
        (parseSource source).program.reread.program.render = (parseSource source).program.render) ↔
      (parseSource source).program.meets steady := by
  have ok := lexical_parse clean
  constructor
  · rintro ⟨again, -, same⟩
    exact Program.steady_of_stable ok again same
  · exact Program.stable_of_steady ok

theorem groupedAssignment_not_steady :
    (parseSource groupedAssignment).program.meets steady = false := by
  rw [parseSource, groupedAssignment_scan]
  rfl

theorem format_unstable_groupedAssignment :
    (parseSource groupedAssignment).errors = [] ∧
      ¬ ((parseSource groupedAssignment).program.reread.errors = [] ∧
        (parseSource groupedAssignment).program.reread.program.length = (parseSource groupedAssignment).program.length ∧
        (parseSource groupedAssignment).program.reread.program.render = (parseSource groupedAssignment).program.render) := by
  refine ⟨groupedAssignment_clean, fun stable => ?_⟩
  have calm := (format_stable_iff groupedAssignment_clean).1 stable
  rw [groupedAssignment_not_steady] at calm
  cases calm

end Lantern
