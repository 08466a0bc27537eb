/-
  Lantern.Proofs.Syntax.Watch — a layout shows whether it is steady.

  `Watch` reads a layout from left to right. For every bracket, word or line that is
  open it keeps whether an `=` or an operator stood there (`Frame`), and it keeps what
  stands right before it (`Behind`). It stops where an operator and an `=` meet in one
  frame, and at a bracket right behind a string that runs over lines. Operators, dots
  and the brackets of an index have parentheses of their own in a canonical text, so
  what meets in one frame is what `Survey.steady` forbids.

  Main statements:

  - `Program.accepts_marks`: the layout of a program is read to its end if and only if
    the program is steady.
  - `Program.steady_congr`: programs of one layout are steady or not together.
-/

import Lantern.Proofs.Syntax.Steady

namespace Lantern

open Survey (steady)

/-! ## Reading a layout -/

/-- What stands right before a place: nothing a bracket belongs to, an operand, or a
    string that runs over lines. -/
inductive Behind where
  | blank
  | operand
  | broken
  deriving DecidableEq, Repr

def Behind.isBroken : Behind → Bool
  | broken => true
  | blank | operand => false

/-- What stood at one depth so far: neither an `=` nor an operator, an `=`, or an
    operator. -/
inductive Frame where
  | plain
  | assigned
  | operated
  deriving DecidableEq, Repr

def Frame.isAssigned : Frame → Bool
  | assigned => true
  | plain | operated => false

def Frame.isOperated : Frame → Bool
  | operated => true
  | plain | assigned => false

@[simp] theorem Behind.isBroken_blank : blank.isBroken = false := rfl

@[simp] theorem Behind.isBroken_operand : operand.isBroken = false := rfl

@[simp] theorem Behind.isBroken_broken : broken.isBroken = true := rfl

@[simp] theorem Frame.isAssigned_plain : plain.isAssigned = false := rfl

@[simp] theorem Frame.isAssigned_assigned : assigned.isAssigned = true := rfl

@[simp] theorem Frame.isOperated_plain : plain.isOperated = false := rfl

@[simp] theorem Frame.isOperated_assigned : assigned.isOperated = false := rfl

@[simp] theorem Frame.isOperated_operated : operated.isOperated = true := rfl

inductive Role where
  | operand
  | equals
  | operator
  | opener
  | bracket
  | closer
  | other
  deriving DecidableEq, Repr

def Kind.role : Kind → Role
  | .ident | .int | .str | .trueWord | .falseWord => .operand
  | .assign => .equals
  | .plus | .minus | .star | .slash | .percent | .bang | .eqEq | .notEq | .lt | .ltEq | .gt | .gtEq | .andAnd | .orOr | .amp
  | .pipe | .dot => .operator
  | .lparen | .ifWord | .whileWord | .fnWord | .testWord | .classWord => .opener
  | .lbracket => .bracket
  | .rparen | .rbracket | .endWord => .closer
  | .comma | .thenWord | .elifWord | .elseWord | .returnWord | .eof | .illegal => .other

structure Watch where
  behind : Behind
  inner : Frame
  outer : List Frame
  deriving DecidableEq, Repr

namespace Watch

def step (w : Watch) : Mark → Option Watch
  | .gap => some ⟨.blank, w.inner, w.outer⟩
  | .newline => some ⟨.blank, .plain, w.outer⟩
  | .token kind text =>
    match kind.role with
    | .operand => some ⟨bif kind == .str && text.toList.contains '\n' then .broken else .operand, w.inner, w.outer⟩
    | .equals => if w.inner.isOperated then none else some ⟨.blank, .assigned, w.outer⟩
    | .operator => if w.inner.isAssigned then none else some ⟨.blank, .operated, w.outer⟩
    | .opener => if w.behind.isBroken then none else some ⟨.blank, .plain, w.inner :: w.outer⟩
    | .bracket =>
      match w.behind with
      | .blank => some ⟨.blank, .plain, w.inner :: w.outer⟩
      | .operand => if w.inner.isAssigned then none else some ⟨.blank, .plain, .operated :: w.outer⟩
      | .broken => none
    | .closer =>
      match w.outer with
      | [] => none
      | frame :: frames => some ⟨.operand, frame, frames⟩
    | .other => some ⟨.blank, w.inner, w.outer⟩

def accepts (w : Watch) : List Mark → Bool
  | [] => true
  | mark :: marks =>
    match w.step mark with
    | some w' => w'.accepts marks
    | none => false

section

variable {behind : Behind} {frame : Frame} {frames : List Frame} {rest : List Mark}

@[simp] theorem accepts_gap :
    accepts ⟨behind, frame, frames⟩ (.gap :: rest) = accepts ⟨.blank, frame, frames⟩ rest := rfl

@[simp] theorem accepts_newline :
    accepts ⟨behind, frame, frames⟩ (.newline :: rest) = accepts ⟨.blank, .plain, frames⟩ rest := rfl

@[simp] theorem accepts_name (name : Identifier) :
    accepts ⟨behind, frame, frames⟩ (name.mark :: rest) = accepts ⟨.operand, frame, frames⟩ rest := rfl

/-- The label of a test ends with its line. -/
theorem accepts_label (label : String) :
    accepts ⟨behind, frame, frames⟩ (.token .str label :: .newline :: rest) =
      accepts ⟨.blank, .plain, frames⟩ rest := rfl

@[simp] theorem accepts_equals :
    accepts ⟨behind, frame, frames⟩ (.of .assign :: rest) =
      (!frame.isOperated && accepts ⟨.blank, .assigned, frames⟩ rest) := by
  cases frame <;> rfl

theorem accepts_operator {kind : Kind} (role : kind.role = .operator) :
    accepts ⟨behind, frame, frames⟩ (.of kind :: rest) =
      (!frame.isAssigned && accepts ⟨.blank, .operated, frames⟩ rest) := by
  simp only [accepts, Mark.of, step, role]
  cases frame <;> rfl

theorem accepts_opener {kind : Kind} (role : kind.role = .opener) :
    accepts ⟨behind, frame, frames⟩ (.of kind :: rest) =
      (!behind.isBroken && accepts ⟨.blank, .plain, frame :: frames⟩ rest) := by
  simp only [accepts, Mark.of, step, role]
  cases behind <;> rfl

theorem accepts_closer {kind : Kind} (role : kind.role = .closer) {outer : Frame} :
    accepts ⟨behind, frame, outer :: frames⟩ (.of kind :: rest) = accepts ⟨.operand, outer, frames⟩ rest := by
  simp only [accepts, Mark.of, step, role]

theorem accepts_other {kind : Kind} (role : kind.role = .other) :
    accepts ⟨behind, frame, frames⟩ (.of kind :: rest) = accepts ⟨.blank, frame, frames⟩ rest := by
  simp only [accepts, Mark.of, step, role]

/-- The bracket of an array. -/
theorem accepts_array :
    accepts ⟨.blank, frame, frames⟩ (.of .lbracket :: rest) = accepts ⟨.blank, .plain, frame :: frames⟩ rest := rfl

/-- The bracket of an index. -/
theorem accepts_index (broken : Bool) :
    accepts ⟨bif broken then .broken else .operand, frame, frames⟩ (.of .lbracket :: rest) =
      (!broken && !frame.isAssigned && accepts ⟨.blank, .plain, .operated :: frames⟩ rest) := by
  cases broken <;> cases frame <;> rfl

end

end Watch

/-! ## Layouts of programs -/

open Watch

theorem Identifier.accepts_marksMore (names : List Identifier) {behind : Behind}
    {inner frame : Frame}
    {frames : List Frame} {rest : List Mark} :
    accepts ⟨behind, inner, frame :: frames⟩ (Identifier.marksMore names ++ .of .rparen :: rest) =
      accepts ⟨.operand, frame, frames⟩ rest := by
  induction names generalizing behind with
  | nil => exact accepts_closer rfl
  | cons name names ih =>
    simp only [Identifier.marksMore, List.cons_append]
    rw [accepts_other rfl, accepts_gap, accepts_name, ih]

theorem Identifier.accepts_marksAll (names : List Identifier) {behind : Behind}
    {inner frame : Frame}
    {frames : List Frame} {rest : List Mark} :
    accepts ⟨behind, inner, frame :: frames⟩ (Identifier.marksAll names ++ .of .rparen :: rest) =
      accepts ⟨.operand, frame, frames⟩ rest := by
  cases names with
  | nil => exact accepts_closer rfl
  | cons name names => rw [Identifier.marksAll, List.cons_append, accepts_name, Identifier.accepts_marksMore]

mutual

theorem Expr.accepts_marks (e : Expr) (frame : Frame) (frames : List Frame) (rest : List Mark) :
    accepts ⟨.blank, frame, frames⟩ (e.marks ++ rest) =
      (e.meets steady && !(e.opensAssignment && frame.isOperated) &&
        accepts ⟨bif e.endsBroken then .broken else .operand, bif e.opensAssignment then .assigned else frame,
          frames⟩ rest) := by
  cases e with
  | integer | identifier => rfl
  | string _ value => rfl
  | boolean _ value => cases value <;> rfl
  | assignment _ target value =>
    simp only [Expr.marks, List.cons_append, List.append_assoc]
    rw [Target.accepts_marks target, accepts_gap, accepts_equals, accepts_gap, Expr.accepts_marks value]
    simp [Expr.meets, Expr.opensAssignment, Expr.endsBroken, Bool.and_assoc, Bool.and_left_comm]
  | binary _ left op right =>
    have role : op.kind.role = .operator := by cases op <;> rfl
    simp only [Expr.marks, List.cons_append, List.append_assoc, List.nil_append]
    rw [accepts_opener rfl, Expr.accepts_marks left, accepts_gap, accepts_operator role, accepts_gap,
      Expr.accepts_marks right, accepts_closer rfl]
    simp only [Expr.meets, Survey.steady_binary, Expr.opensAssignment, Expr.endsBroken]
    cases left.opensAssignment <;> cases right.opensAssignment <;> simp [Bool.and_assoc]
  | unary _ op operand =>
    have role : op.kind.role = .operator := by cases op <;> rfl
    simp only [Expr.marks, List.cons_append, List.append_assoc, List.nil_append]
    rw [accepts_opener rfl, accepts_operator role, Expr.accepts_marks operand, accepts_closer rfl]
    simp only [Expr.meets, Survey.steady_unary, Expr.opensAssignment, Expr.endsBroken]
    cases operand.opensAssignment <;> simp
  | call _ callee arguments =>
    simp only [Expr.marks, List.cons_append, List.append_assoc, List.nil_append]
    rw [Expr.accepts_marks callee, accepts_opener rfl, Expr.accepts_marksAll arguments rfl]
    simp only [Expr.meets, Survey.steady_call, Expr.opensAssignment, Expr.endsBroken]
    cases callee.endsBroken <;> simp [Bool.and_assoc, Bool.and_left_comm]
  | index _ left position =>
    simp only [Expr.marks, List.cons_append, List.append_assoc, List.nil_append]
    rw [accepts_opener rfl, Expr.accepts_marks left, accepts_index, Expr.accepts_marks position, accepts_closer rfl,
      accepts_closer rfl]
    simp only [Expr.meets, Survey.steady_index, Expr.opensAssignment, Expr.endsBroken]
    cases left.opensAssignment <;> cases left.endsBroken <;> simp [Bool.and_assoc]
  | field _ object name =>
    simp only [Expr.marks, List.cons_append, List.append_assoc, List.nil_append]
    rw [accepts_opener rfl, Expr.accepts_marks object, accepts_operator rfl, accepts_name, accepts_closer rfl]
    simp only [Expr.meets, Survey.steady_field, Expr.opensAssignment, Expr.endsBroken]
    cases object.opensAssignment <;> simp
  | array _ elements =>
    simp only [Expr.marks, List.cons_append, List.append_assoc, List.nil_append]
    rw [accepts_array, Expr.accepts_marksAll elements rfl]
    simp [Expr.meets, Expr.opensAssignment, Expr.endsBroken]
  | conditional _ condition consequence elifs alternative =>
    simp only [Expr.marks, List.cons_append, List.append_assoc, List.nil_append]
    rw [accepts_opener rfl, accepts_gap, Expr.accepts_marks condition, accepts_gap, accepts_other rfl, accepts_newline,
      Block.accepts_marks consequence, Elif.accepts_marksAll elifs, Block.accepts_marksElse alternative, accepts_closer rfl]
    simp [Expr.meets, Expr.opensAssignment, Expr.endsBroken, Bool.and_assoc]
  | lambda _ literal =>
    simp only [Expr.marks, List.cons_append]
    rw [accepts_opener rfl, FunctionLiteral.accepts_marks literal rfl]
    simp [Expr.meets, Expr.opensAssignment, Expr.endsBroken]

theorem Expr.accepts_marksMore (es : List Expr) {close : Kind} (role : close.role = .closer)
    (behind : Behind)
    {inner frame : Frame} {frames : List Frame} {rest : List Mark}
    (calm : inner.isOperated = false) :
    accepts ⟨behind, inner, frame :: frames⟩ (Expr.marksMore es ++ .of close :: rest) =
      (Expr.allMeet steady es && accepts ⟨.operand, frame, frames⟩ rest) := by
  cases es with
  | nil => exact accepts_closer role
  | cons e es =>
    have still : (bif e.opensAssignment then .assigned else inner : Frame).isOperated = false := by
      cases e.opensAssignment
      · exact calm
      · rfl
    simp only [Expr.marksMore, List.cons_append, List.append_assoc]
    rw [accepts_other rfl, accepts_gap, Expr.accepts_marks e, Expr.accepts_marksMore es role _ still, calm]
    simp [Expr.allMeet, Bool.and_assoc]

theorem Expr.accepts_marksAll (es : List Expr) {close : Kind} (role : close.role = .closer)
    {frame : Frame}
    {frames : List Frame}
    {rest : List Mark} :
    accepts ⟨.blank, .plain, frame :: frames⟩ (Expr.marksAll es ++ .of close :: rest) =
      (Expr.allMeet steady es && accepts ⟨.operand, frame, frames⟩ rest) := by
  cases es with
  | nil => exact accepts_closer role
  | cons e es =>
    have still : (bif e.opensAssignment then .assigned else .plain : Frame).isOperated = false := by
      cases e.opensAssignment <;> rfl
    rw [Expr.marksAll, List.append_assoc, Expr.accepts_marks e, Expr.accepts_marksMore es role _ still]
    simp [Expr.allMeet, Bool.and_assoc]

theorem Target.accepts_marks (target : Target) (frame : Frame) (frames : List Frame)
    (rest : List Mark) :
    accepts ⟨.blank, frame, frames⟩ (target.marks ++ rest) =
      (target.meets steady && accepts ⟨.operand, frame, frames⟩ rest) := by
  cases target with
  | identifier name => rfl
  | field _ object name =>
    simp only [Target.marks, List.cons_append, List.append_assoc, List.nil_append]
    rw [accepts_opener rfl, Expr.accepts_marks object, accepts_operator rfl, accepts_name, accepts_closer rfl]
    simp only [Target.meets, Survey.steady_target]
    cases object.opensAssignment <;> simp

theorem Elif.accepts_marksAll (arms : List Elif) {frames : List Frame} {rest : List Mark} :
    accepts ⟨.blank, .plain, frames⟩ (Elif.marksAll arms ++ rest) =
      (Elif.allMeet steady arms && accepts ⟨.blank, .plain, frames⟩ rest) := by
  cases arms with
  | nil => rfl
  | cons arm arms =>
    obtain ⟨condition, block⟩ := arm
    simp only [Elif.marksAll, List.cons_append, List.append_assoc]
    rw [accepts_other rfl, accepts_gap, Expr.accepts_marks condition, accepts_gap, accepts_other rfl, accepts_newline,
      Block.accepts_marks block, Elif.accepts_marksAll arms]
    simp [Elif.allMeet, Bool.and_assoc]

theorem Block.accepts_marksElse (alternative : Option Block) {frames : List Frame}
    {rest : List Mark} :
    accepts ⟨.blank, .plain, frames⟩ (Block.marksElse alternative ++ rest) =
      (Block.elseMeets steady alternative && accepts ⟨.blank, .plain, frames⟩ rest) := by
  cases alternative with
  | none => rfl
  | some block =>
    simp only [Block.marksElse, List.cons_append]
    rw [accepts_other rfl, accepts_newline, Block.accepts_marks block, Block.elseMeets]

theorem Block.accepts_marks (block : Block) {frames : List Frame} {rest : List Mark} :
    accepts ⟨.blank, .plain, frames⟩ (block.marks ++ rest) =
      (block.meets steady && accepts ⟨.blank, .plain, frames⟩ rest) := by
  obtain ⟨_, statements⟩ := block
  exact Stmt.accepts_marksLines statements

theorem FunctionLiteral.accepts_marks (literal : FunctionLiteral) {behind : Behind}
    {inner frame : Frame}
    {frames : List Frame} {rest : List Mark} (whole : behind.isBroken = false) :
    accepts ⟨behind, inner, frame :: frames⟩ (literal.marks ++ rest) =
      (literal.meets steady && accepts ⟨.operand, frame, frames⟩ rest) := by
  obtain ⟨parameters, body⟩ := literal
  simp only [FunctionLiteral.marks, List.cons_append, List.append_assoc, List.nil_append]
  rw [accepts_opener rfl, Identifier.accepts_marksAll, accepts_newline, Block.accepts_marks body, accepts_closer rfl]
  have named : parameters.all steady.name := by simp
  simp [FunctionLiteral.meets, whole, named]

theorem FunctionStatement.accepts_marks (definition : FunctionStatement) {frame : Frame}
    {frames : List Frame}
    {rest : List Mark} :
    accepts ⟨.blank, frame, frames⟩ (definition.marks ++ rest) =
      (definition.meets steady && accepts ⟨.operand, frame, frames⟩ rest) := by
  obtain ⟨_, name, literal⟩ := definition
  simp only [FunctionStatement.marks, List.cons_append]
  rw [accepts_opener rfl, accepts_gap, accepts_name, FunctionLiteral.accepts_marks literal rfl]
  simp [FunctionStatement.meets]

theorem FunctionStatement.accepts_marksLines (methods : List FunctionStatement)
    {frames : List Frame}
    {rest : List Mark} :
    accepts ⟨.blank, .plain, frames⟩ (FunctionStatement.marksLines methods ++ rest) =
      (FunctionStatement.allMeet steady methods && accepts ⟨.blank, .plain, frames⟩ rest) := by
  cases methods with
  | nil => rfl
  | cons method methods =>
    simp only [FunctionStatement.marksLines, List.cons_append, List.append_assoc]
    rw [FunctionStatement.accepts_marks method, accepts_newline, FunctionStatement.accepts_marksLines methods]
    simp [FunctionStatement.allMeet, Bool.and_assoc]

/-- Whatever a statement leaves behind it ends with its line. -/
theorem Stmt.accepts_marks (statement : Stmt) {frames : List Frame} {rest : List Mark} :
    accepts ⟨.blank, .plain, frames⟩ (statement.marks ++ .newline :: rest) =
      (statement.meets steady && accepts ⟨.blank, .plain, frames⟩ rest) := by
  cases statement with
  | expression _ value =>
    rw [Stmt.marks, Expr.accepts_marks value, accepts_newline]
    simp [Stmt.meets]
  | returning _ value =>
    simp only [Stmt.marks, List.cons_append]
    rw [accepts_other rfl, accepts_gap, Expr.accepts_marks value, accepts_newline]
    simp [Stmt.meets]
  | whileLoop _ condition body =>
    simp only [Stmt.marks, List.cons_append, List.append_assoc, List.nil_append]
    rw [accepts_opener rfl, accepts_gap, Expr.accepts_marks condition, accepts_gap, accepts_other rfl, accepts_newline,
      Block.accepts_marks body, accepts_closer rfl, accepts_newline]
    simp [Stmt.meets, Bool.and_assoc]
  | function definition =>
    rw [Stmt.marks, FunctionStatement.accepts_marks definition, accepts_newline, Stmt.meets]
  | classDefinition _ name methods =>
    simp only [Stmt.marks, List.cons_append, List.append_assoc, List.nil_append]
    rw [accepts_opener rfl, accepts_gap, accepts_name, accepts_newline, FunctionStatement.accepts_marksLines methods,
      accepts_closer rfl, accepts_newline]
    simp [Stmt.meets]
  | test _ label body =>
    simp only [Stmt.marks, List.cons_append, List.append_assoc, List.nil_append]
    rw [accepts_opener rfl, accepts_gap, accepts_label, Block.accepts_marks body, accepts_closer rfl, accepts_newline]
    simp [Stmt.meets]

theorem Stmt.accepts_marksLines (statements : List Stmt) {frames : List Frame} {rest : List Mark} :
    accepts ⟨.blank, .plain, frames⟩ (Stmt.marksLines statements ++ rest) =
      (Stmt.allMeet steady statements && accepts ⟨.blank, .plain, frames⟩ rest) := by
  cases statements with
  | nil => rfl
  | cons statement statements =>
    simp only [Stmt.marksLines, List.cons_append, List.append_assoc]
    rw [Stmt.accepts_marks statement, Stmt.accepts_marksLines statements]
    simp [Stmt.allMeet, Bool.and_assoc]

end

/-- The layout of a program is read to its end if and only if the program is steady. -/
theorem Program.accepts_marks (program : Program) :
    accepts ⟨.blank, .plain, []⟩ (Stmt.marksLines program.statements) = program.meets steady := by
  have whole : accepts ⟨.blank, .plain, []⟩ (Stmt.marksLines program.statements ++ []) = _ :=
    Stmt.accepts_marksLines program.statements
  simpa [accepts, Program.meets] using whole

/-- Programs that are laid out the same way are both steady, or neither of them is. -/
theorem Program.steady_congr {p q : Program} (same : p.marks = q.marks) :
    p.meets steady = q.meets steady := by
  rw [← p.accepts_marks, ← q.accepts_marks, Program.marks_eq_iff.1 same]

end Lantern
