/-
  Lantern.Proofs.Parse.Levels — what is read from its own layout.

  A program need not be laid out like the tokens it was read from: reading drops
  parentheses that group, and the layout has parentheses of its own. `levels` says how
  many parentheses are open at each other token. An assignment that is an operand was
  read from a group, so its `=` is deeper than the operator; in the layout both are
  equally deep. So a program that is laid out like the tokens it was read from has no
  assignment there, and for the same reason it calls and indexes no string that runs
  over lines.

  `Tracks` is what one reading says about the kinds read and the kinds of the layout of
  its node: they hold as many other tokens, their parentheses balance, nothing read is
  less deep than where reading started, and if the levels are the same, or the layout is
  the shallower one by as much everywhere, the node is as asked for.

  Main statement:

  - `apart_of_reads`: the parts of a program that is laid out like the tokens it was
    read from stay together.
-/

import Mathlib.Data.List.Chain
import Lantern.Proofs.Parse.Yield

namespace Lantern

/-! ## Levels -/

def Kind.rise : Kind → Int
  | .lparen => 1
  | .rparen => -1
  | _ => 0

def rise : List Kind → Int
  | [] => 0
  | kind :: kinds => kind.rise + rise kinds

/-- The number of open parentheses at each token that is none, if there are `level` at
    the start. -/
def levels (level : Int) : List Kind → List Int
  | [] => []
  | kind :: kinds => if kind.isRound then levels (level + kind.rise) kinds else level :: levels level kinds

def solids (kinds : List Kind) : Nat := kinds.countP fun kind => !kind.isRound

@[simp] theorem rise_nil : rise [] = 0 := rfl

@[simp] theorem rise_cons (kind : Kind) (kinds : List Kind) :
    rise (kind :: kinds) = kind.rise + rise kinds := rfl

@[simp] theorem rise_append (kinds more : List Kind) :
    rise (kinds ++ more) = rise kinds + rise more := by
  induction kinds with
  | nil => simp
  | cons kind kinds ih => simp [ih]; omega

theorem Kind.rise_eq_zero {kind : Kind} (solid : kind.isRound = false) : kind.rise = 0 := by
  cases kind <;> first | rfl | cases solid

@[simp] theorem levels_nil (level : Int) : levels level [] = [] := rfl

@[simp] theorem levels_lparen (level : Int) (kinds : List Kind) :
    levels level (.lparen :: kinds) = levels (level + 1) kinds := rfl

@[simp] theorem levels_rparen (level : Int) (kinds : List Kind) :
    levels level (.rparen :: kinds) = levels (level - 1) kinds := rfl

theorem levels_solid {kind : Kind} (solid : kind.isRound = false) (level : Int)
    (kinds : List Kind) :
    levels level (kind :: kinds) = level :: levels level kinds := by
  simp [levels, solid]

theorem levels_append (level : Int) (kinds more : List Kind) :
    levels level (kinds ++ more) = levels level kinds ++ levels (level + rise kinds) more := by
  induction kinds generalizing level with
  | nil => simp
  | cons kind kinds ih =>
    cases round : kind.isRound with
    | true => simp [levels, round, ih, Int.add_assoc]
    | false => simp [levels, round, ih, Kind.rise_eq_zero round]

@[simp] theorem levels_length (level : Int) (kinds : List Kind) :
    (levels level kinds).length = solids kinds := by
  induction kinds generalizing level with
  | nil => rfl
  | cons kind kinds ih =>
    cases round : kind.isRound with
    | true => simp [levels, round, ih, solids]
    | false => simp [levels, round, ih, solids]

@[simp] theorem solids_nil : solids [] = 0 := rfl

@[simp] theorem solids_append (kinds more : List Kind) :
    solids (kinds ++ more) = solids kinds + solids more :=
  List.countP_append

@[simp] theorem solids_lparen (kinds : List Kind) : solids (.lparen :: kinds) = solids kinds := rfl

@[simp] theorem solids_rparen (kinds : List Kind) : solids (.rparen :: kinds) = solids kinds := rfl

theorem solids_solid {kind : Kind} (solid : kind.isRound = false) (kinds : List Kind) :
    solids (kind :: kinds) = solids kinds + 1 := by
  simp [solids, solid]

/-! ## Readings and layouts side by side -/

/-- What a reading of the kinds `read` says about a node whose layout is `laid`, with
    `n` parentheses left open. -/
structure Tracks (read laid : List Kind) (n : Int) (P : Prop) : Prop where
  solids : solids read = Lantern.solids laid
  rise : rise read = n
  rise_laid : Lantern.rise laid = n
  floor : ∀ level, ∀ l ∈ levels level read, level ≤ l
  shown : ∀ a b, b ≤ a → levels a read = levels b laid → P

def Raised (read : List Kind) : Prop := ∀ level, ∀ l ∈ levels level read, level + 1 ≤ l

def Based (laid : List Kind) : Prop := ∀ level, level ∈ levels level laid

namespace Tracks

variable {read laid read' laid' : List Kind} {n : Int} {P Q : Prop}

theorem imp (h : Tracks read laid n P) (f : P → Q) : Tracks read laid n Q :=
  { h with shown := fun a b le same => f (h.shown a b le same) }

theorem laid_as {laid' : List Kind} (h : Tracks read laid n P) (eq : laid' = laid) :
    Tracks read laid' n P := eq ▸ h

theorem nil : Tracks [] [] 0 True where
  solids := rfl
  rise := rfl
  rise_laid := rfl
  floor := by simp
  shown _ _ _ _ := trivial

theorem append (h : Tracks read laid 0 P) (h' : Tracks read' laid' n Q) :
    Tracks (read ++ read') (laid ++ laid') n (P ∧ Q) where
  solids := by rw [solids_append, solids_append, h.solids, h'.solids]
  rise := by rw [rise_append, h.rise, h'.rise, Int.zero_add]
  rise_laid := by rw [rise_append, h.rise_laid, h'.rise_laid, Int.zero_add]
  floor level l mem := by
    rw [levels_append, h.rise, Int.add_zero, List.mem_append] at mem
    rcases mem with mem | mem
    · exact h.floor level l mem
    · exact h'.floor level l mem
  shown a b le same := by
    rw [levels_append, levels_append, h.rise, h.rise_laid, Int.add_zero, Int.add_zero] at same
    obtain ⟨first, second⟩ := List.append_inj same (by rw [levels_length, levels_length, h.solids])
    exact ⟨h.shown a b le first, h'.shown a b le second⟩

theorem one (kind : Kind) : Tracks [kind] [kind] kind.rise True where
  solids := rfl
  rise := by simp
  rise_laid := by simp
  floor level l mem := by
    cases round : kind.isRound with
    | true => simp [levels, round] at mem
    | false => simp [levels, round] at mem; omega
  shown _ _ _ _ := trivial

theorem solid (kind : Kind) (solid : kind.isRound = false) : Tracks [kind] [kind] 0 True := by
  simpa only [Kind.rise_eq_zero solid] using one kind

theorem cons (kind : Kind) (solid : kind.isRound = false) (h : Tracks read laid n P) :
    Tracks (kind :: read) (kind :: laid) n P :=
  ((Tracks.solid kind solid).append h).imp And.right

/-- Parentheses that are in the layout too. -/
theorem opened (h : Tracks read laid n P) : Tracks (.lparen :: read) (.lparen :: laid) (n + 1) P where
  solids := h.solids
  rise := by rw [rise_cons, h.rise, Int.add_comm]; rfl
  rise_laid := by rw [rise_cons, h.rise_laid, Int.add_comm]; rfl
  floor level l mem := by
    have := h.floor (level + 1) l mem
    omega
  shown a b le same := h.shown (a + 1) (b + 1) (by omega) same

/-- Parentheses that group. -/
theorem group (h : Tracks read laid 0 P) : Tracks (.lparen :: (read ++ [.rparen])) laid 0 P where
  solids := by simpa using h.solids
  rise := by rw [rise_cons, rise_append, h.rise]; rfl
  rise_laid := h.rise_laid
  floor level l mem := by
    rw [levels_lparen, levels_append, levels_rparen, levels_nil, List.append_nil] at mem
    have := h.floor (level + 1) l mem
    omega
  shown a b le same := by
    rw [levels_lparen, levels_append, levels_rparen, levels_nil, List.append_nil] at same
    exact h.shown (a + 1) b (by omega) same

theorem raised (h : Tracks read laid 0 P) : Raised (.lparen :: (read ++ [.rparen])) := by
  intro level l mem
  rw [levels_lparen, levels_append, levels_rparen, levels_nil, List.append_nil] at mem
  exact h.floor (level + 1) l mem

/-- An operator, in parentheses of its own in the layout. Its operands are as deep as in
    what was read. -/
theorem node (kind : Kind) (solid : kind.isRound = false) (h : Tracks read laid 0 P)
    (h' : Tracks read' laid' 0 Q) :
    Tracks (read ++ kind :: read') (.lparen :: (laid ++ kind :: (laid' ++ [.rparen]))) 0 (P ∧ Q) where
  solids := by simp [solids_solid solid, h.solids, h'.solids]
  rise := (h.append (h'.cons kind solid)).rise
  rise_laid := by
    rw [rise_cons, rise_append, rise_cons, rise_append, h.rise_laid, h'.rise_laid, Kind.rise_eq_zero solid]
    rfl
  floor := (h.append (h'.cons kind solid)).floor
  shown a b le same := by
    rw [levels_lparen, levels_append, levels_append, h.rise, h.rise_laid, levels_solid solid, levels_solid solid,
      levels_append, levels_rparen, levels_nil, List.append_nil] at same
    obtain ⟨first, rest⟩ := List.append_inj same (by rw [levels_length, levels_length, h.solids])
    obtain ⟨here, second⟩ := List.cons.inj rest
    have deep : b + 1 ≤ a := by omega
    simp only [Int.add_zero] at second
    exact ⟨h.shown a (b + 1) deep first, h'.shown a (b + 1) deep second⟩

/-- What is in parentheses where the layout has none is ruled out. -/
theorem clear {A : Prop} (h : Tracks read laid n P) (grouped : A → Raised read ∧ Based laid) :
    Tracks read laid n (P ∧ ¬A) where
  __ := h
  shown a b le same := by
    refine ⟨h.shown a b le same, fun holds => ?_⟩
    obtain ⟨raised, based⟩ := grouped holds
    have deep := raised a b (same ▸ based b)
    omega

end Tracks

/-! ## The kinds of a layout -/

def Mark.kinds : List Mark → List Kind
  | [] => []
  | .token kind _ :: marks => kind :: kinds marks
  | _ :: marks => kinds marks

section

variable (marks more : List Mark)

@[simp] theorem Mark.kinds_nil : Mark.kinds [] = [] := rfl

@[simp] theorem Mark.kinds_gap : Mark.kinds (.gap :: marks) = Mark.kinds marks := rfl

@[simp] theorem Mark.kinds_newline : Mark.kinds (.newline :: marks) = Mark.kinds marks := rfl

@[simp] theorem Mark.kinds_token (kind : Kind) (text : String) :
    Mark.kinds (.token kind text :: marks) = kind :: Mark.kinds marks := rfl

@[simp] theorem Mark.kinds_of (kind : Kind) :
    Mark.kinds (.of kind :: marks) = kind :: Mark.kinds marks := rfl

@[simp] theorem Mark.kinds_name (name : Identifier) :
    Mark.kinds (name.mark :: marks) = .ident :: Mark.kinds marks := rfl

@[simp] theorem Mark.kinds_append :
    Mark.kinds (marks ++ more) = Mark.kinds marks ++ Mark.kinds more := by
  induction marks with
  | nil => rfl
  | cons mark marks ih => cases mark with
    | gap | newline => exact ih
    | token kind text => exact congrArg (kind :: ·) ih

theorem Mark.kinds_tokens (line : Nat) :
    (Mark.tokens line marks).map (·.kind) = Mark.kinds marks := by
  induction marks generalizing line with
  | nil => rfl
  | cons mark marks ih => cases mark with
    | gap => exact ih line
    | newline => exact ih (line + 1)
    | token kind text => exact congrArg (kind :: ·) (ih _)

end

/-! ## Lines -/

/-- No token starts before the one ahead of it ends. -/
def Laid (tokens : List Token) : Prop :=
  tokens.IsChain fun t u => t.line + newlines t.text.toList ≤ u.line

theorem Mark.laid_tokens (line : Nat) (marks : List Mark) :
    Laid (Mark.tokens line marks) ∧ ∀ t ∈ (Mark.tokens line marks).head?, line ≤ t.line := by
  induction marks generalizing line with
  | nil => exact ⟨.nil, by simp [Mark.tokens]⟩
  | cons mark marks ih => cases mark with
    | gap => exact ih line
    | newline =>
      obtain ⟨laid, first⟩ := ih (line + 1)
      exact ⟨laid, fun t mem => Nat.le_of_succ_le (first t mem)⟩
    | token kind text =>
      obtain ⟨laid, first⟩ := ih (line + newlines text.toList)
      refine ⟨List.isChain_cons.2 ⟨first, laid⟩, ?_⟩
      intro t mem
      cases mem
      exact Nat.le_refl _

namespace Grammar

open Survey (apart)

def Place.kinds (c : Place) : List Kind := c.ahead.map (·.kind)

variable {last : Token} {c c' : Place} {φ : Phrase} {kind : Kind} {t : Token}

theorem Reads.kinds_token (h : Reads last c (.token kind t) c') : c.kinds = kind :: c'.kinds := by
  obtain ⟨eq, ahead, -⟩ := h.token_inv
  rw [Place.kinds, ahead, List.map_cons, eq]
  rfl

theorem Reads.shows_token (h : Reads last c (.token kind t) c') : c.shows kind := by
  obtain ⟨eq, ahead, -⟩ := h.token_inv
  simp [Place.shows, ahead, eq]

theorem Reads.laid_token (h : Reads last c (.token kind t) c') (laid : Laid c.ahead) :
    Laid c'.ahead := by
  obtain ⟨-, ahead, -⟩ := h.token_inv
  rw [ahead] at laid
  exact laid.of_cons

/-! ## Every reading -/

def Phrase.rise : Phrase → Int
  | .token kind _ | .expressions kind _ | .moreExpressions kind _ => kind.rise
  | .moreParameters _ => -1
  | _ => 0

/-- If the expression is an assignment it was read from a group, unless nothing could
    extend it; and if it is a string over several lines, it was read from a group or
    ends its line. -/
structure Kept (min : Precedence) (c' : Place) (read : List Kind) (e : Expr) : Prop where
  based : e.isAssignment → Based (Mark.kinds e.marks)
  grouped : e.isAssignment → Raised read ∨ min = .lowest ∧ c'.extends? .lowest = false
  broken : e.isBrokenString → Raised read ∨ ∀ u ∈ c'.ahead.head?, c'.line < u.line

def Phrase.Tracked (c c' : Place) (read : List Kind) : Phrase → Prop
  | .operand e => Tracks read (Mark.kinds e.marks) 0 (e.meets apart) ∧ Kept .unary c' read e
  | .climbing min e | .expression min e => Tracks read (Mark.kinds e.marks) 0 (e.meets apart) ∧ Kept min c' read e
  | .extension left e => ∀ before, Tracks before (Mark.kinds left.marks) 0 (left.meets apart) →
      (left.isAssignment → Raised before ∧ Based (Mark.kinds left.marks)) →
      (left.isBrokenString → c.shows .lparen ∨ c.shows .lbracket → Raised before) →
      Tracks (before ++ read) (Mark.kinds e.marks) 0 (e.meets apart) ∧ e.isBrokenString = false ∧
        (e.isAssignment → Based (Mark.kinds e.marks) ∧ c.shows .assign ∧ c'.extends? .lowest = false)
  | φ => Tracks read (Mark.kinds φ.marks) φ.rise (φ.Meets apart)

section

variable {min : Precedence} {read : List Kind} {e : Expr}

theorem Place.extends?_lowest (h : c.extends? min) : c.extends? .lowest := by
  obtain ⟨line, ahead⟩ := c
  cases ahead with
  | nil => exact h
  | cons t ts =>
    simp only [Place.extends?, Precedence.below, Bool.and_eq_true, decide_eq_true_eq] at h ⊢
    exact ⟨Nat.lt_of_le_of_lt (Nat.zero_le _) h.1, h.2⟩

theorem Place.extends?_assign (h : c.extends? min) (shows : c.shows .assign) : min = .lowest := by
  obtain ⟨line, ahead⟩ := c
  cases ahead with
  | nil => cases h
  | cons t ts =>
    have kind : t.kind = .assign := by simpa [Place.shows] using shows
    simp only [Place.extends?, kind, Bool.and_eq_true] at h
    cases min <;> first | rfl | cases h.1

theorem Place.extends?_bracket (h : c.extends? min) (shows : c.shows .lparen ∨ c.shows .lbracket) :
    ∃ u ∈ c.ahead.head?, ¬ c.line < u.line := by
  obtain ⟨line, ahead⟩ := c
  cases ahead with
  | nil => cases h
  | cons t ts =>
    have kind : t.kind = .lparen ∨ t.kind = .lbracket := by simpa [Place.shows] using shows
    simp only [Place.extends?, Bool.and_eq_true] at h
    refine ⟨t, rfl, ?_⟩
    rcases kind with kind | kind <;> simpa [kind] using h.2

theorem Kept.plain (noAssignment : e.isAssignment = false) (noString : e.isBrokenString = false) :
    Kept min c' read e where
  based holds := by rw [noAssignment] at holds; cases holds
  grouped holds := by rw [noAssignment] at holds; cases holds
  broken holds := by rw [noString] at holds; cases holds

theorem Kept.clear (h : Kept min c' read e) (tight : min ≠ .lowest) (holds : e.isAssignment) :
    Raised read ∧ Based (Mark.kinds e.marks) :=
  ⟨(h.grouped holds).resolve_right fun loose => tight loose.1, h.based holds⟩

end

theorem Target.apart_of_target? {left : Expr} {target : Target} (h : target? left = some target)
    (ok : left.meets apart) : target.meets apart := by
  cases left <;> cases h
  · exact ok
  · exact ok

theorem based_of_isBrokenString {e : Expr} (holds : e.isBrokenString) :
    Based (Mark.kinds e.marks) := by
  intro level
  cases e with
  | string => exact List.mem_cons_self
  | _ => cases holds

theorem based_of_assign {laid : List Kind} (even : rise laid = 0) (rest : List Kind) :
    Based (laid ++ .assign :: rest) := by
  intro level
  rw [levels_append, even, Int.add_zero, levels_solid rfl]
  exact List.mem_append_right _ List.mem_cons_self

/-! ### One form at a time -/

section

variable {read read' : List Kind} {left right value e : Expr}

/-- A string that runs over lines ends its line: what comes next starts behind it. -/
theorem Kept.string (token : Reads last c (.token .str t) c') (laid : Laid c.ahead) :
    Kept .unary c' [.str] (.string t t.text) where
  based assigns := by cases assigns
  grouped assigns := by cases assigns
  broken broken := by
    obtain ⟨-, ahead, line⟩ := token.token_inv
    refine Or.inr fun u next => ?_
    rw [ahead] at laid
    have later := (List.isChain_cons.1 laid).1 u next
    have lines : 0 < newlines t.text.toList := List.count_pos_iff.2 (by simpa [Expr.isBrokenString] using broken)
    rw [line]
    omega

/-- What an extension says about the spine it extends. An assignment that something
    extends was read from a group, and so was a string that runs over lines if it is
    called or indexed. -/
theorem Phrase.tracked_climb {min : Precedence} {c₁ : Place}
    (tracks : Tracks read (Mark.kinds left.marks) 0 (left.meets apart))
    (kept : Kept min c₁ read left)
    (more : c₁.extends? min) (wider : (Phrase.extension left e).Tracked c₁ c' read') :
    (Phrase.climbing min e).Tracked c c' (read ++ read') := by
  have assigns (holds : left.isAssignment) : Raised read ∧ Based (Mark.kinds left.marks) := by
    refine ⟨(kept.grouped holds).resolve_right fun loose => ?_, kept.based holds⟩
    rw [Place.extends?_lowest more] at loose
    cases loose.2
  have breaks (holds : left.isBrokenString) (bracket : c₁.shows .lparen ∨ c₁.shows .lbracket) : Raised read := by
    refine (kept.broken holds).resolve_right fun ends => ?_
    obtain ⟨u, next, sameLine⟩ := Place.extends?_bracket more bracket
    exact sameLine (ends u next)
  obtain ⟨whole, noString, assignment⟩ := wider read tracks assigns breaks
  refine ⟨whole, fun holds => (assignment holds).1, fun holds => ?_, fun holds => ?_⟩
  · obtain ⟨-, shows, ends⟩ := assignment holds
    exact Or.inr ⟨Place.extends?_assign more shows, ends⟩
  · rw [noString] at holds
    cases holds

theorem Phrase.tracked_assignment {target : Target} (shows : c.shows .assign)
    (ends : c'.extends? .lowest = false)
    (found : target? left = some target)
    (tracks : Tracks read (Mark.kinds value.marks) 0 (value.meets apart)) :
    (Phrase.extension left (.assignment t target value)).Tracked c c' (.assign :: read) := by
  intro before tracked _ _
  have layout := Target.marks_of_target? found
  have whole := tracked.append (tracks.cons .assign rfl)
  have based := based_of_assign tracked.rise_laid (Mark.kinds value.marks)
  refine ⟨(whole.imp fun both => ?_).laid_as (by simp [Expr.marks, layout]), rfl, fun _ => ⟨?_, shows, ends⟩⟩
  · simp [Expr.meets, Target.apart_of_target? found both.1, both.2]
  · simpa [Expr.marks, layout] using based

theorem Phrase.tracked_call {arguments : List Expr} (shows : c.shows .lparen)
    (tracks : (Phrase.expressions .rparen arguments).Tracked c c' read) :
    (Phrase.extension left (.call t left arguments)).Tracked c c' (.lparen :: read) := by
  intro before tracked assigns breaks
  have callee := (tracked.clear assigns).clear fun holds => ⟨breaks holds (Or.inl shows), based_of_isBrokenString holds⟩
  have whole := callee.append (Tracks.opened tracks)
  refine ⟨(whole.imp ?_).laid_as (by simp [Expr.marks, Phrase.marks]), rfl, fun holds => by cases holds⟩
  simp +contextual [Expr.meets, Phrase.Meets]

theorem Phrase.tracked_index {position : Expr} (shows : c.shows .lbracket)
    (tracks : Tracks read (Mark.kinds position.marks) 0 (position.meets apart)) :
    (Phrase.extension left (.index t left position)).Tracked c c'
    (.lbracket :: (read ++ [.rbracket])) := by
  intro before tracked assigns breaks
  have object := (tracked.clear assigns).clear fun holds => ⟨breaks holds (Or.inr shows), based_of_isBrokenString holds⟩
  have inner := tracks.append (Tracks.solid .rbracket rfl)
  have whole := Tracks.node .lbracket rfl object inner
  refine ⟨(whole.imp ?_).laid_as (by simp [Expr.marks]), rfl, fun holds => by cases holds⟩
  simp +contextual [Expr.meets]

theorem Phrase.tracked_field (name : Identifier) :
    (Phrase.extension left (.field t left name)).Tracked c c' [.dot, .ident] := by
  intro before tracked assigns _
  have whole := Tracks.node .dot rfl (tracked.clear assigns) (Tracks.solid .ident rfl)
  refine ⟨(whole.imp ?_).laid_as (by simp [Expr.marks]), rfl, fun holds => by cases holds⟩
  simp +contextual [Expr.meets]

theorem Phrase.tracked_binary {op : InfixOp}
    (tracks : Tracks read (Mark.kinds right.marks) 0 (right.meets apart))
    (kept : Kept (.of op.kind) c' read right) :
    (Phrase.extension left (.binary t left op right)).Tracked c c' (op.kind :: read) := by
  intro before tracked assigns _
  have tight : Precedence.of op.kind ≠ .lowest := by cases op <;> decide
  have solid : op.kind.isRound = false := by cases op <;> rfl
  have whole := Tracks.node _ solid (tracked.clear assigns) (tracks.clear (kept.clear tight))
  refine ⟨(whole.imp ?_).laid_as (by simp [Expr.marks]), rfl, fun holds => by cases holds⟩
  simp +contextual [Expr.meets]

/-- The operand of a prefix operator is in the parentheses of the operator, whatever it
    was read from. -/
theorem Phrase.tracked_unary {op : PrefixOp}
    (tracks : Tracks read (Mark.kinds right.marks) 0 (right.meets apart))
    (kept : Kept .unary c' read right) :
    (Phrase.operand (.unary t op right)).Tracked c c' (op.kind :: read) := by
  have solid : op.kind.isRound = false := by cases op <;> rfl
  have whole := Tracks.node op.kind solid .nil (tracks.clear (kept.clear (by decide)))
  refine ⟨(whole.imp ?_).laid_as (by simp [Expr.marks]), .plain rfl rfl⟩
  simp +contextual [Expr.meets]

end

/-! ### Every form -/

theorem Reads.tracked (h : Reads last c φ c') (laid : Laid c.ahead) :
    ∃ read, c.kinds = read ++ c'.kinds ∧ Laid c'.ahead ∧ φ.Tracked c c' read := by
  induction h with
  | @token kind line t ts eq => exact ⟨[kind], by simp [Place.kinds, eq], laid.of_cons, Tracks.one kind⟩
  | lastParameter close =>
    exact ⟨[.rparen], close.kinds_token, close.laid_token laid, (Tracks.one .rparen).imp fun _ => rfl⟩
  | nextParameter comma name _ _ _ ih =>
    obtain ⟨read, kinds, laid', tracks⟩ := ih (name.laid_token (comma.laid_token laid))
    refine ⟨.comma :: .ident :: read, by rw [comma.kinds_token, name.kinds_token, kinds]; rfl, laid', ?_⟩
    have whole := (tracks.cons .ident rfl).cons .comma rfl
    exact whole.imp (by simp [Phrase.Meets])
  | noParameters open_ close =>
    refine ⟨[.lparen, .rparen], by rw [open_.kinds_token, close.kinds_token]; rfl,
      close.laid_token (open_.laid_token laid), ?_⟩
    exact (Tracks.one .rparen).opened.imp fun _ => rfl
  | someParameters open_ name _ _ _ ih =>
    obtain ⟨read, kinds, laid', tracks⟩ := ih (name.laid_token (open_.laid_token laid))
    refine ⟨.lparen :: .ident :: read, by rw [open_.kinds_token, name.kinds_token, kinds]; rfl, laid', ?_⟩
    have whole := (tracks.cons .ident rfl).opened
    exact whole.imp (by simp [Phrase.Meets])
  | identifier token =>
    exact ⟨[.ident], token.kinds_token, token.laid_token laid, (Tracks.solid _ rfl).imp fun _ => rfl, .plain rfl rfl⟩
  | integer token =>
    exact ⟨[.int], token.kinds_token, token.laid_token laid, (Tracks.solid _ rfl).imp fun _ => rfl, .plain rfl rfl⟩
  | string token =>
    exact ⟨[.str], token.kinds_token, token.laid_token laid, (Tracks.solid _ rfl).imp fun _ => rfl, .string token laid⟩
  | truth token | falsity token =>
    exact ⟨[_], token.kinds_token, token.laid_token laid, (Tracks.solid _ rfl).imp fun _ => rfl, .plain rfl rfl⟩
  | negation token _ _ ih =>
    obtain ⟨read, kinds, laid', tracks, kept⟩ := ih (token.laid_token laid)
    exact ⟨.minus :: read, by rw [token.kinds_token, kinds]; rfl, laid', @Phrase.tracked_unary _ _ _ _ _ .neg tracks kept⟩
  | complement token _ _ ih =>
    obtain ⟨read, kinds, laid', tracks, kept⟩ := ih (token.laid_token laid)
    exact ⟨.bang :: read, by rw [token.kinds_token, kinds]; rfl, laid', @Phrase.tracked_unary _ _ _ _ _ .not tracks kept⟩
  | group open_ _ close _ ih =>
    obtain ⟨read, kinds, laid', tracks, kept⟩ := ih (open_.laid_token laid)
    refine ⟨.lparen :: (read ++ [.rparen]), by rw [open_.kinds_token, kinds, close.kinds_token]; simp,
      close.laid_token laid', tracks.group, kept.based, fun _ => Or.inl tracks.raised, fun _ => Or.inl tracks.raised⟩
  | array open_ _ _ ih =>
    obtain ⟨read, kinds, laid', tracks⟩ := ih (open_.laid_token laid)
    refine ⟨.lbracket :: read, by rw [open_.kinds_token, kinds]; rfl, laid', ?_, .plain rfl rfl⟩
    have whole := tracks.cons .lbracket rfl
    exact (whole.imp (by simp +contextual [Expr.meets, Phrase.Meets])).laid_as (by simp [Expr.marks, Phrase.marks])
  | conditional word _ then_ _ _ _ end_ _ ihTest _ ihBody ihArms ihElse _ =>
    obtain ⟨read₁, kinds₁, laid₁, tested, -⟩ := ihTest (word.laid_token laid)
    obtain ⟨read₂, kinds₂, laid₂, body⟩ := ihBody (then_.laid_token laid₁)
    obtain ⟨read₃, kinds₃, laid₃, arms⟩ := ihArms laid₂
    obtain ⟨read₄, kinds₄, laid₄, alternative⟩ := ihElse laid₃
    refine ⟨.ifWord :: (read₁ ++ .thenWord :: (read₂ ++ (read₃ ++ (read₄ ++ [.endWord])))), ?_, end_.laid_token laid₄,
      ?_, .plain rfl rfl⟩
    · rw [word.kinds_token, kinds₁, then_.kinds_token, kinds₂, kinds₃, kinds₄, end_.kinds_token]; simp
    have rest := body.append (arms.append (alternative.append (Tracks.solid .endWord rfl)))
    have whole := (tested.append (rest.cons .thenWord rfl)).cons .ifWord rfl
    exact (whole.imp (by simp +contextual [Expr.meets, Phrase.Meets])).laid_as (by simp [Expr.marks, Phrase.marks])
  | lambda word _ _ ih =>
    obtain ⟨read, kinds, laid', tracks⟩ := ih (word.laid_token laid)
    refine ⟨.fnWord :: read, by rw [word.kinds_token, kinds]; rfl, laid', ?_, .plain rfl rfl⟩
    have whole := tracks.cons .fnWord rfl
    exact (whole.imp (by simp +contextual [Expr.meets, Phrase.Meets])).laid_as (by simp [Expr.marks, Phrase.marks])
  | start _ ih =>
    obtain ⟨read, kinds, laid', tracks, kept⟩ := ih laid
    exact ⟨read, kinds, laid', tracks, kept.based, fun assigns => Or.inl (kept.clear (by decide) assigns).1,
      kept.broken⟩
  | climb _ more _ ihLeft ihWider =>
    obtain ⟨read, kinds, laid₁, tracks, kept⟩ := ihLeft laid
    obtain ⟨read', kinds', laid', wider⟩ := ihWider laid₁
    refine ⟨read ++ read', by rw [kinds, kinds', List.append_assoc], laid', ?_⟩
    exact Phrase.tracked_climb tracks kept more wider
  | expression _ _ ih => exact ih laid
  | assignment token value found _ ih =>
    obtain ⟨read, kinds, laid', tracks, -⟩ := ih (token.laid_token laid)
    refine ⟨.assign :: read, by rw [token.kinds_token, kinds]; rfl, laid', ?_⟩
    cases value with
    | expression _ ends => exact Phrase.tracked_assignment token.shows_token ends found tracks
  | call token _ _ ih =>
    obtain ⟨read, kinds, laid', tracks⟩ := ih (token.laid_token laid)
    refine ⟨.lparen :: read, by rw [token.kinds_token, kinds]; rfl, laid', ?_⟩
    exact Phrase.tracked_call token.shows_token tracks
  | index token _ close _ ih =>
    obtain ⟨read, kinds, laid', tracks, -⟩ := ih (token.laid_token laid)
    refine ⟨.lbracket :: (read ++ [.rbracket]), ?_, close.laid_token laid', ?_⟩
    · rw [token.kinds_token, kinds, close.kinds_token]; simp
    · exact Phrase.tracked_index token.shows_token tracks
  | field token name =>
    refine ⟨[.dot, .ident], ?_, name.laid_token (token.laid_token laid), Phrase.tracked_field _⟩
    rw [token.kinds_token, name.kinds_token]; rfl
  | binary token writes _ _ ih =>
    obtain rfl := InfixOp.kind_of_ofKind? writes
    obtain ⟨read, kinds, laid', tracks, kept⟩ := ih (token.laid_token laid)
    exact ⟨_ :: read, by rw [token.kinds_token, kinds]; rfl, laid', Phrase.tracked_binary tracks kept⟩
  | noExpressions _ token | lastExpression _ token =>
    exact ⟨[_], token.kinds_token, token.laid_token laid, (Tracks.one _).imp fun _ => rfl⟩
  | someExpressions _ _ ihFirst ihRest =>
    obtain ⟨read, kinds, laid₁, first, -⟩ := ihFirst laid
    obtain ⟨read', kinds', laid', rest⟩ := ihRest laid₁
    refine ⟨read ++ read', by rw [kinds, kinds', List.append_assoc], laid', ?_⟩
    exact ((first.append rest).imp (by simp [Phrase.Meets, Expr.allMeet])).laid_as (by simp [Phrase.marks, Expr.marksAll])
  | nextExpression comma _ _ _ ihFirst ihRest =>
    obtain ⟨read, kinds, laid₁, next, -⟩ := ihFirst (comma.laid_token laid)
    obtain ⟨read', kinds', laid', rest⟩ := ihRest laid₁
    refine ⟨.comma :: (read ++ read'), by rw [comma.kinds_token, kinds, kinds']; simp, laid', ?_⟩
    have whole := (next.append rest).cons .comma rfl
    exact (whole.imp (by simp [Phrase.Meets, Expr.allMeet])).laid_as (by simp [Phrase.marks, Expr.marksMore])
  | noElifs | noOtherwise | noStatements | noMethods => exact ⟨[], rfl, laid, Tracks.nil.imp fun _ => rfl⟩
  | someElifs word _ then_ _ _ _ ihTest _ ihBody ihRest =>
    obtain ⟨read₁, kinds₁, laid₁, tested, -⟩ := ihTest (word.laid_token laid)
    obtain ⟨read₂, kinds₂, laid₂, body⟩ := ihBody (then_.laid_token laid₁)
    obtain ⟨read₃, kinds₃, laid₃, rest⟩ := ihRest laid₂
    refine ⟨.elifWord :: (read₁ ++ .thenWord :: (read₂ ++ read₃)), ?_, laid₃, ?_⟩
    · rw [word.kinds_token, kinds₁, then_.kinds_token, kinds₂, kinds₃]; simp
    have whole := (tested.append ((body.append rest).cons .thenWord rfl)).cons .elifWord rfl
    exact (whole.imp (by simp +contextual [Elif.allMeet, Phrase.Meets])).laid_as (by simp [Phrase.marks, Elif.marksAll])
  | someOtherwise word _ _ ih =>
    obtain ⟨read, kinds, laid', tracks⟩ := ih (word.laid_token laid)
    refine ⟨.elseWord :: read, by rw [word.kinds_token, kinds]; rfl, laid', ?_⟩
    have whole := tracks.cons .elseWord rfl
    exact (whole.imp (by simp [Phrase.Meets, Block.elseMeets])).laid_as (by simp [Phrase.marks, Block.marksElse])
  | block _ ih => exact ih laid
  | someStatements _ _ ihFirst ihRest =>
    obtain ⟨read, kinds, laid₁, first⟩ := ihFirst laid
    obtain ⟨read', kinds', laid', rest⟩ := ihRest laid₁
    refine ⟨read ++ read', by rw [kinds, kinds', List.append_assoc], laid', ?_⟩
    exact ((first.append rest).imp (by simp [Phrase.Meets, Stmt.allMeet])).laid_as (by simp [Phrase.marks, Stmt.marksLines])
  | returning word _ _ ih =>
    obtain ⟨read, kinds, laid', tracks, -⟩ := ih (word.laid_token laid)
    refine ⟨.returnWord :: read, by rw [word.kinds_token, kinds]; rfl, laid', ?_⟩
    exact (tracks.cons .returnWord rfl).laid_as (by simp [Phrase.marks, Stmt.marks])
  | whileLoop word _ then_ _ end_ _ ihTest _ ihBody _ =>
    obtain ⟨read₁, kinds₁, laid₁, tested, -⟩ := ihTest (word.laid_token laid)
    obtain ⟨read₂, kinds₂, laid₂, body⟩ := ihBody (then_.laid_token laid₁)
    refine ⟨.whileWord :: (read₁ ++ .thenWord :: (read₂ ++ [.endWord])), ?_, end_.laid_token laid₂, ?_⟩
    · rw [word.kinds_token, kinds₁, then_.kinds_token, kinds₂, end_.kinds_token]; simp
    have rest := body.append (Tracks.solid .endWord rfl)
    have whole := (tested.append (rest.cons .thenWord rfl)).cons .whileWord rfl
    exact (whole.imp (by simp +contextual [Stmt.meets, Phrase.Meets])).laid_as (by simp [Phrase.marks, Stmt.marks])
  | test word label _ end_ _ _ ih _ =>
    obtain ⟨read, kinds, laid', body⟩ := ih (label.laid_token (word.laid_token laid))
    refine ⟨.testWord :: .str :: (read ++ [.endWord]), ?_, end_.laid_token laid', ?_⟩
    · rw [word.kinds_token, label.kinds_token, kinds, end_.kinds_token]; simp
    have rest := body.append (Tracks.solid .endWord rfl)
    have whole := (rest.cons .str rfl).cons .testWord rfl
    exact (whole.imp (by simp +contextual [Stmt.meets, Phrase.Meets])).laid_as (by simp [Phrase.marks, Stmt.marks])
  | classDefinition word name _ end_ _ _ ih _ =>
    obtain ⟨read, kinds, laid', members⟩ := ih (name.laid_token (word.laid_token laid))
    refine ⟨.classWord :: .ident :: (read ++ [.endWord]), ?_, end_.laid_token laid', ?_⟩
    · rw [word.kinds_token, name.kinds_token, kinds, end_.kinds_token]; simp
    have rest := members.append (Tracks.solid .endWord rfl)
    have whole := (rest.cons .ident rfl).cons .classWord rfl
    exact (whole.imp (by simp +contextual [Stmt.meets, Phrase.Meets])).laid_as (by simp [Phrase.marks, Stmt.marks])
  | function _ ih => exact ih laid
  | plain _ ih =>
    obtain ⟨read, kinds, laid', tracks, -⟩ := ih laid
    exact ⟨read, kinds, laid', tracks⟩
  | functionStatement word name _ _ _ ih =>
    obtain ⟨read, kinds, laid', literal⟩ := ih (name.laid_token (word.laid_token laid))
    refine ⟨.fnWord :: .ident :: read, by rw [word.kinds_token, name.kinds_token, kinds]; rfl, laid', ?_⟩
    have whole := (literal.cons .ident rfl).cons .fnWord rfl
    exact (whole.imp (by simp [FunctionStatement.meets, Phrase.Meets])).laid_as (by simp [Phrase.marks, FunctionStatement.marks])
  | functionLiteral _ _ end_ ihParameters ihBody _ =>
    obtain ⟨read, kinds, laid₁, parameters⟩ := ihParameters laid
    obtain ⟨read', kinds', laid', body⟩ := ihBody laid₁
    refine ⟨read ++ (read' ++ [.endWord]), by rw [kinds, kinds', end_.kinds_token]; simp, end_.laid_token laid', ?_⟩
    have whole := parameters.append (body.append (Tracks.solid .endWord rfl))
    exact (whole.imp (by simp [FunctionLiteral.meets, Phrase.Meets])).laid_as (by simp [Phrase.marks, FunctionLiteral.marks])
  | someMethods _ _ ihFirst ihRest =>
    obtain ⟨read, kinds, laid₁, method⟩ := ihFirst laid
    obtain ⟨read', kinds', laid', members⟩ := ihRest laid₁
    refine ⟨read ++ read', by rw [kinds, kinds', List.append_assoc], laid', ?_⟩
    have whole := method.append members
    exact (whole.imp (by simp [FunctionStatement.allMeet, Phrase.Meets])).laid_as
      (by simp [Phrase.marks, FunctionStatement.marksLines])

/-- Statements that are read from their own layout stay together. -/
theorem apart_of_reads {list : List Stmt} {line end_ : Nat}
    (h : Reads last c (.statements [] list) ⟨end_, []⟩)
    (itself : c.ahead = Mark.tokens line (Stmt.marksLines list)) : Stmt.allMeet apart list := by
  obtain ⟨read, kinds, -, tracks⟩ := h.tracked (itself ▸ (Mark.laid_tokens line _).1)
  have same : read = Mark.kinds (Stmt.marksLines list) := by
    rw [← Mark.kinds_tokens _ line, ← itself]
    exact (kinds.trans (List.append_nil read)).symm
  exact tracks.shown 0 0 (Int.le_refl 0) (same ▸ rfl)

end Grammar

end Lantern
