/-
  Lantern.Proofs.Parse.Charge — parsing moves on, and every syntax error is charged to a
  token.

  A production that gives up may do so at a token it leaves where it is, and where the
  input ends every block that is open complains once more. Still there are never more
  errors than tokens: each error can be charged to a token that was passed, no token
  twice. A production that builds a node has charged all of its errors; an expression or
  a statement has a token to spare. One that gives up may owe one error, and whoever
  asked for it has passed a token that pays (`Reply.Charged`). What starts in front of a
  token owes nothing (`AllCharged`).
  - `allCharged`: every production keeps the books so, under every bound.
  - `statements_ends`, `statements_built`: the statements of a program or a block are
    always built, up to what closes them.
  - `parse_moves_on`: statements and expressions pass a token, whether they are built or
    not, and give up with an error; a parse passes every token and has no more errors
    than tokens.
-/

import Lantern.Proofs.Parse.Soundness

namespace Lantern

open Grammar

namespace Parser

/-- From `s` to `s'` all new errors but `debt` are charged to tokens passed, each to one
    of its own, and `credit` tokens are to spare. -/
structure Paid (debt credit : Nat) (s s' : Parser) : Prop where
  last : s'.cursor.last = s.cursor.last
  errors : s'.errors.size + credit + s.cursor.consumed ≤ s.errors.size + s'.cursor.consumed + debt

variable {a b c s s' : Parser} {debt debt' credit credit' d k : Nat}

theorem Paid.refl (s : Parser) : Paid 0 0 s s := ⟨rfl, Nat.le_refl _⟩

/-- A token to spare pays for an error that is owed later. -/
theorem Paid.trans (h : Paid debt credit a b) (h' : Paid debt' credit' b c)
    (covered : debt + debt' + k ≤ credit + credit' + d) : Paid d k a c := by
  refine ⟨h'.last.trans h.last, ?_⟩
  have := h.errors
  have := h'.errors
  omega

theorem Paid.mono (h : Paid debt credit s s') (owed : debt ≤ d) (spared : k ≤ credit) :
    Paid d k s s' :=
  h.trans (Paid.refl s') (by omega)

theorem paid_passed {t : Token} {ts : List Token} (h : s.cursor.ahead = t :: ts) :
    Paid 0 1 s s.passed := by
  rw [passed_eq h]
  refine ⟨rfl, ?_⟩
  simp only
  omega

theorem paid_record (s : Parser) (error : ParseError) :
    Paid 1 0 s { s with errors := s.errors.push error } := by
  refine ⟨rfl, ?_⟩
  simp only [Array.size_push]
  omega

/-- Passing tokens without an error. -/
theorem paid_of_onward (on : s.Onward k s') (same : s'.errors = s.errors) : Paid 0 k s s' := by
  have consumed := on.consumed
  have fewer := on.ahead
  refine ⟨on.last, ?_⟩
  rw [same]
  omega

end Parser

open Lantern.Parser

/-! ## The books of a production -/

/-- What a production that started from `s` owes and has to spare: nothing is owed and
    `credit` tokens are to spare if it builds a node, and `debt` is owed if it gives
    up. -/
def Reply.Charged {α : Type} (s : Parser) (debt credit : Nat) : Reply α → Prop
  | .built _ s' => Paid 0 credit s s'
  | .gaveUp s' => Paid debt 0 s s'
  | .exhausted => True

namespace Reply

variable {α β : Type} {s : Parser} {d k m n : Nat}

theorem Charged.mono {reply : Reply α} (h : reply.Charged s m n) (owed : m ≤ d) (spared : k ≤ n) :
    reply.Charged s d k := by
  cases reply with
  | built node s' => exact Paid.mono h (Nat.le_refl _) spared
  | gaveUp s' => exact Paid.mono h owed (Nat.le_refl _)
  | exhausted => trivial

theorem charged_done {node : α} (spared : k ≤ 0) : ((pure node : Production α) s).Charged s d k :=
  (Paid.refl s).mono (Nat.le_refl _) spared

theorem charged_fail (error : ParseError) (owed : 1 ≤ d) :
    ((Production.fail error : Production α) s).Charged s d k :=
  (paid_record s error).mono owed (Nat.le_refl _)

/-- What was to spare before pays for what follows. -/
theorem Charged.after {reply : Reply β} {s' : Parser} (paid : Paid 0 m s s')
    (h : reply.Charged s' (d + m) (k - m)) :
    reply.Charged s d k := by
  cases reply with
  | built result s'' => exact Paid.trans paid h (by omega)
  | gaveUp s'' => exact Paid.trans paid h (by omega)
  | exhausted => trivial

/-- Two productions in a row. -/
theorem Charged.bind {last : Token} {p : Production α} {f : α → Production β}
    (hlast : s.cursor.last = last)
    (hp : (p s).Charged s m n) (owed : m ≤ d)
    (hf : ∀ node s', s'.cursor.last = last → (f node s').Charged s' (d + n) (k - n)) :
    ((p >>= f) s).Charged s d k := by
  change (Production.andThen p f s).Charged s d k
  unfold Production.andThen
  cases first : p s with
  | built node s' =>
    rw [first] at hp
    exact Charged.after hp (hf node s' (hp.last.trans hlast))
  | gaveUp s' =>
    rw [first] at hp
    exact Paid.mono hp owed (Nat.le_refl _)
  | exhausted => trivial

/-- Passing a token that is known to be next. -/
theorem Charged.pass {last t : Token} {ts : List Token} {f : Token → Production β}
    (hlast : s.cursor.last = last)
    (h : s.cursor.ahead = t :: ts)
    (hf : s.passed.cursor.last = last → (f t s.passed).Charged s.passed (d + 1) (k - 1)) :
    ((Production.advance >>= f) s).Charged s d k := by
  have paid := paid_passed h
  rw [Production.advance_bind h]
  exact Charged.after paid (hf (paid.last.trans hlast))

/-- An attempt that owes nothing. -/
theorem Charged.attempt {p : Production α} (hp : (p s).Charged s 0 n) :
    (Production.attempt p s).Charged s 0 0 := by
  unfold Production.attempt
  cases tried : p s with
  | built node s' =>
    rw [tried] at hp
    exact Paid.mono hp (Nat.le_refl _) (Nat.zero_le _)
  | gaveUp s' =>
    rw [tried] at hp
    exact hp
  | exhausted => trivial

end Reply

open Reply

namespace Production

variable {last : Token} {s : Parser}

def Charges {α : Type} (last : Token) (debt credit : Nat) (p : Production α) : Prop :=
  ∀ s : Parser, s.cursor.last = last → (p s).Charged s debt credit

theorem expect_charged {kind : Kind} (hlast : s.cursor.last = last) (atLast : last.kind ≠ kind) :
    (expect kind s).Charged s 1 1 := by
  unfold expect
  rw [ask_bind]
  by_cases eq : s.cursor.current.kind = kind
  · rw [if_pos (by simpa using eq)]
    obtain ⟨t, ts, ahead, -⟩ := ahead_of_current hlast atLast eq
    have paid := paid_passed ahead
    rw [passed_eq ahead] at paid
    simp only [advance, Cursor.advance, ahead]
    exact paid
  · rw [if_neg (by simpa using eq)]
    exact charged_fail _ (Nat.le_refl _)

theorem identifier_charged (hlast : s.cursor.last = last) (atLast : last.kind = .eof) :
    (identifier s).Charged s 1 1 := by
  unfold identifier
  rw [ask_bind]
  by_cases eq : s.cursor.current.kind = .ident
  · rw [if_pos (by simpa using eq)]
    obtain ⟨t, ts, ahead, -⟩ := ahead_of_current hlast (by simp [atLast]) eq
    exact Charged.pass hlast ahead fun _ => charged_done (Nat.le_refl _)
  · rw [if_neg (by simpa using eq)]
    exact charged_fail _ (Nat.le_refl _)

theorem ensureProgress_charged (consumed : Nat) (s : Parser) :
    (ensureProgress consumed s).Charged s 0 0 := by
  unfold ensureProgress
  rw [ask_bind]
  split
  · rcases ahead : s.cursor.ahead with _ | ⟨t, ts⟩
    · rw [advance_bind_atEnd rfl ahead]
      exact charged_done (Nat.le_refl _)
    · exact Charged.pass rfl ahead fun _ => charged_done (Nat.zero_le _)
  · exact charged_done (Nat.le_refl _)

end Production

/-! ## The productions -/

namespace Grammar

open Production

/-- The error that an expression may owe: where there is no token, nothing can be passed
    to pay for it. -/
def owed (s : Parser) : Nat := if s.cursor.ahead = [] then 1 else 0

theorem owed_le (s : Parser) : owed s ≤ 1 := by
  unfold owed
  split <;> omega

theorem owed_front {s : Parser} (ahead : s.cursor.ahead ≠ []) : owed s = 0 := if_neg ahead

structure AllCharged (last : Token) (bound : Nat) : Prop where
  moreParameters : Charges last 1 0 (Grammar.moreParameters bound)
  expression (min : Precedence) (s : Parser) (hlast : s.cursor.last = last) :
    (Grammar.expression bound min s).Charged s (owed s) 1
  operand (s : Parser) (hlast : s.cursor.last = last) : (Grammar.operand bound s).Charged s (owed s) 1
  climb (min : Precedence) (left : Expr) : Charges last 0 0 (Grammar.climb bound min left)
  extension {min : Precedence} (left : Expr) {s : Parser} (hlast : s.cursor.last = last) (extends_ : s.place.extends? min) :
    (Grammar.extension bound left s).Charged s 0 1
  expressions (close : Kind) (bracket : close = .rparen ∨ close = .rbracket) :
    Charges last 1 0 (Grammar.expressions bound close)
  moreExpressions (close : Kind) (bracket : close = .rparen ∨ close = .rbracket) :
    Charges last 1 0 (Grammar.moreExpressions bound close)
  elifs : Charges last 0 0 (Grammar.elifs bound)
  otherwise : Charges last 0 0 (Grammar.otherwise bound)
  block (close : List Kind) : Charges last 0 0 (Grammar.block bound close)
  statements (close : List Kind) : Charges last 0 0 (Grammar.statements bound close)
  statement {s : Parser} (hlast : s.cursor.last = last) (ahead : s.cursor.ahead ≠ []) :
    (Grammar.statement bound s).Charged s 0 1
  functionStatement {s : Parser} (hlast : s.cursor.last = last) (ahead : s.cursor.ahead ≠ []) :
    (Grammar.functionStatement bound s).Charged s 0 1
  functionLiteral : Charges last 1 0 (Grammar.functionLiteral bound)
  methods : Charges last 0 0 (Grammar.methods bound)

variable {last : Token} {bound : Nat}

theorem AllCharged.value (ih : AllCharged last bound) (min : Precedence) :
    Charges last 1 1 (Grammar.expression bound min) := fun s hlast =>
  (ih.expression min s hlast).mono (owed_le s) (Nat.le_refl _)

section

variable (atLast : last.kind = .eof) (ih : AllCharged last bound)
include atLast ih

theorem moreParameters_charged : Charges last 1 0 (Grammar.moreParameters (bound + 1)) := by
  intro s hlast
  unfold Grammar.moreParameters
  rw [ask_bind, check_eq_shows hlast (by simp [atLast])]
  by_cases comma : s.place.shows .comma
  · obtain ⟨t, ts, ahead, -⟩ := Place.shows_inv comma
    rw [if_pos comma]
    refine Charged.pass hlast ahead fun hlast₁ => ?_
    refine Charged.bind hlast₁ (identifier_charged hlast₁ atLast) (by omega) fun name s₂ hlast₂ => ?_
    refine Charged.bind hlast₂ (ih.moreParameters s₂ hlast₂) (by omega) fun names s₃ _ => ?_
    exact charged_done (by omega)
  · rw [if_neg comma]
    refine Charged.bind hlast (expect_charged hlast (by simp [atLast])) (by omega) fun t s₂ _ => ?_
    exact charged_done (by omega)

theorem parameters_charged : Charges last 1 1 (Grammar.parameters bound) := by
  intro s hlast
  unfold Grammar.parameters
  refine Charged.bind hlast (expect_charged hlast (by simp [atLast])) (by omega) fun t s₁ hlast₁ => ?_
  rw [ask_bind, check_eq_shows hlast₁ (by simp [atLast])]
  by_cases close : s₁.place.shows .rparen
  · obtain ⟨u, us, ahead, -⟩ := Place.shows_inv close
    rw [if_pos close]
    exact Charged.pass hlast₁ ahead fun _ => charged_done (by omega)
  · rw [if_neg close]
    refine Charged.bind hlast₁ (identifier_charged hlast₁ atLast) (by omega) fun name s₂ hlast₂ => ?_
    refine Charged.bind hlast₂ (ih.moreParameters s₂ hlast₂) (by omega) fun names s₃ _ => ?_
    exact charged_done (by omega)

omit atLast in
theorem expression_charged (min : Precedence) (s : Parser) (hlast : s.cursor.last = last) :
    (Grammar.expression (bound + 1) min s).Charged s (owed s) 1 := by
  unfold Grammar.expression
  refine Charged.bind hlast (ih.operand s hlast) (by omega) fun left s₁ hlast₁ => ?_
  exact (ih.climb min left s₁ hlast₁).mono (by omega) (by omega)

omit atLast in
theorem climb_charged (min : Precedence) (left : Expr) :
    Charges last 0 0 (Grammar.climb (bound + 1) min left) := by
  intro s hlast
  unfold Grammar.climb
  rw [ask_bind, extends_eq]
  by_cases extends_ : s.place.extends? min
  · rw [if_pos extends_]
    refine Charged.bind hlast (ih.extension left hlast extends_) (by omega) fun wider s₁ hlast₁ => ?_
    exact (ih.climb min wider s₁ hlast₁).mono (by omega) (by omega)
  · rw [if_neg extends_]
    exact charged_done (by omega)

theorem expressions_charged (close : Kind) (bracket : close = .rparen ∨ close = .rbracket) :
    Charges last 1 0 (Grammar.expressions (bound + 1) close) := by
  intro s hlast
  unfold Grammar.expressions
  rw [ask_bind, check_eq_shows hlast (by rcases bracket with rfl | rfl <;> simp [atLast])]
  by_cases closed : s.place.shows close
  · obtain ⟨t, ts, ahead, -⟩ := Place.shows_inv closed
    rw [if_pos closed]
    exact Charged.pass hlast ahead fun _ => charged_done (by omega)
  · rw [if_neg closed]
    refine Charged.bind hlast (ih.value .lowest s hlast) (by omega) fun first s₁ hlast₁ => ?_
    refine Charged.bind hlast₁ (ih.moreExpressions close bracket s₁ hlast₁) (by omega) fun more s₂ _ => ?_
    exact charged_done (by omega)

theorem moreExpressions_charged (close : Kind) (bracket : close = .rparen ∨ close = .rbracket) :
    Charges last 1 0 (Grammar.moreExpressions (bound + 1) close) := by
  intro s hlast
  unfold Grammar.moreExpressions
  rw [ask_bind, check_eq_shows hlast (by simp [atLast])]
  by_cases comma : s.place.shows .comma
  · obtain ⟨t, ts, ahead, -⟩ := Place.shows_inv comma
    rw [if_pos comma]
    refine Charged.pass hlast ahead fun hlast₁ => ?_
    refine Charged.bind hlast₁ (ih.value .lowest _ hlast₁) (by omega) fun next s₂ hlast₂ => ?_
    refine Charged.bind hlast₂ (ih.moreExpressions close bracket s₂ hlast₂) (by omega) fun more s₃ _ => ?_
    exact charged_done (by omega)
  · rw [if_neg comma]
    refine Charged.bind hlast (expect_charged hlast ?_) (by omega) fun t s₁ _ => ?_
    · rcases bracket with rfl | rfl <;> simp [atLast]
    · exact charged_done (by omega)

theorem operand_charged (s : Parser) (hlast : s.cursor.last = last) :
    (Grammar.operand (bound + 1) s).Charged s (owed s) 1 := by
  unfold Grammar.operand
  rw [ask_bind]
  rcases ahead : s.cursor.ahead with _ | ⟨t, ts⟩
  · have current : s.cursor.current = last := by simp [Cursor.current, ahead, hlast]
    rw [current, atLast]
    dsimp only
    rw [advance_bind_atEnd hlast ahead]
    exact charged_fail _ (by simp [owed, ahead])
  · have current : s.cursor.current = t := by simp [Cursor.current, ahead]
    rw [current]
    cases kind : t.kind
    case int =>
      unfold integer
      refine Charged.pass hlast ahead fun _ => ?_
      cases Text.decimal? t.text with
      | some value => exact charged_done (by omega)
      | none => exact charged_fail _ (by omega)
    case minus | bang =>
      refine Charged.pass hlast ahead fun hlast₁ => ?_
      refine Charged.bind hlast₁ (ih.value .unary _ hlast₁) (by omega) fun e s₂ _ => ?_
      exact charged_done (by omega)
    case lparen =>
      refine Charged.pass hlast ahead fun hlast₁ => ?_
      refine Charged.bind hlast₁ (ih.value .lowest _ hlast₁) (by omega) fun e s₂ hlast₂ => ?_
      refine Charged.bind hlast₂ (expect_charged hlast₂ (by simp [atLast])) (by omega) fun u s₃ _ => ?_
      exact charged_done (by omega)
    case lbracket =>
      refine Charged.pass hlast ahead fun hlast₁ => ?_
      refine Charged.bind hlast₁ (ih.expressions .rbracket (Or.inr rfl) _ hlast₁) (by omega) fun es s₂ _ => ?_
      exact charged_done (by omega)
    case ifWord =>
      refine Charged.pass hlast ahead fun hlast₁ => ?_
      refine Charged.bind hlast₁ (ih.value .lowest _ hlast₁) (by omega) fun condition s₂ hlast₂ => ?_
      refine Charged.bind hlast₂ (expect_charged hlast₂ (by simp [atLast])) (by omega) fun u s₃ hlast₃ => ?_
      refine Charged.bind hlast₃ (ih.block armEnd s₃ hlast₃) (by omega) fun consequence s₄ hlast₄ => ?_
      refine Charged.bind hlast₄ (ih.elifs s₄ hlast₄) (by omega) fun arms s₅ hlast₅ => ?_
      refine Charged.bind hlast₅ (ih.otherwise s₅ hlast₅) (by omega) fun alternative s₆ hlast₆ => ?_
      refine Charged.bind hlast₆ (expect_charged hlast₆ (by simp [atLast])) (by omega) fun v s₇ _ => ?_
      exact charged_done (by omega)
    case fnWord =>
      refine Charged.pass hlast ahead fun hlast₁ => ?_
      refine Charged.bind hlast₁ (ih.functionLiteral _ hlast₁) (by omega) fun literal s₂ _ => ?_
      exact charged_done (by omega)
    -- a name, a literal, or a token that starts no expression
    all_goals
      refine Charged.pass hlast ahead fun _ => ?_
      first
        | exact charged_done (by omega)
        | exact charged_fail _ (by omega)

theorem extension_charged {min : Precedence} (left : Expr) {s : Parser}
    (hlast : s.cursor.last = last)
    (extends_ : s.place.extends? min) : (Grammar.extension (bound + 1) left s).Charged s 0 1 := by
  unfold Grammar.extension
  rcases ahead : s.cursor.ahead with _ | ⟨t, ts⟩
  · simp [Place.extends?, Parser.place, Cursor.place, ahead] at extends_
  · refine Charged.pass hlast ahead fun hlast₁ => ?_
    cases kind : t.kind
    case assign =>
      refine Charged.bind hlast₁ (ih.value .lowest _ hlast₁) (by omega) fun value s₂ _ => ?_
      cases target? left with
      | some target => exact charged_done (by omega)
      | none => exact charged_fail _ (by omega)
    case lparen =>
      refine Charged.bind hlast₁ (ih.expressions .rparen (Or.inl rfl) _ hlast₁) (by omega) fun es s₂ _ => ?_
      exact charged_done (by omega)
    case lbracket =>
      refine Charged.bind hlast₁ (ih.value .lowest _ hlast₁) (by omega) fun position s₂ hlast₂ => ?_
      refine Charged.bind hlast₂ (expect_charged hlast₂ (by simp [atLast])) (by omega) fun u s₃ _ => ?_
      exact charged_done (by omega)
    case dot =>
      refine Charged.bind hlast₁ (identifier_charged hlast₁ atLast) (by omega) fun name s₂ _ => ?_
      exact charged_done (by omega)
    all_goals
      dsimp only
      generalize InfixOp.ofKind? _ = op?
      cases op? with
      | some op =>
        refine Charged.bind hlast₁ (ih.value _ _ hlast₁) (by omega) fun right s₂ _ => ?_
        exact charged_done (by omega)
      | none => exact (Paid.refl _).mono (Nat.zero_le _) (Nat.le_refl _)

theorem elifs_charged : Charges last 0 0 (Grammar.elifs (bound + 1)) := by
  intro s hlast
  unfold Grammar.elifs
  rw [ask_bind, check_eq_shows hlast (by simp [atLast])]
  by_cases word : s.place.shows .elifWord
  · obtain ⟨t, ts, ahead, -⟩ := Place.shows_inv word
    rw [if_pos word]
    refine Charged.pass hlast ahead fun hlast₁ => ?_
    refine Charged.bind hlast₁ (ih.value .lowest _ hlast₁) (by omega) fun condition s₂ hlast₂ => ?_
    refine Charged.bind hlast₂ (expect_charged hlast₂ (by simp [atLast])) (by omega) fun u s₃ hlast₃ => ?_
    refine Charged.bind hlast₃ (ih.block armEnd s₃ hlast₃) (by omega) fun arm s₄ hlast₄ => ?_
    refine Charged.bind hlast₄ (ih.elifs s₄ hlast₄) (by omega) fun arms s₅ _ => ?_
    exact charged_done (by omega)
  · rw [if_neg word]
    exact charged_done (by omega)

theorem otherwise_charged : Charges last 0 0 (Grammar.otherwise (bound + 1)) := by
  intro s hlast
  unfold Grammar.otherwise
  rw [ask_bind, check_eq_shows hlast (by simp [atLast])]
  by_cases word : s.place.shows .elseWord
  · obtain ⟨t, ts, ahead, -⟩ := Place.shows_inv word
    rw [if_pos word]
    refine Charged.pass hlast ahead fun hlast₁ => ?_
    refine Charged.bind hlast₁ (ih.block bodyEnd _ hlast₁) (by omega) fun arm s₂ _ => ?_
    exact charged_done (by omega)
  · rw [if_neg word]
    exact charged_done (by omega)

omit atLast in
theorem block_charged (close : List Kind) : Charges last 0 0 (Grammar.block (bound + 1) close) := by
  intro s hlast
  unfold Grammar.block
  rw [ask_bind]
  refine Charged.bind hlast (ih.statements close s hlast) (by omega) fun list s₁ _ => ?_
  exact charged_done (by omega)

omit atLast in
theorem statements_charged (close : List Kind) :
    Charges last 0 0 (Grammar.statements (bound + 1) close) := by
  intro s hlast
  unfold Grammar.statements
  rw [ask_bind, stops_eq]
  by_cases stop : s.place.stops close
  · rw [if_pos stop]
    exact charged_done (by omega)
  · rw [if_neg stop, ask_bind]
    have attempted := (ih.statement hlast (Place.ahead_ne_nil stop)).attempt
    refine Charged.bind hlast attempted (by omega) fun first? s₁ hlast₁ => ?_
    cases first? with
    | some first =>
      refine Charged.bind hlast₁ (ih.statements close s₁ hlast₁) (by omega) fun list s₂ _ => ?_
      exact charged_done (by omega)
    | none =>
      refine Charged.bind hlast₁ (ensureProgress_charged _ s₁) (by omega) fun _ s₂ hlast₂ => ?_
      exact ih.statements close s₂ hlast₂

theorem functionStatement_charged {s : Parser} (hlast : s.cursor.last = last)
    (ahead : s.cursor.ahead ≠ []) :
    (Grammar.functionStatement (bound + 1) s).Charged s 0 1 := by
  obtain ⟨t, ts, ahead⟩ := List.exists_cons_of_ne_nil ahead
  unfold Grammar.functionStatement
  refine Charged.pass hlast ahead fun hlast₁ => ?_
  refine Charged.bind hlast₁ (identifier_charged hlast₁ atLast) (by omega) fun name s₂ hlast₂ => ?_
  refine Charged.bind hlast₂ (ih.functionLiteral s₂ hlast₂) (by omega) fun literal s₃ _ => ?_
  exact charged_done (by omega)

theorem functionLiteral_charged : Charges last 1 0 (Grammar.functionLiteral (bound + 1)) := by
  intro s hlast
  unfold Grammar.functionLiteral
  refine Charged.bind hlast (parameters_charged atLast ih s hlast) (by omega) fun names s₁ hlast₁ => ?_
  refine Charged.bind hlast₁ (ih.block bodyEnd s₁ hlast₁) (by omega) fun body s₂ hlast₂ => ?_
  refine Charged.bind hlast₂ (expect_charged hlast₂ (by simp [atLast])) (by omega) fun t s₃ _ => ?_
  exact charged_done (by omega)

theorem statement_charged {s : Parser} (hlast : s.cursor.last = last)
    (ahead : s.cursor.ahead ≠ []) :
    (Grammar.statement (bound + 1) s).Charged s 0 1 := by
  unfold Grammar.statement
  rw [ask_bind]
  -- a statement that starts with none of the four words
  have other : ((do
      if ← ask startsFunction then
        return Stmt.function (← Grammar.functionStatement bound)
      else
        return Stmt.expression s.cursor.current (← Grammar.expression bound .lowest) : Production Stmt) s).Charged s 0 1 := by
    rw [ask_bind]
    by_cases starts : startsFunction s.cursor
    · rw [if_pos starts]
      refine Charged.bind hlast (ih.functionStatement hlast ahead) (by omega) fun definition s₁ _ => ?_
      exact charged_done (by omega)
    · rw [if_neg starts]
      have value := ih.expression .lowest s hlast
      rw [owed_front ahead] at value
      refine Charged.bind hlast value (by omega) fun value s₁ _ => ?_
      exact charged_done (by omega)
  obtain ⟨t, ts, ahead⟩ := List.exists_cons_of_ne_nil ahead
  have current : s.cursor.current = t := by simp [Cursor.current, ahead]
  rw [current] at other ⊢
  cases kind : t.kind
  case returnWord =>
    refine Charged.pass hlast ahead fun hlast₁ => ?_
    refine Charged.bind hlast₁ (ih.value .lowest _ hlast₁) (by omega) fun value s₂ _ => ?_
    exact charged_done (by omega)
  case whileWord =>
    refine Charged.pass hlast ahead fun hlast₁ => ?_
    refine Charged.bind hlast₁ (ih.value .lowest _ hlast₁) (by omega) fun condition s₂ hlast₂ => ?_
    refine Charged.bind hlast₂ (expect_charged hlast₂ (by simp [atLast])) (by omega) fun u s₃ hlast₃ => ?_
    refine Charged.bind hlast₃ (ih.block bodyEnd s₃ hlast₃) (by omega) fun body s₄ hlast₄ => ?_
    refine Charged.bind hlast₄ (expect_charged hlast₄ (by simp [atLast])) (by omega) fun v s₅ _ => ?_
    exact charged_done (by omega)
  case testWord =>
    refine Charged.pass hlast ahead fun hlast₁ => ?_
    rw [ask_bind]
    by_cases labelled : s.passed.cursor.current.kind = .str
    · obtain ⟨label, ls, ahead₁, -⟩ := ahead_of_current hlast₁ (by rw [atLast]; decide) labelled
      rw [if_pos (by simpa using labelled)]
      refine Charged.pass hlast₁ ahead₁ fun hlast₂ => ?_
      refine Charged.bind hlast₂ (ih.block bodyEnd _ hlast₂) (by omega) fun body s₃ hlast₃ => ?_
      refine Charged.bind hlast₃ (expect_charged hlast₃ (by simp [atLast])) (by omega) fun v s₄ _ => ?_
      exact charged_done (by omega)
    · rw [if_neg (by simpa using labelled)]
      exact charged_fail _ (by omega)
  case classWord =>
    refine Charged.pass hlast ahead fun hlast₁ => ?_
    rw [ask_bind]
    by_cases named : s.passed.cursor.current.kind = .ident
    · obtain ⟨name, ls, ahead₁, -⟩ := ahead_of_current hlast₁ (by rw [atLast]; decide) named
      rw [if_pos (by simpa using named)]
      refine Charged.pass hlast₁ ahead₁ fun hlast₂ => ?_
      refine Charged.bind hlast₂ (ih.methods _ hlast₂) (by omega) fun members s₃ hlast₃ => ?_
      refine Charged.bind hlast₃ (expect_charged hlast₃ (by simp [atLast])) (by omega) fun v s₄ _ => ?_
      exact charged_done (by omega)
    · rw [if_neg (by simpa using named)]
      exact charged_fail _ (by omega)
  all_goals exact other

omit atLast in
theorem methods_charged : Charges last 0 0 (Grammar.methods (bound + 1)) := by
  intro s hlast
  unfold Grammar.methods
  rw [ask_bind, atEnd_or_endWord]
  by_cases stop : s.place.stops [.endWord]
  · rw [if_pos stop]
    exact charged_done (by omega)
  rw [if_neg stop, ask_bind]
  have nonempty : s.cursor.ahead ≠ [] := Place.ahead_ne_nil stop
  by_cases starts : startsFunction s.cursor
  · rw [if_pos starts, ask_bind]
    have attempted := (ih.functionStatement hlast nonempty).attempt
    refine Charged.bind hlast attempted (by omega) fun method? s₁ hlast₁ => ?_
    cases method? with
    | some method =>
      refine Charged.bind hlast₁ (ih.methods s₁ hlast₁) (by omega) fun members s₂ _ => ?_
      exact charged_done (by omega)
    | none =>
      refine Charged.bind hlast₁ (ensureProgress_charged _ s₁) (by omega) fun _ s₂ hlast₂ => ?_
      exact ih.methods s₂ hlast₂
  · rw [if_neg starts, ask_bind]
    obtain ⟨t, ts, ahead⟩ := List.exists_cons_of_ne_nil nonempty
    -- the stray token itself pays for the complaint about it
    let s₁ : Parser := { s with errors := s.errors.push (.notAMethod s.cursor.current) }
    have recorded : Paid 1 0 s s₁ := paid_record s _
    have passed : Paid 0 1 s₁ s₁.passed := paid_passed ahead
    have sought := paid_of_onward (onward_seek memberStart s₁.passed) rfl
    have stray : Paid 0 0 s s₁.passed := recorded.trans passed (Nat.le_refl _)
    have paid : Paid 0 0 s _ := stray.trans sought (Nat.le_refl _)
    exact Charged.after paid (ih.methods _ (paid.last.trans hlast))

end

/-- All productions keep their books so. -/
theorem allCharged (atLast : last.kind = .eof) (bound : Nat) : AllCharged last bound := by
  induction bound with
  | zero =>
    -- a bound of zero stops every production
    constructor <;> intros <;> first | trivial | (intro s _; trivial)
  | succ bound ih =>
    exact ⟨moreParameters_charged atLast ih, expression_charged ih, operand_charged atLast ih, climb_charged ih,
      extension_charged atLast ih, expressions_charged atLast ih, moreExpressions_charged atLast ih, elifs_charged atLast ih,
      otherwise_charged atLast ih, block_charged ih, statements_charged ih, statement_charged atLast ih,
      functionStatement_charged atLast ih, functionLiteral_charged atLast ih, methods_charged ih⟩

/-! ## Lists of statements -/

end Grammar

def Reply.Ends {α : Type} (close : List Kind) : Reply α → Prop
  | .built _ s' => s'.place.stops close
  | .gaveUp _ => False
  | .exhausted => True

namespace Grammar

open Production

theorem ends_map {α β : Type} {p : Production α} {close : List Kind} {s : Parser} (f : α → β)
    (ends : (p s).Ends close) :
    ((p >>= fun node => pure (f node)) s).Ends close := by
  change (andThen p _ s).Ends close
  unfold andThen
  cases eq : p s with
  | built node s' => rw [eq] at ends; exact ends
  | gaveUp s' => rw [eq] at ends; exact ends
  | exhausted => trivial

theorem ensureProgress_built (consumed : Nat) (s : Parser) :
    ∃ s', ensureProgress consumed s = .built () s' := by
  unfold ensureProgress
  rw [ask_bind]
  split
  · rcases ahead : s.cursor.ahead with _ | ⟨t, ts⟩
    · rw [advance_bind_atEnd rfl ahead]
      exact ⟨_, rfl⟩
    · rw [advance_bind ahead]
      exact ⟨_, rfl⟩
  · exact ⟨_, rfl⟩

/-- Whatever goes wrong in them, statements are read up to where they end. -/
theorem statements_ends (bound : Nat) (close : List Kind) (s : Parser) :
    (Grammar.statements bound close s).Ends close := by
  induction bound generalizing s with
  | zero => trivial
  | succ bound ih =>
    unfold Grammar.statements
    rw [ask_bind, stops_eq]
    by_cases stop : s.place.stops close
    · rw [if_pos stop]
      exact stop
    · rw [if_neg stop, ask_bind]
      change (andThen (attempt (Grammar.statement bound)) _ s).Ends close
      unfold andThen attempt
      cases Grammar.statement bound s with
      | built first s₁ => exact ends_map _ (ih s₁)
      | gaveUp s₁ =>
        obtain ⟨s₂, progress⟩ := ensureProgress_built s.cursor.consumed s₁
        change ((ensureProgress s.cursor.consumed >>= fun _ => Grammar.statements bound close) s₁).Ends close
        rw [bind_built progress]
        exact ih s₂
      | exhausted => trivial

/-- Under a bound that suffices, statements are built. -/
theorem statements_built {bound : Nat} (close : List Kind) {s : Parser}
    (atLast : s.cursor.last.kind = .eof)
    (enough : 8 * s.cursor.ahead.length + 5 ≤ bound) :
    ∃ list s', Grammar.statements bound close s = .built list s' := by
  have sound := (allKeep atLast bound).statements close s rfl enough
  have ends := statements_ends bound close s
  cases reply : Grammar.statements bound close s with
  | built list s' => exact ⟨list, s', rfl⟩
  | gaveUp s' => rw [reply] at ends; exact ends.elim
  | exhausted => rw [reply] at sound; exact sound.elim

end Grammar

/-! ## Moving on -/

/-- An answer that starts from `s` moves on: a token is passed at least, errors are only
    added, there is a new one if there is no node, and there are no more new ones than
    tokens passed. -/
structure Parser.MovesOn {α : Type} (s : Parser) (answer : Option α × Parser) : Prop where
  onward : s.Onward 1 answer.2
  complains : answer.1 = none → s.errors.size < answer.2.errors.size
  charged : answer.2.errors.size + s.cursor.consumed ≤ s.errors.size + answer.2.cursor.consumed

theorem Parser.moves_on {α : Type} {s : Parser} {production : Nat → Production α}
    {R : α → Place → Prop}
    (sound : (production s.bound s).Sound s 1 R) (charged : (production s.bound s).Charged s 0 1) :
    s.MovesOn (s.run production) := by
  unfold Parser.run
  cases reply : production s.bound s with
  | built node s' =>
    rw [reply] at sound charged
    have errors := charged.errors
    change s.MovesOn (some node, s')
    exact ⟨sound.1, fun none => (nomatch none), by simp only; omega⟩
  | gaveUp s' =>
    rw [reply] at sound charged
    obtain ⟨onward, erred⟩ := sound
    have more : s.errors.size < s'.errors.size := by
      refine Nat.lt_of_le_of_ne onward.errors.length_le fun same => erred ?_
      rw [← Array.toList_inj]
      exact (onward.errors.eq_of_length same).symm
    have errors := charged.errors
    have consumed := onward.consumed
    change s.MovesOn (none, s')
    -- the error that was added is charged to a token
    exact ⟨⟨onward.last, by simp only; omega, consumed, onward.errors⟩, fun _ => more, by simp only; omega⟩
  | exhausted =>
    rw [reply] at sound
    exact sound.elim

/-- The whole parse of a stream in terms of its statements. -/
theorem parse_of_built {stream : Stream} {list : List Stmt} {behind : Parser}
    (built : Grammar.statements (Parser.ofStream stream).bound [] (.ofStream stream) = .built list behind) :
    parse stream = ⟨⟨list⟩, behind.errors.toList⟩ := by
  simp only [parse, Parser.program, Parser.run, built, Option.getD_some]

/-- Wherever there is a token ahead, a statement and an expression at any level pass
    one, and end with an error if they are not built. A whole parse builds its program
    behind the last token, and there are no more errors than tokens. -/
theorem parse_moves_on (tokens : List Token) :
    (∀ s : Parser, s.cursor.last.kind = .eof → s.cursor.ahead ≠ [] →
      s.MovesOn s.statement ∧ ∀ min, s.MovesOn (s.expression min)) ∧
    ∃ statements behind,
      Grammar.statements (Parser.ofStream (.ofTokens tokens)).bound [] (.ofStream (.ofTokens tokens)) =
        .built statements behind ∧
      parse (.ofTokens tokens) = ⟨⟨statements⟩, behind.errors.toList⟩ ∧
      behind.cursor.ahead = [] ∧
      behind.cursor.consumed = (tokens.filter (·.kind != .eof)).length ∧
      (parse (.ofTokens tokens)).errors.length ≤ (tokens.filter (·.kind != .eof)).length := by
  constructor
  · intro s atLast ahead
    have kept := allKeep atLast s.bound
    have charged := allCharged atLast s.bound
    have enough := s.enough_bound
    refine ⟨Parser.moves_on (kept.statement s rfl (by omega)) (charged.statement rfl ahead),
      fun min => Parser.moves_on (kept.expression min s rfl (by omega)) ?_⟩
    rw [← owed_front ahead]
    exact charged.expression min s rfl
  · let s : Parser := .ofStream (.ofTokens tokens)
    have sound := (allKeep rfl s.bound).statements [] s rfl s.enough_bound
    have charged := (allCharged rfl s.bound).statements [] s rfl
    have ends := statements_ends s.bound [] s
    obtain ⟨statements, behind, built⟩ := statements_built [] rfl s.enough_bound
    rw [built] at sound charged ends
    have parsed := parse_of_built built
    have atEnd : behind.cursor.ahead = [] := Place.stops_nil ends
    have consumed := sound.1.consumed
    have errors := charged.errors
    rw [atEnd] at consumed
    have all : behind.cursor.consumed = (tokens.filter (·.kind != .eof)).length := by
      simpa [s, Parser.ofStream, Cursor.ofStream, Stream.ofTokens] using consumed
    refine ⟨statements, behind, built, parsed, atEnd, all, ?_⟩
    rw [parsed, ← all]
    simpa [s, Parser.ofStream, Cursor.ofStream] using errors

/-- A class without a name, a bracket that closes nothing, and an end token in between
    that is no end. -/
def strayTokens : List Token :=
  [⟨.classWord, "class", 1⟩, ⟨.rparen, ")", 1⟩, .eof 1, ⟨.ident, "a", 2⟩]

theorem parse_moves_on_strayTokens :
    ((Parser.ofStream (.ofTokens strayTokens)).cursor.last.kind = .eof ∧
      (Parser.ofStream (.ofTokens strayTokens)).cursor.ahead ≠ [] ∧
      (Parser.ofStream (.ofTokens strayTokens)).statement.1.isNone) ∧
    (Parser.ofStream (.ofTokens strayTokens)).MovesOn (Parser.ofStream (.ofTokens strayTokens)).statement ∧
    (parse (.ofTokens strayTokens)).errors.length ≤ 3 := by
  have starts : (Parser.ofStream (.ofTokens strayTokens)).cursor.last.kind = .eof ∧
      (Parser.ofStream (.ofTokens strayTokens)).cursor.ahead ≠ [] ∧
      (Parser.ofStream (.ofTokens strayTokens)).statement.1.isNone := by decide +kernel
  obtain ⟨moves, statements, behind, -, -, -, -, few⟩ := parse_moves_on strayTokens
  exact ⟨starts, (moves _ starts.1 starts.2.1).1, few⟩

end Lantern
