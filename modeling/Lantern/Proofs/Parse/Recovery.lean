/-
  Lantern.Proofs.Parse.Recovery — malformed statements in a block, and what stands
  behind the block.

  A statement that is malformed is dropped, and reading goes on behind it. But where an
  operand is missing the token that stands in its place is passed over, whatever it is,
  and if the statement is the last one of a block, that token is the `end` of the block.
  The block then goes on through all that follows, to the end of the input, and the
  function is dropped with it.

  For blocks of names, literals, operators and `return` it is settled without parsing
  when this happens. Reading from left to right, a statement, an operand or an operator
  is due before each token (`Due.past`), and the block dangles if an operand is due at
  its end (`Dangles`).
  - `allFollow`: expressions keep to that, built or not.
  - `statements_inside`: the statements of a block stop at its `end`, or nowhere if it
    dangles.
  - `parse_recovers`: what stands behind the function is read as if it were alone,
    exactly if the body does not dangle.
-/

import Lantern.Proofs.Parse.Seam

namespace Lantern

open Grammar

/-! ## What is due -/

def Kind.isPlain (kind : Kind) : Bool :=
  match kind with
  | .ident | .int | .str | .trueWord | .falseWord | .bang | .returnWord => true
  | .dot => false
  | _ => kind.continues

inductive Due where
  | statement
  | operand
  | operator
  deriving DecidableEq, Repr

namespace Due

def behindOperand (t : Token) : Due :=
  match t.kind with
  | .ident | .str | .trueWord | .falseWord => operator
  | .int => if (Text.decimal? t.text).isSome then operator else statement
  | .minus | .bang => operand
  | _ => statement

def behindStart (t : Token) : Due := if t.kind = .returnWord then operand else behindOperand t

/-- What is due behind the token. Behind an operand it may start the next statement. -/
def past : Due → Token → Due
  | statement, t => behindStart t
  | operand, t => behindOperand t
  | operator, t => if t.kind.continues then operand else behindStart t

end Due

/-- Behind these tokens an operand is missing. -/
def Dangles (due : Due) (body : List Token) : Prop := body.foldl Due.past due = .operand

instance (due : Due) (body : List Token) : Decidable (Dangles due body) := inferInstanceAs (Decidable (_ = _))

theorem dangles_cons {due : Due} {t : Token} {body : List Token} :
    Dangles due (t :: body) ↔ Dangles (due.past t) body := Iff.rfl

/-- Where no operator follows, an operand ends the statement. -/
theorem dangles_stopped {body : List Token} (loose : ∀ t ∈ body.head?, t.kind.continues = false) :
    Dangles .operator body ↔ Dangles .statement body := by
  cases body with
  | nil => exact ⟨nofun, nofun⟩
  | cons t body =>
    have here : Due.operator.past t = Due.statement.past t := by
      simp only [Due.past, loose t rfl, Bool.false_eq_true, if_false]
    rw [dangles_cons, dangles_cons, here]

/-! ## Inside a block -/

/-- The tokens ahead are plain ones, then the word that closes the block, then others. -/
structure Parser.Inside (end_ : Token) (rest body : List Token) (s : Parser) : Prop where
  ahead : s.cursor.ahead = body ++ end_ :: rest
  plain : ∀ t ∈ body, t.kind.isPlain

/-- What a production inside a block comes to, where `swallows` says whether the block
    dangles. If a node is built, `due` is due behind it, and `R` holds there. If not,
    the statement is at an end, or the word that closes the block is passed, and then it
    does dangle. -/
def Reply.Follows {α : Type} (end_ : Token) (rest : List Token) (swallows : Prop) (due : Due)
    (R : Parser → Prop) : Reply α → Prop
  | .built _ s' => R s' ∧ ∃ body, s'.Inside end_ rest body ∧ (swallows ↔ Dangles due body)
  | .gaveUp s' => (∃ body, s'.Inside end_ rest body ∧ (swallows ↔ Dangles .statement body)) ∨ (s'.cursor.ahead = rest ∧ swallows)
  | .exhausted => True

variable {last end_ : Token} {rest body : List Token} {swallows : Prop}

theorem Parser.Inside.passed {s : Parser} {t : Token} (inside : s.Inside end_ rest (t :: body)) :
    s.passed.Inside end_ rest body := by
  have ahead : s.cursor.ahead = t :: (body ++ end_ :: rest) := inside.ahead
  rw [passed_eq ahead]
  exact ⟨rfl, fun u here => inside.plain u (List.mem_cons_of_mem _ here)⟩

theorem Parser.Inside.current {s : Parser} {t : Token} (inside : s.Inside end_ rest (t :: body)) :
    s.cursor.current = t := by
  simp [Cursor.current, inside.ahead]

namespace Reply

variable {α β : Type} {s : Parser} {due due' : Due} {R Q : Parser → Prop}

theorem follows_done {node : α} (inside : s.Inside end_ rest body) (holds : R s)
    (same : swallows ↔ Dangles due body) :
    ((pure node : Production α) s).Follows end_ rest swallows due R := ⟨holds, body, inside, same⟩

theorem follows_fail {error : ParseError} (inside : s.Inside end_ rest body)
    (same : swallows ↔ Dangles .statement body) :
    ((Production.fail error : Production α) s).Follows end_ rest swallows due R :=
  .inl ⟨body, ⟨inside.ahead, inside.plain⟩, same⟩

/-- Two productions in a row. -/
theorem Follows.bind {p : Production α} {f : α → Production β}
    (hp : (p s).Follows end_ rest swallows due R)
    (hf : ∀ node s' body, s'.Inside end_ rest body → R s' → (swallows ↔ Dangles due body) →
      (f node s').Follows end_ rest swallows due' Q) :
    ((p >>= f) s).Follows end_ rest swallows due' Q := by
  change (Production.andThen p f s).Follows end_ rest swallows due' Q
  unfold Production.andThen
  cases first : p s with
  | built node s' =>
    rw [first] at hp
    obtain ⟨holds, body, inside, same⟩ := hp
    exact hf node s' body inside holds same
  | gaveUp s' => rw [first] at hp; exact hp
  | exhausted => trivial

/-- Passing a token of the block. -/
theorem Follows.pass {f : Token → Production β} {t : Token}
    (inside : s.Inside end_ rest (t :: body))
    (hf : s.passed.Inside end_ rest body → (f t s.passed).Follows end_ rest swallows due Q) :
    ((Production.advance >>= f) s).Follows end_ rest swallows due Q := by
  rw [Production.advance_bind inside.ahead]
  exact hf inside.passed

end Reply

open Reply

/-! ## Expressions -/

namespace Grammar

open Production

structure AllFollow (end_ : Token) (rest : List Token) (bound : Nat) : Prop where
  expression (min : Precedence) {s : Parser} {body : List Token} (inside : s.Inside end_ rest body) :
    (Grammar.expression bound min s).Follows end_ rest (Dangles .operand body) .operator fun s' => s'.place.extends? min = false
  operand {s : Parser} {body : List Token} (inside : s.Inside end_ rest body) :
    (Grammar.operand bound s).Follows end_ rest (Dangles .operand body) .operator fun _ => True
  climb (min : Precedence) (left : Expr) {s : Parser} {body : List Token} (inside : s.Inside end_ rest body) :
    (Grammar.climb bound min left s).Follows end_ rest (Dangles .operator body) .operator fun s' => s'.place.extends? min = false
  extension {min : Precedence} (left : Expr) {s : Parser} {body : List Token} (inside : s.Inside end_ rest body)
    (extends_ : s.place.extends? min) :
    (Grammar.extension bound left s).Follows end_ rest (Dangles .operator body) .operator fun _ => True

section

variable {bound : Nat} (closes : end_.kind = .endWord) (ih : AllFollow end_ rest bound)
include ih

theorem expression_follows (min : Precedence) {s : Parser} {body : List Token}
    (inside : s.Inside end_ rest body) :
    (Grammar.expression (bound + 1) min s).Follows end_ rest (Dangles .operand body) .operator
      fun s' => s'.place.extends? min = false := by
  unfold Grammar.expression
  refine Follows.bind (ih.operand inside) fun left s₁ body₁ inside₁ _ same => ?_
  rw [same]
  exact ih.climb min left inside₁

theorem climb_follows (min : Precedence) (left : Expr) {s : Parser} {body : List Token}
    (inside : s.Inside end_ rest body) :
    (Grammar.climb (bound + 1) min left s).Follows end_ rest (Dangles .operator body) .operator
      fun s' => s'.place.extends? min = false := by
  unfold Grammar.climb
  rw [ask_bind, extends_eq]
  by_cases extends_ : s.place.extends? min
  · rw [if_pos extends_]
    refine Follows.bind (ih.extension left inside extends_) fun wider s₁ body₁ inside₁ _ same => ?_
    rw [same]
    exact ih.climb min wider inside₁
  · rw [if_neg extends_]
    exact follows_done inside (by simpa using extends_) Iff.rfl

include closes

theorem operand_follows {s : Parser} {body : List Token} (inside : s.Inside end_ rest body) :
    (Grammar.operand (bound + 1) s).Follows end_ rest
    (Dangles .operand body) .operator fun _ => True := by
  unfold Grammar.operand
  rw [ask_bind]
  cases body with
  | nil =>
    have current : s.cursor.current = end_ := by simp [Cursor.current, inside.ahead]
    rw [current, closes]
    dsimp only
    rw [advance_bind inside.ahead]
    refine .inr ⟨?_, rfl⟩
    rw [Parser.passed_eq inside.ahead]
  | cons t body =>
    have plain := inside.plain t List.mem_cons_self
    rw [inside.current, dangles_cons]
    cases kind : t.kind
    case ident | str | trueWord | falseWord =>
      refine Follows.pass inside fun inside₁ => ?_
      exact follows_done inside₁ trivial (by simp only [Due.past, Due.behindOperand, kind])
    case int =>
      unfold integer
      refine Follows.pass inside fun inside₁ => ?_
      cases number : Text.decimal? t.text with
      | some value =>
        exact follows_done inside₁ trivial (by simp only [Due.past, Due.behindOperand, kind, number]; exact Iff.rfl)
      | none => exact follows_fail inside₁ (by simp only [Due.past, Due.behindOperand, kind, number]; exact Iff.rfl)
    case minus | bang =>
      have due : Due.operand.past t = .operand := by simp only [Due.past, Due.behindOperand, kind]
      rw [due]
      refine Follows.pass inside fun inside₁ => ?_
      refine Follows.bind (ih.expression .unary inside₁) fun e s₂ body₂ inside₂ _ same => ?_
      exact follows_done inside₂ trivial same
    case lparen | lbracket | ifWord | fnWord =>
      rw [kind] at plain
      exact absurd plain (by decide)
    -- what starts no operand is passed over, and the statement ends there
    all_goals
      refine Follows.pass inside fun inside₁ => ?_
      exact follows_fail inside₁ (by simp only [Due.past, Due.behindOperand, kind])

omit ih in
/-- What is extended here is extended by a plain token, not by the end of the block. -/
theorem inside_extends {min : Precedence} {s : Parser} {body : List Token}
    (inside : s.Inside end_ rest body)
    (extends_ : s.place.extends? min) : ∃ t more, body = t :: more ∧ t.kind.continues := by
  cases body with
  | nil =>
    have ahead : s.place.ahead = end_ :: rest := inside.ahead
    simp [Place.extends?, ahead, closes, Precedence.of, Precedence.below_lowest] at extends_
  | cons t more =>
    have ahead : s.place.ahead = t :: (more ++ end_ :: rest) := inside.ahead
    have plain := inside.plain t List.mem_cons_self
    refine ⟨t, more, rfl, ?_⟩
    simp only [Place.extends?, ahead] at extends_
    cases kind : t.kind
    all_goals first
      | rfl
      | (rw [kind] at plain; exact absurd plain (by decide))
      | (rw [kind] at extends_; simp [Precedence.of, Precedence.below_lowest] at extends_)

omit ih closes in
/-- Behind an expression at the lowest level, what comes next starts a statement. -/
theorem dangles_behind {s : Parser} {body : List Token} (inside : s.Inside end_ rest body)
    (ends : s.place.extends? .lowest = false) :
    Dangles .operator body ↔ Dangles .statement body := by
  refine dangles_stopped fun t first => ?_
  cases body with
  | nil => cases first
  | cons u body =>
    cases first
    have ahead : s.place.ahead = t :: (body ++ end_ :: rest) := inside.ahead
    simp only [Place.extends?, ahead] at ends
    cases kind : t.kind
    all_goals first
      | rfl
      | (rw [kind] at ends; cases ends)

theorem extension_follows {min : Precedence} (left : Expr) {s : Parser} {body : List Token}
    (inside : s.Inside end_ rest body)
    (extends_ : s.place.extends? min) :
    (Grammar.extension (bound + 1) left s).Follows end_ rest
    (Dangles .operator body) .operator fun _ => True := by
  obtain ⟨t, body, rfl, continues⟩ := inside_extends closes inside extends_
  have plain := inside.plain t List.mem_cons_self
  have due : Due.operator.past t = .operand := if_pos continues
  unfold Grammar.extension
  rw [dangles_cons, due]
  refine Follows.pass inside fun inside₁ => ?_
  cases kind : t.kind
  case assign =>
    refine Follows.bind (ih.expression .lowest inside₁) fun value s₂ body₂ inside₂ ends same => ?_
    cases target? left with
    | some target => exact follows_done inside₂ trivial same
    | none => exact follows_fail inside₂ (same.trans (dangles_behind inside₂ ends))
  case plus | minus | star | slash | percent | eqEq | notEq | lt | gt | ltEq | gtEq | andAnd | orOr | amp | pipe =>
    refine Follows.bind (ih.expression _ inside₁) fun right s₂ body₂ inside₂ _ same => ?_
    exact follows_done inside₂ trivial same
  all_goals
    rw [kind] at plain continues
    first
      | exact absurd plain (by decide)
      | exact absurd continues (by decide)

end

/-- Expressions inside a block keep to what is due. -/
theorem allFollow (closes : end_.kind = .endWord) (bound : Nat) : AllFollow end_ rest bound := by
  induction bound with
  | zero => constructor <;> intros <;> trivial
  | succ bound ih =>
    exact ⟨expression_follows ih, operand_follows closes ih, climb_follows ih, extension_follows closes ih⟩

/-- So do statements, each of which starts with a token of its own. -/
theorem statement_follows (closes : end_.kind = .endWord) (bound : Nat) {s : Parser} {t : Token}
    {body : List Token}
    (inside : s.Inside end_ rest (t :: body)) :
    (Grammar.statement bound s).Follows end_ rest
    (Dangles .statement (t :: body)) .statement fun _ => True := by
  cases bound with
  | zero => trivial
  | succ bound =>
    have plain := inside.plain t List.mem_cons_self
    have follow : AllFollow end_ rest bound := allFollow closes bound
    unfold Grammar.statement
    rw [ask_bind, inside.current]
    by_cases word : t.kind = .returnWord
    · have due : Due.statement.past t = .operand := by simp only [Due.past, Due.behindStart, word, if_true]
      rw [word, dangles_cons, due]
      refine Follows.pass inside fun inside₁ => ?_
      refine Follows.bind (follow.expression .lowest inside₁) fun value s₂ body₂ inside₂ ends same => ?_
      exact follows_done inside₂ trivial (same.trans (dangles_behind inside₂ ends))
    · have due : Due.statement.past t = Due.operand.past t := by simp only [Due.past, Due.behindStart, if_neg word]
      have starts : startsFunction s.cursor = false := by
        have other : t.kind ≠ .fnWord := by
          intro word
          rw [word] at plain
          exact absurd plain (by decide)
        simp [startsFunction, Cursor.kind, inside.current, other]
      have value : ((do
          if ← ask startsFunction then
            return Stmt.function (← Grammar.functionStatement bound)
          else
            return Stmt.expression t (← Grammar.expression bound .lowest) : Production Stmt) s).Follows end_ rest
            (Dangles .statement (t :: body)) .statement fun _ => True := by
        rw [ask_bind, starts, dangles_cons, due]
        refine Follows.bind (follow.expression .lowest inside) fun value s₂ body₂ inside₂ ends same => ?_
        exact follows_done inside₂ trivial (same.trans (dangles_behind inside₂ ends))
      cases kind : t.kind
      case returnWord => exact absurd kind word
      case whileWord | testWord | classWord =>
        rw [kind] at plain
        exact absurd plain (by decide)
      all_goals exact value

/-! ## Statements -/

/-- How statements that do not end here are built: the first one is, or it is dropped. -/
theorem statements_inv {bound : Nat} {close : List Kind} {s s' : Parser} {list : List Stmt}
    (goesOn : s.place.stops close = false)
    (built : Grammar.statements (bound + 1) close s = .built list s') :
    (∃ first s₁ more, Grammar.statement bound s = .built first s₁ ∧ Grammar.statements bound close s₁ = .built more s' ∧
      list = first :: more) ∨
    ∃ s₁ s₂, Grammar.statement bound s = .gaveUp s₁ ∧ ensureProgress s.cursor.consumed s₁ = .built () s₂ ∧
      Grammar.statements bound close s₂ = .built list s' := by
  unfold Grammar.statements at built
  rw [ask_bind, stops_eq, goesOn, if_neg Bool.false_ne_true, ask_bind] at built
  obtain ⟨first?, s₁, tried, built⟩ := bind_eq_built built
  unfold attempt at tried
  cases reply : Grammar.statement bound s with
  | built first _ =>
    rw [reply] at tried
    cases tried
    obtain ⟨more, _, rest, done⟩ := bind_eq_built built
    cases done
    exact .inl ⟨first, s₁, more, rfl, rest, rfl⟩
  | gaveUp _ =>
    rw [reply] at tried
    cases tried
    obtain ⟨_, s₂, progress, rest⟩ := bind_eq_built built
    exact .inr ⟨s₁, s₂, rfl, progress, rest⟩
  | exhausted => rw [reply] at tried; cases tried

/-- Once a token was passed, progress is made. -/
theorem ensureProgress_moved {s s' : Parser} (on : s.Onward 1 s') :
    ensureProgress s.cursor.consumed s' = .built () s' := by
  have moved : s'.cursor.consumed ≠ s.cursor.consumed := by
    have := on.consumed
    have := on.ahead
    omega
  unfold ensureProgress
  rw [ask_bind, if_neg (by simpa using moved)]
  rfl

/-- Under a bound that suffices a statement passes a token, whether it is built or not. -/
theorem statement_onward {bound : Nat} {s : Parser} (atLast : s.cursor.last.kind = .eof)
    (ahead : s.cursor.ahead ≠ [])
    (enough : 8 * s.cursor.ahead.length + 4 ≤ bound) :
    (∀ first s₁, Grammar.statement bound s = .built first s₁ → s.Onward 1 s₁) ∧
      ∀ s₁, Grammar.statement bound s = .gaveUp s₁ → s.Onward 1 s₁ := by
  have moves : s.MovesOn (s.run fun _ => Grammar.statement bound) :=
    Parser.moves_on ((allKeep atLast bound).statement s rfl enough) ((allCharged atLast bound).statement rfl ahead)
  have onward := moves.onward
  unfold Parser.run at onward
  constructor
  · intro first s₁ reply
    simpa only [reply] using onward
  · intro s₁ reply
    simpa only [reply] using onward

/-- Statements that can be read to the end can be read in a block that nothing closes. -/
theorem Reads.unclosed {last : Token} {c : Place} {list : List Stmt} {line : Nat}
    (close : List Kind)
    (h : Reads last c (.statements [] list) ⟨line, []⟩) :
    Reads last c (.statements close list) ⟨line, []⟩ := by
  induction list generalizing c with
  | nil => cases h with
    | noStatements => exact .noStatements rfl
  | cons first list ih => cases h with
    | someStatements head more => exact .someStatements head (ih more)

/-- The statements of a block stop at the word that closes it. If the block dangles they
    go on to the end of the input. -/
theorem statements_inside {last : Token} (atLast : last.kind = .eof) (closes : end_.kind = .endWord)
    {others : List Stmt}
    (follow : ∀ line, ∃ behind, Reads last ⟨line, rest⟩ (.statements [] others) ⟨behind, []⟩)
    {bound : Nat} {s s' : Parser} {list : List Stmt} (hlast : s.cursor.last = last)
    (inside : s.Inside end_ rest body)
    (enough : 8 * s.cursor.ahead.length + 5 ≤ bound)
    (built : Grammar.statements bound bodyEnd s = .built list s') :
    s'.cursor.ahead = if Dangles .statement body then [] else end_ :: rest := by
  induction bound generalizing s body list with
  | zero => cases built
  | succ bound ih =>
    cases body with
    | nil =>
      have stops : s.place.stops bodyEnd := by
        have ahead : s.place.ahead = end_ :: rest := inside.ahead
        simp [Place.stops, ahead, closes, bodyEnd]
      unfold Grammar.statements at built
      rw [ask_bind, stops_eq, stops] at built
      cases built
      exact inside.ahead
    | cons t body =>
      have ahead : s.place.ahead = t :: (body ++ end_ :: rest) := inside.ahead
      have goesOn : s.place.stops bodyEnd = false := by
        have plain := inside.plain t List.mem_cons_self
        have other : t.kind ≠ .endWord := by
          intro word
          rw [word] at plain
          exact absurd plain (by decide)
        simp [Place.stops, ahead, other, bodyEnd]
      have follows := statement_follows closes bound inside
      obtain ⟨onward, onward'⟩ :=
        statement_onward (hlast ▸ atLast) (by rw [inside.ahead]; exact List.cons_ne_nil _ _) (Nat.le_of_succ_le_succ enough)
      rcases statements_inv goesOn built with ⟨first, s₁, more, reply, rest_, rfl⟩ | ⟨s₁, s₂, reply, progress, rest_⟩
      · rw [reply] at follows
        obtain ⟨-, body₁, inside₁, same⟩ := follows
        have on := onward first s₁ reply
        have fewer := on.ahead
        have result := ih (on.last.trans hlast) inside₁ (by omega) rest_
        simpa only [same] using result
      · rw [reply] at follows
        have on := onward' s₁ reply
        have fewer := on.ahead
        rw [ensureProgress_moved on] at progress
        cases progress
        rcases follows with ⟨body₁, inside₁, same⟩ | ⟨behind, swallowed⟩
        · have result := ih (on.last.trans hlast) inside₁ (by omega) rest_
          simpa only [same] using result
        · -- the word that closes the block is gone
          rw [if_pos swallowed]
          obtain ⟨line, reads⟩ := follow s₁.cursor.previousLine
          have place : s₁.place = ⟨s₁.cursor.previousLine, rest⟩ := by rw [← behind]; rfl
          have room : 8 * rest.length + 5 ≤ bound := by rw [← behind]; omega
          obtain ⟨s₂, run, -, place₂, -⟩ := (reads.unclosed bodyEnd).runs atLast rfl bound room s₁ (on.last.trans hlast) place
          rw [rest_] at run
          cases run
          exact congrArg Place.ahead place₂

/-! ## Functions -/

theorem expect_other {s : Parser} {kind : Kind} (other : s.cursor.current.kind ≠ kind) :
    expect kind s = .gaveUp { s with errors := s.errors.push (.unexpected kind s.cursor.current) } := by
  unfold expect
  rw [ask_bind, if_neg (by simpa using other)]
  rfl

section

variable {last fn_ name open_ close_ : Token} (atLast : last.kind = .eof) (word : fn_.kind = .fnWord) (named : name.kind = .ident)
  (opens : open_.kind = .lparen) (shuts : close_.kind = .rparen) (closes : end_.kind = .endWord)
  (plain : ∀ t ∈ body, t.kind.isPlain) {others : List Stmt}
  (follow : ∀ line, ∃ behind, Reads last ⟨line, rest⟩ (.statements [] others) ⟨behind, []⟩) {bound : Nat} {s : Parser}
  (hlast : s.cursor.last = last)
include atLast opens shuts closes plain follow hlast

/-- A function without parameters and such a block for its body: it is built, and what
    stands behind it is next, or it is dropped at the end of the input. -/
theorem functionLiteral_around (ahead : s.cursor.ahead = open_ :: close_ :: (body ++ end_ :: rest))
    (enough : 8 * s.cursor.ahead.length + 2 ≤ bound) :
    if Dangles .statement body then ∃ s', Grammar.functionLiteral bound s = .gaveUp s' ∧ s'.cursor.ahead = []
    else ∃ block s', Grammar.functionLiteral bound s = .built ⟨[], block⟩ s' ∧ s'.cursor.last = last ∧ s'.cursor.ahead = rest := by
  have length : s.cursor.ahead.length = (body ++ end_ :: rest).length + 2 := by rw [ahead]; rfl
  obtain ⟨bound, rfl⟩ : ∃ b, bound = b + 2 := ⟨bound - 2, by omega⟩
  have place : s.place = ⟨s.cursor.previousLine, open_ :: close_ :: (body ++ end_ :: rest)⟩ := by rw [← ahead]; rfl
  have parameters : Reads last s.place (.parameters []) ⟨close_.line, body ++ end_ :: rest⟩ := by
    rw [place]
    exact .noParameters (.token _ _ opens) (.token _ _ shuts)
  obtain ⟨s₁, run, hlast₁, place₁, -⟩ := parameters.runs atLast (bound + 1) (Nat.le_of_succ_le_succ enough) s hlast rfl
  have inside : s₁.Inside end_ rest body := ⟨congrArg Place.ahead place₁, plain⟩
  have enough₁ : 8 * s₁.cursor.ahead.length + 5 ≤ bound := by rw [inside.ahead]; omega
  obtain ⟨list, s₂, built⟩ := statements_built bodyEnd (hlast₁ ▸ atLast) enough₁
  have behind := statements_inside atLast closes follow hlast₁ inside enough₁ built
  have on := ((allKeep atLast bound).statements bodyEnd s₁ hlast₁ enough₁)
  rw [built] at on
  have hlast₂ := on.1.last.trans hlast₁
  have block : Grammar.block (bound + 1) bodyEnd s₁ = .built ⟨s₁.cursor.current, list⟩ s₂ := by
    unfold Grammar.block
    rw [ask_bind, bind_built built]
    rfl
  unfold Grammar.functionLiteral
  rw [bind_built run, bind_built block]
  split
  · next dangles =>
    rw [if_pos dangles] at behind
    have current : s₂.cursor.current = last := by simp [Cursor.current, behind, hlast₂]
    have other : s₂.cursor.current.kind ≠ .endWord := by rw [current, atLast]; decide
    exact ⟨_, bind_gaveUp (expect_other other), behind⟩
  · next closed =>
    rw [if_neg closed] at behind
    have closing : Reads last s₂.place (.token .endWord end_) ⟨end_.line, rest⟩ := by
      have place₂ : s₂.place = ⟨s₂.cursor.previousLine, end_ :: rest⟩ := by rw [← behind]; rfl
      rw [place₂]
      exact .token _ _ closes
    obtain ⟨s₃, passed, hlast₃, place₃, -⟩ := Builds.expect closing s₂ hlast₂ rfl
    exact ⟨_, s₃, bind_built passed, hlast₃, congrArg Place.ahead place₃⟩

include word named

/-- The same of a named function as a statement. -/
theorem statement_around
    (ahead : s.cursor.ahead = fn_ :: name :: open_ :: close_ :: (body ++ end_ :: rest))
    (enough : 8 * s.cursor.ahead.length + 4 ≤ bound) :
    if Dangles .statement body then ∃ s', Grammar.statement bound s = .gaveUp s' ∧ s'.cursor.ahead = []
    else ∃ block s', Grammar.statement bound s = .built (.function ⟨fn_, .ofToken name, ⟨[], block⟩⟩) s' ∧
      s'.cursor.last = last ∧ s'.cursor.ahead = rest := by
  have length : s.cursor.ahead.length = (open_ :: close_ :: (body ++ end_ :: rest)).length + 2 := by rw [ahead]; rfl
  obtain ⟨bound, rfl⟩ : ∃ b, bound = b + 2 := ⟨bound - 2, by omega⟩
  have place : s.place = ⟨s.cursor.previousLine, fn_ :: name :: open_ :: close_ :: (body ++ end_ :: rest)⟩ := by rw [← ahead]; rfl
  obtain ⟨s₁, passed₁, hlast₁, place₁, -⟩ := Builds.advance (.token _ _ word) s hlast place
  obtain ⟨s₂, passed₂, hlast₂, place₂, -⟩ := Builds.identifier (.token _ _ named) s₁ hlast₁ place₁
  have ahead₂ : s₂.cursor.ahead = open_ :: close_ :: (body ++ end_ :: rest) := congrArg Place.ahead place₂
  have statement : Grammar.statement (bound + 2) s =
      (Grammar.functionStatement (bound + 1) >>= fun definition => pure (Stmt.function definition)) s := by
    have current : s.cursor.current = fn_ := by simp [Cursor.current, ahead]
    have starts : startsFunction s.cursor = true := by
      simp [startsFunction, Cursor.kind, Cursor.peekKind, current, ahead, word, named]
    unfold Grammar.statement
    rw [ask_bind, current, word]
    dsimp only
    rw [ask_bind, starts, if_pos rfl]
  have definition : Grammar.functionStatement (bound + 1) s =
      (Grammar.functionLiteral bound >>= fun literal => pure ⟨fn_, .ofToken name, literal⟩) s₂ := by
    unfold Grammar.functionStatement
    rw [bind_built passed₁, bind_built passed₂]
  have room : 8 * s₂.cursor.ahead.length + 2 ≤ bound := by rw [ahead₂]; omega
  have literal := functionLiteral_around atLast opens shuts closes plain follow hlast₂ ahead₂ room
  rw [statement]
  split
  · next dangles =>
    rw [if_pos dangles] at literal
    obtain ⟨s', gaveUp, ends⟩ := literal
    exact ⟨s', bind_gaveUp (definition.trans (bind_gaveUp gaveUp)), ends⟩
  · next closed =>
    rw [if_neg closed] at literal
    obtain ⟨block, s', built, hlast', ahead'⟩ := literal
    exact ⟨block, s', bind_built (definition.trans (bind_built built)), hlast', ahead'⟩

/-- Such a function in front of statements that can be read: these are built behind it,
    or all is lost. -/
theorem statements_around
    (ahead : s.cursor.ahead = fn_ :: name :: open_ :: close_ :: (body ++ end_ :: rest))
    (enough : 8 * s.cursor.ahead.length + 5 ≤ bound) {list : List Stmt} {s' : Parser}
    (built : Grammar.statements bound [] s = .built list s') :
    if Dangles .statement body then list = []
    else ∃ block, list = .function ⟨fn_, .ofToken name, ⟨[], block⟩⟩ :: others := by
  obtain ⟨bound, rfl, left⟩ := exists_left enough
  have nonempty : s.cursor.ahead ≠ [] := by rw [ahead]; exact List.cons_ne_nil _ _
  have goesOn : s.place.stops [] = false := by
    have ahead : s.place.ahead = fn_ :: name :: open_ :: close_ :: (body ++ end_ :: rest) := ahead
    simp [Place.stops, ahead]
  obtain ⟨onward, onward'⟩ := statement_onward (hlast ▸ atLast) nonempty left
  have statement := statement_around atLast word named opens shuts closes plain follow hlast ahead left
  split
  · next dangles =>
    rw [if_pos dangles] at statement
    obtain ⟨s₁, gaveUp, ends⟩ := statement
    have on := onward' s₁ gaveUp
    rcases statements_inv goesOn built with ⟨first, _, more, reply, -, -⟩ | ⟨_, s₂, reply, progress, rest_⟩
    · rw [gaveUp] at reply
      cases reply
    · rw [gaveUp] at reply
      cases reply
      rw [ensureProgress_moved on] at progress
      cases progress
      have ahead₁ : s₁.place.ahead = [] := ends
      have none : Reads last s₁.place (.statements [] []) s₁.place := .noStatements (by simp only [Place.stops, ahead₁])
      have tokens : 0 < s.cursor.ahead.length := List.length_pos_of_ne_nil nonempty
      have room : 8 * s₁.place.ahead.length + 5 ≤ bound := by rw [ahead₁, List.length_nil]; omega
      obtain ⟨s₃, run, -⟩ := none.runs atLast rfl bound room s₁ (on.last.trans hlast) rfl
      rw [rest_] at run
      cases run
      rfl
  · next closed =>
    rw [if_neg closed] at statement
    obtain ⟨block, s₁, run, hlast₁, ahead₁⟩ := statement
    have fewer := (onward _ s₁ run).ahead
    rcases statements_inv goesOn built with ⟨first, _, more, reply, rest_, rfl⟩ | ⟨_, _, reply, -, -⟩
    · rw [run] at reply
      cases reply
      obtain ⟨behind, reads⟩ := follow s₁.cursor.previousLine
      have place₁ : s₁.place = ⟨s₁.cursor.previousLine, rest⟩ := by rw [← ahead₁]; rfl
      have room : 8 * rest.length + 5 ≤ bound := by rw [← ahead₁]; omega
      obtain ⟨s₂, run₂, -⟩ := reads.runs atLast rfl bound room s₁ hlast₁ place₁
      rw [rest_] at run₂
      cases run₂
      exact ⟨block, rfl⟩
    · rw [run] at reply
      cases reply

end

end Grammar

/-! ## Whole token lists -/

/-- The statements of a list of tokens can be read behind any others, whatever the line
    before. -/
theorem ofTokens_reads {tokens : List Token} (clean : (parse (.ofTokens tokens)).errors = [])
    (before : List Token) (line : Nat) :
    ∃ behind, Reads (Stream.ofTokens (before ++ tokens)).last ⟨line, (Stream.ofTokens tokens).tokens⟩
      (.statements [] (parse (.ofTokens tokens)).program.statements) ⟨behind, []⟩ := by
  have atLast : (Stream.ofTokens tokens).last.kind = .eof := rfl
  obtain ⟨behind, reads⟩ := parse_reads atLast clean
  obtain ⟨behind, reads⟩ := reads.statements_reline line
  change Reads _ ⟨line, (Stream.ofTokens tokens).tokens⟩ _ _ at reads
  rcases ahead : (Stream.ofTokens tokens).tokens with _ | ⟨t, ts⟩
  · rw [ahead] at reads
    generalize (parse (.ofTokens tokens)).program.statements = list at reads ⊢
    cases reads with
    | noStatements => exact ⟨line, .noStatements rfl⟩
    | someStatements first =>
      obtain ⟨t, ts, starts, -⟩ := first.statement_starts
      cases starts
  · -- the end token stands on the line of the last token either way
    have same : (Stream.ofTokens (before ++ tokens)).last = (Stream.ofTokens tokens).last := by
      have kept : tokens.filter (·.kind != .eof) ≠ [] := by
        change (Stream.ofTokens tokens).tokens ≠ []
        rw [ahead]
        exact List.cons_ne_nil _ _
      simp only [Stream.ofTokens, List.filter_append, List.getLast?_append_of_ne_nil _ kept]
    rw [same, ← ahead]
    exact ⟨behind, reads⟩

theorem Kind.ne_eof_of_isPlain {kind : Kind} (plain : kind.isPlain) : kind ≠ .eof := by
  rintro rfl
  exact absurd plain (by decide)

/-- A function without parameters whose body is made of names, literals, operators and
    `return`, well formed or not, and behind it tokens that are free of syntax errors by
    themselves. If the body does not dangle, its function is built and then just the
    statements that those tokens come to alone. If it dangles there are no statements at
    all. -/
theorem parse_recovers {fn_ name open_ close_ : Token} (word : fn_.kind = .fnWord) (named : name.kind = .ident)
    (opens : open_.kind = .lparen) (shuts : close_.kind = .rparen) (closes : end_.kind = .endWord)
    (plain : ∀ t ∈ body, t.kind.isPlain) (clean : (parse (.ofTokens rest)).errors = []) :
    let whole := (parse (.ofTokens (fn_ :: name :: open_ :: close_ :: (body ++ end_ :: rest)))).program.statements
    let after := (parse (.ofTokens rest)).program.statements
    (after <:+ whole ↔ ¬ Dangles .statement body ∨ after = []) ∧
      if Dangles .statement body then whole = []
      else ∃ block, whole = .function ⟨fn_, .ofToken name, ⟨[], block⟩⟩ :: after := by
  intro whole after
  have settled : if Dangles .statement body then whole = []
      else ∃ block, whole = .function ⟨fn_, .ofToken name, ⟨[], block⟩⟩ :: after := by
    let before := fn_ :: name :: open_ :: close_ :: (body ++ [end_])
    let s : Parser := .ofStream (.ofTokens (before ++ rest))
    have all : fn_ :: name :: open_ :: close_ :: (body ++ end_ :: rest) = before ++ rest := by simp [before]
    have inside : body.filter (·.kind != .eof) = body :=
      List.filter_eq_self.2 fun t here => by simpa using Kind.ne_eof_of_isPlain (plain t here)
    have ahead : s.cursor.ahead = fn_ :: name :: open_ :: close_ :: (body ++ end_ :: (Stream.ofTokens rest).tokens) := by
      simp [s, before, Parser.ofStream, Cursor.ofStream, Stream.ofTokens, word, named, opens, shuts, closes, inside]
    obtain ⟨list, behind, built⟩ := statements_built [] (s := s) rfl s.enough_bound
    have parsed := parse_of_built built
    have list_eq : whole = list := by
      simp only [whole, all, parsed]
    rw [list_eq]
    exact statements_around rfl word named opens shuts closes plain (ofTokens_reads clean before) rfl ahead s.enough_bound built
  refine ⟨?_, settled⟩
  split at settled
  · next dangles => simp [settled, dangles]
  · next closed =>
    obtain ⟨block, whole_eq⟩ := settled
    rw [whole_eq]
    exact ⟨fun _ => .inl closed, fun _ => List.suffix_cons _ _⟩

def unfinished : List Token := [⟨.int, "1", 1⟩, ⟨.plus, "+", 1⟩]

/-- Behind it the `end` of the function is passed over, and the name on the next line is
    lost. -/
theorem parse_recovers_unfinished :
    let after : List Token := [⟨.ident, "x", 2⟩]
    (∀ t ∈ unfinished, t.kind.isPlain) ∧ (parse (.ofTokens after)).errors = [] ∧ Dangles .statement unfinished ∧
      (parse (.ofTokens after)).program.length = 1 ∧
      (parse (.ofTokens (.canonical .fnWord :: ⟨.ident, "f", 1⟩ :: .canonical .lparen :: .canonical .rparen ::
        (unfinished ++ .canonical .endWord :: after)))).program.statements = [] := by
  intro after
  have named : (Token.mk .ident "f" 1).kind = .ident := rfl
  have kind (kind : Kind) : (Token.canonical kind).kind = kind := rfl
  have plain : ∀ t ∈ unfinished, t.kind.isPlain := by decide
  have clean : (parse (.ofTokens after)).errors = [] := by decide +kernel
  have dangles : Dangles .statement unfinished := by decide +kernel
  have lost := (parse_recovers (kind _) named (kind _) (kind _) (kind _) plain clean).2
  rw [if_pos dangles] at lost
  exact ⟨plain, clean, dangles, by decide +kernel, lost⟩

end Lantern
