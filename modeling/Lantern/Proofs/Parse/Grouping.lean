/-
  Lantern.Proofs.Parse.Grouping — how operands with operators between them group.

  A chain is a sequence of operands with operators between them, where an operand is a
  literal or a name behind any number of signs. `Expr.InOrder e tokens` says which
  tokens a tree is written with, read from left to right; every way to put parentheses
  into a chain gives a tree with the same ones. `Expr.Grouped` says which of the trees
  is meant: signs go before operators, and an operator takes what binds tighter on its
  right, and what binds as tight or tighter on its left.

  - `InOrder.reads`: a grouped tree is read from its tokens, whatever stands before them
    and as long as nothing behind them binds tighter. By induction on the tree: its left
    operand is the spine that its operator extends.
  - `InOrder.unique`: so two grouped trees with the same tokens are one, since reading
    leaves no choice.
  - `Chain.exists_grouped`: and every chain has one, to which each further operator is
    added on the right (`Expr.attach`).
  - `expression_groups`: reading at a level comes to the grouped tree of the chain up to
    the first operator that does not bind tighter than the level, and stops there.
-/

import Mathlib.Data.List.Induction
import Mathlib.Data.List.TakeWhile
import Lantern.Proofs.Parse.Completeness
import Lantern.Proofs.Syntax.Layout

namespace Lantern

open Grammar

def InfixOp.precedence (op : InfixOp) : Precedence := .of op.kind

theorem InfixOp.precedence_lt_unary (op : InfixOp) :
    op.precedence.level < Precedence.unary.level := by cases op <;> decide

theorem InfixOp.lowest_lt_precedence (op : InfixOp) :
    Precedence.lowest.level < op.precedence.level := by cases op <;> decide

theorem PrefixOp.kind_of_ofKind? {kind : Kind} {op : PrefixOp}
    (writes : PrefixOp.ofKind? kind = some op) :
    op.kind = kind := by
  cases kind <;> cases writes <;> rfl

/-! ## Chains -/

def Token.isAtom (token : Token) : Bool :=
  match token.kind with
  | .ident | .str | .trueWord | .falseWord => true
  | .int => (Text.decimal? token.text).isSome
  | _ => false

/-- A literal or a name behind any number of `-` and `!`. -/
structure Operand where
  signs : List Token
  atom : Token
  areSigns : ∀ sign ∈ signs, (PrefixOp.ofKind? sign.kind).isSome
  isAtom : atom.isAtom

structure Link where
  op : InfixOp
  token : Token
  operand : Operand
  writes : token.kind = op.kind

structure Chain where
  first : Operand
  links : List Link

def Operand.tokens (operand : Operand) : List Token := operand.signs ++ [operand.atom]

def Link.tokens (link : Link) : List Token := link.token :: link.operand.tokens

namespace Chain

def tokens (chain : Chain) : List Token := chain.first.tokens ++ chain.links.flatMap Link.tokens

/-- The chain up to the first operator that does not bind tighter than `min`. -/
def within (chain : Chain) (min : Precedence) : Chain :=
  { chain with links := chain.links.takeWhile fun link => min.below link.op.precedence }

def beyond (chain : Chain) (min : Precedence) : List Link :=
  chain.links.dropWhile fun link => min.below link.op.precedence

theorem tokens_within_beyond (chain : Chain) (min : Precedence) :
    (chain.within min).tokens ++ (chain.beyond min).flatMap Link.tokens = chain.tokens := by
  rw [tokens, tokens, within, beyond, List.append_assoc, ← List.flatMap_append, List.takeWhile_append_dropWhile]

/-- Every operator binds tighter than the lowest level. -/
theorem below_lowest (link : Link) : Precedence.lowest.below link.op.precedence = true :=
  decide_eq_true link.op.lowest_lt_precedence

/-- The operators up to there bind tighter. -/
theorem tight_within {chain : Chain} {min : Precedence} {link : Link}
    (member : link ∈ (chain.within min).links) :
    min.level < link.op.precedence.level := by
  have listed : link ∈ chain.links.takeWhile fun link => min.below link.op.precedence := member
  simpa [Precedence.below] using List.mem_takeWhile_imp listed

/-- The one that follows does not. -/
theorem weak_beyond {chain : Chain} {min : Precedence} {link : Link}
    (next : link ∈ (chain.beyond min).head?) :
    link.op.precedence.level ≤ min.level := by
  have stopped := List.head?_dropWhile_not (fun link : Link => min.below link.op.precedence) chain.links
  rw [← beyond, next] at stopped
  simpa [Precedence.below] using stopped

theorem within_lowest (chain : Chain) : chain.within .lowest = chain := by
  have all : chain.links.takeWhile (fun link => Precedence.lowest.below link.op.precedence) = chain.links :=
    List.takeWhile_eq_self_iff.2 fun link _ => below_lowest link
  rw [within, all]

theorem beyond_lowest (chain : Chain) : chain.beyond .lowest = [] :=
  List.dropWhile_eq_nil_iff.2 fun link _ => below_lowest link

end Chain

/-! ## Trees over a chain -/

/-- The tokens of a tree of operators, signs, literals and names, from left to right. -/
inductive Expr.InOrder : Expr → List Token → Prop
  | identifier {t : Token} : t.kind = .ident → InOrder (.identifier (.ofToken t)) [t]
  | integer {t : Token} {value : Int64} :
      t.kind = .int → Text.decimal? t.text = some value → InOrder (.integer t value) [t]
  | string {t : Token} : t.kind = .str → InOrder (.string t t.text) [t]
  | truth {t : Token} : t.kind = .trueWord → InOrder (.boolean t true) [t]
  | falsity {t : Token} : t.kind = .falseWord → InOrder (.boolean t false) [t]
  | unary {t : Token} {op : PrefixOp} {operand : Expr} {ts : List Token} :
      t.kind = op.kind → InOrder operand ts → InOrder (.unary t op operand) (t :: ts)
  | binary {t : Token} {op : InfixOp} {left right : Expr} {ts us : List Token} :
      t.kind = op.kind → InOrder left ts → InOrder right us → InOrder (.binary t left op right) (ts ++ t :: us)

namespace Expr

def operator? : Expr → Option InfixOp
  | .binary _ _ op _ => some op
  | _ => none

/-- No sign stands before an operation, and every operator binds no tighter than an
    operation on its left, and weaker than one on its right. -/
def Grouped : Expr → Prop
  | .unary _ _ operand => operand.operator? = none ∧ operand.Grouped
  | .binary _ left op right =>
    (∀ o ∈ left.operator?, op.precedence.level ≤ o.precedence.level) ∧
      (∀ o ∈ right.operator?, op.precedence.level < o.precedence.level) ∧ left.Grouped ∧ right.Grouped
  | _ => True

def binding (e : Expr) : Precedence := (e.operator?.map InfixOp.precedence).getD .unary

end Expr

namespace InfixOp

variable (op : InfixOp) {e : Expr}

theorem le_binding_of_le (tight : ∀ o ∈ e.operator?, op.precedence.level ≤ o.precedence.level) :
    op.precedence.level ≤ e.binding.level := by
  rw [Expr.binding]
  cases found : e.operator? with
  | none => exact Nat.le_of_lt op.precedence_lt_unary
  | some o => exact tight o found

theorem le_binding (tight : ∀ o ∈ e.operator?, op.precedence.level < o.precedence.level) :
    op.precedence.level ≤ e.binding.level :=
  op.le_binding_of_le fun o found => Nat.le_of_lt (tight o found)

end InfixOp

/-! ### A grouped tree is read -/

def Precedence.StoppedBy (level : Precedence) (rest : List Token) : Prop :=
  ∀ line, Place.extends? level ⟨line, rest⟩ = false

theorem Grammar.Place.extends?_operator {t : Token} {op : InfixOp} (writes : t.kind = op.kind)
    (min : Precedence) (line : Nat)
    (ts : List Token) : Place.extends? min ⟨line, t :: ts⟩ = min.below op.precedence := by
  have noBracket : op.kind ≠ .lparen ∧ op.kind ≠ .lbracket := by cases op <;> decide
  simp [Place.extends?, writes, noBracket, InfixOp.precedence]

theorem Precedence.stoppedBy_operator {t : Token} {op : InfixOp} (writes : t.kind = op.kind)
    {level : Precedence}
    (ts : List Token) : level.StoppedBy (t :: ts) ↔ op.precedence.level ≤ level.level := by
  simp [StoppedBy, Place.extends?_operator writes, below]

/-- What stops a level stops every tighter one. -/
theorem Precedence.StoppedBy.mono {level tighter : Precedence} {rest : List Token}
    (h : level.StoppedBy rest)
    (le : level.level ≤ tighter.level) : tighter.StoppedBy rest := by
  intro line
  have stops := h line
  cases rest with
  | nil => rfl
  | cons t ts =>
    simp only [Place.extends?, below, Bool.and_eq_false_iff, decide_eq_false_iff_not] at stops ⊢
    exact stops.imp_left fun weak strong => weak (Nat.lt_of_le_of_lt le strong)

theorem Chain.stoppedBy_beyond {chain : Chain} {min level : Precedence}
    (weak : ∀ link ∈ (chain.beyond min).head?, link.op.precedence.level ≤ level.level) :
    level.StoppedBy ((chain.beyond min).flatMap Link.tokens) := by
  cases links : chain.beyond min with
  | nil => exact fun _ => rfl
  | cons link more =>
    rw [List.flatMap_cons, Link.tokens, List.cons_append, Precedence.stoppedBy_operator link.writes]
    exact weak link (by rw [links]; rfl)

namespace Expr.InOrder

variable {last : Token} {e e' : Expr} {ts : List Token}

/-- A grouped tree is the spine of an expression at every level that its operator binds
    tighter than, if what follows goes on with no part of it. -/
theorem climbs (inOrder : e.InOrder ts) (grouped : e.Grouped) {min : Precedence}
    (tight : ∀ op ∈ e.operator?, min.level < op.precedence.level) {rest : List Token}
    (ends : e.binding.StoppedBy rest)
    (line : Nat) : ∃ line', Reads last ⟨line, ts ++ rest⟩ (.climbing min e) ⟨line', rest⟩ := by
  induction inOrder generalizing min rest line with
  | identifier isName => exact ⟨_, .start (.identifier (.token line rest isName))⟩
  | integer isNumber value => exact ⟨_, .start (.integer (.token line rest isNumber) value)⟩
  | string isString => exact ⟨_, .start (.string (.token line rest isString))⟩
  | truth isTrue => exact ⟨_, .start (.truth (.token line rest isTrue))⟩
  | falsity isFalse => exact ⟨_, .start (.falsity (.token line rest isFalse))⟩
  | @unary t op operand us writes _ ih =>
    obtain ⟨noOperator, inner⟩ := grouped
    -- an operand without an operator binds as tightly as a sign
    have same : operand.binding = .unary := by rw [binding, noOperator]; rfl
    obtain ⟨line', spine⟩ := @ih inner .unary (by simp [noOperator]) rest (same ▸ ends) t.line
    have reads : Reads last ⟨t.line, us ++ rest⟩ (.expression .unary operand) ⟨line', rest⟩ := .expression spine (ends line')
    refine ⟨line', .start ?_⟩
    cases op with
    | neg => exact .negation (.token line (us ++ rest) writes) reads
    | not => exact .complement (.token line (us ++ rest) writes) reads
  | @binary t op left right us vs writes _ _ leftIh rightIh =>
    obtain ⟨leftTight, rightTight, leftGrouped, rightGrouped⟩ := grouped
    have here : min.level < op.precedence.level := tight op rfl
    -- the operator goes on with nothing that is part of its left operand, so that is
    -- read first, as a spine
    have leftEnds : left.binding.StoppedBy (t :: (vs ++ rest)) :=
      (Precedence.stoppedBy_operator writes _).2 (op.le_binding_of_le leftTight)
    obtain ⟨line₁, spine⟩ := leftIh leftGrouped (fun o found => Nat.lt_of_lt_of_le here (leftTight o found)) leftEnds line
    have rightEnds : right.binding.StoppedBy rest := Precedence.StoppedBy.mono ends (op.le_binding rightTight)
    obtain ⟨line₂, climbing⟩ := rightIh rightGrouped rightTight rightEnds t.line
    have reads : Reads last ⟨t.line, vs ++ rest⟩ (.expression op.precedence right) ⟨line₂, rest⟩ :=
      .expression climbing (ends line₂)
    have extension : Reads last ⟨line₁, t :: (vs ++ rest)⟩ (.extension left (.binary t left op right)) ⟨line₂, rest⟩ :=
      .binary (.token line₁ (vs ++ rest) writes) op.ofKind?_kind reads
    refine ⟨line₂, ?_⟩
    rw [List.append_assoc, List.cons_append]
    refine .climb spine ?_ extension
    rw [Place.extends?_operator writes]
    exact decide_eq_true here

/-- A grouped tree is read from its tokens. -/
theorem reads (inOrder : e.InOrder ts) (grouped : e.Grouped) {min : Precedence}
    (tight : ∀ op ∈ e.operator?, min.level < op.precedence.level) {rest : List Token}
    (ends : e.binding.StoppedBy rest)
    (stops : min.StoppedBy rest) (line : Nat) :
    ∃ line', Reads last ⟨line, ts ++ rest⟩ (.expression min e) ⟨line', rest⟩ := by
  obtain ⟨line', spine⟩ := @climbs last _ _ inOrder grouped min tight rest ends line
  exact ⟨line', .expression spine (stops line')⟩

/-- Of the trees with the same tokens one is grouped. -/
theorem unique (inOrder : e.InOrder ts) (inOrder' : e'.InOrder ts) (grouped : e.Grouped)
    (grouped' : e'.Grouped) :
    e' = e := by
  -- both are what is built from these tokens
  let s : Parser := ⟨⟨ts ++ [], .eof 1, 0, 0⟩, #[]⟩
  have built {e : Expr} (inOrder : e.InOrder ts) (grouped : e.Grouped) :
      ∃ s', Grammar.expression (8 * s.cursor.ahead.length + 3) .lowest s = .built e s' := by
    obtain ⟨line, reads⟩ := @reads (.eof 1) _ _ inOrder grouped .lowest (fun op _ => op.lowest_lt_precedence) [] (fun _ => rfl)
      (fun _ => rfl) 0
    obtain ⟨s', run, -⟩ := reads.runs rfl _ (Nat.le_refl _) s rfl rfl
    exact ⟨s', run⟩
  obtain ⟨_, run⟩ := built inOrder grouped
  obtain ⟨_, run'⟩ := built inOrder' grouped'
  rw [run] at run'
  cases run'
  rfl

end Expr.InOrder

/-! ### Every chain has a grouped tree -/

theorem Token.exists_atom {token : Token} (isAtom : token.isAtom) :
    ∃ e : Expr, e.InOrder [token] ∧ e.Grouped ∧ e.operator? = none := by
  unfold Token.isAtom at isAtom
  split at isAtom
  · next isName => exact ⟨_, .identifier isName, trivial, rfl⟩
  · next isString => exact ⟨_, .string isString, trivial, rfl⟩
  · next isTrue => exact ⟨_, .truth isTrue, trivial, rfl⟩
  · next isFalse => exact ⟨_, .falsity isFalse, trivial, rfl⟩
  · next isNumber =>
    obtain ⟨value, number⟩ := Option.isSome_iff_exists.1 isAtom
    exact ⟨_, .integer isNumber number, trivial, rfl⟩
  · cases isAtom

theorem Operand.exists_grouped (operand : Operand) :
    ∃ e : Expr, e.InOrder operand.tokens ∧ e.Grouped ∧ e.operator? = none := by
  obtain ⟨signs, atom, areSigns, isAtom⟩ := operand
  simp only [Operand.tokens]
  induction signs with
  | nil => exact Token.exists_atom isAtom
  | cons sign signs ih =>
    obtain ⟨isSign, areSigns⟩ := List.forall_mem_cons.1 areSigns
    obtain ⟨op, writes⟩ := Option.isSome_iff_exists.1 isSign
    obtain ⟨e, inOrder, grouped, noOperator⟩ := ih areSigns
    exact ⟨.unary sign op e, .unary (PrefixOp.kind_of_ofKind? writes).symm inOrder, ⟨noOperator, grouped⟩, rfl⟩

/-- The tree with one more operator and operand behind it: the operator takes over the
    last operand of every operation that binds weaker. -/
def Expr.attach (e : Expr) (token : Token) (op : InfixOp) (operand : Expr) : Expr :=
  match e with
  | .binary t left o right =>
    if o.precedence.level < op.precedence.level then .binary t left o (right.attach token op operand)
    else .binary token (.binary t left o right) op operand
  | e => .binary token e op operand

namespace Expr

variable {token : Token} {op : InfixOp} {operand : Expr}

/-- A law of `attach` from its two cases: the operator takes all of the tree, or part of
    the right operand of an operation that binds weaker. -/
theorem attach_cases {motive : Expr → Expr → Prop}
    (whole : ∀ e : Expr, (∀ o ∈ e.operator?, op.precedence.level ≤ o.precedence.level) → motive e (.binary token e op operand))
    (part : ∀ t left o right, o.precedence.level < op.precedence.level → motive right (right.attach token op operand) →
      motive (.binary t left o right) (.binary t left o (right.attach token op operand))) (e : Expr) :
    motive e (e.attach token op operand) := by
  fun_induction Expr.attach e token op operand with
  | case1 t left o right weaker ih => exact part t left o right weaker ih
  | case2 t left o right tighter => exact whole _ (by simpa [operator?] using tighter)
  | case3 e noOperation =>
    refine whole e fun o found => ?_
    cases e with
    | binary => exact (noOperation _ _ _ _ rfl).elim
    | _ => cases found

theorem attach_inOrder {e : Expr} {ts us : List Token} (writes : token.kind = op.kind)
    (inOrder : e.InOrder ts)
    (behind : operand.InOrder us) : (e.attach token op operand).InOrder (ts ++ token :: us) := by
  refine attach_cases (motive := fun e more => ∀ ts, e.InOrder ts → more.InOrder (ts ++ token :: us)) ?_ ?_ e ts inOrder
  · intro e _ ts inOrder
    exact .binary writes inOrder behind
  · intro t left o right _ ih ts inOrder
    cases inOrder with
    | @binary _ _ _ _ ls rs writes' leftOrder rightOrder =>
      rw [List.append_assoc, List.cons_append]
      exact .binary writes' leftOrder (ih rs rightOrder)

/-- The operator of the new tree is the one added or the one it had. -/
theorem attach_operator? (token : Token) (op : InfixOp) (operand e : Expr) :
    ∃ o, (e.attach token op operand).operator? = some o ∧ (o = op ∨ e.operator? = some o) := by
  refine attach_cases (motive := fun e more => ∃ o, more.operator? = some o ∧ (o = op ∨ e.operator? = some o)) ?_ ?_ e
  · intro e _
    exact ⟨op, rfl, .inl rfl⟩
  · intro t left o right _ _
    exact ⟨o, rfl, .inr rfl⟩

theorem attach_grouped {e : Expr} (grouped : e.Grouped) (alone : operand.operator? = none)
    (inner : operand.Grouped) :
    (e.attach token op operand).Grouped := by
  refine attach_cases (motive := fun e more => e.Grouped → more.Grouped) ?_ ?_ e grouped
  · intro e tighter grouped
    exact ⟨tighter, by simp [alone], grouped, inner⟩
  · intro t left o right weaker ih grouped
    obtain ⟨leftTight, rightTight, leftGrouped, rightGrouped⟩ := grouped
    refine ⟨leftTight, fun o' found => ?_, leftGrouped, ih rightGrouped⟩
    obtain ⟨o'', found', which⟩ := attach_operator? token op operand right
    obtain rfl := Option.some.inj (found.symm.trans found')
    rcases which with rfl | old
    · exact weaker
    · exact rightTight o' old

end Expr

/-- Every chain has a grouped tree, whose operator is one of the chain's. -/
theorem Chain.exists_grouped (chain : Chain) :
    ∃ e : Expr, e.InOrder chain.tokens ∧ e.Grouped ∧ ∀ op ∈ e.operator?, ∃ link ∈ chain.links, link.op = op := by
  obtain ⟨first, links⟩ := chain
  simp only [Chain.tokens]
  -- one link after the other is added behind the tree of those before it
  induction links using List.reverseRecOn with
  | nil =>
    obtain ⟨e, inOrder, grouped, noOperator⟩ := first.exists_grouped
    exact ⟨e, by simpa using inOrder, grouped, by simp [noOperator]⟩
  | append_singleton links link ih =>
    obtain ⟨e, inOrder, grouped, among⟩ := ih
    obtain ⟨operand, operandOrder, operandGrouped, alone⟩ := link.operand.exists_grouped
    refine ⟨e.attach link.token link.op operand, ?_, Expr.attach_grouped grouped alone operandGrouped, fun op found => ?_⟩
    · have order := Expr.attach_inOrder link.writes inOrder operandOrder
      simpa [List.flatMap_append, Link.tokens] using order
    · obtain ⟨o, found', which⟩ := Expr.attach_operator? link.token link.op operand e
      obtain rfl := Option.some.inj (found.symm.trans found')
      rcases which with rfl | old
      · exact ⟨link, by simp, rfl⟩
      · obtain ⟨earlier, member, same⟩ := among op old
        exact ⟨earlier, List.mem_append_left _ member, same⟩

/-! ## Reading a chain -/

/-- A parser that stands before a chain and nothing else builds, without an error, the
    one tree of the chain that is grouped; at a higher level than the lowest, that of
    the chain up to the first operator that does not bind tighter than the level, and
    then stands at this operator. -/
theorem expression_groups (chain : Chain) (parser : Parser) (ahead : parser.cursor.ahead = chain.tokens)
    (atLast : parser.cursor.last.kind = .eof) (min : Precedence) :
    (∃ e behind, parser.expression min = (some e, behind) ∧ behind.errors = parser.errors ∧
      behind.cursor.ahead = (chain.beyond min).flatMap Link.tokens ∧
      (∀ link ∈ (chain.beyond min).head?, behind.cursor.current = link.token ∧ link.op.precedence.level ≤ min.level) ∧
      e.InOrder (chain.within min).tokens ∧ e.Grouped ∧
      ∀ other : Expr, other.InOrder (chain.within min).tokens → other.Grouped → other = e) ∧
    chain.within .lowest = chain ∧ chain.beyond .lowest = [] := by
  refine ⟨?_, chain.within_lowest, chain.beyond_lowest⟩
  obtain ⟨e, inOrder, grouped, among⟩ := (chain.within min).exists_grouped
  have tight (op : InfixOp) (found : op ∈ e.operator?) : min.level < op.precedence.level := by
    obtain ⟨link, member, rfl⟩ := among op found
    exact Chain.tight_within member
  have stops : min.StoppedBy ((chain.beyond min).flatMap Link.tokens) := Chain.stoppedBy_beyond fun _ => Chain.weak_beyond
  have ends : e.binding.StoppedBy ((chain.beyond min).flatMap Link.tokens) := Chain.stoppedBy_beyond fun link next =>
    link.op.le_binding_of_le fun op found => Nat.le_of_lt (Nat.lt_of_le_of_lt (Chain.weak_beyond next) (tight op found))
  obtain ⟨line, reads⟩ := @Expr.InOrder.reads parser.cursor.last _ _ inOrder grouped min tight _ ends stops
    parser.cursor.previousLine
  rw [chain.tokens_within_beyond, ← ahead] at reads
  have enough : 8 * parser.cursor.ahead.length + 3 ≤ parser.bound := by rw [Parser.bound]; omega
  obtain ⟨behind, run, -, place, clean⟩ := reads.runs atLast parser.bound enough parser rfl rfl
  have after : behind.cursor.ahead = (chain.beyond min).flatMap Link.tokens := congrArg Place.ahead place
  refine ⟨e, behind, ?_, clean, after, fun link next => ⟨?_, Chain.weak_beyond next⟩, inOrder, grouped, ?_⟩
  · rw [Parser.expression, Parser.run, run]
  · obtain ⟨more, links⟩ := List.head?_eq_some_iff.1 next
    simp [Cursor.current, after, links, Link.tokens]
  · exact fun other inOrder' grouped' => inOrder.unique inOrder' grouped grouped'

/-- `!a`, then `- 2`, `* - b` and `- "s"` on a line of their own, and `== true`. -/
def mixedChain : Chain :=
  ⟨⟨[⟨.bang, "!", 1⟩], ⟨.ident, "a", 1⟩, by decide, by decide⟩,
   [⟨.sub, ⟨.minus, "-", 2⟩, ⟨[], ⟨.int, "2", 2⟩, by decide, by decide⟩, rfl⟩,
    ⟨.mul, ⟨.star, "*", 2⟩, ⟨[⟨.minus, "-", 2⟩], ⟨.ident, "b", 2⟩, by decide, by decide⟩, rfl⟩,
    ⟨.sub, ⟨.minus, "-", 2⟩, ⟨[], ⟨.str, "s", 2⟩, by decide, by decide⟩, rfl⟩,
    ⟨.eq, ⟨.eqEq, "==", 3⟩, ⟨[], ⟨.trueWord, "true", 3⟩, by decide, by decide⟩, rfl⟩]⟩

/-- `((!a) - (2 * (-b))) - "s"`. -/
def mixedTree : Expr :=
  .binary ⟨.minus, "-", 2⟩
    (.binary ⟨.minus, "-", 2⟩ (.unary ⟨.bang, "!", 1⟩ .not (.identifier (.ofToken ⟨.ident, "a", 1⟩))) .sub
      (.binary ⟨.star, "*", 2⟩ (.integer ⟨.int, "2", 2⟩ 2) .mul
        (.unary ⟨.minus, "-", 2⟩ .neg (.identifier (.ofToken ⟨.ident, "b", 2⟩)))))
    .sub (.string ⟨.str, "s", 2⟩ "s")

/-- Read at the level of comparisons, the chain ends before its `==`. -/
theorem expression_groups_mixedChain :
    let parser : Parser := .ofStream (.ofTokens mixedChain.tokens)
    (parser.cursor.ahead = mixedChain.tokens ∧ parser.cursor.last.kind = .eof) ∧
    ∃ behind, parser.expression .comparison = (some mixedTree, behind) ∧ behind.errors = parser.errors ∧
      behind.cursor.current = ⟨.eqEq, "==", 3⟩ := by
  have start : (Parser.ofStream (.ofTokens mixedChain.tokens)).cursor.ahead = mixedChain.tokens ∧
      (Parser.ofStream (.ofTokens mixedChain.tokens)).cursor.last.kind = .eof := by decide
  obtain ⟨⟨e, behind, built, clean, -, next, -, -, only⟩, -⟩ :=
    expression_groups mixedChain (.ofStream (.ofTokens mixedChain.tokens)) start.1 start.2 .comparison
  have inOrder : mixedTree.InOrder (mixedChain.within .comparison).tokens :=
    @Expr.InOrder.binary _ _ _ _ [_, _, _, _, _, _, _] _ rfl
      (@Expr.InOrder.binary _ _ _ _ [_, _] _ rfl (.unary rfl (.identifier rfl))
        (@Expr.InOrder.binary _ _ _ _ [_] _ rfl (.integer rfl rfl) (.unary rfl (.identifier rfl))))
      (.string rfl)
  have grouped : mixedTree.Grouped := by simp [mixedTree, Expr.Grouped, Expr.operator?]; decide
  rw [← only mixedTree inOrder grouped] at built
  exact ⟨start, behind, built, clean, (next _ rfl).1⟩

end Lantern
