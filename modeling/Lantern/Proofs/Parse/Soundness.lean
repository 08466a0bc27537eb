/-
  Lantern.Proofs.Parse.Soundness — what the productions build was read, and their bound
  suffices.

  Every production, run on a parser with a large enough bound, keeps one promise
  (`Reply.Sound`): it is not stopped by the bound; tokens are only passed and errors
  only added; giving up adds an error; and a node built without one is read by the
  relation `Reads`. The bound a production needs is eight for each token ahead and a
  rank of its own, so that a production calls one of smaller rank before it has passed a
  token and any one behind a token (`Keeps`).

  `parse_reads`: a parse without errors has read its whole stream as the statements of
  its program.
-/

import Lantern.Proofs.Parse.Reading
import Lantern.Parse.Parsed

namespace Lantern

open Grammar

def Cursor.place (cursor : Cursor) : Place := ⟨cursor.previousLine, cursor.ahead⟩

namespace Parser

def place (parser : Parser) : Place := parser.cursor.place

/-- From `s` to `s'` tokens were only passed, at least `k` of them, and errors only
    added. -/
structure Onward (k : Nat) (s s' : Parser) : Prop where
  last : s'.cursor.last = s.cursor.last
  ahead : s'.cursor.ahead.length + k ≤ s.cursor.ahead.length
  consumed : s'.cursor.consumed + s'.cursor.ahead.length = s.cursor.consumed + s.cursor.ahead.length
  errors : s.errors.toList <+: s'.errors.toList

theorem Onward.refl (s : Parser) : s.Onward 0 s := ⟨rfl, Nat.le_refl _, rfl, List.prefix_rfl⟩

theorem Onward.trans {a b c : Parser} {k m n : Nat} (h : a.Onward k b) (h' : b.Onward m c)
    (le : n ≤ k + m) :
    a.Onward n c := by
  refine ⟨h'.last.trans h.last, ?_, h'.consumed.trans h.consumed, h.errors.trans h'.errors⟩
  have := h.ahead
  have := h'.ahead
  omega

theorem Onward.mono {a b : Parser} {k m : Nat} (h : a.Onward k b) (le : m ≤ k) : a.Onward m b :=
  h.trans (Onward.refl b) le

/-- Errors that are there again at the end were never added to. -/
theorem Onward.clean {a b c : Parser} {k m : Nat} (h : a.Onward k b) (h' : b.Onward m c)
    (clean : c.errors = a.errors) :
    b.errors = a.errors ∧ c.errors = b.errors := by
  have back : b.errors.toList <+: a.errors.toList := by rw [← clean]; exact h'.errors
  have same : b.errors = a.errors := by
    rw [← Array.toList_inj]
    exact (back.eq_of_length (Nat.le_antisymm back.length_le h.errors.length_le))
  exact ⟨same, clean.trans same.symm⟩

def passed (s : Parser) : Parser := { s with cursor := s.cursor.advance.2 }

theorem passed_eq {s : Parser} {t : Token} {ts : List Token} (h : s.cursor.ahead = t :: ts) :
    s.passed = ⟨⟨ts, s.cursor.last, t.line, s.cursor.consumed + 1⟩, s.errors⟩ := by
  simp only [passed, Cursor.advance, h]

theorem onward_passed {s : Parser} {t : Token} {ts : List Token} (h : s.cursor.ahead = t :: ts) :
    s.Onward 1 s.passed := by
  rw [passed_eq h]
  refine ⟨rfl, ?_, ?_, List.prefix_rfl⟩
  · simp [h]
  · simp only [h, List.length_cons]; omega

theorem reads_passed {last : Token} {s : Parser} {t : Token} {ts : List Token} {kind : Kind}
    (h : s.cursor.ahead = t :: ts) (eq : t.kind = kind) :
    Reads last s.place (.token kind t) s.passed.place := by
  rw [passed_eq h, place, Cursor.place, h]
  exact .token _ _ eq

theorem onward_seek (kinds : List Kind) (s : Parser) :
    s.Onward 0 { s with cursor := (s.cursor.seek kinds).2 } := by
  have seeks : (s.cursor.seek kinds).2.last = s.cursor.last ∧
      (s.cursor.seek kinds).2.ahead.length ≤ s.cursor.ahead.length ∧
      (s.cursor.seek kinds).2.consumed + (s.cursor.seek kinds).2.ahead.length = s.cursor.consumed + s.cursor.ahead.length := by
    generalize s.cursor = cursor
    fun_induction Cursor.seek kinds cursor with
    | case1 cursor none => exact ⟨rfl, Nat.le_refl _, rfl⟩
    | case2 cursor token more ahead found => exact ⟨rfl, Nat.le_refl _, rfl⟩
    | case3 cursor token more ahead other ih =>
      obtain ⟨last, fewer, consumed⟩ := ih
      refine ⟨last, ?_, ?_⟩
      · simp only [ahead, List.length_cons] at fewer ⊢; omega
      · simp only [ahead, List.length_cons] at consumed ⊢; omega
  exact ⟨seeks.1, seeks.2.1, seeks.2.2, List.prefix_rfl⟩

theorem onward_record (s : Parser) (error : ParseError) :
    s.Onward 0 { s with errors := s.errors.push error } :=
  ⟨rfl, Nat.le_refl _, rfl, by simp⟩

end Parser

open Lantern.Parser

theorem Production.advance_bind {α : Type} {s : Parser} {t : Token} {ts : List Token}
    {f : Token → Production α}
    (h : s.cursor.ahead = t :: ts) : (advance >>= f) s = f t s.passed := by
  change (match advance s with
    | .built node behind => f node behind
    | .gaveUp behind => .gaveUp behind
    | .exhausted => .exhausted) = _
  simp only [advance, passed, Cursor.advance, h]

/-! ## The promise -/

/-- What a production that started from `s` promises: at least `k` tokens are passed if
    it builds a node, and `R` holds of the node and the place behind it unless an error
    was added. -/
def Reply.Sound {α : Type} (s : Parser) (k : Nat) (R : α → Place → Prop) : Reply α → Prop
  | .built node s' => s.Onward k s' ∧ (s'.errors = s.errors → R node s'.place)
  | .gaveUp s' => s.Onward 0 s' ∧ s'.errors ≠ s.errors
  | .exhausted => False

namespace Reply

variable {α β : Type} {s : Parser}

theorem Sound.mono {reply : Reply α} {k m : Nat} {R Q : α → Place → Prop} (h : reply.Sound s k R)
    (le : m ≤ k)
    (imp : ∀ node c, R node c → Q node c) : reply.Sound s m Q := by
  cases reply with
  | built node s' => exact ⟨h.1.mono le, fun clean => imp _ _ (h.2 clean)⟩
  | gaveUp s' => exact h
  | exhausted => exact h

theorem sound_done {node : α} {R : α → Place → Prop} (h : R node s.place) :
    ((pure node : Production α) s).Sound s 0 R :=
  ⟨Onward.refl s, fun _ => h⟩

theorem sound_fail (error : ParseError) (k : Nat) (R : α → Place → Prop) :
    ((Production.fail error : Production α) s).Sound s k R := by
  refine ⟨onward_record s error, fun same => ?_⟩
  have := congrArg Array.size same
  simp at this

/-- What is promised from `s'` on is promised from `s` on, if `s'` comes after `s`. -/
theorem Sound.after {reply : Reply β} {s' : Parser} {K k m : Nat} {R : Prop} {Q : β → Place → Prop}
    (on : s.Onward k s')
    (reads : s'.errors = s.errors → R) (le : K ≤ k + m)
    (h : reply.Sound s' m fun result c => R → Q result c) :
    reply.Sound s K Q := by
  cases reply with
  | built result s'' =>
    refine ⟨on.trans h.1 le, fun clean => ?_⟩
    obtain ⟨clean₁, clean₂⟩ := on.clean h.1 clean
    exact h.2 clean₂ (reads clean₁)
  | gaveUp s'' =>
    refine ⟨on.trans h.1 (Nat.zero_le _), fun same => h.2 ?_⟩
    exact (on.clean h.1 same).2
  | exhausted => exact h

/-- Two productions in a row. What the first promises is at hand when the second has to
    keep its promise. -/
theorem Sound.bind {last : Token} {p : Production α} {f : α → Production β} {K k m : Nat}
    {R : α → Place → Prop}
    {Q : β → Place → Prop} (hlast : s.cursor.last = last) (hp : (p s).Sound s k R) (le : K ≤ k + m)
    (hf : ∀ node s', s'.cursor.last = last → s'.cursor.ahead.length + k ≤ s.cursor.ahead.length →
      (f node s').Sound s' m fun result c => R node s'.place → Q result c) : ((p >>= f) s).Sound s K Q := by
  change (Production.andThen p f s).Sound s K Q
  unfold Production.andThen
  cases first : p s with
  | built node s' =>
    rw [first] at hp
    exact Sound.after hp.1 hp.2 le (hf node s' (hp.1.last.trans hlast) hp.1.ahead)
  | gaveUp s' => rw [first] at hp; exact hp
  | exhausted => rw [first] at hp; exact hp

/-- Passing a token that is known to be next. -/
theorem Sound.pass {last t : Token} {ts : List Token} {kind : Kind} {f : Token → Production β}
    {K m : Nat}
    {Q : β → Place → Prop}
    (hlast : s.cursor.last = last) (h : s.cursor.ahead = t :: ts) (eq : t.kind = kind)
    (le : K ≤ 1 + m)
    (hf : s.passed.cursor.last = last → s.passed.cursor.ahead.length + 1 ≤ s.cursor.ahead.length →
      (f t s.passed).Sound s.passed m fun result c => Reads last s.place (.token kind t) s.passed.place → Q result c) :
    ((Production.advance >>= f) s).Sound s K Q := by
  have on := onward_passed h
  rw [Production.advance_bind h]
  exact Sound.after on (fun _ => reads_passed h eq) le (hf (on.last.trans hlast) on.ahead)

/-- An attempt. If it gives up there is an error, and nothing has to be said of what
    follows but that it keeps on. -/
theorem Sound.attempt {last : Token} {p : Production α} {f : Option α → Production β} {k : Nat}
    {R : α → Place → Prop}
    {Q : β → Place → Prop} (hlast : s.cursor.last = last) (hp : (p s).Sound s k R)
    (built : ∀ node s', s'.cursor.last = last → s'.cursor.ahead.length + k ≤ s.cursor.ahead.length →
      (f (some node) s').Sound s' 0 fun result c => R node s'.place → Q result c)
    (gaveUp : ∀ s', s.Onward 0 s' → s'.cursor.last = last → (f none s').Sound s' 0 fun _ _ => True) :
    ((Production.attempt p >>= f) s).Sound s 0 Q := by
  change (Production.andThen (Production.attempt p) f s).Sound s 0 Q
  unfold Production.andThen Production.attempt
  cases first : p s with
  | built node s' =>
    rw [first] at hp
    exact Sound.after hp.1 hp.2 (Nat.zero_le _) (built node s' (hp.1.last.trans hlast) hp.1.ahead)
  | gaveUp s' =>
    rw [first] at hp
    obtain ⟨on, erred⟩ := hp
    refine Sound.after (m := 0) on (R := False) (fun clean => erred clean) (Nat.zero_le _) ?_
    exact (gaveUp s' on (on.last.trans hlast)).mono (Nat.le_refl _) fun _ _ _ clean => clean.elim
  | exhausted => rw [first] at hp; exact hp

theorem ask_bind {f : α → Production β} (question : Cursor → α) (s : Parser) :
    (Production.ask question >>= f) s = f (question s.cursor) s := rfl

theorem bind_built {p : Production α} {f : α → Production β} {s₁ : Parser} {a : α}
    (built : p s = .built a s₁) :
    (p >>= f) s = f a s₁ := by
  change Production.andThen p f s = _
  rw [Production.andThen, built]

theorem bind_gaveUp {p : Production α} {f : α → Production β} {s₁ : Parser}
    (gaveUp : p s = .gaveUp s₁) :
    (p >>= f) s = .gaveUp s₁ := by
  change Production.andThen p f s = _
  rw [Production.andThen, gaveUp]

theorem bind_eq_built {p : Production α} {f : α → Production β} {s' : Parser} {b : β}
    (built : (p >>= f) s = .built b s') : ∃ a s₁, p s = .built a s₁ ∧ f a s₁ = .built b s' := by
  change Production.andThen p f s = .built b s' at built
  unfold Production.andThen at built
  cases first : p s with
  | built a s₁ => rw [first] at built; exact ⟨a, s₁, rfl, built⟩
  | gaveUp s₁ => rw [first] at built; cases built
  | exhausted => rw [first] at built; cases built

end Reply

open Reply

namespace Production

/-- After a failed attempt that did not start at the end, at least one token is passed
    before reading goes on. -/
theorem ensureProgress_sound {α : Type} {last : Token} {s s' : Parser} {q : Production α}
    (on : s.Onward 0 s')
    (hlast : s'.cursor.last = last) (ahead : s.cursor.ahead ≠ [])
    (goesOn : ∀ s'', s''.cursor.last = last → s''.cursor.ahead.length < s.cursor.ahead.length →
      (q s'').Sound s'' 0 fun _ _ => True) :
    ((ensureProgress s.cursor.consumed >>= fun _ => q) s').Sound s' 0 fun _ _ => True := by
  have consumed := on.consumed
  have fewer := on.ahead
  change (andThen (andThen (ask Cursor.consumed) fun now => if now == s.cursor.consumed then _ else _)
      (fun _ => q) s').Sound s' 0 _
  by_cases stalled : s'.cursor.consumed = s.cursor.consumed
  · rcases h : s'.cursor.ahead with _ | ⟨t, ts⟩
    · rw [h, stalled] at consumed
      exact absurd (List.eq_nil_of_length_eq_zero (by simpa using consumed.symm)) ahead
    · simp only [andThen, ask, stalled, beq_self_eq_true, if_true]
      have on' := onward_passed h
      have passed := goesOn s'.passed (on'.last.trans hlast) (by have := on'.ahead; omega)
      exact Sound.after (R := True) on' (fun _ => trivial) (Nat.zero_le _) (passed.mono (Nat.le_refl _) fun _ _ _ _ => trivial)
  · have moved : (s'.cursor.consumed == s.cursor.consumed) = false := by simpa using stalled
    simp only [andThen, ask, moved]
    exact goesOn s' hlast (by omega)

theorem advance_bind_atEnd {α : Type} {last : Token} {s : Parser} {f : Token → Production α}
    (hlast : s.cursor.last = last) (h : s.cursor.ahead = []) : (advance >>= f) s = f last s := by
  change (match advance s with
    | .built node behind => f node behind
    | .gaveUp behind => .gaveUp behind
    | .exhausted => .exhausted) = _
  simp only [advance, Cursor.advance, h, hlast]

/-- Passing a token, if there is one, only to complain about it. -/
theorem advance_fail_sound {α : Type} (error : Token → ParseError) (s : Parser) (k : Nat)
    (R : α → Place → Prop) :
    ((advance >>= fun token => fail (error token)) s).Sound s k R := by
  rcases h : s.cursor.ahead with _ | ⟨t, ts⟩
  · rw [advance_bind_atEnd rfl h]
    exact sound_fail _ _ _
  · exact Sound.pass (m := k) rfl h rfl (by omega) fun _ _ => sound_fail _ _ _

theorem expect_sound {last : Token} {s : Parser} {kind : Kind} (hlast : s.cursor.last = last)
    (atLast : last.kind ≠ kind) :
    (expect kind s).Sound s 1 fun t c => Reads last s.place (.token kind t) c := by
  unfold expect
  rw [ask_bind]
  rcases h : s.cursor.ahead with _ | ⟨t, ts⟩
  · have current : s.cursor.current = last := by simp [Cursor.current, h, hlast]
    rw [current, if_neg (by simpa using atLast)]
    exact sound_fail _ _ _
  · have current : s.cursor.current = t := by simp [Cursor.current, h]
    rw [current]
    by_cases eq : t.kind = kind
    · rw [if_pos (by simpa using eq)]
      simp only [advance, Cursor.advance, h]
      have passed := onward_passed h
      have reads := @reads_passed last s t ts kind h eq
      rw [passed_eq h] at passed reads
      exact ⟨passed, fun _ => reads⟩
    · rw [if_neg (by simpa using eq)]
      exact sound_fail _ _ _

theorem identifier_sound {last : Token} {s : Parser} (hlast : s.cursor.last = last)
    (atLast : last.kind = .eof) :
    (identifier s).Sound s 1 fun name c => ∃ t, name = .ofToken t ∧ Reads last s.place
    (.token .ident t) c := by
  unfold identifier
  rw [ask_bind]
  rcases h : s.cursor.ahead with _ | ⟨t, ts⟩
  · have current : s.cursor.current = last := by simp [Cursor.current, h, hlast]
    rw [current, if_neg (by simp [atLast])]
    exact sound_fail _ _ _
  · have current : s.cursor.current = t := by simp [Cursor.current, h]
    rw [current]
    by_cases eq : t.kind = .ident
    · rw [if_pos (by simpa using eq)]
      exact Sound.pass hlast h eq (Nat.le_refl _) fun _ _ => sound_done fun reads => ⟨t, rfl, reads⟩
    · rw [if_neg (by simpa using eq)]
      exact sound_fail _ _ _

end Production

/-! ## The productions -/

namespace Grammar

open Production

def Keeps {α : Type} (last : Token) (rank k bound : Nat) (φ : α → Phrase) (p : Production α) :
    Prop :=
  ∀ s : Parser, s.cursor.last = last → 8 * s.cursor.ahead.length + rank ≤ bound →
    (p s).Sound s k fun node c => Reads last s.place (φ node) c

structure AllKeep (last : Token) (bound : Nat) : Prop where
  moreParameters : Keeps last 1 1 bound .moreParameters (Grammar.moreParameters bound)
  expression (min : Precedence) : Keeps last 3 1 bound (.expression min) (Grammar.expression bound min)
  operand : Keeps last 1 1 bound .operand (Grammar.operand bound)
  climb (min : Precedence) (left : Expr) (s : Parser) (hlast : s.cursor.last = last)
    (enough : 8 * s.cursor.ahead.length + 2 ≤ bound) :
    (Grammar.climb bound min left s).Sound s 0 fun e c =>
      ∀ start, Reads last start (.climbing min left) s.place → Reads last start (.expression min e) c
  extension {min : Precedence} (left : Expr) {s : Parser} (hlast : s.cursor.last = last)
    (enough : 8 * s.cursor.ahead.length + 1 ≤ bound) (extends_ : s.place.extends? min) :
    (Grammar.extension bound left s).Sound s 1 fun e c => Reads last s.place (.extension left e) c
  expressions (close : Kind) (bracket : close = .rparen ∨ close = .rbracket) :
    Keeps last 4 1 bound (.expressions close) (Grammar.expressions bound close)
  moreExpressions (close : Kind) (bracket : close = .rparen ∨ close = .rbracket) :
    Keeps last 1 1 bound (.moreExpressions close) (Grammar.moreExpressions bound close)
  elifs : Keeps last 1 0 bound .elifs (Grammar.elifs bound)
  otherwise : Keeps last 1 0 bound .otherwise (Grammar.otherwise bound)
  block (close : List Kind) : Keeps last 6 0 bound (.block close) (Grammar.block bound close)
  statements (close : List Kind) : Keeps last 5 0 bound (.statements close) (Grammar.statements bound close)
  statement : Keeps last 4 1 bound .statement (Grammar.statement bound)
  functionStatement {s : Parser} (hlast : s.cursor.last = last) (enough : 8 * s.cursor.ahead.length + 3 ≤ bound)
    {t : Token} {ts : List Token} (ahead : s.cursor.ahead = t :: ts) (word : t.kind = .fnWord) :
    (Grammar.functionStatement bound s).Sound s 1 fun f c => Reads last s.place (.functionStatement f) c
  functionLiteral : Keeps last 2 1 bound .functionLiteral (Grammar.functionLiteral bound)
  methods : Keeps last 4 0 bound .methods (Grammar.methods bound)

variable {last : Token} {bound : Nat}

/-- Whether a token of a kind is next, as a cursor tells it and as a place does. -/
theorem check_eq_shows {s : Parser} {kind : Kind} (hlast : s.cursor.last = last)
    (atLast : last.kind ≠ kind) :
    s.cursor.check kind = s.place.shows kind := by
  rcases h : s.cursor.ahead with _ | ⟨t, ts⟩
  · have current : s.cursor.current = last := by simp [Cursor.current, h, hlast]
    simp [Cursor.check, Cursor.kind, current, Parser.place, Cursor.place, Place.shows, h, atLast]
  · have current : s.cursor.current = t := by simp [Cursor.current, h]
    simp [Cursor.check, Cursor.kind, current, Parser.place, Cursor.place, Place.shows, h]

theorem Place.shows_inv {s : Parser} {kind : Kind} (h : s.place.shows kind) :
    ∃ t ts, s.cursor.ahead = t :: ts ∧ t.kind = kind := by
  rcases ahead : s.cursor.ahead with _ | ⟨t, ts⟩
  · simp [Place.shows, Parser.place, Cursor.place, ahead] at h
  · exact ⟨t, ts, rfl, by simpa [Place.shows, Parser.place, Cursor.place, ahead] using h⟩

theorem extends_eq {min : Precedence} {s : Parser} :
    Grammar.extends? min s.cursor = s.place.extends? min := by
  rcases h : s.cursor.ahead with _ | ⟨t, ts⟩
  · simp [Grammar.extends?, Cursor.atEnd, Parser.place, Cursor.place, Place.extends?, h]
  · simp [Grammar.extends?, Cursor.atEnd, Cursor.kind, Cursor.onNewLine, Cursor.current, Parser.place, Cursor.place,
      Place.extends?, h]

theorem stops_eq {close : List Kind} {s : Parser} :
    (s.cursor.atEnd || close.contains s.cursor.kind) = s.place.stops close := by
  rcases h : s.cursor.ahead with _ | ⟨t, ts⟩
  · simp [Cursor.atEnd, Parser.place, Cursor.place, Place.stops, h]
  · simp [Cursor.atEnd, Cursor.kind, Cursor.current, Parser.place, Cursor.place, Place.stops, h]

theorem atEnd_or_endWord {s : Parser} :
    (s.cursor.atEnd || s.cursor.check .endWord) = s.place.stops [.endWord] := by
  rw [← stops_eq]; simp [Cursor.check]; rfl

theorem Place.ahead_ne_nil {close : List Kind} {s : Parser} (h : ¬ s.place.stops close) :
    s.cursor.ahead ≠ [] := by
  intro none
  simp [Place.stops, Parser.place, Cursor.place, none] at h

theorem startsFunction_inv {s : Parser} (hlast : s.cursor.last = last) (atLast : last.kind = .eof)
    (h : startsFunction s.cursor) : ∃ t ts, s.cursor.ahead = t :: ts ∧ t.kind = .fnWord := by
  rcases ahead : s.cursor.ahead with _ | ⟨t, ts⟩
  · simp [startsFunction, Cursor.kind, Cursor.current, ahead, hlast, atLast] at h
  · simp only [startsFunction, Cursor.kind, Cursor.current, ahead, List.headD_cons, Bool.and_eq_true, beq_iff_eq] at h
    exact ⟨t, ts, rfl, h.1⟩

theorem ahead_of_current {s : Parser} {kind : Kind} (hlast : s.cursor.last = last)
    (atLast : last.kind ≠ kind)
    (h : s.cursor.current.kind = kind) :
    ∃ t ts, s.cursor.ahead = t :: ts ∧ s.cursor.current = t := by
  rcases ahead : s.cursor.ahead with _ | ⟨t, ts⟩
  · simp [Cursor.current, ahead, hlast, atLast] at h
  · exact ⟨t, ts, rfl, by simp [Cursor.current, ahead]⟩

section

variable (atLast : last.kind = .eof) (ih : AllKeep last bound)
include atLast ih

theorem moreParameters_keeps :
    Keeps last 1 1 (bound + 1) .moreParameters (Grammar.moreParameters (bound + 1)) := by
  intro s hlast enough
  unfold Grammar.moreParameters
  rw [ask_bind, check_eq_shows hlast (by simp [atLast])]
  by_cases comma : s.place.shows .comma
  · obtain ⟨t, ts, ahead, eq⟩ := Place.shows_inv comma
    rw [if_pos comma]
    refine Sound.pass (m := 0) hlast ahead eq (by omega) fun hlast₁ _ => ?_
    refine Sound.bind (m := 0) hlast₁ (identifier_sound hlast₁ atLast) (by omega) fun name s₂ hlast₂ _ => ?_
    refine Sound.bind (m := 0) hlast₂ (ih.moreParameters s₂ hlast₂ (by omega)) (by omega) fun names s₃ _ _ => ?_
    refine sound_done fun rest head comma => ?_
    obtain ⟨t, rfl, head⟩ := head
    exact .nextParameter comma head rest
  · rw [if_neg comma]
    refine Sound.bind (m := 0) hlast (expect_sound hlast (by simp [atLast])) (by omega) fun t s₂ _ _ => ?_
    exact sound_done fun close => .lastParameter close

theorem parameters_keeps : Keeps last 2 1 (bound + 1) .parameters (Grammar.parameters bound) := by
  intro s hlast enough
  unfold Grammar.parameters
  refine Sound.bind (m := 0) hlast (expect_sound hlast (by simp [atLast])) (by omega) fun t s₁ hlast₁ _ => ?_
  rw [ask_bind, check_eq_shows hlast₁ (by simp [atLast])]
  by_cases close : s₁.place.shows .rparen
  · obtain ⟨u, us, ahead, eq⟩ := Place.shows_inv close
    rw [if_pos close]
    exact Sound.pass (m := 0) hlast₁ ahead eq (by omega) fun _ _ => sound_done fun close open_ => .noParameters open_ close
  · rw [if_neg close]
    refine Sound.bind (m := 0) hlast₁ (identifier_sound hlast₁ atLast) (by omega) fun name s₂ hlast₂ _ => ?_
    refine Sound.bind (m := 0) hlast₂ (ih.moreParameters s₂ hlast₂ (by omega)) (by omega) fun names s₃ _ _ => ?_
    refine sound_done fun rest head open_ => ?_
    obtain ⟨t, rfl, head⟩ := head
    exact .someParameters open_ head rest

omit atLast in
theorem expression_keeps (min : Precedence) :
    Keeps last 3 1 (bound + 1) (.expression min) (Grammar.expression (bound + 1) min) := by
  intro s hlast enough
  unfold Grammar.expression
  refine Sound.bind (m := 0) hlast (ih.operand s hlast (by omega)) (by omega) fun left s₁ hlast₁ _ => ?_
  exact (ih.climb min left s₁ hlast₁ (by omega)).mono (Nat.le_refl _) fun e c spine first => spine _ (.start first)

omit atLast in
theorem climb_keeps (min : Precedence) (left : Expr) (s : Parser) (hlast : s.cursor.last = last)
    (enough : 8 * s.cursor.ahead.length + 2 ≤ bound + 1) :
    (Grammar.climb (bound + 1) min left s).Sound s 0 fun e c =>
      ∀ start, Reads last start (.climbing min left) s.place → Reads last start (.expression min e) c := by
  unfold Grammar.climb
  rw [ask_bind, extends_eq]
  by_cases extends_ : s.place.extends? min
  · rw [if_pos extends_]
    refine Sound.bind (m := 0) hlast (ih.extension left hlast (by omega) extends_) (by omega) fun wider s₁ hlast₁ _ => ?_
    refine (ih.climb min wider s₁ hlast₁ (by omega)).mono (Nat.le_refl _) fun e c spine extension start climbed => ?_
    exact spine start (.climb climbed extends_ extension)
  · rw [if_neg extends_]
    exact sound_done fun start climbed => .expression climbed (by simpa using extends_)

theorem expressions_keeps (close : Kind) (bracket : close = .rparen ∨ close = .rbracket) :
    Keeps last 4 1 (bound + 1) (.expressions close) (Grammar.expressions (bound + 1) close) := by
  intro s hlast enough
  unfold Grammar.expressions
  rw [ask_bind, check_eq_shows hlast (by rcases bracket with rfl | rfl <;> simp [atLast])]
  by_cases closed : s.place.shows close
  · obtain ⟨t, ts, ahead, eq⟩ := Place.shows_inv closed
    rw [if_pos closed]
    exact Sound.pass (m := 0) hlast ahead eq (by omega) fun _ _ => sound_done fun token => .noExpressions bracket token
  · rw [if_neg closed]
    refine Sound.bind (m := 0) hlast (ih.expression .lowest s hlast (by omega)) (by omega) fun first s₁ hlast₁ _ => ?_
    refine Sound.bind (m := 0) hlast₁ (ih.moreExpressions close bracket s₁ hlast₁ (by omega)) (by omega) fun more s₂ _ _ => ?_
    exact sound_done fun rest first => .someExpressions first rest

theorem moreExpressions_keeps (close : Kind) (bracket : close = .rparen ∨ close = .rbracket) :
    Keeps last 1 1 (bound + 1) (.moreExpressions close) (Grammar.moreExpressions (bound + 1) close) := by
  intro s hlast enough
  unfold Grammar.moreExpressions
  rw [ask_bind, check_eq_shows hlast (by simp [atLast])]
  by_cases comma : s.place.shows .comma
  · obtain ⟨t, ts, ahead, eq⟩ := Place.shows_inv comma
    rw [if_pos comma]
    refine Sound.pass (m := 0) hlast ahead eq (by omega) fun hlast₁ _ => ?_
    refine Sound.bind (m := 0) hlast₁ (ih.expression .lowest _ hlast₁ (by omega)) (by omega) fun next s₂ hlast₂ _ => ?_
    refine Sound.bind (m := 0) hlast₂ (ih.moreExpressions close bracket s₂ hlast₂ (by omega)) (by omega) fun more s₃ _ _ => ?_
    exact sound_done fun rest next comma => .nextExpression comma next rest
  · rw [if_neg comma]
    refine Sound.bind (m := 0) hlast (expect_sound hlast ?_) (by omega) fun t s₁ _ _ => ?_
    · rcases bracket with rfl | rfl <;> simp [atLast]
    · exact sound_done fun token => .lastExpression bracket token

theorem operand_keeps : Keeps last 1 1 (bound + 1) .operand (Grammar.operand (bound + 1)) := by
  intro s hlast enough
  unfold Grammar.operand
  rw [ask_bind]
  rcases ahead : s.cursor.ahead with _ | ⟨t, ts⟩
  · have current : s.cursor.current = last := by simp [Cursor.current, ahead, hlast]
    rw [current, atLast]
    exact advance_fail_sound .noExpression s 1 _
  · have current : s.cursor.current = t := by simp [Cursor.current, ahead]
    rw [current]
    cases kind : t.kind
    case ident =>
      exact Sound.pass (m := 0) hlast ahead kind (by omega) fun _ _ => sound_done fun token => .identifier token
    case int =>
      unfold integer
      refine Sound.pass (m := 0) hlast ahead kind (by omega) fun _ _ => ?_
      cases parsed : Text.decimal? t.text with
      | some value => exact sound_done fun token => .integer token parsed
      | none => exact sound_fail _ _ _
    case str =>
      exact Sound.pass (m := 0) hlast ahead kind (by omega) fun _ _ => sound_done fun token => .string token
    case trueWord =>
      exact Sound.pass (m := 0) hlast ahead kind (by omega) fun _ _ => sound_done fun token => .truth token
    case falseWord =>
      exact Sound.pass (m := 0) hlast ahead kind (by omega) fun _ _ => sound_done fun token => .falsity token
    case minus =>
      refine Sound.pass (m := 0) hlast ahead kind (by omega) fun hlast₁ _ => ?_
      refine Sound.bind (m := 0) hlast₁ (ih.expression .unary _ hlast₁ (by omega)) (by omega) fun e s₂ _ _ => ?_
      exact sound_done fun e token => .negation token e
    case bang =>
      refine Sound.pass (m := 0) hlast ahead kind (by omega) fun hlast₁ _ => ?_
      refine Sound.bind (m := 0) hlast₁ (ih.expression .unary _ hlast₁ (by omega)) (by omega) fun e s₂ _ _ => ?_
      exact sound_done fun e token => .complement token e
    case lparen =>
      refine Sound.pass (m := 0) hlast ahead kind (by omega) fun hlast₁ _ => ?_
      refine Sound.bind (m := 0) hlast₁ (ih.expression .lowest _ hlast₁ (by omega)) (by omega) fun e s₂ hlast₂ _ => ?_
      refine Sound.bind (m := 0) hlast₂ (expect_sound hlast₂ (by simp [atLast])) (by omega) fun u s₃ _ _ => ?_
      exact sound_done fun close e open_ => .group open_ e close
    case lbracket =>
      refine Sound.pass (m := 0) hlast ahead kind (by omega) fun hlast₁ _ => ?_
      refine Sound.bind (m := 0) hlast₁ (ih.expressions .rbracket (Or.inr rfl) _ hlast₁ (by omega)) (by omega) fun es s₂ _ _ => ?_
      exact sound_done fun es open_ => .array open_ es
    case ifWord =>
      refine Sound.pass (m := 0) hlast ahead kind (by omega) fun hlast₁ _ => ?_
      refine Sound.bind (m := 0) hlast₁ (ih.expression .lowest _ hlast₁ (by omega)) (by omega) fun condition s₂ hlast₂ _ => ?_
      refine Sound.bind (m := 0) hlast₂ (expect_sound hlast₂ (by simp [atLast])) (by omega) fun u s₃ hlast₃ _ => ?_
      refine Sound.bind (m := 0) hlast₃ (ih.block armEnd s₃ hlast₃ (by omega)) (by omega) fun consequence s₄ hlast₄ _ => ?_
      refine Sound.bind (m := 0) hlast₄ (ih.elifs s₄ hlast₄ (by omega)) (by omega) fun arms s₅ hlast₅ _ => ?_
      refine Sound.bind (m := 0) hlast₅ (ih.otherwise s₅ hlast₅ (by omega)) (by omega) fun alternative s₆ hlast₆ _ => ?_
      refine Sound.bind (m := 0) hlast₆ (expect_sound hlast₆ (by simp [atLast])) (by omega) fun v s₇ _ _ => ?_
      exact sound_done fun v alternative arms consequence u condition word =>
        .conditional word condition u consequence arms alternative v
    case fnWord =>
      refine Sound.pass (m := 0) hlast ahead kind (by omega) fun hlast₁ _ => ?_
      refine Sound.bind (m := 0) hlast₁ (ih.functionLiteral _ hlast₁ (by omega)) (by omega) fun literal s₂ _ _ => ?_
      exact sound_done fun literal word => .lambda word literal
    all_goals
      exact advance_fail_sound .noExpression s 1 _

theorem extension_keeps {min : Precedence} (left : Expr) {s : Parser} (hlast : s.cursor.last = last)
    (enough : 8 * s.cursor.ahead.length + 1 ≤ bound + 1) (extends_ : s.place.extends? min) :
    (Grammar.extension (bound + 1) left s).Sound s 1 fun e c => Reads last s.place
    (.extension left e) c := by
  unfold Grammar.extension
  rcases ahead : s.cursor.ahead with _ | ⟨t, ts⟩
  · -- behind the last token there is nothing to extend by
    simp [Place.extends?, Parser.place, Cursor.place, ahead] at extends_
  · refine Sound.pass (m := 0) hlast ahead rfl (by omega) fun hlast₁ _ => ?_
    cases kind : t.kind
    case assign =>
      refine Sound.bind (m := 0) hlast₁ (ih.expression .lowest _ hlast₁ (by omega)) (by omega) fun value s₂ _ _ => ?_
      cases found : target? left with
      | some target => exact sound_done fun value token => .assignment token value found
      | none => exact sound_fail _ _ _
    case lparen =>
      refine Sound.bind (m := 0) hlast₁ (ih.expressions .rparen (Or.inl rfl) _ hlast₁ (by omega)) (by omega) fun es s₂ _ _ => ?_
      exact sound_done fun es token => .call token es
    case lbracket =>
      refine Sound.bind (m := 0) hlast₁ (ih.expression .lowest _ hlast₁ (by omega)) (by omega) fun position s₂ hlast₂ _ => ?_
      refine Sound.bind (m := 0) hlast₂ (expect_sound hlast₂ (by simp [atLast])) (by omega) fun u s₃ _ _ => ?_
      exact sound_done fun close position token => .index token position close
    case dot =>
      refine Sound.bind (m := 0) hlast₁ (identifier_sound hlast₁ atLast) (by omega) fun name s₂ _ _ => ?_
      refine sound_done fun name token => ?_
      obtain ⟨u, rfl, name⟩ := name
      exact .field token name
    all_goals
      dsimp only
      generalize found : InfixOp.ofKind? _ = op?
      cases op? with
      | some op =>
        refine Sound.bind (m := 0) hlast₁ (ih.expression _ _ hlast₁ (by omega)) (by omega) fun right s₂ _ _ => ?_
        exact sound_done fun right token => .binary token found right
      | none =>
        -- what is no operator does not bind
        rw [← kind] at found
        have loose := Precedence.of_loose found (by simp [kind])
        simp [Place.extends?, Parser.place, Cursor.place, ahead, loose, Precedence.below_lowest] at extends_

theorem elifs_keeps : Keeps last 1 0 (bound + 1) .elifs (Grammar.elifs (bound + 1)) := by
  intro s hlast enough
  unfold Grammar.elifs
  rw [ask_bind, check_eq_shows hlast (by simp [atLast])]
  by_cases word : s.place.shows .elifWord
  · obtain ⟨t, ts, ahead, eq⟩ := Place.shows_inv word
    rw [if_pos word]
    refine Sound.pass (m := 0) hlast ahead eq (by omega) fun hlast₁ _ => ?_
    refine Sound.bind (m := 0) hlast₁ (ih.expression .lowest _ hlast₁ (by omega)) (by omega) fun condition s₂ hlast₂ _ => ?_
    refine Sound.bind (m := 0) hlast₂ (expect_sound hlast₂ (by simp [atLast])) (by omega) fun u s₃ hlast₃ _ => ?_
    refine Sound.bind (m := 0) hlast₃ (ih.block armEnd s₃ hlast₃ (by omega)) (by omega) fun arm s₄ hlast₄ _ => ?_
    refine Sound.bind (m := 0) hlast₄ (ih.elifs s₄ hlast₄ (by omega)) (by omega) fun arms s₅ _ _ => ?_
    exact sound_done fun arms arm u condition word => .someElifs word condition u arm arms
  · rw [if_neg word]
    exact sound_done (.noElifs (by simpa using word))

theorem otherwise_keeps :
    Keeps last 1 0 (bound + 1) .otherwise (Grammar.otherwise (bound + 1)) := by
  intro s hlast enough
  unfold Grammar.otherwise
  rw [ask_bind, check_eq_shows hlast (by simp [atLast])]
  by_cases word : s.place.shows .elseWord
  · obtain ⟨t, ts, ahead, eq⟩ := Place.shows_inv word
    rw [if_pos word]
    refine Sound.pass (m := 0) hlast ahead eq (by omega) fun hlast₁ _ => ?_
    refine Sound.bind (m := 0) hlast₁ (ih.block bodyEnd _ hlast₁ (by omega)) (by omega) fun arm s₂ _ _ => ?_
    exact sound_done fun arm word => .someOtherwise word arm
  · rw [if_neg word]
    exact sound_done (.noOtherwise (by simpa using word))

omit atLast in
theorem block_keeps (close : List Kind) :
    Keeps last 6 0 (bound + 1) (.block close) (Grammar.block (bound + 1) close) := by
  intro s hlast enough
  unfold Grammar.block
  rw [ask_bind]
  refine Sound.bind (m := 0) hlast (ih.statements close s hlast (by omega)) (by omega) fun list s₁ _ _ => ?_
  refine sound_done fun list => ?_
  have current : s.cursor.current = s.place.ahead.headD last := by rw [Cursor.current, hlast]; rfl
  rw [current]
  exact .block list

omit atLast in
theorem statements_keeps (close : List Kind) :
    Keeps last 5 0 (bound + 1) (.statements close) (Grammar.statements (bound + 1) close) := by
  intro s hlast enough
  unfold Grammar.statements
  rw [ask_bind, stops_eq]
  by_cases stop : s.place.stops close
  · rw [if_pos stop]
    exact sound_done (.noStatements stop)
  · rw [if_neg stop, ask_bind]
    have ahead : s.cursor.ahead ≠ [] := Place.ahead_ne_nil stop
    refine Sound.attempt hlast (ih.statement s hlast (by omega)) (fun first s₁ hlast₁ _ => ?_) fun s₁ on hlast₁ => ?_
    · refine Sound.bind (m := 0) hlast₁ (ih.statements close s₁ hlast₁ (by omega)) (by omega) fun list s₂ _ _ => ?_
      exact sound_done fun list first => .someStatements first list
    · refine ensureProgress_sound on hlast₁ ahead fun s₂ hlast₂ _ => ?_
      exact (ih.statements close s₂ hlast₂ (by omega)).mono (Nat.le_refl _) fun _ _ _ => trivial

theorem functionStatement_keeps {s : Parser} (hlast : s.cursor.last = last)
    (enough : 8 * s.cursor.ahead.length + 3 ≤ bound + 1)
    {t : Token} {ts : List Token} (ahead : s.cursor.ahead = t :: ts) (word : t.kind = .fnWord) :
    (Grammar.functionStatement (bound + 1) s).Sound s 1 fun f c => Reads last s.place
    (.functionStatement f) c := by
  unfold Grammar.functionStatement
  refine Sound.pass (m := 0) hlast ahead word (by omega) fun hlast₁ _ => ?_
  refine Sound.bind (m := 0) hlast₁ (identifier_sound hlast₁ atLast) (by omega) fun name s₂ hlast₂ _ => ?_
  refine Sound.bind (m := 0) hlast₂ (ih.functionLiteral s₂ hlast₂ (by omega)) (by omega) fun literal s₃ _ _ => ?_
  refine sound_done fun literal name word => ?_
  obtain ⟨u, rfl, name⟩ := name
  exact .functionStatement word name literal

theorem functionLiteral_keeps :
    Keeps last 2 1 (bound + 1) .functionLiteral (Grammar.functionLiteral (bound + 1)) := by
  intro s hlast enough
  unfold Grammar.functionLiteral
  refine Sound.bind (m := 0) hlast (parameters_keeps atLast ih s hlast (by omega)) (by omega) fun names s₁ hlast₁ _ => ?_
  refine Sound.bind (m := 0) hlast₁ (ih.block bodyEnd s₁ hlast₁ (by omega)) (by omega) fun body s₂ hlast₂ _ => ?_
  refine Sound.bind (m := 0) hlast₂ (expect_sound hlast₂ (by simp [atLast])) (by omega) fun t s₃ _ _ => ?_
  exact sound_done fun close body names => .functionLiteral names body close

theorem statement_keeps :
    Keeps last 4 1 (bound + 1) .statement (Grammar.statement (bound + 1)) := by
  intro s hlast enough
  unfold Grammar.statement
  rw [ask_bind]
  -- a statement that starts with none of the four words
  have other : ((do
      if ← ask startsFunction then
        return Stmt.function (← Grammar.functionStatement bound)
      else
        return Stmt.expression s.cursor.current (← Grammar.expression bound .lowest) : Production Stmt) s).Sound s 1
      fun node c => Reads last s.place (.statement node) c := by
    rw [ask_bind]
    by_cases starts : startsFunction s.cursor
    · rw [if_pos starts]
      obtain ⟨t, ts, ahead, word⟩ := startsFunction_inv hlast atLast starts
      refine Sound.bind (m := 0) hlast (ih.functionStatement hlast (by omega) ahead word) (by omega) fun definition s₁ _ _ => ?_
      exact sound_done fun definition => .function definition
    · rw [if_neg starts]
      refine Sound.bind (m := 0) hlast (ih.expression .lowest s hlast (by omega)) (by omega) fun value s₁ _ _ => ?_
      refine sound_done fun value => ?_
      rcases ahead : s.cursor.ahead with _ | ⟨t, ts⟩
      · have opens := value.opens rfl
        simp [Place.opens, Parser.place, Cursor.place, ahead] at opens
      · have current : s.cursor.current = t := by simp [Cursor.current, ahead]
        have place : s.place = ⟨s.cursor.previousLine, t :: ts⟩ := by rw [← ahead]; rfl
        rw [current]
        rw [place] at value ⊢
        exact .plain value
  rcases ahead : s.cursor.ahead with _ | ⟨t, ts⟩
  · have current : s.cursor.current = last := by simp [Cursor.current, ahead, hlast]
    rw [current] at other ⊢
    rw [atLast]
    exact other
  · have current : s.cursor.current = t := by simp [Cursor.current, ahead]
    rw [current] at other ⊢
    cases kind : t.kind
    case returnWord =>
      refine Sound.pass (m := 0) hlast ahead kind (by omega) fun hlast₁ _ => ?_
      refine Sound.bind (m := 0) hlast₁ (ih.expression .lowest _ hlast₁ (by omega)) (by omega) fun value s₂ _ _ => ?_
      exact sound_done fun value word => .returning word value
    case whileWord =>
      refine Sound.pass (m := 0) hlast ahead kind (by omega) fun hlast₁ _ => ?_
      refine Sound.bind (m := 0) hlast₁ (ih.expression .lowest _ hlast₁ (by omega)) (by omega) fun condition s₂ hlast₂ _ => ?_
      refine Sound.bind (m := 0) hlast₂ (expect_sound hlast₂ (by simp [atLast])) (by omega) fun u s₃ hlast₃ _ => ?_
      refine Sound.bind (m := 0) hlast₃ (ih.block bodyEnd s₃ hlast₃ (by omega)) (by omega) fun body s₄ hlast₄ _ => ?_
      refine Sound.bind (m := 0) hlast₄ (expect_sound hlast₄ (by simp [atLast])) (by omega) fun v s₅ _ _ => ?_
      exact sound_done fun v body u condition word => .whileLoop word condition u body v
    case testWord =>
      refine Sound.pass (m := 0) hlast ahead kind (by omega) fun hlast₁ _ => ?_
      rw [ask_bind]
      by_cases labelled : s.passed.cursor.current.kind = .str
      · obtain ⟨label, ls, ahead₁, current₁⟩ := ahead_of_current hlast₁ (by rw [atLast]; decide) labelled
        rw [if_pos (by simpa using labelled)]
        refine Sound.pass (m := 0) hlast₁ ahead₁ (current₁ ▸ labelled) (by omega) fun hlast₂ _ => ?_
        refine Sound.bind (m := 0) hlast₂ (ih.block bodyEnd _ hlast₂ (by omega)) (by omega) fun body s₃ hlast₃ _ => ?_
        refine Sound.bind (m := 0) hlast₃ (expect_sound hlast₃ (by simp [atLast])) (by omega) fun v s₄ _ _ => ?_
        exact sound_done fun v body label word => current₁ ▸ .test word label body v
      · rw [if_neg (by simpa using labelled)]
        exact sound_fail _ _ _
    case classWord =>
      refine Sound.pass (m := 0) hlast ahead kind (by omega) fun hlast₁ _ => ?_
      rw [ask_bind]
      by_cases named : s.passed.cursor.current.kind = .ident
      · obtain ⟨name, ls, ahead₁, current₁⟩ := ahead_of_current hlast₁ (by rw [atLast]; decide) named
        rw [if_pos (by simpa using named)]
        refine Sound.pass (m := 0) hlast₁ ahead₁ (current₁ ▸ named) (by omega) fun hlast₂ _ => ?_
        refine Sound.bind (m := 0) hlast₂ (ih.methods _ hlast₂ (by omega)) (by omega) fun members s₃ hlast₃ _ => ?_
        refine Sound.bind (m := 0) hlast₃ (expect_sound hlast₃ (by simp [atLast])) (by omega) fun v s₄ _ _ => ?_
        exact sound_done fun v members name word => current₁ ▸ .classDefinition word name members v
      · rw [if_neg (by simpa using named)]
        exact sound_fail _ _ _
    all_goals exact other

theorem methods_keeps : Keeps last 4 0 (bound + 1) .methods (Grammar.methods (bound + 1)) := by
  intro s hlast enough
  unfold Grammar.methods
  rw [ask_bind, atEnd_or_endWord]
  by_cases stop : s.place.stops [.endWord]
  · rw [if_pos stop]
    exact sound_done (.noMethods stop)
  rw [if_neg stop, ask_bind]
  have nonempty : s.cursor.ahead ≠ [] := Place.ahead_ne_nil stop
  by_cases starts : startsFunction s.cursor
  · rw [if_pos starts, ask_bind]
    obtain ⟨t, ts, ahead, word⟩ := startsFunction_inv hlast atLast starts
    refine Sound.attempt hlast (ih.functionStatement hlast (by omega) ahead word) (fun method s₁ hlast₁ _ => ?_)
      fun s₁ on hlast₁ => ?_
    · refine Sound.bind (m := 0) hlast₁ (ih.methods s₁ hlast₁ (by omega)) (by omega) fun members s₂ _ _ => ?_
      exact sound_done fun members method => .someMethods method members
    · refine ensureProgress_sound on hlast₁ nonempty fun s₂ hlast₂ _ => ?_
      exact (ih.methods s₂ hlast₂ (by omega)).mono (Nat.le_refl _) fun _ _ _ => trivial
  · rw [if_neg starts, ask_bind]
    obtain ⟨t, ts, ahead⟩ := List.exists_cons_of_ne_nil nonempty
    -- a stray token is recorded, so nothing is promised of what follows but that it
    -- keeps on
    have recorded := onward_record s (.notAMethod s.cursor.current)
    generalize erring : ({ s with errors := s.errors.push (.notAMethod s.cursor.current) } : Parser) = s₁ at recorded
    have erred : s₁.errors ≠ s.errors := by
      rw [← erring]
      intro same
      have := congrArg Array.size same
      simp at this
    have ahead₁ : s₁.cursor.ahead = t :: ts := by rw [← erring]; exact ahead
    have passed := onward_passed ahead₁
    have sought := onward_seek memberStart s₁.passed
    generalize seeking : ({ s₁.passed with cursor := (s₁.passed.cursor.seek memberStart).2 } : Parser) = s₂ at sought
    have on : s.Onward 1 s₂ := (recorded.trans passed (Nat.le_refl _)).trans sought (Nat.le_refl _)
    have run : ((do
        record (.notAMethod s.cursor.current)
        let _ ← advance
        let _ ← seek memberStart
        Grammar.methods bound : Production (List FunctionStatement)) s) = Grammar.methods bound s₂ := by
      rw [← seeking, ← erring]
      rfl
    rw [run]
    have fewer := on.ahead
    refine Sound.after (m := 0) on (R := False) (fun clean => erred ?_) (Nat.zero_le _) ?_
    · exact (recorded.clean (passed.trans sought (Nat.le_refl _)) clean).1
    · refine (ih.methods s₂ (on.last.trans hlast) (by omega)).mono (Nat.le_refl _) fun _ _ _ none => none.elim

end

theorem allKeep (atLast : last.kind = .eof) (bound : Nat) : AllKeep last bound := by
  induction bound with
  | zero =>
    -- a rank is positive, so no parser has a bound of zero
    constructor
    all_goals first
      | (intros; intro s _ enough; omega)
      | (intros; omega)
  | succ bound ih =>
    exact ⟨moreParameters_keeps atLast ih, expression_keeps ih, operand_keeps atLast ih, climb_keeps ih,
      extension_keeps atLast ih, expressions_keeps atLast ih, moreExpressions_keeps atLast ih, elifs_keeps atLast ih,
      otherwise_keeps atLast ih, block_keeps ih, statements_keeps ih, statement_keeps atLast ih,
      functionStatement_keeps atLast ih, functionLiteral_keeps atLast ih, methods_keeps atLast ih⟩

end Grammar

/-! ## Whole streams -/

/-- The bound of a parser is enough for a list of statements. -/
theorem Parser.enough_bound (s : Parser) : 8 * s.cursor.ahead.length + 5 ≤ s.bound := by
  simp only [bound]
  omega

def Stream.place (stream : Stream) : Place := (Cursor.ofStream stream).place

/-- A parse without errors has read the whole stream as the statements of its program. -/
theorem parse_reads {stream : Stream} (atLast : stream.last.kind = .eof)
    (clean : (parse stream).errors = []) :
    ∃ line, Reads stream.last stream.place (.statements [] (parse stream).program.statements) ⟨line, []⟩ := by
  have kept := (allKeep atLast (Parser.ofStream stream).bound).statements [] (.ofStream stream) rfl
    (Parser.enough_bound _)
  simp only [parse, Parser.program, Parser.run] at clean ⊢
  generalize Grammar.statements _ [] (Parser.ofStream stream) = reply at kept clean ⊢
  cases reply with
  | built list behind =>
    have reads := kept.2 (by simpa [Parser.ofStream] using clean)
    refine ⟨behind.place.line, ?_⟩
    have atEnd : behind.place.ahead = [] := Place.stops_nil reads.statements_stops
    rw [← atEnd]
    exact reads
  | gaveUp behind => exact absurd (by simpa [Parser.ofStream] using clean) kept.2
  | exhausted => exact kept.elim

end Lantern
