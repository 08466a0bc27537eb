/-
  Lantern.Proofs.Token.Proper — what the scanner hands over.

  A token of a source is proper: a name is a name and no reserved word, a number is
  digits alone, and a string holds no quote. `scan_proper` says so of every token of
  every source, and `scan_last` that the end is marked.
-/

import Lantern.Token.Scan

namespace Lantern

def isName (text : String) : Bool :=
  text.toList != [] && text.toList.all isWordChar && (Kind.keyword? text).isNone

def isNumber (text : String) : Bool := text.toList != [] && text.toList.all Char.isDigit

def isQuotable (text : String) : Bool := !text.toList.contains '"'

def Token.Proper (token : Token) : Prop :=
  match token.kind with
  | .ident => isName token.text
  | .int => isNumber token.text
  | .str => isQuotable token.text
  | _ => True

theorem ite_eq_some {α : Type} {p : Prop} [Decidable p] {a b : α} {rest : Option α}
    (h : (if p then some a else rest) = some b) : a = b ∨ rest = some b := by
  split at h
  · exact Or.inl (Option.some.inj h)
  · exact Or.inr h

/-- A reserved word is no name. -/
theorem Kind.keyword?_reserved {word : String} {kind : Kind}
    (reserved : Kind.keyword? word = some kind) :
    kind ≠ .ident ∧ kind ≠ .int ∧ kind ≠ .str ∧ kind ≠ .eof := by
  unfold Kind.keyword? at reserved
  iterate 15
    rcases ite_eq_some reserved with rfl | reserved
    · decide
  cases reserved

namespace Lexeme

theorem word_proper {c : Char} {input more rest : List Char} {kind : Kind} (line : Nat)
    (first : isWordChar c)
    (eq : word c input = ⟨.token kind, more, rest⟩) :
    Token.Proper ⟨kind, kind.keep (c :: more), line⟩ := by
  simp only [word, run, Cut.mk.injEq, Lexeme.token.injEq] at eq
  obtain ⟨rfl, rfl, -⟩ := eq
  generalize read : String.ofList (c :: input.takeWhile isWordChar) = text
  have chars : text.toList = c :: input.takeWhile isWordChar := by rw [← read, String.toList_ofList]
  cases reserved : Kind.keyword? text with
  | some kind =>
    obtain ⟨noName, noNumber, noString, -⟩ := Kind.keyword?_reserved reserved
    rw [Option.getD_some]
    cases kind <;> trivial
  | none =>
    change isName (String.ofList (c :: input.takeWhile isWordChar))
    simp [read, isName, reserved, chars, first]

theorem mark_proper (c : Char) (text : String) (line : Nat) :
    Token.Proper ⟨markKind c, text, line⟩ := by
  unfold markKind
  split <;> trivial

theorem pair_proper {c d : Char} {kind : Kind} (found : pairKind? c d = some kind) (text : String)
    (line : Nat) :
    Token.Proper ⟨kind, text, line⟩ := by
  unfold pairKind? at found
  split at found <;> cases found <;> trivial

/-- Whatever is cut off the input as a token is proper. -/
theorem cut_proper {c : Char} {input more rest : List Char} {kind : Kind} (line : Nat)
    (eq : cut c input = ⟨.token kind, more, rest⟩) :
    Token.Proper ⟨kind, kind.keep (c :: more), line⟩ := by
  unfold cut at eq
  split at eq
  · cases eq
  split at eq
  · cases eq
  split at eq
  · next first => exact word_proper line first eq
  split at eq
  · next first =>
    simp only [run, Cut.mk.injEq, Lexeme.token.injEq] at eq
    obtain ⟨rfl, rfl, -⟩ := eq
    simp [Token.Proper, Kind.keep, isNumber, first]
  split at eq
  · unfold string at eq
    split at eq
    · cases eq
      have noQuote := List.all_eq_true.1 (List.all_takeWhile (p := (· != '"')) (l := input)) '"'
      simp only [bne_self_eq_false, Bool.false_eq_true, imp_false] at noQuote
      simp [Token.Proper, Kind.keep, isQuotable, noQuote]
    · cases eq
      trivial
  split at eq
  · unfold semicolon at eq
    split at eq
    · cases eq
    · cases eq
      trivial
  · unfold mark at eq
    split at eq
    · cases eq
      exact mark_proper c _ line
    · split at eq
      · next found =>
        cases eq
        exact pair_proper found _ line
      · cases eq
        exact mark_proper c _ line

end Lexeme

namespace Scanner

theorem next_proper (s : Scanner) : s.next.1.Proper := by
  fun_induction next s with
  | case1 => trivial
  | case2 s c input ahead cut _ ih => exact ih
  | case3 s c input ahead cut _ ih => exact ih
  | case4 s c input ahead cut _ ih => exact ih
  | case5 s c input ahead cut kind isToken =>
    have eq : Lexeme.cut c input = ⟨.token kind, cut.more, cut.rest⟩ := by rw [← isToken]
    exact Lexeme.cut_proper s.line eq

theorem drain_proper (s : Scanner) : ∀ token ∈ s.drain.tokens, token.Proper := by
  fun_induction drain s with
  | case1 => intro token none; cases none
  | case2 s found behind ih =>
    intro token mem
    rcases List.mem_cons.1 mem with rfl | mem
    · exact s.next_proper
    · exact ih token mem

theorem drain_last (s : Scanner) : s.drain.last.kind = .eof := by
  fun_induction drain s with
  | case1 _ atEnd => exact atEnd
  | case2 _ _ _ ih => exact ih

end Scanner

theorem scan_proper (source : String) : ∀ token ∈ (scan source).tokens, token.Proper :=
  (Scanner.ofSource source).drain_proper

theorem scan_last (source : String) : (scan source).last.kind = .eof :=
  (Scanner.ofSource source).drain_last

end Lantern
