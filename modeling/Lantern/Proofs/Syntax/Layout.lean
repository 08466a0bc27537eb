/-
  Lantern.Proofs.Syntax.Layout — the canonical text of a program as a list of marks.

  `marks` says which tokens, gaps and newlines a rendering is made of, node by node. The
  texts are the same (`toList_render`), and a program whose names, numbers and strings
  can be written down has a scannable layout (`Program.scannable`): behind every token
  whose end has to be seen there is a blank, a bracket, a comma or a dot.

  Main statement:

  - `scan_render`: the canonical text of a lexically well-formed program scans as its
    layout.
-/

import Lantern.Syntax.Render
import Lantern.Proofs.Syntax.Survey
import Lantern.Proofs.Text.Decimal
import Lantern.Proofs.Token.Spelling

namespace Lantern

def InfixOp.kind : InfixOp → Kind
  | add => .plus
  | sub => .minus
  | mul => .star
  | div => .slash
  | mod => .percent
  | eq => .eqEq
  | notEq => .notEq
  | lt => .lt
  | ltEq => .ltEq
  | gt => .gt
  | gtEq => .gtEq
  | and => .andAnd
  | or => .orOr
  | bitAnd => .amp
  | bitOr => .pipe

def PrefixOp.kind : PrefixOp → Kind
  | neg => .minus
  | not => .bang

theorem InfixOp.ofKind?_kind (op : InfixOp) : InfixOp.ofKind? op.kind = some op := by
  cases op <;> rfl

def Mark.of (kind : Kind) : Mark := .token kind kind.spelling

def Identifier.mark (name : Identifier) : Mark := .token .ident name.name

def Identifier.marksMore : List Identifier → List Mark
  | [] => []
  | name :: more => .of .comma :: .gap :: name.mark :: Identifier.marksMore more

def Identifier.marksAll : List Identifier → List Mark
  | [] => []
  | name :: more => name.mark :: Identifier.marksMore more

mutual

def Expr.marks : Expr → List Mark
  | .integer _ value => [.token .int (toString value.toInt)]
  | .string _ value => [.token .str value]
  | .boolean _ value => [.of (if value then .trueWord else .falseWord)]
  | .identifier name => [name.mark]
  | .assignment _ target value => target.marks ++ .gap :: .of .assign :: .gap :: value.marks
  | .binary _ left op right => .of .lparen :: (left.marks ++ .gap :: .of op.kind :: .gap :: (right.marks ++ [.of .rparen]))
  | .unary _ op operand => .of .lparen :: .of op.kind :: (operand.marks ++ [.of .rparen])
  | .call _ callee arguments => callee.marks ++ .of .lparen :: (Expr.marksAll arguments ++ [.of .rparen])
  | .index _ left position =>
    .of .lparen :: (left.marks ++ .of .lbracket :: (position.marks ++ [.of .rbracket, .of .rparen]))
  | .field _ object name => .of .lparen :: (object.marks ++ [.of .dot, name.mark, .of .rparen])
  | .array _ elements => .of .lbracket :: (Expr.marksAll elements ++ [.of .rbracket])
  | .conditional _ condition consequence elifs alternative =>
    .of .ifWord :: .gap :: (condition.marks ++ .gap :: .of .thenWord :: .newline :: (consequence.marks ++
      (Elif.marksAll elifs ++ (Block.marksElse alternative ++ [.of .endWord]))))
  | .lambda _ literal => .of .fnWord :: literal.marks

def Expr.marksMore : List Expr → List Mark
  | [] => []
  | value :: more => .of .comma :: .gap :: (value.marks ++ Expr.marksMore more)

def Expr.marksAll : List Expr → List Mark
  | [] => []
  | value :: more => value.marks ++ Expr.marksMore more

def Target.marks : Target → List Mark
  | .identifier name => [name.mark]
  | .field _ object name => .of .lparen :: (object.marks ++ [.of .dot, name.mark, .of .rparen])

def Elif.marksAll : List Elif → List Mark
  | [] => []
  | ⟨condition, block⟩ :: more =>
    .of .elifWord :: .gap :: (condition.marks ++ .gap :: .of .thenWord :: .newline :: (block.marks ++ Elif.marksAll more))

def Block.marksElse : Option Block → List Mark
  | none => []
  | some block => .of .elseWord :: .newline :: block.marks

def Block.marks : Block → List Mark
  | ⟨_, statements⟩ => Stmt.marksLines statements

def FunctionLiteral.marks : FunctionLiteral → List Mark
  | ⟨parameters, body⟩ =>
    .of .lparen :: (Identifier.marksAll parameters ++ .of .rparen :: .newline :: (body.marks ++ [.of .endWord]))

def FunctionStatement.marks : FunctionStatement → List Mark
  | ⟨_, name, literal⟩ => .of .fnWord :: .gap :: name.mark :: literal.marks

def FunctionStatement.marksLines : List FunctionStatement → List Mark
  | [] => []
  | method :: more => method.marks ++ .newline :: FunctionStatement.marksLines more

def Stmt.marks : Stmt → List Mark
  | .expression _ value => value.marks
  | .returning _ value => .of .returnWord :: .gap :: value.marks
  | .whileLoop _ condition body =>
    .of .whileWord :: .gap :: (condition.marks ++ .gap :: .of .thenWord :: .newline :: (body.marks ++ [.of .endWord]))
  | .function definition => definition.marks
  | .classDefinition _ name methods =>
    .of .classWord :: .gap :: name.mark :: .newline :: (FunctionStatement.marksLines methods ++ [.of .endWord])
  | .test _ label body => .of .testWord :: .gap :: .token .str label :: .newline :: (body.marks ++ [.of .endWord])

def Stmt.marksLines : List Stmt → List Mark
  | [] => []
  | statement :: more => statement.marks ++ .newline :: Stmt.marksLines more

end

/-! ## The text -/

@[simp] theorem Mark.chars_gap : Mark.gap.chars = [' '] := rfl
@[simp] theorem Mark.chars_newline : Mark.newline.chars = ['\n'] := rfl
@[simp] theorem Mark.chars_str (text : String) : (Mark.token .str text).chars = '"' :: (text.toList ++ ['"']) := rfl
@[simp] theorem Mark.chars_int (text : String) : (Mark.token .int text).chars = text.toList := rfl
@[simp] theorem Identifier.chars_mark (name : Identifier) : name.mark.chars = name.name.toList :=
  rfl

theorem Mark.chars_of {kind : Kind} (fixed : kind ≠ .str) :
    (Mark.of kind).chars = kind.spelling.toList := by
  cases kind <;> first | rfl | exact absurd rfl fixed

@[simp] theorem InfixOp.chars_kind (op : InfixOp) : (Mark.of op.kind).chars = op.symbol.toList := by
  cases op <;> rfl

@[simp] theorem PrefixOp.chars_kind (op : PrefixOp) :
    (Mark.of op.kind).chars = op.symbol.toList := by cases op <;> rfl

/-- Names with commas between them, as a text and as marks. -/
theorem toList_names (names : List Identifier) :
    (commaSeparated (names.map (·.name))).toList = Mark.written (Identifier.marksAll names) := by
  have more (name : Identifier) (names : List Identifier) :
      (joinWith ", " (name.name :: names.map (·.name))).toList =
        name.name.toList ++ Mark.written (Identifier.marksMore names) := by
    induction names generalizing name with
    | nil => simp [joinWith, Identifier.marksMore]
    | cons next names ih => simp [joinWith, Identifier.marksMore, ih next, Mark.chars_of, Kind.spelling]
  cases names with
  | nil => rfl
  | cons name names => simp [commaSeparated, Identifier.marksAll, more name names]

mutual

theorem Expr.toList_render (e : Expr) : e.render.toList = Mark.written e.marks := by
  cases e with
  | integer _ value => simp [Expr.render, Expr.marks]
  | string _ value => simp [Expr.render, Expr.marks]
  | boolean _ value => cases value <;> simp [Expr.render, Expr.marks, truthWord] <;> rfl
  | identifier name => simp [Expr.render, Expr.marks]
  | assignment _ target value =>
    simp [Expr.render, Expr.marks, Target.toList_render target, Expr.toList_render value, Mark.chars_of, Kind.spelling]
  | binary _ left op right =>
    simp [Expr.render, Expr.marks, Expr.toList_render left, Expr.toList_render right, Mark.chars_of, Kind.spelling]
  | unary _ op operand => simp [Expr.render, Expr.marks, Expr.toList_render operand, Mark.chars_of, Kind.spelling]
  | call _ callee arguments =>
    simp [Expr.render, Expr.marks, Expr.toList_render callee, Expr.toList_renderAll arguments, Mark.chars_of,
      Kind.spelling]
  | index _ left position =>
    simp [Expr.render, Expr.marks, Expr.toList_render left, Expr.toList_render position, Mark.chars_of, Kind.spelling]
  | field _ object name => simp [Expr.render, Expr.marks, Expr.toList_render object, Mark.chars_of, Kind.spelling]
  | array _ elements => simp [Expr.render, Expr.marks, Expr.toList_renderAll elements, Mark.chars_of, Kind.spelling]
  | conditional _ condition consequence elifs alternative =>
    cases alternative with
    | none =>
      simp [Expr.render, Expr.marks, Block.marksElse, Expr.toList_render condition, Block.toList_render consequence,
        Elif.toList_renderAll elifs, Mark.chars_of, Kind.spelling]
    | some block =>
      simp [Expr.render, Expr.marks, Block.marksElse, Expr.toList_render condition, Block.toList_render consequence,
        Elif.toList_renderAll elifs, Block.toList_render block, Mark.chars_of, Kind.spelling]
  | lambda _ literal =>
    simp [Expr.render, Expr.marks, FunctionLiteral.toList_render literal, Mark.chars_of, Kind.spelling]

/-- Behind a first text. -/
theorem Expr.toList_joinWith (first : String) (es : List Expr) :
    (joinWith ", " (first :: Expr.renderAll es)).toList = first.toList ++ Mark.written (Expr.marksMore es) := by
  cases es with
  | nil => simp [joinWith, Expr.renderAll, Expr.marksMore]
  | cons e es =>
    simp [joinWith, Expr.renderAll, Expr.marksMore, Expr.toList_render e, Expr.toList_joinWith e.render es,
      Mark.chars_of, Kind.spelling]

theorem Expr.toList_renderAll (es : List Expr) :
    (commaSeparated (Expr.renderAll es)).toList = Mark.written (Expr.marksAll es) := by
  cases es with
  | nil => rfl
  | cons e es =>
    rw [commaSeparated, Expr.renderAll, Expr.toList_joinWith e.render es, Expr.toList_render e, Expr.marksAll,
      Mark.written_append]

theorem Target.toList_render (target : Target) :
    target.render.toList = Mark.written target.marks := by
  cases target with
  | identifier name => simp [Target.render, Target.marks]
  | field _ object name => simp [Target.render, Target.marks, Expr.toList_render object, Mark.chars_of, Kind.spelling]

theorem Elif.toList_renderAll (arms : List Elif) :
    (Elif.renderAll arms).toList = Mark.written (Elif.marksAll arms) := by
  cases arms with
  | nil => rfl
  | cons arm arms =>
    obtain ⟨condition, block⟩ := arm
    simp [Elif.renderAll, Elif.marksAll, Expr.toList_render condition, Block.toList_render block,
      Elif.toList_renderAll arms, Mark.chars_of, Kind.spelling]

theorem Block.toList_render (block : Block) : block.render.toList = Mark.written block.marks := by
  obtain ⟨_, statements⟩ := block
  rw [Block.render, Block.marks, Stmt.toList_renderLines statements]

theorem FunctionLiteral.toList_render (literal : FunctionLiteral) :
    literal.render.toList = Mark.written literal.marks := by
  obtain ⟨parameters, body⟩ := literal
  simp [FunctionLiteral.render, FunctionLiteral.marks, toList_names parameters, Block.toList_render body, Mark.chars_of,
    Kind.spelling]

theorem FunctionStatement.toList_render (definition : FunctionStatement) :
    definition.render.toList = Mark.written definition.marks := by
  obtain ⟨_, name, literal⟩ := definition
  simp [FunctionStatement.render, FunctionStatement.marks, FunctionLiteral.toList_render literal, Mark.chars_of,
    Kind.spelling]

theorem FunctionStatement.toList_renderLines (methods : List FunctionStatement) :
    (FunctionStatement.renderLines methods).toList = Mark.written
    (FunctionStatement.marksLines methods) := by
  cases methods with
  | nil => rfl
  | cons method methods =>
    simp [FunctionStatement.renderLines, FunctionStatement.marksLines, FunctionStatement.toList_render method,
      FunctionStatement.toList_renderLines methods]

theorem Stmt.toList_render (statement : Stmt) :
    statement.render.toList = Mark.written statement.marks := by
  cases statement with
  | expression _ value => rw [Stmt.render, Stmt.marks, Expr.toList_render value]
  | returning _ value => simp [Stmt.render, Stmt.marks, Expr.toList_render value, Mark.chars_of, Kind.spelling]
  | whileLoop _ condition body =>
    simp [Stmt.render, Stmt.marks, Expr.toList_render condition, Block.toList_render body, Mark.chars_of, Kind.spelling]
  | function definition => rw [Stmt.render, Stmt.marks, FunctionStatement.toList_render definition]
  | classDefinition _ name methods =>
    simp [Stmt.render, Stmt.marks, FunctionStatement.toList_renderLines methods, Mark.chars_of, Kind.spelling]
  | test _ label body => simp [Stmt.render, Stmt.marks, Block.toList_render body, Mark.chars_of, Kind.spelling]

theorem Stmt.toList_renderLines (statements : List Stmt) :
    (Stmt.renderLines statements).toList = Mark.written (Stmt.marksLines statements) := by
  cases statements with
  | nil => rfl
  | cons statement statements =>
    simp [Stmt.renderLines, Stmt.marksLines, Stmt.toList_render statement, Stmt.toList_renderLines statements]

end

def Stmt.marksMore : List Stmt → List Mark
  | [] => []
  | statement :: more => .newline :: (statement.marks ++ Stmt.marksMore more)

def Program.marks (program : Program) : List Mark :=
  match program.statements with
  | [] => []
  | statement :: more => statement.marks ++ Stmt.marksMore more

theorem Program.toList_render (program : Program) :
    program.render.toList = Mark.written program.marks := by
  have more (statement : Stmt) (list : List Stmt) :
      (joinWith "\n" ((statement :: list).map Stmt.render)).toList = Mark.written (statement.marks ++ Stmt.marksMore list) := by
    induction list generalizing statement with
    | nil => simp [joinWith, Stmt.marksMore, Stmt.toList_render]
    | cons next list ih =>
      have rest := ih next
      simp only [List.map_cons] at rest ⊢
      simp [joinWith, Stmt.marksMore, Stmt.toList_render, rest]
  obtain ⟨list⟩ := program
  cases list with
  | nil => rfl
  | cons statement list => exact more statement list

/-! ## Scanning it again -/

/-- The characters no token runs into. -/
def isPart (c : Char) : Bool := [' ', '\n', '(', ')', '[', ']', ',', '.'].contains c

theorem Kind.bounds_of_isPart (kind : Kind) {c : Char} (part : isPart c) : kind.bounds c := by
  simp only [isPart, List.contains_eq_mem, List.mem_cons, List.not_mem_nil, or_false, decide_eq_true_eq] at part
  rcases part with rfl | rfl | rfl | rfl | rfl | rfl | rfl | rfl <;> cases kind <;> rfl

/-- What is behind a token and does not run into it. -/
def Parted (marks : List Mark) : Prop := ∀ c ∈ (Mark.written marks).head?, isPart c

theorem parted_nil : Parted [] := fun _ none => by cases none

theorem parted_gap (marks : List Mark) : Parted (.gap :: marks) :=
  fun c first => by cases first; rfl

theorem parted_newline (marks : List Mark) : Parted (.newline :: marks) :=
  fun c first => by cases first; rfl

def Kind.isPart : Kind → Bool
  | .lparen | .rparen | .lbracket | .rbracket | .comma | .dot => true
  | _ => false

theorem parted_of {kind : Kind} (part : kind.isPart) (marks : List Mark) :
    Parted (.of kind :: marks) := by
  intro c first
  cases kind <;> first | (cases part; done) | (cases first; rfl)

theorem scannable_token {kind : Kind} {text : String} {marks : List Mark}
    (spelled : Spelled kind text)
    (parted : Parted marks) (rest : Scannable marks) : Scannable (.token kind text :: marks) :=
  ⟨spelled, fun c first => kind.bounds_of_isPart (parted c first), rest⟩

def Kind.isFixed : Kind → Bool
  | .eof | .illegal | .ident | .int | .str => false
  | _ => true

theorem scannable_of {kind : Kind} {marks : List Mark} (fixed : kind.isFixed)
    (parted : Parted marks)
    (rest : Scannable marks) : Scannable (.of kind :: marks) :=
  scannable_token (by cases kind <;> first | (cases fixed; done) | rfl) parted rest

/-- Behind a bracket, a comma or a dot anything may stand. -/
theorem scannable_part {kind : Kind} {marks : List Mark} (part : kind.isPart)
    (rest : Scannable marks) :
    Scannable (.of kind :: marks) := by
  refine ⟨?_, fun c _ => ?_, rest⟩
  · cases kind <;> first | (cases part; done) | rfl
  · cases kind <;> first | (cases part; done) | rfl

theorem Identifier.scannable_mark {name : Identifier} {marks : List Mark}
    (lexical : isName name.name)
    (parted : Parted marks) (rest : Scannable marks) : Scannable (name.mark :: marks) := by
  simp only [isName, Bool.and_eq_true, bne_iff_ne, Option.isNone_iff_eq_none] at lexical
  exact scannable_token ⟨lexical.1.1, lexical.1.2, lexical.2⟩ parted rest

theorem Identifier.scannable_marksMore {names : List Identifier} {marks : List Mark}
    (lexical : names.all Survey.lexical.name) (parted : Parted marks) (rest : Scannable marks) :
    Parted (Identifier.marksMore names ++ marks) ∧ Scannable (Identifier.marksMore names ++ marks) := by
  induction names with
  | nil => exact ⟨parted, rest⟩
  | cons name names ih =>
    simp only [List.all_cons, Bool.and_eq_true] at lexical
    obtain ⟨first, more⟩ := lexical
    obtain ⟨parted', rest'⟩ := ih more
    exact ⟨parted_of rfl _, scannable_part rfl (scannable_mark first parted' rest')⟩

theorem Identifier.scannable_marksAll {names : List Identifier} {marks : List Mark}
    (lexical : names.all Survey.lexical.name)
    (parted : Parted marks) (rest : Scannable marks) :
    Scannable (Identifier.marksAll names ++ marks) := by
  cases names with
  | nil => exact rest
  | cons name names =>
    simp only [List.all_cons, Bool.and_eq_true] at lexical
    obtain ⟨parted', rest'⟩ := scannable_marksMore lexical.2 parted rest
    exact scannable_mark lexical.1 parted' rest'

theorem spelled_str {text : String} (quotable : isQuotable text) : Spelled .str text := by
  simpa [isQuotable, Spelled] using quotable

/-! ### What an expression starts with -/

def Kind.isHead : Kind → Bool
  | .ident | .int | .str | .trueWord | .falseWord | .lparen | .lbracket | .ifWord | .fnWord => true
  | _ => false

theorem Target.marks_head (target : Target) : ∃ kind text rest, target.marks = .token kind text ::
    rest ∧ kind.isHead := by
  cases target with
  | identifier name => exact ⟨_, _, _, rfl, rfl⟩
  | field _ object name => exact ⟨_, _, _, rfl, rfl⟩

theorem Expr.marks_head (e : Expr) :
    ∃ kind text rest, e.marks = .token kind text :: rest ∧ kind.isHead := by
  cases e with
  | assignment _ target value =>
    obtain ⟨kind, text, rest, eq, head⟩ := target.marks_head
    exact ⟨kind, text, _, by rw [Expr.marks, eq]; rfl, head⟩
  | call _ callee arguments =>
    obtain ⟨kind, text, rest, eq, head⟩ := callee.marks_head
    exact ⟨kind, text, _, by rw [Expr.marks, eq]; rfl, head⟩
  | boolean _ value => cases value <;> exact ⟨_, _, _, rfl, rfl⟩
  | integer | string | identifier | binary | unary | index | field | array | conditional | lambda =>
    exact ⟨_, _, _, rfl, rfl⟩

theorem head?_all {p : Char → Bool} {text more : List Char} (nonempty : text ≠ [])
    (all : text.all p) :
    ∀ c ∈ (text ++ more).head?, p c := by
  obtain ⟨d, text, rfl⟩ := List.exists_cons_of_ne_nil nonempty
  intro c first
  cases first
  simp only [List.all_cons, Bool.and_eq_true] at all
  exact all.1

/-- An expression does not turn the operator before it into another one. -/
theorem Expr.head_bounded (op : PrefixOp) (e : Expr) {marks : List Mark}
    (scannable : Scannable (e.marks ++ marks)) :
    ∀ c ∈ (Mark.written (e.marks ++ marks)).head?, op.kind.bounds c := by
  obtain ⟨kind, text, rest, eq, head⟩ := e.marks_head
  intro c first
  rw [eq] at scannable first
  obtain ⟨spelled, -, -⟩ := scannable
  cases op with
  | neg => rfl
  | not =>
    have other : c ≠ '=' := by
      rintro rfl
      cases kind
      case ident =>
        obtain ⟨nonempty, all, -⟩ := spelled
        cases head?_all nonempty all '=' first
      case int =>
        obtain ⟨nonempty, all⟩ := spelled
        cases head?_all nonempty all '=' first
      case str => cases first
      case trueWord | falseWord | ifWord | fnWord | lparen | lbracket => cases spelled; cases first
      all_goals cases head
    simpa [PrefixOp.kind, Kind.bounds] using other

/-! ### Every layout is scannable -/

open Survey (lexical)

mutual

theorem Expr.scannable (e : Expr) {marks : List Mark} (ok : e.meets lexical) (parted : Parted marks)
    (rest : Scannable marks) : Scannable (e.marks ++ marks) := by
  cases e with
  | integer _ value =>
    obtain ⟨nonempty, digits⟩ := Text.toString_digits (show 0 ≤ value.toInt by simpa [Expr.meets, lexical] using ok)
    exact scannable_token ⟨nonempty, digits⟩ parted rest
  | string _ value => exact scannable_token (spelled_str ok) parted rest
  | boolean _ value => cases value <;> exact scannable_of rfl parted rest
  | identifier name => exact Identifier.scannable_mark (by simpa [Expr.meets, lexical] using ok) parted rest
  | assignment _ target value =>
    simp only [Expr.meets, Bool.and_eq_true] at ok
    rw [Expr.marks, List.append_assoc]
    refine Target.scannable target ok.1.2 (parted_gap _) ?_
    exact scannable_of rfl (parted_gap _) (Expr.scannable value ok.2 parted rest)
  | binary _ left op right =>
    simp only [Expr.meets, Bool.and_eq_true] at ok
    simp only [Expr.marks, List.cons_append, List.append_assoc, List.nil_append]
    refine scannable_part rfl (Expr.scannable left ok.1.2 (parted_gap _) ?_)
    refine scannable_of (show op.kind.isFixed by cases op <;> rfl) (parted_gap _) ?_
    exact Expr.scannable right ok.2 (parted_of rfl _) (scannable_part rfl rest)
  | unary _ op operand =>
    simp only [Expr.meets, Bool.and_eq_true] at ok
    simp only [Expr.marks, List.cons_append, List.append_assoc, List.nil_append]
    have inner := Expr.scannable operand ok.2 (parted_of (show Kind.rparen.isPart from rfl) _) (scannable_part rfl rest)
    exact scannable_part rfl ⟨by cases op <;> rfl, Expr.head_bounded op operand inner, inner⟩
  | call _ callee arguments =>
    simp only [Expr.meets, Bool.and_eq_true] at ok
    simp only [Expr.marks, List.cons_append, List.append_assoc, List.nil_append]
    refine Expr.scannable callee ok.1.2 (parted_of rfl _) (scannable_part rfl ?_)
    exact Expr.scannable_marksAll arguments ok.2 (parted_of rfl _) (scannable_part rfl rest)
  | index _ left position =>
    simp only [Expr.meets, Bool.and_eq_true] at ok
    simp only [Expr.marks, List.cons_append, List.append_assoc, List.nil_append]
    refine scannable_part rfl (Expr.scannable left ok.1.2 (parted_of rfl _) (scannable_part rfl ?_))
    exact Expr.scannable position ok.2 (parted_of rfl _) (scannable_part rfl (scannable_part rfl rest))
  | field _ object name =>
    simp only [Expr.meets, Bool.and_eq_true] at ok
    simp only [Expr.marks, List.cons_append, List.append_assoc, List.nil_append]
    refine scannable_part rfl (Expr.scannable object ok.1.2 (parted_of rfl _) (scannable_part rfl ?_))
    exact Identifier.scannable_mark ok.2 (parted_of rfl _) (scannable_part rfl rest)
  | array _ elements =>
    simp only [Expr.meets, Bool.and_eq_true] at ok
    simp only [Expr.marks, List.cons_append, List.append_assoc, List.nil_append]
    exact scannable_part rfl (Expr.scannable_marksAll elements ok.2 (parted_of rfl _) (scannable_part rfl rest))
  | conditional _ condition consequence elifs alternative =>
    simp only [Expr.meets, Bool.and_eq_true] at ok
    simp only [Expr.marks, List.cons_append, List.append_assoc, List.nil_append]
    refine scannable_of rfl (parted_gap _) (Expr.scannable condition ok.1.1.1.2 (parted_gap _) ?_)
    refine scannable_of rfl (parted_newline _) (Block.scannable consequence ok.1.1.2 ?_)
    refine Elif.scannable_marksAll elifs ok.1.2 (Block.scannable_marksElse alternative ok.2 ?_)
    exact scannable_of rfl parted rest
  | lambda _ literal =>
    simp only [Expr.meets, Bool.and_eq_true] at ok
    obtain ⟨parted', rest'⟩ := FunctionLiteral.scannable literal ok.2 parted rest
    exact scannable_of rfl parted' rest'

theorem Expr.scannable_marksMore (es : List Expr) {marks : List Mark} (ok : Expr.allMeet lexical es)
    (parted : Parted marks)
    (rest : Scannable marks) :
    Parted (Expr.marksMore es ++ marks) ∧ Scannable (Expr.marksMore es ++ marks) := by
  cases es with
  | nil => exact ⟨parted, rest⟩
  | cons e es =>
    simp only [Expr.allMeet, Bool.and_eq_true] at ok
    obtain ⟨parted', rest'⟩ := Expr.scannable_marksMore es ok.2 parted rest
    simp only [Expr.marksMore, List.cons_append, List.append_assoc]
    exact ⟨parted_of rfl _, scannable_part rfl (Expr.scannable e ok.1 parted' rest')⟩

theorem Expr.scannable_marksAll (es : List Expr) {marks : List Mark} (ok : Expr.allMeet lexical es)
    (parted : Parted marks) (rest : Scannable marks) : Scannable (Expr.marksAll es ++ marks) := by
  cases es with
  | nil => exact rest
  | cons e es =>
    simp only [Expr.allMeet, Bool.and_eq_true] at ok
    obtain ⟨parted', rest'⟩ := Expr.scannable_marksMore es ok.2 parted rest
    rw [Expr.marksAll, List.append_assoc]
    exact Expr.scannable e ok.1 parted' rest'

theorem Target.scannable (target : Target) {marks : List Mark} (ok : target.meets lexical)
    (parted : Parted marks)
    (rest : Scannable marks) : Scannable (target.marks ++ marks) := by
  cases target with
  | identifier name => exact Identifier.scannable_mark (by simpa [Target.meets, lexical] using ok) parted rest
  | field _ object name =>
    simp only [Target.meets, Bool.and_eq_true] at ok
    simp only [Target.marks, List.cons_append, List.append_assoc, List.nil_append]
    refine scannable_part rfl (Expr.scannable object ok.1.2 (parted_of rfl _) (scannable_part rfl ?_))
    exact Identifier.scannable_mark ok.2 (parted_of rfl _) (scannable_part rfl rest)

theorem Elif.scannable_marksAll (arms : List Elif) {marks : List Mark}
    (ok : Elif.allMeet lexical arms)
    (rest : Scannable marks) : Scannable (Elif.marksAll arms ++ marks) := by
  cases arms with
  | nil => exact rest
  | cons arm arms =>
    obtain ⟨condition, block⟩ := arm
    simp only [Elif.allMeet, Bool.and_eq_true] at ok
    simp only [Elif.marksAll, List.cons_append, List.append_assoc]
    refine scannable_of rfl (parted_gap _) (Expr.scannable condition ok.1.1 (parted_gap _) ?_)
    refine scannable_of rfl (parted_newline _) (Block.scannable block ok.1.2 ?_)
    exact Elif.scannable_marksAll arms ok.2 rest

theorem Block.scannable_marksElse (alternative : Option Block) {marks : List Mark}
    (ok : Block.elseMeets lexical alternative)
    (rest : Scannable marks) : Scannable (Block.marksElse alternative ++ marks) := by
  cases alternative with
  | none => exact rest
  | some block => exact scannable_of rfl (parted_newline _) (Block.scannable block ok rest)

theorem Block.scannable (block : Block) {marks : List Mark} (ok : block.meets lexical)
    (rest : Scannable marks) :
    Scannable (block.marks ++ marks) := by
  obtain ⟨_, statements⟩ := block
  exact Stmt.scannable_marksLines statements ok rest

theorem FunctionLiteral.scannable (literal : FunctionLiteral) {marks : List Mark}
    (ok : literal.meets lexical)
    (parted : Parted marks) (rest : Scannable marks) :
    Parted (literal.marks ++ marks) ∧ Scannable (literal.marks ++ marks) := by
  obtain ⟨parameters, body⟩ := literal
  simp only [FunctionLiteral.meets, Bool.and_eq_true] at ok
  simp only [FunctionLiteral.marks, List.cons_append, List.append_assoc, List.nil_append]
  refine ⟨parted_of rfl _,
    scannable_part rfl (Identifier.scannable_marksAll ok.1 (parted_of rfl _) (scannable_part rfl ?_))⟩
  exact Block.scannable body ok.2 (scannable_of rfl parted rest)

theorem FunctionStatement.scannable (definition : FunctionStatement) {marks : List Mark}
    (ok : definition.meets lexical)
    (parted : Parted marks) (rest : Scannable marks) : Scannable (definition.marks ++ marks) := by
  obtain ⟨_, name, literal⟩ := definition
  simp only [FunctionStatement.meets, Bool.and_eq_true] at ok
  obtain ⟨parted', rest'⟩ := FunctionLiteral.scannable literal ok.2 parted rest
  exact scannable_of rfl (parted_gap _) (Identifier.scannable_mark ok.1 parted' rest')

theorem FunctionStatement.scannable_marksLines (methods : List FunctionStatement)
    {marks : List Mark}
    (ok : FunctionStatement.allMeet lexical methods) (rest : Scannable marks) :
    Scannable (FunctionStatement.marksLines methods ++ marks) := by
  cases methods with
  | nil => exact rest
  | cons method methods =>
    simp only [FunctionStatement.allMeet, Bool.and_eq_true] at ok
    rw [FunctionStatement.marksLines, List.append_assoc]
    exact FunctionStatement.scannable method ok.1 (parted_newline _) (FunctionStatement.scannable_marksLines methods ok.2 rest)

theorem Stmt.scannable (statement : Stmt) {marks : List Mark} (ok : statement.meets lexical)
    (parted : Parted marks)
    (rest : Scannable marks) : Scannable (statement.marks ++ marks) := by
  cases statement with
  | expression _ value => exact Expr.scannable value ok parted rest
  | returning _ value => exact scannable_of rfl (parted_gap _) (Expr.scannable value ok parted rest)
  | whileLoop _ condition body =>
    simp only [Stmt.meets, Bool.and_eq_true] at ok
    simp only [Stmt.marks, List.cons_append, List.append_assoc, List.nil_append]
    refine scannable_of rfl (parted_gap _) (Expr.scannable condition ok.1 (parted_gap _) ?_)
    exact scannable_of rfl (parted_newline _) (Block.scannable body ok.2 (scannable_of rfl parted rest))
  | function definition => exact FunctionStatement.scannable definition ok parted rest
  | classDefinition _ name methods =>
    simp only [Stmt.meets, Bool.and_eq_true] at ok
    simp only [Stmt.marks, List.cons_append, List.append_assoc, List.nil_append]
    refine scannable_of rfl (parted_gap _) (Identifier.scannable_mark ok.1 (parted_newline _) ?_)
    exact FunctionStatement.scannable_marksLines methods ok.2 (scannable_of rfl parted rest)
  | test _ label body =>
    simp only [Stmt.meets, Bool.and_eq_true] at ok
    simp only [Stmt.marks, List.cons_append, List.append_assoc, List.nil_append]
    refine scannable_of rfl (parted_gap _) (scannable_token (spelled_str ok.1) (parted_newline _) ?_)
    exact Block.scannable body ok.2 (scannable_of rfl parted rest)

theorem Stmt.scannable_marksLines (statements : List Stmt) {marks : List Mark}
    (ok : Stmt.allMeet lexical statements)
    (rest : Scannable marks) : Scannable (Stmt.marksLines statements ++ marks) := by
  cases statements with
  | nil => exact rest
  | cons statement statements =>
    simp only [Stmt.allMeet, Bool.and_eq_true] at ok
    rw [Stmt.marksLines, List.append_assoc]
    exact Stmt.scannable statement ok.1 (parted_newline _) (Stmt.scannable_marksLines statements ok.2 rest)

end

theorem Stmt.scannable_marksMore (statements : List Stmt) (ok : Stmt.allMeet lexical statements) :
    Parted (Stmt.marksMore statements) ∧ Scannable (Stmt.marksMore statements) := by
  induction statements with
  | nil => exact ⟨parted_nil, trivial⟩
  | cons statement statements ih =>
    simp only [Stmt.allMeet, Bool.and_eq_true] at ok
    obtain ⟨parted, rest⟩ := ih ok.2
    exact ⟨parted_newline _, Stmt.scannable statement ok.1 parted rest⟩

theorem Program.scannable (program : Program) (ok : program.meets lexical) :
    Scannable program.marks := by
  obtain ⟨list⟩ := program
  cases list with
  | nil => trivial
  | cons statement list =>
    simp only [Program.meets, Stmt.allMeet, Bool.and_eq_true] at ok
    obtain ⟨parted, rest⟩ := Stmt.scannable_marksMore list ok.2
    exact Stmt.scannable statement ok.1 parted rest

/-- The lines of a program are its layout with a newline behind it. -/
theorem Stmt.marksLines_cons (statement : Stmt) (list : List Stmt) :
    Stmt.marksLines (statement :: list) = (Program.mk (statement :: list)).marks ++ [.newline] := by
  simp only [Program.marks]
  induction list generalizing statement with
  | nil => simp [Stmt.marksLines, Stmt.marksMore]
  | cons next list ih => rw [Stmt.marksLines, ih next]; simp [Stmt.marksMore]

theorem Stmt.marks_ne_nil (statement : Stmt) : statement.marks ≠ [] := by
  cases statement with
  | expression _ value =>
    obtain ⟨kind, text, rest, eq, -⟩ := value.marks_head
    simp [Stmt.marks, eq]
  | function definition =>
    obtain ⟨_, name, literal⟩ := definition
    simp [Stmt.marks, FunctionStatement.marks]
  | returning | whileLoop | classDefinition | test => simp [Stmt.marks]

theorem Program.marks_eq_iff {p q : Program} :
    p.marks = q.marks ↔ Stmt.marksLines p.statements = Stmt.marksLines q.statements := by
  obtain ⟨list⟩ := p
  obtain ⟨list'⟩ := q
  cases list with
  | nil => cases list' with
    | nil => exact Iff.rfl
    | cons statement' list' => simp [Program.marks, Stmt.marksLines, statement'.marks_ne_nil]
  | cons statement list => cases list' with
    | nil => simp [Program.marks, Stmt.marksLines, statement.marks_ne_nil]
    | cons statement' list' => rw [Stmt.marksLines_cons, Stmt.marksLines_cons, List.append_left_inj]

/-- Lexically well-formed programs are written the same way only if they are laid out
    the same way. -/
theorem Program.render_eq_iff {p q : Program} (ok : p.meets lexical) (ok' : q.meets lexical) :
    p.render = q.render ↔ p.marks = q.marks := by
  rw [← String.toList_inj, p.toList_render, q.toList_render]
  exact ⟨Mark.written_inj (p.scannable ok) (q.scannable ok'), fun eq => by rw [eq]⟩

/-- A newline behind the last statement makes no difference to the tokens. -/
theorem Program.tokens_marks (program : Program) (line : Nat) :
    Mark.tokens line program.marks = Mark.tokens line (Stmt.marksLines program.statements) := by
  have newline (marks : List Mark) : Mark.tokens line (marks ++ [.newline]) = Mark.tokens line marks := by
    induction marks generalizing line with
    | nil => rfl
    | cons mark marks ih => cases mark <;> simp [Mark.tokens, ih]
  obtain ⟨list⟩ := program
  cases list with
  | nil => rfl
  | cons statement list => rw [Stmt.marksLines_cons, newline]

/-- The tokens of the canonical text of a program. -/
theorem scan_render {program : Program} (ok : program.meets lexical) :
    scan program.render = ⟨Mark.tokens 1 (Stmt.marksLines program.statements),
      .eof (Mark.lineAfter 1 program.marks)⟩ := by
  rw [scan_written program.toList_render (program.scannable ok), program.tokens_marks]

end Lantern
