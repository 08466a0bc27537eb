/-
  Lantern.Proofs.Syntax.Survey — checking every node of a program.

  A survey says what is asked of an expression, of what an assignment writes to, of a
  name and of the label of a test; `meets` asks it everywhere in a tree.
  `Survey.lexical` asks that what a program is made of can be written down and scanned
  again, `Survey.apart` that its parts stay together where the rendering shows no
  parentheses. `Survey.Covers`: a survey that answers for another one at a node, once it
  is met below it, is met only where the other one is.
-/

import Lantern.Syntax.Basic
import Lantern.Proofs.Token.Proper

namespace Lantern

/-- What is asked of the nodes of a tree, each for itself. -/
structure Survey where
  expr : Expr → Bool := fun _ => true
  target : Target → Bool := fun _ => true
  name : Identifier → Bool := fun _ => true
  label : String → Bool := fun _ => true

section

variable (survey : Survey)

mutual

def Expr.meets : Expr → Bool
  | .integer token value => survey.expr (.integer token value)
  | .string token value => survey.expr (.string token value)
  | .boolean token value => survey.expr (.boolean token value)
  | .identifier name => survey.expr (.identifier name) && survey.name name
  | .assignment token target value => survey.expr (.assignment token target value) && target.meets && value.meets
  | .binary token left op right => survey.expr (.binary token left op right) && left.meets && right.meets
  | .unary token op operand => survey.expr (.unary token op operand) && operand.meets
  | .call token callee arguments => survey.expr (.call token callee arguments) && callee.meets && Expr.allMeet arguments
  | .index token left position => survey.expr (.index token left position) && left.meets && position.meets
  | .field token object name => survey.expr (.field token object name) && object.meets && survey.name name
  | .array token elements => survey.expr (.array token elements) && Expr.allMeet elements
  | .conditional token condition consequence elifs alternative =>
    survey.expr (.conditional token condition consequence elifs alternative) && condition.meets && consequence.meets &&
      Elif.allMeet elifs && Block.elseMeets alternative
  | .lambda token literal => survey.expr (.lambda token literal) && literal.meets

def Expr.allMeet : List Expr → Bool
  | [] => true
  | value :: more => value.meets && Expr.allMeet more

def Target.meets : Target → Bool
  | .identifier name => survey.target (.identifier name) && survey.name name
  | .field token object name => survey.target (.field token object name) && object.meets && survey.name name

def Elif.allMeet : List Elif → Bool
  | [] => true
  | ⟨condition, block⟩ :: more => condition.meets && block.meets && Elif.allMeet more

def Block.elseMeets : Option Block → Bool
  | none => true
  | some block => block.meets

def Block.meets : Block → Bool
  | ⟨_, statements⟩ => Stmt.allMeet statements

def FunctionLiteral.meets : FunctionLiteral → Bool
  | ⟨parameters, body⟩ => parameters.all survey.name && body.meets

def FunctionStatement.meets : FunctionStatement → Bool
  | ⟨_, name, literal⟩ => survey.name name && literal.meets

def FunctionStatement.allMeet : List FunctionStatement → Bool
  | [] => true
  | method :: more => method.meets && FunctionStatement.allMeet more

def Stmt.meets : Stmt → Bool
  | .expression _ value => value.meets
  | .returning _ value => value.meets
  | .whileLoop _ condition body => condition.meets && body.meets
  | .function definition => definition.meets
  | .classDefinition _ name methods => survey.name name && FunctionStatement.allMeet methods
  | .test _ label body => survey.label label && body.meets

def Stmt.allMeet : List Stmt → Bool
  | [] => true
  | statement :: more => statement.meets && Stmt.allMeet more

end

end

def Program.meets (survey : Survey) (program : Program) : Bool :=
  Stmt.allMeet survey program.statements

/-! ## One survey after another -/

structure Survey.Covers (survey other : Survey) : Prop where
  expr : ∀ e : Expr, e.meets survey → other.expr e
  target : ∀ target : Target, target.meets survey → other.target target
  name : ∀ name, survey.name name → other.name name
  label : ∀ label, survey.label label → other.label label

section

variable {survey other : Survey}

theorem Survey.Covers.names (covers : survey.Covers other) {names : List Identifier}
    (ok : names.all survey.name) :
    names.all other.name := by
  rw [List.all_eq_true] at ok ⊢
  exact fun name mem => covers.name name (ok name mem)

mutual

theorem Expr.meets_of_covers (covers : survey.Covers other) (e : Expr) (ok : e.meets survey) :
    e.meets other := by
  have here := covers.expr e ok
  cases e with
  | integer | string | boolean => exact here
  | identifier name =>
    simp only [Expr.meets, Bool.and_eq_true] at ok ⊢
    exact ⟨here, covers.name name ok.2⟩
  | assignment _ target value =>
    simp only [Expr.meets, Bool.and_eq_true] at ok ⊢
    exact ⟨⟨here, Target.meets_of_covers covers target ok.1.2⟩, Expr.meets_of_covers covers value ok.2⟩
  | binary _ left _ right =>
    simp only [Expr.meets, Bool.and_eq_true] at ok ⊢
    exact ⟨⟨here, Expr.meets_of_covers covers left ok.1.2⟩, Expr.meets_of_covers covers right ok.2⟩
  | unary _ _ operand =>
    simp only [Expr.meets, Bool.and_eq_true] at ok ⊢
    exact ⟨here, Expr.meets_of_covers covers operand ok.2⟩
  | call _ callee arguments =>
    simp only [Expr.meets, Bool.and_eq_true] at ok ⊢
    exact ⟨⟨here, Expr.meets_of_covers covers callee ok.1.2⟩, Expr.allMeet_of_covers covers arguments ok.2⟩
  | index _ left position =>
    simp only [Expr.meets, Bool.and_eq_true] at ok ⊢
    exact ⟨⟨here, Expr.meets_of_covers covers left ok.1.2⟩, Expr.meets_of_covers covers position ok.2⟩
  | field _ object name =>
    simp only [Expr.meets, Bool.and_eq_true] at ok ⊢
    exact ⟨⟨here, Expr.meets_of_covers covers object ok.1.2⟩, covers.name name ok.2⟩
  | array _ elements =>
    simp only [Expr.meets, Bool.and_eq_true] at ok ⊢
    exact ⟨here, Expr.allMeet_of_covers covers elements ok.2⟩
  | conditional _ condition consequence arms alternative =>
    simp only [Expr.meets, Bool.and_eq_true] at ok ⊢
    obtain ⟨⟨⟨⟨-, tested⟩, body⟩, more⟩, otherwise⟩ := ok
    exact ⟨⟨⟨⟨here, Expr.meets_of_covers covers condition tested⟩, Block.meets_of_covers covers consequence body⟩,
      Elif.allMeet_of_covers covers arms more⟩, Block.elseMeets_of_covers covers alternative otherwise⟩
  | lambda _ literal =>
    simp only [Expr.meets, Bool.and_eq_true] at ok ⊢
    exact ⟨here, FunctionLiteral.meets_of_covers covers literal ok.2⟩

theorem Expr.allMeet_of_covers (covers : survey.Covers other) (es : List Expr)
    (ok : Expr.allMeet survey es) :
    Expr.allMeet other es := by
  cases es with
  | nil => rfl
  | cons e es =>
    simp only [Expr.allMeet, Bool.and_eq_true] at ok ⊢
    exact ⟨Expr.meets_of_covers covers e ok.1, Expr.allMeet_of_covers covers es ok.2⟩

theorem Target.meets_of_covers (covers : survey.Covers other) (target : Target)
    (ok : target.meets survey) :
    target.meets other := by
  have here := covers.target target ok
  cases target with
  | identifier name =>
    simp only [Target.meets, Bool.and_eq_true] at ok ⊢
    exact ⟨here, covers.name name ok.2⟩
  | field _ object name =>
    simp only [Target.meets, Bool.and_eq_true] at ok ⊢
    exact ⟨⟨here, Expr.meets_of_covers covers object ok.1.2⟩, covers.name name ok.2⟩

theorem Elif.allMeet_of_covers (covers : survey.Covers other) (arms : List Elif)
    (ok : Elif.allMeet survey arms) :
    Elif.allMeet other arms := by
  cases arms with
  | nil => rfl
  | cons arm arms =>
    obtain ⟨condition, block⟩ := arm
    simp only [Elif.allMeet, Bool.and_eq_true] at ok ⊢
    exact ⟨⟨Expr.meets_of_covers covers condition ok.1.1, Block.meets_of_covers covers block ok.1.2⟩,
      Elif.allMeet_of_covers covers arms ok.2⟩

theorem Block.elseMeets_of_covers (covers : survey.Covers other) (alternative : Option Block)
    (ok : Block.elseMeets survey alternative) : Block.elseMeets other alternative := by
  cases alternative with
  | none => rfl
  | some block => exact Block.meets_of_covers covers block ok

theorem Block.meets_of_covers (covers : survey.Covers other) (block : Block)
    (ok : block.meets survey) :
    block.meets other := by
  obtain ⟨_, statements⟩ := block
  exact Stmt.allMeet_of_covers covers statements ok

theorem FunctionLiteral.meets_of_covers (covers : survey.Covers other) (literal : FunctionLiteral)
    (ok : literal.meets survey) : literal.meets other := by
  obtain ⟨parameters, body⟩ := literal
  simp only [FunctionLiteral.meets, Bool.and_eq_true] at ok ⊢
  exact ⟨covers.names ok.1, Block.meets_of_covers covers body ok.2⟩

theorem FunctionStatement.meets_of_covers (covers : survey.Covers other)
    (definition : FunctionStatement)
    (ok : definition.meets survey) : definition.meets other := by
  obtain ⟨_, name, literal⟩ := definition
  simp only [FunctionStatement.meets, Bool.and_eq_true] at ok ⊢
  exact ⟨covers.name name ok.1, FunctionLiteral.meets_of_covers covers literal ok.2⟩

theorem FunctionStatement.allMeet_of_covers (covers : survey.Covers other)
    (methods : List FunctionStatement)
    (ok : FunctionStatement.allMeet survey methods) : FunctionStatement.allMeet other methods := by
  cases methods with
  | nil => rfl
  | cons method methods =>
    simp only [FunctionStatement.allMeet, Bool.and_eq_true] at ok ⊢
    exact ⟨FunctionStatement.meets_of_covers covers method ok.1,
      FunctionStatement.allMeet_of_covers covers methods ok.2⟩

theorem Stmt.meets_of_covers (covers : survey.Covers other) (statement : Stmt)
    (ok : statement.meets survey) :
    statement.meets other := by
  cases statement with
  | expression _ value => exact Expr.meets_of_covers covers value ok
  | returning _ value => exact Expr.meets_of_covers covers value ok
  | whileLoop _ condition body =>
    simp only [Stmt.meets, Bool.and_eq_true] at ok ⊢
    exact ⟨Expr.meets_of_covers covers condition ok.1, Block.meets_of_covers covers body ok.2⟩
  | function definition => exact FunctionStatement.meets_of_covers covers definition ok
  | classDefinition _ name methods =>
    simp only [Stmt.meets, Bool.and_eq_true] at ok ⊢
    exact ⟨covers.name name ok.1, FunctionStatement.allMeet_of_covers covers methods ok.2⟩
  | test _ label body =>
    simp only [Stmt.meets, Bool.and_eq_true] at ok ⊢
    exact ⟨covers.label label ok.1, Block.meets_of_covers covers body ok.2⟩

theorem Stmt.allMeet_of_covers (covers : survey.Covers other) (statements : List Stmt)
    (ok : Stmt.allMeet survey statements) : Stmt.allMeet other statements := by
  cases statements with
  | nil => rfl
  | cons statement statements =>
    simp only [Stmt.allMeet, Bool.and_eq_true] at ok ⊢
    exact ⟨Stmt.meets_of_covers covers statement ok.1, Stmt.allMeet_of_covers covers statements ok.2⟩

end

end

/-! ## What can be scanned again -/

/-- Names are names, integers are not negative, and no string or label holds a quote. -/
def Survey.lexical : Survey where
  expr
    | .integer _ value => 0 ≤ value.toInt
    | .string _ value => isQuotable value
    | _ => true
  name name := isName name.name
  label := isQuotable

/-! ## What regroups -/

def Expr.isAssignment : Expr → Bool
  | .assignment .. => true
  | _ => false

def Expr.isBrokenString : Expr → Bool
  | .string _ value => value.toList.contains '\n'
  | _ => false

/-- No assignment is an operand, a callee, or what is indexed or has a field, and no
    string that runs over lines is called or indexed. A rendering shows no parentheses
    around the one, and has the bracket on a later line behind the other. -/
def Survey.apart : Survey where
  expr
    | .binary _ left _ right => !left.isAssignment && !right.isAssignment
    | .unary _ _ operand => !operand.isAssignment
    | .call _ callee _ => !callee.isAssignment && !callee.isBrokenString
    | .index _ left _ => !left.isAssignment && !left.isBrokenString
    | .field _ object _ => !object.isAssignment
    | _ => true
  target
    | .identifier _ => true
    | .field _ object _ => !object.isAssignment

section

variable (token : Token) (left right : Expr)

@[simp] theorem Survey.apart_binary (op : InfixOp) :
    apart.expr (.binary token left op right) = (!left.isAssignment && !right.isAssignment) := rfl

@[simp] theorem Survey.apart_unary (op : PrefixOp) :
    apart.expr (.unary token op right) = !right.isAssignment := rfl

@[simp] theorem Survey.apart_call (arguments : List Expr) :
    apart.expr (.call token left arguments) = (!left.isAssignment && !left.isBrokenString) := rfl

@[simp] theorem Survey.apart_index : apart.expr (.index token left right) =
    (!left.isAssignment && !left.isBrokenString) := rfl

@[simp] theorem Survey.apart_field (name : Identifier) :
    apart.expr (.field token left name) = !left.isAssignment := rfl

@[simp] theorem Survey.apart_assignment (target : Target) :
    apart.expr (.assignment token target right) := rfl

@[simp] theorem Survey.apart_array (elements : List Expr) : apart.expr (.array token elements) :=
  rfl

@[simp] theorem Survey.apart_conditional (consequence : Block) (arms : List Elif)
    (alternative : Option Block) :
    apart.expr (.conditional token left consequence arms alternative) := rfl

@[simp] theorem Survey.apart_lambda (literal : FunctionLiteral) :
    apart.expr (.lambda token literal) := rfl

@[simp] theorem Survey.apart_name (name : Identifier) : apart.name name := rfl

@[simp] theorem Survey.apart_label (label : String) : apart.label label := rfl

@[simp] theorem Survey.apart_target (name : Identifier) :
    apart.target (.field token left name) = !left.isAssignment := rfl

end

end Lantern
