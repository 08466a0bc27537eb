/-
  Lantern.Value.Basic — what a program computes with.

  Numbers, texts, truth values, `null` and arrays are plain data. A function keeps the
  scope it was made in and a class the methods made there, each by the number of the
  scope; an object is known by its number alone, with the name of its class beside it
  because that is all its text shows. What scopes and objects hold is in the heap, so
  values never change.

  A value has two texts. `display` is what `print` writes; `inspect` is the same but for
  a string, which stands in quotes, and it is what `==` compares. Arrays show their
  elements inspected.
-/

import Lantern.Syntax.Render

namespace Lantern

abbrev ScopeId := Nat

abbrev ObjectId := Nat

inductive Builtin where
  | print
  | len
  | typeOf
  | str
  | assert
  | push
  deriving DecidableEq, Repr, Inhabited

namespace Builtin

def name : Builtin → String
  | print => "print"
  | len => "len"
  | typeOf => "type"
  | str => "str"
  | assert => "assert"
  | push => "push"

def all : List Builtin := [print, len, typeOf, str, assert, push]

def ofName? (name : String) : Option Builtin := all.find? (·.name == name)

end Builtin

structure Function where
  name : Option String
  literal : FunctionLiteral
  /-- The scope it was made in. -/
  scope : ScopeId
  deriving Inhabited

structure Class where
  name : String
  methods : List Function
  deriving Inhabited

inductive Value where
  | integer (number : Int64)
  | string (text : String)
  | boolean (truth : Bool)
  | null
  | array (items : List Value)
  | function (closure : Function)
  | builtin (primitive : Builtin)
  | classObject (definition : Class)
  /-- An instance of a class. -/
  | object (className : String) (id : ObjectId)
  deriving Inhabited

namespace Function

def arity (function : Function) : Nat := function.literal.arity

def parameters (function : Function) : List String := function.literal.parameters.map (·.name)

def display (function : Function) : String :=
  "fn" ++ (match function.name with
    | some name => " " ++ name
    | none => "") ++ "(" ++ commaSeparated function.parameters ++ ")"

end Function

/-- The method called `name`. A later definition shadows an earlier one. -/
def Class.method? (definition : Class) (name : String) : Option Function :=
  definition.methods.reverse.find? (·.name == some name)

namespace Value

def typeName : Value → String
  | integer _ => "Integer"
  | string _ => "String"
  | boolean _ => "Boolean"
  | null => "Null"
  | array _ => "Array"
  | function _ => "Function"
  | builtin _ => "Builtin"
  | classObject _ => "Class"
  | object .. => "Instance"

/-- Only a number other than zero and `true` hold; everything else does not, whatever it
    contains. -/
def isTruthy : Value → Bool
  | integer number => number != 0
  | boolean truth => truth
  | _ => false

def isNull : Value → Bool
  | null => true
  | _ => false

mutual

def inspect : Value → String
  | integer number => toString number.toInt
  | string text => "\"" ++ text ++ "\""
  | boolean truth => truthWord truth
  | null => "null"
  | array items => "[" ++ commaSeparated (inspectAll items) ++ "]"
  | function closure => closure.display
  | builtin primitive => "builtin " ++ primitive.name
  | classObject definition => "Class: " ++ definition.name
  | object className _ => "Instance of " ++ className

def inspectAll : List Value → List String
  | [] => []
  | value :: more => value.inspect :: inspectAll more

end

/-- The text `print` writes: a string as it is, everything else inspected. -/
def display : Value → String
  | string text => text
  | value => value.inspect

/-- Equality of the language: the same kind and the same inspected text. -/
def equals (left right : Value) : Bool :=
  left.typeName == right.typeName && left.inspect == right.inspect

/-- A count as a number of the language; a count beyond its range is the greatest one. -/
def ofCount (count : Nat) : Value :=
  integer (if (count : Int) ≤ Int64.maxValue.toInt then Int64.ofNat count else Int64.maxValue)

end Value

end Lantern
