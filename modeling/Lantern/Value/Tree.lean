/-
  Lantern.Value.Tree — values written out with their parts.

  Unlike the texts a program sees, this form tells the kinds of values apart and names
  the fields of an object. A function is shown by name and arity only: the scope it
  keeps commonly holds the function itself.
-/

import Lantern.Value.Heap
import Lantern.Text.Outline

namespace Lantern

open Text (Outline)

def Function.outline (function : Function) : Outline :=
  .record "FunctionValue"
    [⟨"name", .optional (function.name.map fun name => .atom (Text.quoted name))⟩,
     ⟨"arity", .atom (toString function.arity)⟩] false

def Class.outline (definition : Class) : Outline :=
  .record "ClassValue"
    [⟨"name", .atom (Text.quoted definition.name)⟩, ⟨"methods", .list (definition.methods.map Function.outline)⟩] true

def quotedNames (names : List String) : Outline :=
  .list (names.map fun name => .atom (Text.quoted name))

namespace Value

mutual

def outline (heap : Heap) : Value → Outline
  | integer number => .wrap "Integer" (.atom (toString number.toInt))
  | string text => .wrap "String" (.atom (Text.quoted text))
  | boolean truth => .wrap "Boolean" (.atom (truthWord truth))
  | null => .atom "Null"
  | array items => .wrap "Array" (.list (outlines heap items))
  | function closure => .wrap "Function" closure.outline
  | builtin primitive => .wrap "Builtin" (.wrap "BuiltinValue" (.atom (Text.quoted primitive.name)))
  | classObject definition => .wrap "Class" definition.outline
  | object className id =>
    .wrap "Instance" (.record "InstanceValue"
      [⟨"class", .atom (Text.quoted className)⟩, ⟨"fields", quotedNames (heap.fields id).names⟩] true)

def outlines (heap : Heap) : List Value → List Outline
  | [] => []
  | value :: more => value.outline heap :: outlines heap more

end

def dump (heap : Heap) (value : Value) : String := (value.outline heap).inline

end Value

end Lantern
