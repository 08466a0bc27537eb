/-
  Lantern.Text.Outline — structured data as text, on one line or spread over many.

  An outline has a name with named fields, a name with one unnamed part, or a list; what
  has no parts is written as it stands. Spread out, every part has a line of its own,
  indented by four spaces a level and closed by a comma; a list without elements stays
  on its line.
-/

namespace Lantern.Text

mutual

inductive Outline where
  /-- Text without parts. -/
  | atom (text : String)
  /-- A name around one part. -/
  | wrap (name : String) (part : Outline)
  | list (items : List Outline)
  /-- A name with named fields. `whole` is false where some fields are left out. -/
  | record (name : String) (fields : List OutlineField) (whole : Bool)

structure OutlineField where
  name : String
  value : Outline

end

namespace Outline

def optional : Option Outline → Outline
  | some value => wrap "Some" value
  | none => atom "None"

mutual

def inline : Outline → String
  | atom text => text
  | wrap name part => name ++ "(" ++ part.inline ++ ")"
  | list items => "[" ++ inlineItems items ++ "]"
  | record name fields whole =>
    name ++ " \x7b " ++ inlineFields fields ++ (if whole then " \x7d" else ", .. \x7d")

def inlineItems : List Outline → String
  | [] => ""
  | [item] => item.inline
  | item :: more => item.inline ++ ", " ++ inlineItems more

def inlineFields : List OutlineField → String
  | [] => ""
  | [⟨name, value⟩] => name ++ ": " ++ value.inline
  | ⟨name, value⟩ :: more => name ++ ": " ++ value.inline ++ ", " ++ inlineFields more

end

mutual

def spread (margin : String) : Outline → String
  | atom text => text
  | wrap name part => name ++ "(\n" ++ margin ++ "    " ++ part.spread (margin ++ "    ") ++ ",\n" ++ margin ++ ")"
  | list [] => "[]"
  | list items => "[\n" ++ spreadItems (margin ++ "    ") items ++ margin ++ "]"
  | record name fields whole =>
    name ++ " \x7b\n" ++ spreadFields (margin ++ "    ") fields ++
      (if whole then "" else margin ++ "    ..\n") ++ margin ++ "\x7d"

def spreadItems (margin : String) : List Outline → String
  | [] => ""
  | item :: more => margin ++ item.spread margin ++ ",\n" ++ spreadItems margin more

def spreadFields (margin : String) : List OutlineField → String
  | [] => ""
  | ⟨name, value⟩ :: more => margin ++ name ++ ": " ++ value.spread margin ++ ",\n" ++ spreadFields margin more

end

end Outline

end Lantern.Text
