/-
  Lantern.Eval.Builtin — the builtin functions, and where `print` writes.

  A builtin reads its arguments and nothing else; only `print` writes, to the console. A
  silent console forgets what it is given.
-/

import Lantern.Eval.Error

namespace Lantern

structure Console where
  silent : Bool
  text : String
  deriving DecidableEq, Repr, Inhabited

namespace Console

def recording : Console := ⟨false, ""⟩

def println (console : Console) (line : String) : Console :=
  if console.silent then console else { console with text := console.text ++ line ++ "\n" }

def take (console : Console) : String × Console := (console.text, { console with text := "" })

end Console

namespace Builtin

/-- The value of a call, for every builtin that prints nothing; `print` answers `null`. -/
def value (primitive : Builtin) (arguments : List Value) : Except EvalError Value :=
  match primitive, arguments with
  | print, _ => .ok .null
  | len, [.string text] => .ok (.ofCount text.length)
  | len, [.array items] => .ok (.ofCount items.length)
  | len, [other] => .error (.badArgument len "a String or Array" other)
  | typeOf, [value] => .ok (.string value.typeName)
  | str, [value] => .ok (.string value.display)
  | assert, [condition] => if condition.isTruthy then .ok .null else .error (.assertionFailed none)
  | assert, [condition, message] =>
    if condition.isTruthy then .ok .null else .error (.assertionFailed (some message.display))
  | assert, _ => .error (.argumentRange 1 2 arguments.length)
  | push, [.array items, value] => .ok (.array (items ++ [value]))
  | push, [other, _] => .error (.badArgument push "an Array" other)
  | push, _ => .error (.argumentCount 2 arguments.length)
  | _, _ => .error (.argumentCount 1 arguments.length)

def lines (primitive : Builtin) (arguments : List Value) : List String :=
  match primitive with
  | print => arguments.map Value.display
  | _ => []

def call (primitive : Builtin) (arguments : List Value) (console : Console) :
    Except EvalError Value × Console :=
  (primitive.value arguments, (primitive.lines arguments).foldl Console.println console)

end Builtin

end Lantern
