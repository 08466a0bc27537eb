/-
  Lantern.Parse.Parsed — running the productions, and what a whole parse comes to.

  A parse always comes to a program and a list of errors. Where there are errors the
  program holds the statements that were well formed. The bound on the recursion is
  computed here, from the number of tokens ahead, and shows nowhere else.
-/

import Lantern.Parse.Grammar
import Lantern.Token.Scan

namespace Lantern

structure Parsed where
  program : Program
  errors : List ParseError
  deriving Inhabited

namespace Parsed

def hasErrors (parsed : Parsed) : Bool := !parsed.errors.isEmpty

def messages (parsed : Parsed) : List String := parsed.errors.map (·.text)

def diagnostics (parsed : Parsed) : List Diagnostic := parsed.errors.map (·.toDiagnostic)

end Parsed

namespace Parser

/-- A bound on the recursion that the tokens ahead cannot use up. -/
def bound (parser : Parser) : Nat := 8 * (parser.cursor.ahead.length + 1)

def run {α : Type} (parser : Parser) (production : Nat → Production α) : Option α × Parser :=
  match production parser.bound parser with
  | .built node behind => (some node, behind)
  | .gaveUp behind => (none, behind)
  | .exhausted => (none, parser)

def expression (parser : Parser) (min : Precedence) : Option Expr × Parser :=
  parser.run fun bound => Grammar.expression bound min

def statement (parser : Parser) : Option Stmt × Parser := parser.run Grammar.statement

def block (parser : Parser) (close : List Kind) : Option Block × Parser :=
  parser.run fun bound => Grammar.block bound close

def program (parser : Parser) : Parsed :=
  let (statements, behind) := parser.run fun bound => Grammar.statements bound []
  ⟨⟨statements.getD []⟩, behind.errors.toList⟩

end Parser

def parse (stream : Stream) : Parsed := (Parser.ofStream stream).program

def parseSource (source : String) : Parsed := parse (scan source)

end Lantern
