/-
  Lantern.Token.Kind — the kinds of token, and the three ways to spell one.

  A kind carries no text of its own: the lexeme stays in the token. `spelling` is the
  form a message uses, `name` the form a dump of the token stream uses, and `keyword?`
  reads a word of letters back as the kind it is reserved for. `and`, `or` and `not` are
  reserved too: they are second spellings of `&&`, `||` and `!`, so `keyword?` is not
  one to one.
-/

namespace Lantern

inductive Kind where
  /-- The end of the input; it repeats for ever once reached. -/
  | eof
  /-- Text that starts no token. -/
  | illegal
  | ident
  | int
  | str
  | trueWord
  | falseWord
  | ifWord
  | elseWord
  | elifWord
  | thenWord
  | endWord
  | whileWord
  | fnWord
  | returnWord
  | testWord
  | classWord
  | assign
  | plus
  | minus
  | star
  | slash
  | percent
  | bang
  | eqEq
  | notEq
  | lt
  | gt
  | ltEq
  | gtEq
  | andAnd
  | orOr
  | amp
  | pipe
  | dot
  | comma
  | lparen
  | rparen
  | lbracket
  | rbracket
  deriving DecidableEq, Repr, Inhabited

namespace Kind

/-- The canonical spelling. Kinds whose text varies are named in capitals. -/
def spelling : Kind → String
  | eof => "EOF"
  | illegal => "ILLEGAL"
  | ident => "IDENT"
  | int => "INT"
  | str => "STRING"
  | trueWord => "true"
  | falseWord => "false"
  | ifWord => "if"
  | elseWord => "else"
  | elifWord => "elif"
  | thenWord => "then"
  | endWord => "end"
  | whileWord => "while"
  | fnWord => "fn"
  | returnWord => "return"
  | testWord => "test"
  | classWord => "class"
  | assign => "="
  | plus => "+"
  | minus => "-"
  | star => "*"
  | slash => "/"
  | percent => "%"
  | bang => "!"
  | eqEq => "=="
  | notEq => "!="
  | lt => "<"
  | gt => ">"
  | ltEq => "<="
  | gtEq => ">="
  | andAnd => "&&"
  | orOr => "||"
  | amp => "&"
  | pipe => "|"
  | dot => "."
  | comma => ","
  | lparen => "("
  | rparen => ")"
  | lbracket => "["
  | rbracket => "]"

def name : Kind → String
  | eof => "Eof"
  | illegal => "Illegal"
  | ident => "Ident"
  | int => "Int"
  | str => "Str"
  | trueWord => "True"
  | falseWord => "False"
  | ifWord => "If"
  | elseWord => "Else"
  | elifWord => "Elif"
  | thenWord => "Then"
  | endWord => "End"
  | whileWord => "While"
  | fnWord => "Fn"
  | returnWord => "Return"
  | testWord => "Test"
  | classWord => "Class"
  | assign => "Assign"
  | plus => "Plus"
  | minus => "Minus"
  | star => "Star"
  | slash => "Slash"
  | percent => "Percent"
  | bang => "Bang"
  | eqEq => "EqEq"
  | notEq => "NotEq"
  | lt => "Lt"
  | gt => "Gt"
  | ltEq => "LtEq"
  | gtEq => "GtEq"
  | andAnd => "AndAnd"
  | orOr => "OrOr"
  | amp => "Amp"
  | pipe => "Pipe"
  | dot => "Dot"
  | comma => "Comma"
  | lparen => "LParen"
  | rparen => "RParen"
  | lbracket => "LBracket"
  | rbracket => "RBracket"

def all : List Kind :=
  [eof, illegal, ident, int, str, trueWord, falseWord, ifWord, elseWord, elifWord, thenWord, endWord,
   whileWord, fnWord, returnWord, testWord, classWord, assign, plus, minus, star, slash, percent, bang,
   eqEq, notEq, lt, gt, ltEq, gtEq, andAnd, orOr, amp, pipe, dot, comma, lparen, rparen, lbracket, rbracket]

def ofName? (name : String) : Option Kind := all.find? (·.name == name)

theorem mem_all (kind : Kind) : kind ∈ all := by
  cases kind <;> decide

def keyword? (word : String) : Option Kind :=
  if word = "if" then some ifWord
  else if word = "else" then some elseWord
  else if word = "elif" then some elifWord
  else if word = "then" then some thenWord
  else if word = "end" then some endWord
  else if word = "while" then some whileWord
  else if word = "fn" then some fnWord
  else if word = "return" then some returnWord
  else if word = "test" then some testWord
  else if word = "class" then some classWord
  else if word = "true" then some trueWord
  else if word = "false" then some falseWord
  else if word = "and" then some andAnd
  else if word = "or" then some orOr
  else if word = "not" then some bang
  else none

def closesBlock : Kind → Bool
  | endWord | elseWord | elifWord => true
  | _ => false

end Kind

end Lantern
