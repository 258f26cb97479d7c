/-!
Tokens of grammar text: a kind, the text the token covers, and the byte at which it starts.
-/

set_option autoImplicit false
set_option relaxedAutoImplicit false

namespace Ebnf

inductive Bracket where
  | round
  | square
  | curly
deriving DecidableEq, Inhabited, Repr

namespace Bracket

def opener : Bracket → Char
  | .round => '('
  | .square => '['
  | .curly => '{'

def closer : Bracket → Char
  | .round => ')'
  | .square => ']'
  | .curly => '}'

end Bracket

/-- The kinds of tokens. `invalid` is for a character that begins no token; every character
begins one, so scanning never yields it. -/
inductive Token.Kind where
  | whitespace
  | name
  | string
  | unterminatedString
  | equals
  | semicolon
  | pipe
  | comma
  | ellipsis
  | opening (bracket : Bracket)
  | closing (bracket : Bracket)
  | invalid
deriving DecidableEq, Inhabited, Repr

namespace Token.Kind

/-- Whether reading passes over the token. -/
def isTrivia : Kind → Bool
  | .whitespace => true
  | _ => false

/-- Whether an operand may begin with the token, be it a malformed one. -/
def startsOperand : Kind → Bool
  | .name | .string | .unterminatedString | .opening _ | .invalid => true
  | _ => false

/-- The kind as messages call it. -/
def describe : Kind → String
  | .whitespace => "whitespace"
  | .name => "symbol name"
  | .string | .unterminatedString => "string"
  | .equals => "'='"
  | .semicolon => "';'"
  | .pipe => "'|'"
  | .comma => "','"
  | .ellipsis => "'...'"
  | .opening .round => "'('"
  | .opening .square => "'['"
  | .opening .curly => "'\x7b'"
  | .closing .round => "')'"
  | .closing .square => "']'"
  | .closing .curly => "'\x7d'"
  | .invalid => "invalid character"

/-- The tokens that are one fixed character. -/
def ofPunctuation? (c : Char) : Option Kind :=
  match c with
  | '=' => some .equals
  | ';' => some .semicolon
  | '|' => some .pipe
  | ',' => some .comma
  | '(' => some (.opening .round)
  | ')' => some (.closing .round)
  | '[' => some (.opening .square)
  | ']' => some (.closing .square)
  | '{' => some (.opening .curly)
  | '}' => some (.closing .curly)
  | _ => none

end Token.Kind

structure Token where
  kind : Token.Kind
  text : String
  offset : Nat
deriving DecidableEq, Inhabited, Repr

namespace Token

/-- The byte after the token. -/
def stop (token : Token) : Nat :=
  token.offset + token.text.utf8ByteSize

def isTrivia (token : Token) : Bool :=
  token.kind.isTrivia

theorem isTrivia_eq_true_iff {t : Token} : t.isTrivia = true ↔ t.kind = .whitespace := by
  unfold isTrivia
  cases t.kind <;> simp [Kind.isTrivia]

end Token

end Ebnf
