import Ebnf.Diagnostic
import Ebnf.Quoted
import Ebnf.Token.Basic

/-!
What can be wrong with grammar text, each fault with the token at which it shows, or with no
token where it shows at the end of the text; and the diagnostic for each.
-/

set_option autoImplicit false
set_option relaxedAutoImplicit false

namespace Ebnf.Reading

/-- How many groups may stand inside each other. -/
def maxNesting : Nat := 128

inductive Problem where
  /-- An operand is due. -/
  | noOperand (found : Option Token)
  /-- A string without its last quote. -/
  | unterminated (string : Token)
  | invalidCharacter (character : Token)
  /-- A closing bracket where an operand is due. -/
  | strayCloser (closer : Token)
  /-- The opening bracket of one group too many inside each other. -/
  | tooDeep (opener : Token)
  /-- A group that opened at byte `offset` is due to go on or to be closed. -/
  | unclosed (bracket : Bracket) (offset : Nat) (found : Option Token)
  /-- The second end of a range is due. -/
  | noBoundary (found : Option Token)
  /-- The end of a range that is no single character. -/
  | badBoundary (string : Token)
  /-- Something behind an expression that is to be all there is. -/
  | leftover (found : Token)
  | noName (found : Option Token)
  | noEquals (found : Option Token)
  | noSemicolon (name : String) (found : Option Token)
deriving DecidableEq, Repr

namespace Problem

/-- What stands there, as messages call it. -/
def describe : Option Token → String
  | some token => token.kind.describe
  | none => "end of input"

/-- Where it stands in a text of `size` bytes. -/
def locate (size : Nat) : Option Token → Span
  | some token => ⟨token.offset, token.stop⟩
  | none => .empty size

def expected (what : String) (found : Option Token) : String :=
  "expected " ++ what ++ ", found " ++ describe found

/-- The code for a group of this bracket that is not closed. -/
def unclosedCode : Bracket → Diagnostic.Code
  | .round => .unclosedRound
  | .square => .unclosedSquare
  | .curly => .unclosedCurly

def code : Problem → Diagnostic.Code
  | .noOperand _ | .leftover _ => .missingOperand
  | .unterminated _ => .unterminatedString
  | .invalidCharacter _ => .invalidCharacter
  | .strayCloser _ => .strayCloser
  | .tooDeep _ => .tooDeep
  | .unclosed bracket _ _ => unclosedCode bracket
  | .noBoundary _ | .badBoundary _ => .badBoundary
  | .noName _ => .missingName
  | .noEquals _ => .missingEquals
  | .noSemicolon _ _ => .missingSemicolon

def message : Problem → String
  | .noOperand found => expected "operand" found
  | .unterminated _ => Diagnostic.Code.unterminatedString.defaultMessage
  | .invalidCharacter character => "invalid character '" ++ character.text ++ "'"
  | .strayCloser closer => "unexpected closing " ++ closer.kind.describe
  | .tooDeep opener =>
    opener.kind.describe ++ " nested more than " ++ toString maxNesting ++ " levels deep"
  | .unclosed bracket _ found => expected (Token.Kind.closing bracket).describe found
  | .noBoundary found => expected Token.Kind.string.describe found
  | .badBoundary string =>
    "range boundary " ++ string.text ++ " is " ++ toString (Quoted.body string.text).length ++
      " characters"
  | .leftover found => expected "end of expression" (some found)
  | .noName found => expected Token.Kind.name.describe found
  | .noEquals found => expected Token.Kind.equals.describe found
  | .noSemicolon _ found => expected Token.Kind.semicolon.describe found

def hint : Problem → Option String
  | .unclosed bracket offset _ =>
    some ((Token.Kind.opening bracket).describe ++ " opened at byte " ++ toString offset)
  | .badBoundary _ => some "use a terminal or an alternation for multi-character literals"
  | .noSemicolon name _ => some ("end the production for '" ++ name ++ "' with ';'")
  | _ => none

/-- The token at which the fault shows, if it is not at the end of the text. -/
def token? : Problem → Option Token
  | .noOperand found | .unclosed _ _ found | .noBoundary found | .noName found
  | .noEquals found | .noSemicolon _ found => found
  | .unterminated token | .invalidCharacter token | .strayCloser token | .tooDeep token
  | .badBoundary token | .leftover token => some token

/-- The diagnostic for the fault in a text of `size` bytes. -/
def diagnostic (size : Nat) (problem : Problem) : Diagnostic where
  code := problem.code
  message := problem.message
  span := locate size problem.token?
  hint := problem.hint

/-- A fault in an expression as a fault of the rule around it: what is left over behind the
expression stands where the rule should have ended. -/
def inRule (name : String) : Problem → Problem
  | .leftover found => .noSemicolon name (some found)
  | problem => problem

end Problem

end Ebnf.Reading
