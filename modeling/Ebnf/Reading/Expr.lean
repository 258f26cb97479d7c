import Ebnf.Failure
import Ebnf.Reading.State
import Ebnf.Token.Scan

/-!
Reading a text that is one expression. The first fault ends the reading.
-/

set_option autoImplicit false
set_option relaxedAutoImplicit false

namespace Ebnf

namespace Reading

/-- The expression that the tokens are. -/
def expr (tokens : List Token) : Except Problem Expr := do
  let s ← State.run {} tokens
  s.finish none

end Reading

/-- Reads an expression that is all there is in the text. -/
def Expr.read (text : String) : Except Failure Expr :=
  match Reading.expr (Token.significant text) with
  | .ok e => .ok e
  | .error problem => .error (.malformed [problem.diagnostic text.utf8ByteSize])

end Ebnf
