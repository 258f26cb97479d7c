import Ebnf.Expr.Render

/-!
One grammar rule: a name and the expression it stands for.
-/

set_option autoImplicit false
set_option relaxedAutoImplicit false

namespace Ebnf

structure Rule where
  name : String
  body : Expr
deriving DecidableEq, Inhabited

namespace Rule

def render (rule : Rule) : String :=
  rule.name ++ " = " ++ rule.body.render ++ ";"

end Rule

end Ebnf
