import Ebnf.Expr.Basic
import Ebnf.Quoted

/-!
The written form of expressions. Only choices are put in parentheses; a sequence inside a
sequence is written without, so it reads as part of the outer one. The ends of a range are
written as they are, with no escaping.
-/

set_option autoImplicit false
set_option relaxedAutoImplicit false

namespace Ebnf

/-- Both ends in quotes of their own, three dots between them. -/
def CharRange.render (r : CharRange) : String :=
  "\"" ++ String.singleton r.first ++ "\" ... \"" ++ String.singleton r.last ++ "\""

namespace Expr

mutual

def render : Expr → String
  | .symbol name => name
  | .terminal text => Quoted.encode text
  | .range chars => chars.render
  | .seq first second rest => ", ".intercalate (first.render :: second.render :: renderAll rest)
  | .choice es => "(" ++ " | ".intercalate (renderAll es) ++ ")"
  | .optional e => "[" ++ e.render ++ "]"
  | .star e => "[\x7b" ++ e.render ++ "\x7d]"
  | .plus e => "\x7b" ++ e.render ++ "\x7d"

def renderAll : List Expr → List String
  | [] => []
  | e :: es => e.render :: renderAll es

end

@[simp] theorem renderAll_eq_map (es : List Expr) : renderAll es = es.map render := by
  induction es with
  | nil => rfl
  | cons e es ih => rw [renderAll, ih, List.map_cons]

end Expr

end Ebnf
