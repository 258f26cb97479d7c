import Ebnf.Grammar.Basic

/-!
The written form of grammars: one line a rule, in grammar order. Lines are separated, and a
last separator ends the text only where the layout asks for it and there is a line to end.
-/

set_option autoImplicit false
set_option relaxedAutoImplicit false

namespace Ebnf

inductive LineEnding where
  | lf
  | crlf
deriving DecidableEq, Inhabited, Repr

namespace LineEnding

def text : LineEnding → String
  | .lf => "\n"
  | .crlf => "\r\n"

end LineEnding

/-- How the lines of a grammar are set. The defaults are those of the canonical text. -/
structure Layout where
  lineEnding : LineEnding := .lf
  trailingNewline : Bool := false
deriving DecidableEq, Inhabited, Repr

namespace Grammar

def renderWith (layout : Layout) (g : Grammar) : String :=
  let separator := layout.lineEnding.text
  let lines := separator.intercalate (g.rules.map Rule.render)
  if layout.trailingNewline && !g.isEmpty then lines ++ separator else lines

/-- The canonical text. -/
def render (g : Grammar) : String :=
  g.renderWith {}

end Grammar

end Ebnf
