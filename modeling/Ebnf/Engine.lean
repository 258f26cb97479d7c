import Ebnf.Failure
import Ebnf.Grammar.Render
import Ebnf.ParseTree

/-!
Engines take a grammar as text together with the name of its start symbol, and then parse
inputs. A grammar is handed to an engine in its canonical text.
-/

set_option autoImplicit false
set_option relaxedAutoImplicit false

namespace Ebnf

structure Engine where
  /-- What the engine makes of a grammar. -/
  Compiled : Type
  compile : (text start : String) → Except Failure Compiled
  parse : Compiled → (input : String) → Except Failure ParseTree

/-- Compiles the canonical text of a grammar. -/
def Grammar.compileWith (g : Grammar) (engine : Engine) (start : String) :
    Except Failure engine.Compiled :=
  engine.compile g.render start

end Ebnf
