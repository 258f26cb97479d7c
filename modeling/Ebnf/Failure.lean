import Ebnf.Diagnostic

/-!
What can go wrong in reading grammar text, in compiling a grammar for an engine and in parsing
with it. Building, merging and writing grammars cannot fail.
-/

set_option autoImplicit false
set_option relaxedAutoImplicit false

namespace Ebnf

inductive Failure where
  /-- The grammar text has faults. -/
  | malformed (diagnostics : List Diagnostic)
  /-- The start symbol has no rule. -/
  | unknownStart (name : String)
  /-- The input cannot be derived; the longest part of it from its beginning that can be ends at
  byte `offset`. -/
  | rejected (offset : Nat)
  /-- Whatever else an engine reports. -/
  | engine (text : String)
deriving DecidableEq, Inhabited, Repr

namespace Failure

def diagnostics : Failure → List Diagnostic
  | .malformed ds => ds
  | _ => []

/-- The first of the diagnostics, and how many there are beside it. -/
def summary : List Diagnostic → String
  | [] => "no details"
  | [d] => d.text
  | d :: ds => d.text ++ " (and " ++ toString ds.length ++ " more)"

def message : Failure → String
  | .malformed ds => "malformed grammar text: " ++ summary ds
  | .unknownStart name => "unknown start symbol: " ++ name
  | .rejected offset => "input rejected at byte " ++ toString offset
  | .engine text => "engine error: " ++ text

end Failure

end Ebnf
