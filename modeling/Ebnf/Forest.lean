import Ebnf.Language
import Ebnf.ParseTree

/-!
The lists of trees that expressions stand for: a symbol is a node of its name above the trees of
one of its bodies, a terminal and a range are a leaf, and the empty terminal leaves no trace.
-/

set_option autoImplicit false
set_option relaxedAutoImplicit false

namespace Ebnf

mutual

/-- The forests of an expression. -/
inductive HasForest (defs : Definitions) : Expr → List ParseTree → Prop
  | symbol {name : String} {body : Expr} {ts : List ParseTree} :
    defs name body → HasForest defs body ts → HasForest defs (.symbol name) [.node name ts]
  | terminal {text : String} : text ≠ "" → HasForest defs (.terminal text) [.leaf text]
  | epsilon : HasForest defs (.terminal "") []
  | range {chars : CharRange} {c : Char} :
    chars.contains c = true → HasForest defs (.range chars) [.leaf (String.singleton c)]
  | seq {first second : Expr} {rest : List Expr} {ts : List ParseTree} :
    HaveForest defs (first :: second :: rest) ts → HasForest defs (.seq first second rest) ts
  | choice {es : List Expr} {e : Expr} {ts : List ParseTree} :
    e ∈ es → HasForest defs e ts → HasForest defs (.choice es) ts
  | omitted {body : Expr} : HasForest defs (.optional body) []
  | optional {body : Expr} {ts : List ParseTree} :
    HasForest defs body ts → HasForest defs (.optional body) ts
  | star (times : Nat) {body : Expr} {ts : List ParseTree} :
    HaveForest defs (List.replicate times body) ts → HasForest defs (.star body) ts
  | plus (times : Nat) {body : Expr} {ts : List ParseTree} :
    HaveForest defs (List.replicate (times + 1) body) ts → HasForest defs (.plus body) ts

/-- The forests of several expressions, one behind the other. -/
inductive HaveForest (defs : Definitions) : List Expr → List ParseTree → Prop
  | nil : HaveForest defs [] []
  | cons {e : Expr} {es : List Expr} {ts us : List ParseTree} :
    HasForest defs e ts → HaveForest defs es us → HaveForest defs (e :: es) (ts ++ us)

end

end Ebnf
