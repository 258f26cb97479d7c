import Ebnf.Grammar.Basic

/-!
What expressions mean: the strings that they derive when symbols are replaced as a set of
definitions says. The definitions may give a name several bodies, or none, so they can be a
grammar as well as rules that have not been merged. A derivation has a number of levels, an
expression standing one level above its parts; the items of a repetition may be empty.
-/

set_option autoImplicit false
set_option relaxedAutoImplicit false

namespace Ebnf

/-- Which expressions a name may be replaced by. -/
abbrev Definitions := String → Expr → Prop

namespace Definitions

/-- A name may be replaced by the body of each of its rules. -/
def ofRules (rules : List Rule) : Definitions :=
  fun name body ↦ ⟨name, body⟩ ∈ rules

instance (rules : List Rule) (name : String) (body : Expr) :
    Decidable (ofRules rules name body) :=
  inferInstanceAs (Decidable (_ ∈ rules))

end Definitions

mutual

/-- The strings that an expression derives on so many levels. -/
inductive DerivesWithin (defs : Definitions) : Nat → Expr → List Char → Prop
  | symbol {n : Nat} {name : String} {body : Expr} {cs : List Char} :
    defs name body → DerivesWithin defs n body cs → DerivesWithin defs (n + 1) (.symbol name) cs
  | terminal {n : Nat} {text : String} : DerivesWithin defs (n + 1) (.terminal text) text.toList
  | range {n : Nat} {chars : CharRange} {c : Char} :
    chars.contains c = true → DerivesWithin defs (n + 1) (.range chars) [c]
  | seq {n : Nat} {first second : Expr} {rest : List Expr} {cs : List Char} :
    DeriveWithin defs n (first :: second :: rest) cs →
      DerivesWithin defs (n + 1) (.seq first second rest) cs
  | choice {n : Nat} {es : List Expr} {e : Expr} {cs : List Char} :
    e ∈ es → DerivesWithin defs n e cs → DerivesWithin defs (n + 1) (.choice es) cs
  | omitted {n : Nat} {body : Expr} : DerivesWithin defs (n + 1) (.optional body) []
  | optional {n : Nat} {body : Expr} {cs : List Char} :
    DerivesWithin defs n body cs → DerivesWithin defs (n + 1) (.optional body) cs
  | star {n : Nat} (times : Nat) {body : Expr} {cs : List Char} :
    DeriveWithin defs n (List.replicate times body) cs →
      DerivesWithin defs (n + 1) (.star body) cs
  | plus {n : Nat} (times : Nat) {body : Expr} {cs : List Char} :
    DeriveWithin defs n (List.replicate (times + 1) body) cs →
      DerivesWithin defs (n + 1) (.plus body) cs

/-- The strings that several expressions derive one behind the other, each on so many levels. -/
inductive DeriveWithin (defs : Definitions) : Nat → List Expr → List Char → Prop
  | nil {n : Nat} : DeriveWithin defs n [] []
  | cons {n : Nat} {e : Expr} {es : List Expr} {cs ds : List Char} :
    DerivesWithin defs n e cs → DeriveWithin defs n es ds →
      DeriveWithin defs n (e :: es) (cs ++ ds)

end

/-- The strings that an expression derives on any number of levels. -/
def Derives (defs : Definitions) (e : Expr) (cs : List Char) : Prop :=
  ∃ levels, DerivesWithin defs levels e cs

namespace Grammar

/-- Each name may be replaced by the body of its rule. -/
def definitions (g : Grammar) : Definitions :=
  .ofRules g.rules

end Grammar

end Ebnf
