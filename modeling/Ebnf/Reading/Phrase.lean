import Ebnf.Expr.Basic
import Ebnf.Quoted
import Ebnf.Token.Basic

/-!
Which tokens make an expression, and which expression they make: one rule for each form of an
operand, then the operands between commas and the sequences between bars, where one alone stands
for itself. The number is how many groups may stand inside each other. A square group whose body
is a curly group counts as two, and is a repetition from zero on where both pairs of brackets
touch; where they do not it is an option like any other.
-/

set_option autoImplicit false
set_option relaxedAutoImplicit false

namespace Ebnf.Reading

/-- The second token stands directly behind the first. -/
def Touches (t u : Token) : Prop :=
  u.offset = t.stop

/-- The tokens in brackets touch both of them. -/
def TouchesBoth (left right : Token) (body : List Token) : Prop :=
  (∀ t ∈ body.head?, Touches left t) ∧ ∀ t ∈ body.getLast?, Touches t right

/-- The two tokens are a pair of brackets. -/
def ArePair (bracket : Bracket) (left right : Token) : Prop :=
  left.kind = .opening bracket ∧ right.kind = .closing bracket

mutual

/-- The tokens of an operand. -/
inductive IsOperand : Nat → List Token → Expr → Prop
  | symbol {n : Nat} {t : Token} : t.kind = .name → IsOperand n [t] (.symbol t.text)
  | terminal {n : Nat} {t : Token} {content : String} :
    t.kind = .string → Quoted.Denotes t.text content → IsOperand n [t] (.terminal content)
  | range {n : Nat} {t dots u : Token} {lower upper : Char} :
    t.kind = .string → dots.kind = .ellipsis → u.kind = .string →
      Quoted.Encloses t.text [lower] → Quoted.Encloses u.text [upper] →
        IsOperand n [t, dots, u] (.range ⟨lower, upper⟩)
  | empty {n : Nat} {left right : Token} :
    ArePair .round left right → IsOperand (n + 1) [left, right] (.choice [])
  | round {n : Nat} {left right : Token} {body : List Token} {e : Expr} {es : List Expr} :
    ArePair .round left right → AreAlternatives n body e es →
      IsOperand (n + 1) (left :: body ++ [right]) (.choice (e :: es))
  | curly {n : Nat} {left right : Token} {body : List Token} {e : Expr} :
    ArePair .curly left right → IsExpr n body e →
      IsOperand (n + 1) (left :: body ++ [right]) (.plus e)
  | square {n : Nat} {left right : Token} {body : List Token} {e : Expr} :
    ArePair .square left right → IsExpr n body e →
      (∀ f, e = .plus f → ¬TouchesBoth left right body) →
        IsOperand (n + 1) (left :: body ++ [right]) (.optional e)
  | braced {n : Nat} {left right : Token} {body : List Token} {e : Expr} :
    ArePair .square left right → IsOperand n body (.plus e) → TouchesBoth left right body →
      IsOperand (n + 1) (left :: body ++ [right]) (.star e)

/-- The tokens of operands with commas between them. -/
inductive AreItems : Nat → List Token → Expr → List Expr → Prop
  | one {n : Nat} {ts : List Token} {e : Expr} : IsOperand n ts e → AreItems n ts e []
  | cons {n : Nat} {ts us : List Token} {comma : Token} {e f : Expr} {fs : List Expr} :
    IsOperand n ts e → comma.kind = .comma → AreItems n us f fs →
      AreItems n (ts ++ comma :: us) e (f :: fs)

/-- One item stands for itself, two or more are a sequence. -/
inductive IsSequence : Nat → List Token → Expr → Prop
  | item {n : Nat} {ts : List Token} {e : Expr} : AreItems n ts e [] → IsSequence n ts e
  | items {n : Nat} {ts : List Token} {first second : Expr} {rest : List Expr} :
    AreItems n ts first (second :: rest) → IsSequence n ts (.seq first second rest)

/-- The tokens of sequences with bars between them. -/
inductive AreAlternatives : Nat → List Token → Expr → List Expr → Prop
  | one {n : Nat} {ts : List Token} {e : Expr} : IsSequence n ts e → AreAlternatives n ts e []
  | cons {n : Nat} {ts us : List Token} {bar : Token} {e f : Expr} {fs : List Expr} :
    IsSequence n ts e → bar.kind = .pipe → AreAlternatives n us f fs →
      AreAlternatives n (ts ++ bar :: us) e (f :: fs)

/-- The tokens of an expression. One alternative stands for itself, two or more are a choice. -/
inductive IsExpr : Nat → List Token → Expr → Prop
  | alternative {n : Nat} {ts : List Token} {e : Expr} :
    AreAlternatives n ts e [] → IsExpr n ts e
  | alternatives {n : Nat} {ts : List Token} {first second : Expr} {rest : List Expr} :
    AreAlternatives n ts first (second :: rest) → IsExpr n ts (.choice (first :: second :: rest))

end

end Ebnf.Reading
