import Ebnf.Expr.Basic

/-!
The normal form of expressions, which has no sequence directly in a sequence and no option whose
body is a repetition, and the nesting of expressions. Both are about the written form: a
sequence in a sequence and an option of a repetition cannot be told from their normal forms when
they are written, and the nesting is how many brackets are open at once.
-/

set_option autoImplicit false
set_option relaxedAutoImplicit false

namespace Ebnf.Expr

/-- The first item of a sequence; anything else is its own only item. -/
def headItem : Expr → Expr
  | .seq first _ _ => first
  | e => e

/-- The items of a sequence behind the first. -/
def tailItems : Expr → List Expr
  | .seq _ second rest => second :: rest
  | _ => []

/-- The items of a sequence; anything else is its own only item. -/
def itemsOf (e : Expr) : List Expr :=
  e.headItem :: e.tailItems

/-- The option of an expression, which is a repetition from zero on if that is one from one on. -/
def optionOf : Expr → Expr
  | .plus e => .star e
  | e => .optional e

mutual

/-- Takes sequences that are items of sequences apart, and makes repetitions of options of
repetitions, throughout. -/
def normalize : Expr → Expr
  | .symbol name => .symbol name
  | .terminal text => .terminal text
  | .range chars => .range chars
  | .seq first second rest =>
    .inOrder first.normalize.headItem
      (first.normalize.tailItems ++ second.normalize.itemsOf ++
        (normalizeAll rest).flatMap itemsOf)
  | .choice es => .choice (normalizeAll es)
  | .optional e => optionOf e.normalize
  | .star e => .star e.normalize
  | .plus e => .plus e.normalize

def normalizeAll : List Expr → List Expr
  | [] => []
  | e :: es => e.normalize :: normalizeAll es

end

mutual

/-- How many groups stand inside each other at most. A repetition from zero on has two pairs of
brackets and counts as two groups. -/
def nesting : Expr → Nat
  | .symbol _ | .terminal _ | .range _ => 0
  | .seq first second rest => max (max first.nesting second.nesting) (nestingAll rest)
  | .choice es => nestingAll es + 1
  | .optional e | .plus e => e.nesting + 1
  | .star e => e.nesting + 2

/-- The largest nesting of a list of expressions. -/
def nestingAll : List Expr → Nat
  | [] => 0
  | e :: es => max e.nesting (nestingAll es)

end

@[simp] theorem normalizeAll_eq_map (es : List Expr) : normalizeAll es = es.map normalize := by
  induction es with
  | nil => rfl
  | cons e es ih => rw [normalizeAll, ih, List.map_cons]

end Ebnf.Expr
