import Ebnf.Grammar.Basic
import Ebnf.Token.Scan

/-!
Names and range ends that keep their meaning when they are written, which is verbatim.
-/

set_option autoImplicit false
set_option relaxedAutoImplicit false

namespace Ebnf

/-- Whether a text reads as one name: it has a character, none that names cannot have, and is
not the three dots. -/
def isReadableName (name : String) : Bool :=
  !name.isEmpty && name.toList.all Token.isNameChar && name != "..."

/-- Whether both ends can stand between quotes without escaping. -/
def CharRange.isReadable (r : CharRange) : Bool :=
  r.first != '"' && r.first != '\\' && r.last != '"' && r.last != '\\'

namespace Expr

mutual

/-- Whether all symbol names in the expression can be read. -/
def hasReadableNames : Expr → Bool
  | .symbol name => isReadableName name
  | .terminal _ | .range _ => true
  | .seq first second rest =>
    first.hasReadableNames && second.hasReadableNames && haveReadableNames rest
  | .choice es => haveReadableNames es
  | .optional e | .star e | .plus e => e.hasReadableNames

def haveReadableNames : List Expr → Bool
  | [] => true
  | e :: es => e.hasReadableNames && haveReadableNames es

end

mutual

/-- Whether all range ends in the expression can be read. -/
def hasReadableRanges : Expr → Bool
  | .symbol _ | .terminal _ => true
  | .range chars => chars.isReadable
  | .seq first second rest =>
    first.hasReadableRanges && second.hasReadableRanges && haveReadableRanges rest
  | .choice es => haveReadableRanges es
  | .optional e | .star e | .plus e => e.hasReadableRanges

def haveReadableRanges : List Expr → Bool
  | [] => true
  | e :: es => e.hasReadableRanges && haveReadableRanges es

end

@[simp] theorem haveReadableNames_eq_all (es : List Expr) :
    haveReadableNames es = es.all hasReadableNames := by
  induction es with
  | nil => rfl
  | cons e es ih => rw [haveReadableNames, ih, List.all_cons]

@[simp] theorem haveReadableRanges_eq_all (es : List Expr) :
    haveReadableRanges es = es.all hasReadableRanges := by
  induction es with
  | nil => rfl
  | cons e es ih => rw [haveReadableRanges, ih, List.all_cons]

end Expr

namespace Grammar

/-- Whether all names of the grammar, defined or used, can be read. -/
def hasReadableNames (g : Grammar) : Bool :=
  g.rules.all fun rule ↦ isReadableName rule.name && rule.body.hasReadableNames

/-- Whether all range ends of the grammar can be read. -/
def hasReadableRanges (g : Grammar) : Bool :=
  g.rules.all fun rule ↦ rule.body.hasReadableRanges

end Grammar

end Ebnf
