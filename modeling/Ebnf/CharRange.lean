/-!
Closed ranges of characters, in code point order. A range whose ends are given the wrong way
round is a value like any other and has no members.
-/

set_option autoImplicit false
set_option relaxedAutoImplicit false

namespace Ebnf

structure CharRange where
  first : Char
  last : Char
deriving DecidableEq, Repr

namespace CharRange

def contains (r : CharRange) (c : Char) : Bool :=
  r.first ≤ c && c ≤ r.last

def isInverted (r : CharRange) : Bool :=
  r.last < r.first

theorem contains_iff (r : CharRange) (c : Char) :
    r.contains c = true ↔ r.first ≤ c ∧ c ≤ r.last := by
  simp [contains]

theorem contains_eq_false_of_isInverted (r : CharRange) (c : Char) (h : r.isInverted = true) :
    r.contains c = false := by
  simp only [isInverted, decide_eq_true_eq] at h
  simp only [contains, Bool.and_eq_false_iff, decide_eq_false_iff_not, Char.not_le]
  by_cases hc : c < r.first
  · exact Or.inl hc
  · exact Or.inr (Std.lt_of_lt_of_le h (Char.not_lt.mp hc))

end CharRange

end Ebnf
