import Ebnf.CharSet.Basic
import Ebnf.Expr.Basic

/-!
Listing the members of a character set in code point order. Planes in which the set has no
members are passed over; surrogates are no characters and belong to no set.
-/

set_option autoImplicit false
set_option relaxedAutoImplicit false

namespace Ebnf.CharSet

/-- The character with the given code point. -/
def charAt? (n : Nat) : Option Char :=
  if h : n.isValidChar then some (Char.ofNatAux n h) else none

/-- The characters of a plane, in order. -/
def planeChars (plane : Nat) : List Char :=
  (List.range planeSize).filterMap fun i ↦ charAt? (plane * planeSize + i)

/-- The members of the set in a plane, in order. -/
def planeMembers (s : CharSet) (plane : Nat) : List Char :=
  (planeChars plane).filter s.contains

/-- The members of the set, in order. -/
def members (s : CharSet) : List Char :=
  ((List.range planeCount).filter s.mayMeetPlane).flatMap s.planeMembers

/-- The choice between the members as terminals, in order. -/
def toExpr (s : CharSet) : Expr :=
  .choice (s.members.map .char)

/-- Puts a character in front of ranges that begin behind it. -/
def addToRuns (c : Char) : List CharRange → List CharRange
  | [] => [⟨c, c⟩]
  | r :: rs =>
    if c.toNat + 1 = r.first.toNat then ⟨c, r.last⟩ :: rs else ⟨c, c⟩ :: r :: rs

/-- Ascending characters as ranges, each as long as it can be. -/
def runs (cs : List Char) : List CharRange :=
  cs.foldr addToRuns []

end Ebnf.CharSet
