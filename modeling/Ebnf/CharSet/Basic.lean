import Ebnf.CharRange
import Ebnf.Unicode.Alphabetic
import Ebnf.Unicode.IdentifierContinue
import Ebnf.Unicode.IdentifierStart
import Ebnf.Unicode.Numeric
import Ebnf.Unicode.WhiteSpace

/-!
Sets of characters with a membership test, and the planes of code points in which a set may
have members. For sets that are given by listing their characters the answer about a plane is
exact; a set that is given by a property may have members anywhere.
-/

set_option autoImplicit false
set_option relaxedAutoImplicit false

namespace Ebnf

inductive CharSet where
  | horizontalSpace
  | lineBreaks
  | whiteSpace
  | asciiDigits
  | numeric
  | letters
  | alphanumeric
  | identifierStart
  | identifierContinue
  | single (c : Char)
  | ranges (rs : List CharRange)
  | custom (holds : Char → Bool)
  | union (parts : List CharSet)

namespace CharSet

/-- How many code points a plane has. -/
def planeSize : Nat := 0x10000

/-- How many planes the code points fill. -/
def planeCount : Nat := 17

/-- The plane in which a character lies. -/
def planeOf (c : Char) : Nat :=
  c.toNat / planeSize

def isAsciiDigit (c : Char) : Bool :=
  '0' ≤ c && c ≤ '9'

mutual

def contains : CharSet → Char → Bool
  | .horizontalSpace, c => Unicode.isHorizontalSpace c
  | .lineBreaks, c => Unicode.isLineBreak c
  | .whiteSpace, c => Unicode.isWhiteSpace c
  | .asciiDigits, c => isAsciiDigit c
  | .numeric, c => Unicode.isNumeric c
  | .letters, c => Unicode.isAlphabetic c
  | .alphanumeric, c => Unicode.isAlphabetic c || Unicode.isNumeric c
  | .identifierStart, c => Unicode.isIdentifierStart c
  | .identifierContinue, c => Unicode.isIdentifierContinue c
  | .single m, c => m == c
  | .ranges rs, c => rs.any fun r ↦ r.contains c
  | .custom holds, c => holds c
  | .union parts, c => anyContains parts c

/-- Whether some set of the list contains the character. -/
def anyContains : List CharSet → Char → Bool
  | [], _ => false
  | s :: ss, c => s.contains c || anyContains ss c

end

/-- Whether a range, if it is not inverted, reaches into a plane. -/
def rangeMeets (plane : Nat) (r : CharRange) : Bool :=
  !r.isInverted && planeOf r.first ≤ plane && plane ≤ planeOf r.last

mutual

/-- Whether the set may have members in one of the planes that there are. -/
def mayMeet (plane : Nat) : CharSet → Bool
  | .horizontalSpace | .lineBreaks | .whiteSpace | .asciiDigits => plane == 0
  | .single c => planeOf c == plane
  | .ranges rs => rs.any (rangeMeets plane)
  | .union parts => anyMayMeet plane parts
  | .numeric | .letters | .alphanumeric | .identifierStart | .identifierContinue
  | .custom _ => true

/-- Whether some set of the list may have members in the plane. -/
def anyMayMeet (plane : Nat) : List CharSet → Bool
  | [] => false
  | s :: ss => mayMeet plane s || anyMayMeet plane ss

end

/-- Whether the set may have members in a plane; there are none behind the last plane. -/
def mayMeetPlane (s : CharSet) (plane : Nat) : Bool :=
  plane < planeCount && s.mayMeet plane

@[simp] theorem anyContains_eq_any (ss : List CharSet) (c : Char) :
    anyContains ss c = ss.any fun s ↦ s.contains c := by
  induction ss with
  | nil => rfl
  | cons s ss ih => rw [anyContains, ih, List.any_cons]

@[simp] theorem anyMayMeet_eq_any (plane : Nat) (ss : List CharSet) :
    anyMayMeet plane ss = ss.any (mayMeet plane) := by
  induction ss with
  | nil => rfl
  | cons s ss ih => rw [anyMayMeet, ih, List.any_cons]

end CharSet

end Ebnf
