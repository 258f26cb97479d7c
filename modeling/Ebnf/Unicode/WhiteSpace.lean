/-!
White space, split into the characters that stay on a line and those that end one. The two
together are exactly the characters with the White_Space property, and none is in both.
-/

set_option autoImplicit false
set_option relaxedAutoImplicit false

namespace Ebnf.Unicode

/-- The tabulation and the space separators. -/
def isHorizontalSpace (c : Char) : Bool :=
  let n := c.toNat
  n == 0x9 || n == 0x20 || n == 0xA0 || n == 0x1680 || (0x2000 ≤ n && n ≤ 0x200A) ||
    n == 0x202F || n == 0x205F || n == 0x3000

/-- The characters that end a line or a page, and the line and paragraph separators. -/
def isLineBreak (c : Char) : Bool :=
  let n := c.toNat
  (0xA ≤ n && n ≤ 0xD) || n == 0x85 || n == 0x2028 || n == 0x2029

/-- The White_Space property. -/
def isWhiteSpace (c : Char) : Bool :=
  isHorizontalSpace c || isLineBreak c

end Ebnf.Unicode
