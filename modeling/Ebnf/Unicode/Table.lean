/-!
Sets of code points held as ascending closed ranges, and membership by halving.
-/

set_option autoImplicit false
set_option relaxedAutoImplicit false

namespace Ebnf.Unicode

/-- Closed ranges of code points, each one above the range before it. -/
abbrev Table := Array (Nat × Nat)

namespace Table

/-- Whether one of the ranges from position `low` up to but not including `high` holds `n`. -/
def holdsBetween (table : Table) (n low high : Nat) : Bool :=
  if low < high then
    let middle := (low + high) / 2
    match table[middle]? with
    | none => false
    | some (first, last) =>
      if n < first then holdsBetween table n low middle
      else if last < n then holdsBetween table n (middle + 1) high
      else true
  else false
termination_by high - low
decreasing_by all_goals omega

/-- Whether some range of the table holds `n`. -/
def holds (table : Table) (n : Nat) : Bool :=
  table.holdsBetween n 0 table.size

end Table

end Ebnf.Unicode
