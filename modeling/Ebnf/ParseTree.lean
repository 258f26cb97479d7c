/-!
Parse trees: a node is labelled with the name of a symbol, a leaf holds the text that it covers.
-/

set_option autoImplicit false
set_option relaxedAutoImplicit false

namespace Ebnf

inductive ParseTree where
  | node (name : String) (children : List ParseTree)
  | leaf (text : String)
deriving Inhabited

namespace ParseTree

def name? : ParseTree → Option String
  | .node name _ => some name
  | .leaf _ => none

/-- The trees directly below. -/
def children : ParseTree → List ParseTree
  | .node _ ts => ts
  | .leaf _ => []

mutual

/-- The texts of the leaves, left to right. -/
def leaves : ParseTree → List String
  | .node _ ts => leavesOf ts
  | .leaf text => [text]

/-- The texts of the leaves of a list of trees, left to right. -/
def leavesOf : List ParseTree → List String
  | [] => []
  | t :: ts => t.leaves ++ leavesOf ts

end

/-- The text that the tree covers. -/
def text (t : ParseTree) : String :=
  String.join t.leaves

mutual

/-- The nodes labelled `name`, the root and nodes inside others included, each before those
below it. -/
def findAll (name : String) : ParseTree → List ParseTree
  | .node label ts =>
    if label = name then .node label ts :: findAllIn name ts else findAllIn name ts
  | .leaf _ => []

/-- The nodes labelled `name` in a list of trees. -/
def findAllIn (name : String) : List ParseTree → List ParseTree
  | [] => []
  | t :: ts => findAll name t ++ findAllIn name ts

end

@[simp] theorem leavesOf_eq_flatMap (ts : List ParseTree) : leavesOf ts = ts.flatMap leaves := by
  induction ts with
  | nil => rfl
  | cons t ts ih => rw [leavesOf, ih, List.flatMap_cons]

@[simp] theorem findAllIn_eq_flatMap (name : String) (ts : List ParseTree) :
    findAllIn name ts = ts.flatMap (findAll name) := by
  induction ts with
  | nil => rfl
  | cons t ts ih => rw [findAllIn, ih, List.flatMap_cons]

end ParseTree

end Ebnf
