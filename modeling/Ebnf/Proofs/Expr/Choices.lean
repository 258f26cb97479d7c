import Ebnf.Expr.Choice

/-!
Choices that are joined two expressions at a time. However the joins are nested, the result is one
choice between the single expressions. Their order is settled by the tree of joins: a single
expression that is joined in front of several goes behind them, and nothing else moves. So where no
single expression is joined in front of several, all stand in the order in which they are given.
-/

set_option autoImplicit false
set_option relaxedAutoImplicit false

namespace Ebnf.Expr

section Or

variable (e f : Expr)

theorem or_eq_choice_alternatives : e.or f = .choice (e.or f).alternatives := by
  unfold or
  split <;> rfl

/-- Only a single expression in front of a choice changes its place. -/
theorem alternatives_or : (e.or f).alternatives =
    if e.choices?.isNone && f.choices?.isSome then f.alternatives ++ e.alternatives
    else e.alternatives ++ f.alternatives := by
  cases e <;> cases f <;> rfl

theorem alternatives_of_choices?_eq_none (h : e.choices? = none) : e.alternatives = [e] := by
  cases e with
  | choice es => cases h
  | _ => rfl

end Or

/-- Expressions joined by `or`, two at a time. -/
inductive OrTree where
  | leaf (e : Expr)
  | node (left right : OrTree)

namespace OrTree

/-- What the joins make of the expressions. -/
def expr : OrTree → Expr
  | .leaf e => e
  | .node left right => left.expr.or right.expr

/-- The expressions that are joined, from left to right. -/
def leaves : OrTree → List Expr
  | .leaf e => [e]
  | .node left right => left.leaves ++ right.leaves

def isLeaf : OrTree → Bool
  | .leaf _ => true
  | .node _ _ => false

/-- The tree with the sides of those joins swapped that have a single expression in front of
several. -/
def swapped : OrTree → OrTree
  | .leaf e => .leaf e
  | .node left right =>
    if left.isLeaf && !right.isLeaf then .node right.swapped left.swapped
    else .node left.swapped right.swapped

/-- No join has a single expression in front of several. -/
def IsInOrder : OrTree → Prop
  | .leaf _ => True
  | .node left right =>
    (left.isLeaf = true → right.isLeaf = true) ∧ left.IsInOrder ∧ right.IsInOrder

/-- None of the expressions that are joined is a choice. -/
def HasSingleLeaves (tree : OrTree) : Prop :=
  ∀ e ∈ tree.leaves, e.choices? = none

instance (tree : OrTree) : Decidable tree.HasSingleLeaves :=
  List.decidableBAll _ _

section Trees

variable {tree left right : OrTree}

theorem hasSingleLeaves_node : (node left right).HasSingleLeaves ↔
    left.HasSingleLeaves ∧ right.HasSingleLeaves :=
  List.forall_mem_append

theorem isSome_choices?_expr (h : tree.HasSingleLeaves) :
    tree.expr.choices?.isSome = !tree.isLeaf := by
  cases tree with
  | leaf e =>
    rw [expr, h e (List.mem_singleton_self e)]
    rfl
  | node left right =>
    rw [expr, or_eq_choice_alternatives]
    rfl

/-- The alternatives are those of the swapped tree, from left to right. -/
theorem alternatives_expr (h : tree.HasSingleLeaves) :
    tree.expr.alternatives = tree.swapped.leaves := by
  induction tree with
  | leaf e => exact alternatives_of_choices?_eq_none e (h e (List.mem_singleton_self e))
  | node left right ihleft ihright =>
    obtain ⟨hleft, hright⟩ := hasSingleLeaves_node.mp h
    rw [expr, alternatives_or, ← Option.not_isSome, isSome_choices?_expr hleft,
      isSome_choices?_expr hright, Bool.not_not, ihleft hleft, ihright hright, swapped]
    split <;> rfl

theorem leaves_swapped_perm (tree : OrTree) : tree.swapped.leaves.Perm tree.leaves := by
  induction tree with
  | leaf e => exact .refl _
  | node left right ihleft ihright =>
    rw [swapped]
    split
    · exact (ihright.append ihleft).trans List.perm_append_comm
    · exact ihleft.append ihright

theorem IsInOrder.swapped_eq (h : tree.IsInOrder) : tree.swapped = tree := by
  induction tree with
  | leaf e => rfl
  | node left right ihleft ihright =>
    obtain ⟨hsides, hleft, hright⟩ := h
    rw [swapped, ihleft hleft, ihright hright, if_neg]
    rw [Bool.and_eq_true, Bool.not_eq_true']
    rintro ⟨hleaf, hnode⟩
    rw [hsides hleaf] at hnode
    cases hnode

theorem expr_eq_choice_swapped (h : tree.HasSingleLeaves) (hnode : tree.isLeaf = false) :
    tree.expr = .choice tree.swapped.leaves := by
  rw [← alternatives_expr h]
  cases tree with
  | leaf e => cases hnode
  | node left right => exact or_eq_choice_alternatives _ _

/-- Where no single expression is joined in front of several, nothing moves. -/
theorem expr_eq_choice_leaves (h : tree.HasSingleLeaves) (hnode : tree.isLeaf = false)
    (horder : tree.IsInOrder) : tree.expr = .choice tree.leaves := by
  rw [expr_eq_choice_swapped h hnode, horder.swapped_eq]

end Trees

/-- Each expression is joined behind all those in front of it. -/
def chain (tree : OrTree) (rest : List Expr) : OrTree :=
  rest.foldl (fun tree e ↦ .node tree (.leaf e)) tree

section Chain

variable (tree : OrTree) (rest : List Expr)

theorem expr_chain : (tree.chain rest).expr = rest.foldl or tree.expr := by
  induction rest generalizing tree with
  | nil => rfl
  | cons e rest ih => exact ih (.node tree (.leaf e))

theorem leaves_chain : (tree.chain rest).leaves = tree.leaves ++ rest := by
  induction rest generalizing tree with
  | nil => exact (List.append_nil _).symm
  | cons e rest ih =>
    have hnext := ih (.node tree (.leaf e))
    rwa [leaves, leaves, List.append_assoc] at hnext

variable {tree}

theorem isLeaf_chain (h : tree.isLeaf = false) : (tree.chain rest).isLeaf = false := by
  induction rest generalizing tree with
  | nil => exact h
  | cons e rest ih => exact ih rfl

theorem IsInOrder.chain (h : tree.IsInOrder) : (tree.chain rest).IsInOrder := by
  induction rest generalizing tree with
  | nil => exact h
  | cons e rest ih => exact ih ⟨fun _ ↦ rfl, h, trivial⟩

/-- Expressions joined one behind the other are the alternatives of one choice. -/
theorem foldl_or_eq_choice {first second : Expr}
    (h : ∀ e ∈ first :: second :: rest, e.choices? = none) :
    (second :: rest).foldl or first = .choice (first :: second :: rest) := by
  have hleaves : ((node (leaf first) (leaf second)).chain rest).leaves = first :: second :: rest :=
    leaves_chain _ rest
  have horder : (node (leaf first) (leaf second)).IsInOrder := ⟨fun _ ↦ rfl, trivial, trivial⟩
  have hsingle : ((node (leaf first) (leaf second)).chain rest).HasSingleLeaves := by
    rwa [HasSingleLeaves, hleaves]
  have hexpr := expr_eq_choice_leaves hsingle (isLeaf_chain rest rfl) (horder.chain rest)
  rwa [expr_chain, hleaves] at hexpr

end Chain

/-- Joins make one choice between the single expressions, each as often as it is given, in the
order of the swapped tree. That is the order in which they are given if no join has a single
expression in front of several, as where each expression is joined behind those in front of it. -/
theorem expr_node (left right : OrTree) (h : (node left right).HasSingleLeaves) :
    (node left right).expr = .choice (node left right).swapped.leaves ∧
    (∀ e ∈ (node left right).swapped.leaves, e.choices? = none) ∧
    (node left right).swapped.leaves.Perm (node left right).leaves ∧
    ((node left right).IsInOrder → (node left right).expr = .choice (node left right).leaves) ∧
    ∀ first second rest, (∀ e ∈ first :: second :: rest, e.choices? = none) →
      (second :: rest).foldl or first = .choice (first :: second :: rest) := by
  have hperm := leaves_swapped_perm (node left right)
  exact ⟨expr_eq_choice_swapped h rfl, fun e he ↦ h e (hperm.mem_iff.mp he), hperm,
    expr_eq_choice_leaves h rfl, fun _ _ rest ↦ foldl_or_eq_choice rest⟩

theorem expr_node_regrouped :
    let left : OrTree := .leaf (.terminal "a")
    let right : OrTree := .node (.leaf (.terminal "b"))
      (.node (.node (.leaf (.terminal "c")) (.leaf (.plus (.choice []))))
        (.node (.leaf (.terminal "d")) (.leaf (.terminal "a"))))
    (node left right).HasSingleLeaves ∧
    (node left right).expr = .choice [.terminal "c", .plus (.choice []), .terminal "d",
      .terminal "a", .terminal "b", .terminal "a"] ∧
    (node left right).swapped.leaves.Perm (node left right).leaves ∧
    (node left right).leaves = [.terminal "a", .terminal "b", .terminal "c", .plus (.choice []),
      .terminal "d", .terminal "a"] := by
  intro left right
  have hsingle : (node left right).HasSingleLeaves := by decide
  obtain ⟨hexpr, -, hperm, -⟩ := expr_node left right hsingle
  exact ⟨hsingle, hexpr, hperm, rfl⟩

end OrTree

end Ebnf.Expr
