import Ebnf.Expr.Choice
import Ebnf.Proofs.Expr.NormalForm

/-!
The leaves of expressions. What is true of an expression if it is true of all its parts is a
question about its leaves, and nothing that puts expressions together adds any.
-/

set_option autoImplicit false
set_option relaxedAutoImplicit false

namespace Ebnf.Expr

mutual

/-- The symbols, terminals and ranges of the expression, from left to right. -/
def leaves : Expr → List Expr
  | .symbol name => [.symbol name]
  | .terminal text => [.terminal text]
  | .range chars => [.range chars]
  | .seq first second rest => first.leaves ++ (second.leaves ++ leavesOf rest)
  | .choice es => leavesOf es
  | .optional e | .star e | .plus e => e.leaves

/-- The leaves of a list of expressions, from left to right. -/
def leavesOf : List Expr → List Expr
  | [] => []
  | e :: es => e.leaves ++ leavesOf es

end

@[simp] theorem leavesOf_eq_flatMap (es : List Expr) : leavesOf es = es.flatMap leaves := by
  induction es with
  | nil => rfl
  | cons e es ih => rw [leavesOf, ih, List.flatMap_cons]

theorem leaves_seq (first second : Expr) (rest : List Expr) :
    (seq first second rest).leaves = (first :: second :: rest).flatMap leaves := by
  rw [leaves, leavesOf_eq_flatMap, List.flatMap_cons, List.flatMap_cons]

theorem leaves_choice (es : List Expr) : (choice es).leaves = es.flatMap leaves := by
  rw [leaves, leavesOf_eq_flatMap]

theorem flatMap_leaves_alternatives (e : Expr) : e.alternatives.flatMap leaves = e.leaves := by
  cases e with
  | choice es => exact (leaves_choice es).symm
  | _ => simp [alternatives]

theorem leaves_mergeFront (newer existing : Expr) :
    (newer.mergeFront existing).leaves = newer.leaves ++ existing.leaves := by
  rw [mergeFront_eq_choice, leaves_choice, List.flatMap_append, flatMap_leaves_alternatives,
    flatMap_leaves_alternatives]

/-- A test that looks at the parts of an expression one by one looks at its leaves. -/
theorem iff_forall_mem_leaves {p : Expr → Bool}
    (seq : ∀ first second rest, p (.seq first second rest) = (first :: second :: rest).all p)
    (choice : ∀ es, p (.choice es) = es.all p) (optional : ∀ e, p (.optional e) = p e)
    (star : ∀ e, p (.star e) = p e) (plus : ∀ e, p (.plus e) = p e) (e : Expr) :
    p e = true ↔ ∀ leaf ∈ e.leaves, p leaf = true := by
  have hlist {es : List Expr} (ih : ∀ e ∈ es, p e = true ↔ ∀ leaf ∈ e.leaves, p leaf = true) :
      es.all p = true ↔ ∀ leaf ∈ es.flatMap leaves, p leaf = true := by
    rw [List.all_eq_true, List.forall_mem_flatMap]
    exact forall₂_congr ih
  induction e with
  | symbol | terminal | range => rw [leaves, List.forall_mem_singleton]
  | seq first second rest ih => rw [seq, leaves_seq, hlist ih]
  | choice es ih => rw [choice, leaves_choice, hlist ih]
  | optional e ih => rwa [optional, leaves]
  | star e ih => rwa [star, leaves]
  | plus e ih => rwa [plus, leaves]

end Ebnf.Expr
