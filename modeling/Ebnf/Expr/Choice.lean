import Ebnf.Expr.Basic

/-!
Joining expressions into choices. Only the top level of the two sides is merged: a choice that
is an alternative of a choice stays one alternative.
-/

set_option autoImplicit false
set_option relaxedAutoImplicit false

namespace Ebnf.Expr

/-- The choice between two expressions. Two choices are joined left to right, and a single
alternative goes behind the choice on its other side, whichever side that is. -/
def or (left right : Expr) : Expr :=
  match left, right with
  | .choice es, .choice fs => .choice (es ++ fs)
  | e, .choice fs => .choice (fs ++ [e])
  | e, f => .choice (e.alternatives ++ f.alternatives)

/-- The choice in which the alternatives of `newer` come before those of `existing`. Joining the
two gives that, except that it puts a single alternative behind a choice on its right. -/
def mergeFront (newer existing : Expr) : Expr :=
  match newer.choices?, existing with
  | none, .choice es => .choice (newer :: es)
  | _, _ => newer.or existing

@[simp] theorem alternatives_choice (es : List Expr) : (choice es).alternatives = es := rfl

theorem mergeFront_eq_choice (newer existing : Expr) :
    newer.mergeFront existing = .choice (newer.alternatives ++ existing.alternatives) := by
  cases newer <;> cases existing <;> rfl

@[simp] theorem alternatives_mergeFront (newer existing : Expr) :
    (newer.mergeFront existing).alternatives = newer.alternatives ++ existing.alternatives := by
  rw [mergeFront_eq_choice, alternatives_choice]

theorem mergeFront_assoc (a b c : Expr) :
    a.mergeFront (b.mergeFront c) = (a.mergeFront b).mergeFront c := by
  simp [mergeFront_eq_choice]

end Ebnf.Expr
