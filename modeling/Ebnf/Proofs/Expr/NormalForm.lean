import Ebnf.Expr.Normal
import Ebnf.Expr.Render

/-!
Normal forms are written like the expressions they come from. Every expression is written as its
items with commas between them, and the items of the normal form of a sequence are the items of
the normal forms of its parts. Also here: induction on expressions, with a hypothesis for each
expression of a list.
-/

set_option autoImplicit false
set_option relaxedAutoImplicit false

namespace Ebnf.Expr

/-- Induction on an expression and all its parts. -/
@[induction_eliminator]
theorem induction {motive : Expr → Prop} (symbol : ∀ name, motive (.symbol name))
    (terminal : ∀ text, motive (.terminal text)) (range : ∀ chars, motive (.range chars))
    (seq : ∀ first second rest, (∀ e ∈ first :: second :: rest, motive e) →
      motive (.seq first second rest))
    (choice : ∀ es, (∀ e ∈ es, motive e) → motive (.choice es))
    (optional : ∀ e, motive e → motive (.optional e)) (star : ∀ e, motive e → motive (.star e))
    (plus : ∀ e, motive e → motive (.plus e)) (e : Expr) : motive e := by
  refine @Expr.rec motive (fun es ↦ ∀ e ∈ es, motive e) symbol terminal range ?_ choice optional
    star plus (fun _ h ↦ absurd h List.not_mem_nil) ?_ e
  · intro first second rest hfirst hsecond hrest
    exact seq first second rest (List.forall_mem_cons.mpr
      ⟨hfirst, List.forall_mem_cons.mpr ⟨hsecond, hrest⟩⟩)
  · intro e es he hes
    exact List.forall_mem_cons.mpr ⟨he, hes⟩

theorem itemsOf_inOrder_of_ne_nil (first : Expr) {rest : List Expr} (h : rest ≠ []) :
    (inOrder first rest).itemsOf = first :: rest := by
  obtain ⟨second, others, rfl⟩ := List.exists_cons_of_ne_nil h
  rfl

theorem itemsOf_ne_nil (e : Expr) : e.itemsOf ≠ [] :=
  List.cons_ne_nil _ _

/-- The normal form of a sequence has the items of its parts. -/
theorem itemsOf_normalize_seq (first second : Expr) (rest : List Expr) :
    (normalize (.seq first second rest)).itemsOf =
      (first :: second :: rest).flatMap fun e ↦ e.normalize.itemsOf := by
  have hne : first.normalize.tailItems ++ second.normalize.itemsOf ++
      (normalizeAll rest).flatMap itemsOf ≠ [] := by simp [itemsOf]
  rw [normalize, itemsOf_inOrder_of_ne_nil _ hne, normalizeAll_eq_map, List.flatMap_map]
  simp [itemsOf]

theorem render_eq_intercalate_itemsOf (e : Expr) :
    e.render = ", ".intercalate (e.itemsOf.map render) := by
  cases e <;> simp [render, itemsOf, headItem, tailItems]

theorem intercalate_flatMap_itemsOf (es : List Expr) :
    ", ".intercalate ((es.flatMap itemsOf).map render) = ", ".intercalate (es.map render) := by
  induction es with
  | nil => rfl
  | cons e es ih =>
    cases es with
    | nil => simp [← render_eq_intercalate_itemsOf]
    | cons f fs =>
      have hfirst : e.itemsOf.map render ≠ [] := mt List.map_eq_nil_iff.mp e.itemsOf_ne_nil
      have hrest : ((f :: fs).flatMap itemsOf).map render ≠ [] := by simp [itemsOf]
      rw [List.flatMap_cons, List.map_append, String.intercalate_append_of_ne_nil hfirst hrest, ih,
        ← render_eq_intercalate_itemsOf]
      simp

theorem render_optionOf (e : Expr) : (optionOf e).render = (optional e).render := by
  apply String.toList_inj.mp
  cases e <;> simp [optionOf, render]

/-- The normal form is written like the expression itself. -/
theorem render_normalize (e : Expr) : e.normalize.render = e.render := by
  induction e with
  | symbol | terminal | range => rfl
  | seq first second rest ih =>
    rw [render_eq_intercalate_itemsOf, itemsOf_normalize_seq, ← List.flatMap_map normalize,
      intercalate_flatMap_itemsOf, List.map_map, render, renderAll_eq_map]
    exact congrArg _ (List.map_congr_left ih)
  | choice es ih =>
    have hall : es.map (render ∘ normalize) = es.map render := List.map_congr_left ih
    rw [normalize, render, render, renderAll_eq_map, renderAll_eq_map, normalizeAll_eq_map,
      List.map_map, hall]
  | optional e ih => rw [normalize, render_optionOf, render, render, ih]
  | star e ih => rw [normalize, render, render, ih]
  | plus e ih => rw [normalize, render, render, ih]

end Ebnf.Expr
