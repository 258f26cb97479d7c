import Ebnf.Proofs.Expr.NormalForm

/-!
The parts of expressions. Whether an expression is its own normal form can be seen from its parts
one by one: none may be a sequence with a sequence among its items, or an option of a repetition.
-/

set_option autoImplicit false
set_option relaxedAutoImplicit false

namespace Ebnf.Expr

mutual

/-- The expression and all expressions inside it. -/
def parts : Expr → List Expr
  | .seq first second rest =>
    .seq first second rest :: (first.parts ++ (second.parts ++ partsOf rest))
  | .choice es => .choice es :: partsOf es
  | .optional e => .optional e :: e.parts
  | .star e => .star e :: e.parts
  | .plus e => .plus e :: e.parts
  | e => [e]

/-- The parts of a list of expressions. -/
def partsOf : List Expr → List Expr
  | [] => []
  | e :: es => e.parts ++ partsOf es

end

@[simp] theorem partsOf_eq_flatMap (es : List Expr) : partsOf es = es.flatMap parts := by
  induction es with
  | nil => rfl
  | cons e es ih => rw [partsOf, ih, List.flatMap_cons]

theorem parts_seq (first second : Expr) (rest : List Expr) : (seq first second rest).parts =
    seq first second rest :: (first :: second :: rest).flatMap parts := by
  rw [parts, partsOf_eq_flatMap, List.flatMap_cons, List.flatMap_cons]

theorem parts_choice (es : List Expr) :
    (choice es).parts = choice es :: es.flatMap parts := by
  rw [parts, partsOf_eq_flatMap]

theorem items_of_items? {e : Expr} (h : e.items? = none) :
    e.headItem = e ∧ e.tailItems = [] := by
  cases e with
  | seq => cases h
  | _ => exact ⟨rfl, rfl⟩

theorem flatMap_itemsOf {es : List Expr} (h : ∀ e ∈ es, e.items? = none) :
    es.flatMap itemsOf = es := by
  induction es with
  | nil => rfl
  | cons e es ih =>
    obtain ⟨he, hes⟩ := List.forall_mem_cons.mp h
    obtain ⟨hhead, htail⟩ := items_of_items? he
    rw [List.flatMap_cons, itemsOf, hhead, htail, ih hes]
    rfl

theorem map_normalize_eq_self {es : List Expr} (h : ∀ e ∈ es, e.normalize = e) :
    es.map normalize = es :=
  (List.map_congr_left h).trans (List.map_id es)

/-- What the normal form leaves as it is: no sequence is an item of a sequence, and no repetition
the body of an option. -/
structure IsSettled (part : Expr) : Prop where
  items : ∀ items, part.items? = some items → ∀ item ∈ items, item.items? = none
  option : ∀ f, part ≠ optional (plus f)

/-- An expression is its own normal form if the normal form leaves all its parts as they are. -/
theorem normalize_eq_self {e : Expr} (h : ∀ part ∈ e.parts, part.IsSettled) :
    e.normalize = e := by
  induction e with
  | symbol | terminal | range => rfl
  | seq first second rest ih =>
    rw [parts_seq, List.forall_mem_cons, List.forall_mem_flatMap] at h
    have hsame : ∀ e ∈ first :: second :: rest, e.normalize = e := fun e he ↦ ih e he (h.2 e he)
    obtain ⟨hfirst, hsecond, hrest⟩ :=
      List.forall_mem_cons.mp hsame |>.imp_right List.forall_mem_cons.mp
    obtain ⟨hfirst', hflat⟩ := List.forall_mem_cons.mp (h.1.items _ rfl)
    have hmap : rest.map normalize = rest := map_normalize_eq_self hrest
    have htail := flatMap_itemsOf hflat
    obtain ⟨hhead, hnone⟩ := items_of_items? hfirst'
    rw [List.flatMap_cons] at htail
    rw [normalize, normalizeAll_eq_map, hmap, hfirst, hsecond, hhead, hnone, List.nil_append, htail]
    rfl
  | choice es ih =>
    rw [parts_choice, List.forall_mem_cons, List.forall_mem_flatMap] at h
    rw [normalize, normalizeAll_eq_map, map_normalize_eq_self fun e he ↦ ih e he (h.2 e he)]
  | optional e ih =>
    obtain ⟨hself, hbody⟩ := List.forall_mem_cons.mp h
    rw [normalize, ih hbody, optionOf]
    rintro f rfl
    exact hself.option f rfl
  | star e ih => rw [normalize, ih (List.forall_mem_cons.mp h).2]
  | plus e ih => rw [normalize, ih (List.forall_mem_cons.mp h).2]

end Ebnf.Expr
