import Ebnf.Forest

/-!
Lists of trees that expressions stand for, as wholes. They are made from leaves that are not empty
and from nodes above other such lists, one behind the other. So what is kept by these holds of all
of them: no leaf is empty, and the trees below each node are those of a body of its name.
-/

set_option autoImplicit false
set_option relaxedAutoImplicit false

namespace Ebnf

namespace ParseTree

/-- The text that a list of trees covers. -/
def textOf (ts : List ParseTree) : String :=
  String.join (leavesOf ts)

theorem textOf_singleton (t : ParseTree) : textOf [t] = t.text := by
  simp [textOf, text]

@[simp] theorem textOf_append (ts us : List ParseTree) :
    textOf (ts ++ us) = textOf ts ++ textOf us := by
  simp [textOf]

@[simp] theorem textOf_node (name : String) (ts : List ParseTree) :
    textOf [.node name ts] = textOf ts := by
  simp [textOf, leaves]

@[simp] theorem textOf_leaf (text : String) : textOf [.leaf text] = text := by
  simp [textOf, leaves]

end ParseTree

/-- A property of lists of trees that leaves have, that nodes get from the forests below them, and
that is kept by lists one behind the other. -/
structure KeptByForests (defs : Definitions) (P : List ParseTree → Prop) : Prop where
  nil : P []
  append (ts us : List ParseTree) : P ts → P us → P (ts ++ us)
  leaf (text : String) : text ≠ "" → P [.leaf text]
  node (name : String) (body : Expr) (ts : List ParseTree) :
    defs name body → HasForest defs body ts → P ts → P [.node name ts]

section Forest

open ParseTree

variable {defs : Definitions} {P : List ParseTree → Prop} {e : Expr} {ts : List ParseTree}

mutual

theorem HasForest.holds (hP : KeptByForests defs P) :
    {e : Expr} → {ts : List ParseTree} → HasForest defs e ts → P ts
  | _, _, .symbol hdef hbody => hP.node _ _ _ hdef hbody (hbody.holds hP)
  | _, _, .terminal hne => hP.leaf _ hne
  | _, _, .epsilon => hP.nil
  | _, _, .range _ => hP.leaf _ (by simp)
  | _, _, .seq hes => hes.holds hP
  | _, _, .choice _ he => he.holds hP
  | _, _, .omitted => hP.nil
  | _, _, .optional he => he.holds hP
  | _, _, .star _ hes => hes.holds hP
  | _, _, .plus _ hes => hes.holds hP

theorem HaveForest.holds (hP : KeptByForests defs P) :
    {es : List Expr} → {ts : List ParseTree} → HaveForest defs es ts → P ts
  | _, _, .nil => hP.nil
  | _, _, .cons he hes => hP.append _ _ (he.holds hP) (hes.holds hP)

end

theorem HasForest.leaf_ne_empty (h : HasForest defs e ts) : ∀ text ∈ leavesOf ts, text ≠ "" := by
  have hkept : KeptByForests defs fun ts ↦ ∀ text ∈ leavesOf ts, text ≠ "" := by
    refine ⟨nofun, fun ts us hts hus ↦ ?_, fun text hne ↦ ?_, fun name body ts _ _ hts ↦ ?_⟩
    · rw [leavesOf_eq_flatMap] at hts hus ⊢
      rw [List.flatMap_append]
      exact List.forall_mem_append.mpr ⟨hts, hus⟩
    · exact List.forall_mem_singleton.mpr hne
    · rwa [leavesOf, leavesOf, List.append_nil, leaves]
  exact h.holds hkept

/-- The trees below each node are a forest of a body of its name. -/
theorem HasForest.children (h : HasForest defs e ts) (name : String) :
    ∀ t ∈ findAllIn name ts, ∃ body, defs name body ∧ HasForest defs body t.children := by
  have hkept : KeptByForests defs fun ts ↦
      ∀ t ∈ findAllIn name ts, ∃ body, defs name body ∧ HasForest defs body t.children := by
    refine ⟨nofun, fun ts us hts hus ↦ ?_, nofun, fun label body ts hdef hbody hts ↦ ?_⟩
    · rw [findAllIn_eq_flatMap] at hts hus ⊢
      rw [List.flatMap_append]
      exact List.forall_mem_append.mpr ⟨hts, hus⟩
    · rw [findAllIn, findAllIn, List.append_nil, findAll]
      by_cases hlabel : label = name
      · rw [if_pos hlabel]
        exact List.forall_mem_cons.mpr ⟨⟨body, hlabel ▸ hdef, hbody⟩, hts⟩
      · rwa [if_neg hlabel]
  exact h.holds hkept

end Forest

end Ebnf
