import Ebnf.Proofs.Grammar.Folding
import Ebnf.Proofs.Language.Meaning
import Mathlib.Data.List.Basic

/-!
Merging keeps the language. A choice derives what its alternatives derive, so two definitions of
a name can be folded into one that derives what either of them derives. The names of a grammar
that is made from rules can then be replaced as by the rules themselves, whatever their order.
-/

set_option autoImplicit false
set_option relaxedAutoImplicit false

namespace Ebnf

section Fold

variable {defs : Definitions} {e newer existing : Expr} {cs : List Char}

theorem derives_iff_exists_alternatives :
    Derives defs e cs ↔ ∃ f ∈ e.alternatives, Derives defs f cs := by
  cases e with
  | choice es => exact derives_choice_iff
  | _ => simp [Expr.alternatives]

theorem derives_mergeFront_iff :
    Derives defs (newer.mergeFront existing) cs ↔
      Derives defs newer cs ∨ Derives defs existing cs := by
  rw [derives_iff_exists_alternatives, Expr.alternatives_mergeFront,
    derives_iff_exists_alternatives (e := newer), derives_iff_exists_alternatives (e := existing)]
  simp only [List.mem_append, or_and_right, exists_or]

end Fold

section Rules

variable {rules others : List Rule}

theorem sameBodies_of_mem_iff (h : ∀ rule, rule ∈ rules ↔ rule ∈ others) :
    (Definitions.ofRules rules).SameBodies (.ofRules others) := by
  intro inner name cs
  rw [exists_ofRules_iff, exists_ofRules_iff]
  simp only [h]

/-- A rule that is folded into another gives its name what it would give it by itself. -/
theorem sameBodies_addTo (rule : Rule) (rules : List Rule) :
    (Definitions.ofRules (rule.addTo rules)).SameBodies (.ofRules (rule :: rules)) := by
  intro inner name cs
  rw [exists_ofRules_iff, exists_ofRules_iff]
  induction rules with
  | nil => rfl
  | cons old rules ih =>
    by_cases hname : old.name = rule.name
    · rw [Rule.addTo, if_pos hname]
      simp only [List.exists_mem_cons_iff, derives_mergeFront_iff, hname, and_or_left, or_assoc]
    · rw [Rule.addTo, if_neg hname, List.exists_mem_cons_iff, ih]
      simp only [List.exists_mem_cons_iff, or_left_comm]

theorem sameBodies_ofRules (rules : List Rule) :
    (Grammar.ofRules rules).definitions.SameBodies (.ofRules rules) := by
  induction rules using List.reverseRecOn with
  | nil => exact fun _ _ _ ↦ Iff.rfl
  | append_singleton rules rule ih =>
    intro inner name cs
    have hrules := ih inner name cs
    rw [Grammar.definitions, exists_ofRules_iff, exists_ofRules_iff] at hrules
    rw [Grammar.ofRules_concat, Grammar.definitions]
    refine (sameBodies_addTo rule _ inner name cs).trans ?_
    rw [exists_ofRules_iff, exists_ofRules_iff, List.exists_mem_cons_iff, hrules]
    simp only [List.mem_append, List.mem_singleton, or_and_right, exists_or, exists_eq_left,
      or_comm]

end Rules

namespace Grammar

theorem definitions_union (a b : Grammar) : (a.union b).definitions.SameBodies
    fun name body ↦ a.find? name = some body ∨ b.find? name = some body := by
  have heither : (fun name body ↦ a.find? name = some body ∨ b.find? name = some body) =
      Definitions.ofRules (a.rules ++ b.rules) := by
    funext name body
    rw [← definitions_iff, ← definitions_iff]
    exact propext List.mem_append.symm
  rw [heither]
  exact sameBodies_ofRules (a.rules ++ b.rules)

/-- Rules that are merged derive what they derive unmerged, when each name may be replaced by the
body of any of its rules. So in a union of grammars each name may be replaced by its body in
either, and the order of the rules is of no account. -/
theorem derives_ofRules_iff :
    (∀ (rules : List Rule) (e : Expr) (cs : List Char),
      Derives (.ofRules rules) e cs ↔ Derives (ofRules rules).definitions e cs) ∧
    (∀ (a b : Grammar) (e : Expr) (cs : List Char), Derives (a.union b).definitions e cs ↔
      Derives (fun name body ↦ a.find? name = some body ∨ b.find? name = some body) e cs) ∧
    ∀ rules others : List Rule, rules.Perm others → ∀ (e : Expr) (cs : List Char),
      Derives (ofRules rules).definitions e cs ↔ Derives (ofRules others).definitions e cs := by
  have hmerge (rules : List Rule) (e : Expr) (cs : List Char) :
      Derives (ofRules rules).definitions e cs ↔ Derives (.ofRules rules) e cs :=
    (sameBodies_ofRules rules).derives_iff
  refine ⟨fun rules e cs ↦ (hmerge rules e cs).symm,
    fun a b e cs ↦ (definitions_union a b).derives_iff, fun rules others hperm e cs ↦ ?_⟩
  rw [hmerge, hmerge]
  exact (sameBodies_of_mem_iff fun _ ↦ hperm.mem_iff).derives_iff

theorem derives_ofRules_iff_reversed :
    let rules : List Rule := [⟨"s", .choice [.seq (.terminal "a") (.symbol "s") [], .choice []]⟩,
      ⟨"t", .symbol "s"⟩, ⟨"s", .terminal "b"⟩]
    let cs := "ab".toList
    rules.Perm rules.reverse ∧ Derives (.ofRules rules) (.symbol "t") cs ∧
      Derives (ofRules rules).definitions (.symbol "t") cs ∧
      Derives (ofRules rules.reverse).definitions (.symbol "t") cs := by
  intro rules cs
  have hperm : rules.Perm rules.reverse := rules.reverse_perm.symm
  have hlast : Derives (.ofRules rules) (.symbol "s") ['b'] :=
    derives_symbol_iff.mpr ⟨.terminal "b", by decide, derives_terminal_iff.mpr rfl⟩
  have hseq : Derives (.ofRules rules) (.seq (.terminal "a") (.symbol "s") []) cs :=
    derives_seq_iff.mpr (derive_cons_iff.mpr ⟨['a'], ['b'], rfl, derives_terminal_iff.mpr rfl,
      derive_singleton_iff.mpr hlast⟩)
  have hraw : Derives (.ofRules rules) (.symbol "t") cs :=
    derives_symbol_iff.mpr ⟨.symbol "s", by decide, derives_symbol_iff.mpr
      ⟨.choice [_, .choice []], by decide, derives_choice_iff.mpr ⟨_, List.mem_cons_self, hseq⟩⟩⟩
  have hmerged := (derives_ofRules_iff.1 rules (.symbol "t") cs).mp hraw
  exact ⟨hperm, hraw, hmerged,
    (derives_ofRules_iff.2.2 rules rules.reverse hperm (.symbol "t") cs).mp hmerged⟩

end Grammar

end Ebnf
