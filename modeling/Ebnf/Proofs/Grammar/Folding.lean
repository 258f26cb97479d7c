import Ebnf.Grammar.Basic
import Mathlib.Data.List.Induction

/-!
What the rules of a grammar are folded into. Each name keeps the place of its first rule, and
stands for its definition if it has one only, or else for the choice between the alternatives of
all its definitions, the latest definition first. Rules whose names are distinct are not folded.
-/

set_option autoImplicit false
set_option relaxedAutoImplicit false

namespace Ebnf

namespace Expr

/-- What a name stands for that has the given definitions. -/
def combine : List Expr → Expr
  | [e] => e
  | es => .choice (es.reverse.flatMap alternatives)

theorem alternatives_combine {es : List Expr} (h : es ≠ []) :
    (combine es).alternatives = es.reverse.flatMap alternatives := by
  unfold combine
  split
  · simp
  · rfl

theorem combine_concat {es : List Expr} (h : es ≠ []) (e : Expr) :
    combine (es ++ [e]) = e.mergeFront (combine es) := by
  have hseveral : combine (es ++ [e]) = .choice ((es ++ [e]).reverse.flatMap alternatives) := by
    obtain ⟨first, rest, rfl⟩ := List.exists_cons_of_ne_nil h
    cases rest <;> rfl
  rw [hseveral, mergeFront_eq_choice, alternatives_combine h, List.reverse_append,
    List.flatMap_append]
  simp

end Expr

namespace Rule

/-- The expressions that the rules give for a name, in order. -/
def definitions (name : String) (rules : List Rule) : List Expr :=
  (rules.filter fun rule ↦ rule.name == name).map body

theorem definitions_concat (name : String) (rules : List Rule) (rule : Rule) :
    definitions name (rules ++ [rule]) =
      if rule.name = name then definitions name rules ++ [rule.body]
      else definitions name rules := by
  unfold definitions
  by_cases h : rule.name = name <;> simp [h]

theorem definitions_eq_nil_iff {name : String} {rules : List Rule} :
    definitions name rules = [] ↔ name ∉ rules.map Rule.name := by
  simp [definitions]

/-- A rule whose name is defined changes the rule of that name only. -/
theorem addTo_map_of_mem {rule : Rule} {names : List String} (f : String → Expr)
    (hnames : names.Nodup) (h : rule.name ∈ names) :
    rule.addTo (names.map fun name ↦ ⟨name, f name⟩) = names.map fun name ↦
      ⟨name, if rule.name = name then rule.body.mergeFront (f name) else f name⟩ := by
  induction names with
  | nil => simp at h
  | cons name names ih =>
    obtain ⟨hfresh, hrest⟩ := List.nodup_cons.mp hnames
    by_cases hname : name = rule.name
    · have hother : ∀ other ∈ names, rule.name ≠ other := by
        intro other hother heq
        exact hfresh (hname ▸ heq ▸ hother)
      simp only [List.map_cons, addTo, hname, if_true, List.cons.injEq, true_and]
      apply List.map_congr_left
      intro other hmem
      rw [if_neg (hother other hmem)]
    · have hmem : rule.name ∈ names := by
        rcases List.mem_cons.mp h with heq | hmem
        · exact absurd heq.symm hname
        · exact hmem
      simp only [List.map_cons, addTo, hname, if_false, Ne.symm hname, ih hrest hmem]

/-- What folding keeps of two rules, adding a rule keeps of all rules. -/
theorem forall_mem_addTo {P : Rule → Prop} {rule : Rule} {rules : List Rule}
    (hfold : ∀ old, P old → P { old with body := rule.body.mergeFront old.body })
    (hrule : P rule) (h : ∀ old ∈ rules, P old) : ∀ result ∈ rule.addTo rules, P result := by
  induction rules with
  | nil => exact List.forall_mem_singleton.mpr hrule
  | cons old rules ih =>
    obtain ⟨hold, hrest⟩ := List.forall_mem_cons.mp h
    by_cases hname : old.name = rule.name
    · rw [addTo, if_pos hname]
      exact List.forall_mem_cons.mpr ⟨hfold old hold, hrest⟩
    · rw [addTo, if_neg hname]
      exact List.forall_mem_cons.mpr ⟨hold, ih hrest⟩

end Rule

theorem eraseDups_concat (names : List String) (name : String) :
    (names ++ [name]).eraseDups =
      if name ∈ names then names.eraseDups else names.eraseDups ++ [name] := by
  rw [List.eraseDups_append]
  by_cases h : name ∈ names <;> simp [List.removeAll, h, List.eraseDups_cons]

namespace Rule

/-- The definitions of each name combined, the names in the order in which they first come up. -/
def gathered (rules : List Rule) : List Rule :=
  (rules.map Rule.name).eraseDups.map fun name ↦ ⟨name, .combine (definitions name rules)⟩

theorem map_name_gathered (rules : List Rule) :
    (gathered rules).map Rule.name = (rules.map Rule.name).eraseDups := by
  rw [gathered, List.map_map]
  exact List.map_id _

theorem addTo_gathered {rule : Rule} {rules : List Rule}
    (hnodup : (rules.map Rule.name).eraseDups.Nodup) :
    rule.addTo (gathered rules) = gathered (rules ++ [rule]) := by
  by_cases hmem : rule.name ∈ rules.map Rule.name
  · have hne : definitions rule.name rules ≠ [] :=
      fun hnil ↦ definitions_eq_nil_iff.mp hnil hmem
    rw [gathered, gathered, List.map_append, List.map_singleton, eraseDups_concat, if_pos hmem,
      addTo_map_of_mem _ hnodup (List.mem_eraseDups.mpr hmem)]
    apply List.map_congr_left
    intro name _
    by_cases hname : rule.name = name
    · subst hname
      rw [definitions_concat, if_pos rfl, if_pos rfl, Expr.combine_concat hne]
    · rw [definitions_concat, if_neg hname, if_neg hname]
  · have hnone : definitions rule.name rules = [] := definitions_eq_nil_iff.mpr hmem
    have hnew : rule.name ∉ (gathered rules).map Rule.name := by
      rwa [map_name_gathered, List.mem_eraseDups]
    rw [rule.addTo_of_not_mem _ hnew, gathered, gathered, List.map_append, List.map_singleton,
      eraseDups_concat, if_neg hmem, List.map_append, List.map_singleton]
    congr 1
    · apply List.map_congr_left
      intro name hname
      have hother : rule.name ≠ name := by
        rintro rfl
        exact hmem (List.mem_eraseDups.mp hname)
      rw [definitions_concat, if_neg hother]
    · rw [definitions_concat, if_pos rfl, hnone]
      rfl

end Rule

namespace Grammar

theorem rules_foldl_add (rules : List Rule) (g : Grammar)
    (h : ((g.rules ++ rules).map Rule.name).Nodup) :
    (rules.foldl add g).rules = g.rules ++ rules := by
  induction rules generalizing g with
  | nil => rw [List.foldl_nil, List.append_nil]
  | cons rule rules ih =>
    have hsplit : g.rules ++ rule :: rules = g.rules ++ [rule] ++ rules := by simp
    rw [hsplit] at h ⊢
    have hnew : rule.name ∉ g.rules.map Rule.name := by
      intro hmem
      rw [List.map_append, List.map_append] at h
      have hdisjoint := (List.nodup_append.mp (List.nodup_append.mp h).1).2.2
      exact hdisjoint _ hmem _ (List.mem_singleton_self _) rfl
    have hadd : (g.add rule).rules = g.rules ++ [rule] := rule.addTo_of_not_mem g.rules hnew
    rw [List.foldl_cons, ih, hadd]
    rwa [hadd]

/-- Rules with distinct names stay as they are. -/
theorem ofRules_rules (g : Grammar) : ofRules g.rules = g :=
  ext_rules (rules_foldl_add g.rules empty g.nodup_names)

theorem ofRules_concat (rules : List Rule) (rule : Rule) :
    ofRules (rules ++ [rule]) = (ofRules rules).add rule := by
  rw [ofRules, List.foldl_append]
  rfl

/-- What holds of some rules and what folding keeps of two of them holds of their grammar. -/
theorem forall_mem_ofRules {P : Rule → Prop} {rules : List Rule}
    (hfold : ∀ rule old, P rule → P old → P { old with body := rule.body.mergeFront old.body })
    (h : ∀ rule ∈ rules, P rule) : ∀ rule ∈ (ofRules rules).rules, P rule := by
  induction rules using List.reverseRecOn with
  | nil => exact fun _ hmem ↦ absurd hmem List.not_mem_nil
  | append_singleton rules rule ih =>
    obtain ⟨hrules, hlast⟩ := List.forall_mem_append.mp h
    have hrule : P rule := hlast rule (List.mem_singleton_self rule)
    rw [ofRules_concat]
    exact Rule.forall_mem_addTo (fun old ↦ hfold rule old hrule) hrule (ih hrules)

/-- The names come in the order of their first rules, each with all its definitions combined. -/
theorem rules_ofRules (rules : List Rule) : (ofRules rules).rules =
    (rules.map Rule.name).eraseDups.map fun name ↦
      ⟨name, .combine (Rule.definitions name rules)⟩ := by
  show (ofRules rules).rules = Rule.gathered rules
  induction rules using List.reverseRecOn with
  | nil => rfl
  | append_singleton rules rule ih =>
    have hnodup : (rules.map Rule.name).eraseDups.Nodup := by
      rw [← Rule.map_name_gathered, ← ih]
      exact (ofRules rules).nodup_names
    rw [ofRules_concat, ← Rule.addTo_gathered hnodup, ← ih]
    rfl

end Grammar

end Ebnf
