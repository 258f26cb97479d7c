import Ebnf.Grammar.Draft
import Ebnf.Proofs.Grammar.Folding

/-!
Grammars that are made in stages. A later definition of a name may be folded into an earlier one
before that is added or after it, and behind an earlier definition it may wait for the rules of
other names. So adding a finished grammar is adding the rules that it was made from, wherever in
the order of rules that happens.
-/

set_option autoImplicit false
set_option relaxedAutoImplicit false

namespace Ebnf

namespace Rule

theorem mem_map_name_addTo {rule : Rule} {rules : List Rule} {name : String} :
    name ∈ (rule.addTo rules).map Rule.name ↔ name ∈ rules.map Rule.name ∨ name = rule.name := by
  by_cases h : rule.name ∈ rules.map Rule.name
  · rw [rule.map_name_addTo_of_mem rules h]
    constructor
    · exact Or.inl
    · rintro (hmem | rfl)
      · exact hmem
      · exact h
  · simp [rule.addTo_of_not_mem rules h]

/-- Two definitions of a name may be folded into one before they are added. -/
theorem addTo_addTo_of_name_eq {rule old : Rule} (h : old.name = rule.name) (rules : List Rule) :
    rule.addTo (old.addTo rules) =
      addTo { old with body := rule.body.mergeFront old.body } rules := by
  induction rules with
  | nil => simp [addTo, h]
  | cons first rules ih =>
    by_cases hfirst : first.name = rule.name
    · simp [addTo, h, hfirst, Expr.mergeFront_assoc]
    · simp only [addTo, h, hfirst, if_false, ih]

/-- A definition of a name that is there already commutes with the rules of other names. -/
theorem addTo_comm {rule other : Rule} (hne : other.name ≠ rule.name) {rules : List Rule}
    (h : rule.name ∈ rules.map Rule.name) :
    rule.addTo (other.addTo rules) = other.addTo (rule.addTo rules) := by
  induction rules with
  | nil => simp at h
  | cons first rules ih =>
    by_cases hrule : first.name = rule.name
    · simp [addTo, hrule, Ne.symm hne]
    · have hmem : rule.name ∈ rules.map Rule.name := by
        rcases List.mem_cons.mp h with heq | hmem
        · exact absurd heq.symm hrule
        · exact hmem
      by_cases hother : first.name = other.name
      · simp [addTo, hother, hne]
      · simp only [addTo, hrule, hother, if_false, ih hmem]

end Rule

namespace Grammar

theorem foldl_add_add {rules : List Rule} {rule : Rule} (hother : rule.name ∉ rules.map Rule.name)
    {g : Grammar} (h : rule.name ∈ g.rules.map Rule.name) :
    rules.foldl add (g.add rule) = (rules.foldl add g).add rule := by
  induction rules generalizing g with
  | nil => rfl
  | cons first rules ih =>
    rw [List.map_cons, List.mem_cons, not_or] at hother
    have hcomm : (g.add rule).add first = (g.add first).add rule :=
      ext_rules (Rule.addTo_comm (Ne.symm hother.1) h).symm
    rw [List.foldl_cons, List.foldl_cons, hcomm, ih hother.2 (Rule.mem_map_name_addTo.mpr (.inl h))]

/-- Folding a rule into rules that are yet to be added is adding it behind them. -/
theorem foldl_add_addTo {rules : List Rule} (hnodup : (rules.map Rule.name).Nodup) (rule : Rule)
    (g : Grammar) : (rule.addTo rules).foldl add g = (rules.foldl add g).add rule := by
  induction rules generalizing g with
  | nil => rfl
  | cons old rules ih =>
    rw [List.map_cons, List.nodup_cons] at hnodup
    by_cases hname : old.name = rule.name
    · have hmerge : g.add { old with body := rule.body.mergeFront old.body } =
          (g.add old).add rule := ext_rules (Rule.addTo_addTo_of_name_eq hname g.rules).symm
      rw [Rule.addTo, if_pos hname, List.foldl_cons, hmerge, List.foldl_cons]
      exact foldl_add_add (hname ▸ hnodup.1) (Rule.mem_map_name_addTo.mpr (.inr hname.symm))
    · rw [Rule.addTo, if_neg hname, List.foldl_cons, List.foldl_cons, ih hnodup.2]

/-- The rules of a grammar do what the rules do that it was made from. -/
theorem foldl_add_ofRules (rules : List Rule) (g : Grammar) :
    (ofRules rules).rules.foldl add g = rules.foldl add g := by
  induction rules using List.reverseRecOn with
  | nil => rfl
  | append_singleton rules rule ih =>
    rw [ofRules_concat, List.foldl_append, List.foldl_cons, List.foldl_nil, ← ih]
    exact foldl_add_addTo (ofRules rules).nodup_names rule g

theorem ofRules_append_ofRules_append (before rules after : List Rule) :
    ofRules (before ++ (ofRules rules).rules ++ after) = ofRules (before ++ rules ++ after) := by
  unfold ofRules
  rw [List.foldl_append, List.foldl_append, List.foldl_append, List.foldl_append]
  congr 1
  exact foldl_add_ofRules rules _

theorem union_ofRules (rules others : List Rule) :
    (ofRules rules).union (ofRules others) = ofRules (rules ++ others) := by
  have hfirst := ofRules_append_ofRules_append [] rules (ofRules others).rules
  have hlast := ofRules_append_ofRules_append rules others []
  rw [List.nil_append, List.nil_append] at hfirst
  rw [List.append_nil, List.append_nil] at hlast
  rw [union, hfirst, hlast]

theorem union_assoc (a b c : Grammar) : (a.union b).union c = a.union (b.union c) := by
  rw [← a.ofRules_rules, ← b.ofRules_rules, ← c.ofRules_rules]
  simp only [union_ofRules, List.append_assoc]

theorem empty_union (g : Grammar) : empty.union g = g :=
  g.ofRules_rules

theorem union_empty (g : Grammar) : g.union empty = g := by
  rw [union, empty, List.append_nil, ofRules_rules]

end Grammar

namespace Draft

/-- What can be entered into a draft: one rule, several, or those of a finished grammar. -/
inductive Entry where
  | rule (rule : Rule)
  | rules (rules : List Rule)
  | grammar (g : Grammar)

/-- The rules that an entry brings, unmerged. -/
def Entry.toRules : Entry → List Rule
  | .rule r => [r]
  | .rules rs => rs
  | .grammar g => g.rules

def enter (draft : Draft) : Entry → Draft
  | .rule r => draft.add r
  | .rules rs => draft.addAll rs
  | .grammar g => draft.addGrammar g

theorem rules_enter (draft : Draft) (entry : Entry) :
    (draft.enter entry).rules = draft.rules ++ entry.toRules := by
  cases entry <;> rfl

theorem rules_foldl_enter (entries : List Entry) (draft : Draft) :
    (entries.foldl enter draft).rules = draft.rules ++ entries.flatMap Entry.toRules := by
  induction entries generalizing draft with
  | nil => simp
  | cons entry entries ih =>
    rw [List.foldl_cons, ih, rules_enter, List.flatMap_cons, List.append_assoc]

theorem build_foldl_enter_grammar (draft : Draft) (before after : List Entry) (rules : List Rule) :
    ((before ++ .grammar (.ofRules rules) :: after).foldl enter draft).build =
      ((before ++ .rules rules :: after).foldl enter draft).build := by
  have hstages := Grammar.ofRules_append_ofRules_append
    (draft.rules ++ before.flatMap Entry.toRules) rules (after.flatMap Entry.toRules)
  rw [build, build, rules_foldl_enter, rules_foldl_enter]
  simpa [Entry.toRules] using hstages

end Draft

/-- Rules that are merged in stages make the same grammar as rules that are merged at once: in
any list of rules, in unions, and in drafts. -/
theorem Grammar.ofRules_stages :
    (∀ before rules after : List Rule,
      ofRules (before ++ (ofRules rules).rules ++ after) = ofRules (before ++ rules ++ after)) ∧
    (∀ rules others : List Rule,
      (ofRules rules).union (ofRules others) = ofRules (rules ++ others)) ∧
    (∀ a b c : Grammar, (a.union b).union c = a.union (b.union c)) ∧
    (∀ g : Grammar, empty.union g = g ∧ g.union empty = g) ∧
    ∀ (draft : Draft) (entries others : List Draft.Entry) (rules : List Rule),
      ((entries ++ .grammar (ofRules rules) :: others).foldl Draft.enter draft).build =
        ((entries ++ .rules rules :: others).foldl Draft.enter draft).build :=
  ⟨ofRules_append_ofRules_append, union_ofRules, union_assoc,
    fun g ↦ ⟨g.empty_union, g.union_empty⟩, Draft.build_foldl_enter_grammar⟩

end Ebnf
