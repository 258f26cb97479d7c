import Ebnf.Expr.Choice
import Ebnf.Rule

/-!
Grammars: rules in the order in which their names first came up, one rule a name. A rule for a
name that is there already is folded into the existing one as a choice, the newer alternatives
first; the name keeps its place.
-/

set_option autoImplicit false
set_option relaxedAutoImplicit false

namespace Ebnf

namespace Rule

/-- Adds a rule to a list of rules, folding it into the first rule of its name. -/
def addTo (rule : Rule) : List Rule → List Rule
  | [] => [rule]
  | old :: rules =>
    if old.name = rule.name then { old with body := rule.body.mergeFront old.body } :: rules
    else old :: addTo rule rules

theorem map_name_addTo_of_mem (rule : Rule) (rules : List Rule)
    (h : rule.name ∈ rules.map Rule.name) :
    (rule.addTo rules).map Rule.name = rules.map Rule.name := by
  induction rules with
  | nil => simp at h
  | cons old rules ih =>
    by_cases hn : old.name = rule.name
    · simp [addTo, hn]
    · have hr : rule.name ∈ rules.map Rule.name := by
        rw [List.map_cons, List.mem_cons] at h
        exact h.resolve_left fun he ↦ hn he.symm
      simp [addTo, hn, ih hr]

theorem addTo_of_not_mem (rule : Rule) (rules : List Rule)
    (h : rule.name ∉ rules.map Rule.name) : rule.addTo rules = rules ++ [rule] := by
  induction rules with
  | nil => rfl
  | cons old rules ih =>
    rw [List.map_cons, List.mem_cons, not_or] at h
    have hn : old.name ≠ rule.name := fun he ↦ h.1 he.symm
    simp [addTo, hn, ih h.2]

theorem nodup_map_name_addTo (rule : Rule) (rules : List Rule)
    (h : (rules.map Rule.name).Nodup) : ((rule.addTo rules).map Rule.name).Nodup := by
  by_cases hm : rule.name ∈ rules.map Rule.name
  · rwa [map_name_addTo_of_mem rule rules hm]
  · rw [addTo_of_not_mem rule rules hm, List.map_append, List.nodup_append]
    refine ⟨h, by simp, ?_⟩
    intro a ha b hb hab
    rw [List.map_singleton, List.mem_singleton] at hb
    exact hm (hb ▸ hab ▸ ha)

end Rule

structure Grammar where
  rules : List Rule
  nodup_names : (rules.map Rule.name).Nodup

namespace Grammar

theorem ext_rules {a b : Grammar} (h : a.rules = b.rules) : a = b := by
  cases a; cases b; cases h; rfl

/-- The grammar without rules. -/
def empty : Grammar :=
  ⟨[], List.nodup_nil⟩

instance : EmptyCollection Grammar := ⟨empty⟩

instance : Inhabited Grammar := ⟨empty⟩

/-- Adds a rule, folding it into the existing one if its name is defined. -/
def add (g : Grammar) (rule : Rule) : Grammar :=
  ⟨rule.addTo g.rules, rule.nodup_map_name_addTo g.rules g.nodup_names⟩

/-- The grammar of the given rules, added one after another. -/
def ofRules (rules : List Rule) : Grammar :=
  rules.foldl add empty

/-- The rules of `a`, then those of `b`, added one after another. -/
def union (a b : Grammar) : Grammar :=
  ofRules (a.rules ++ b.rules)

instance : Union Grammar := ⟨union⟩

/-- The expression that a name stands for. -/
def find? (g : Grammar) (name : String) : Option Expr :=
  (g.rules.find? fun rule ↦ rule.name == name).map Rule.body

def contains (g : Grammar) (name : String) : Bool :=
  (g.find? name).isSome

/-- The defined names, in grammar order. -/
def names (g : Grammar) : List String :=
  g.rules.map Rule.name

def size (g : Grammar) : Nat :=
  g.rules.length

def isEmpty (g : Grammar) : Bool :=
  g.rules.isEmpty

/-- Whether two grammars have the same rules, in whatever order. -/
def sameRules (a b : Grammar) : Bool :=
  a.size == b.size && a.rules.all fun rule ↦ b.rules.contains rule

theorem sameRules_iff (a b : Grammar) :
    a.sameRules b = true ↔ a.size = b.size ∧ ∀ rule ∈ a.rules, rule ∈ b.rules := by
  simp [sameRules]

end Grammar

end Ebnf
