import Ebnf.Proofs.Language.Meaning
import Ebnf.Proofs.Written.Grammar
import Mathlib.Data.List.Perm.Basic

/-!
Unions either way round. A name that both grammars define stands for the choice between the
alternatives of both, those of the grammar on the right first, and any other name for what it
stands for in the grammar that defines it. So the two unions of two grammars define the same
names, for the same alternatives in another order; written and read again they still do, as far
as the texts of the alternatives go.
-/

set_option autoImplicit false
set_option relaxedAutoImplicit false

namespace Ebnf

open Reading

/-- The body of the first rule of a name. -/
def Rule.bodyIn? (name : String) (rules : List Rule) : Option Expr :=
  (rules.find? fun rule ↦ rule.name == name).map body

theorem Rule.bodyIn?_cons (name : String) (rule : Rule) (rules : List Rule) :
    bodyIn? name (rule :: rules) =
      if rule.name = name then some rule.body else bodyIn? name rules := by
  by_cases h : rule.name = name <;> simp [bodyIn?, h]

theorem Rule.bodyIn?_eq_none {name : String} {rules : List Rule}
    (h : name ∉ rules.map Rule.name) : bodyIn? name rules = none := by
  rw [bodyIn?, Option.map_eq_none_iff, List.find?_eq_none]
  intro rule hmem hname
  exact h (List.mem_map.mpr ⟨rule, hmem, beq_iff_eq.mp hname⟩)

/-- What a name stands for that is defined by two expressions, or by one of them only. -/
def Expr.fold? : Option Expr → Option Expr → Option Expr :=
  Option.merge fun existing newer ↦ newer.mergeFront existing

theorem Rule.bodyIn?_addTo (name : String) (rule : Rule) (rules : List Rule) :
    bodyIn? name (rule.addTo rules) = Expr.fold? (bodyIn? name rules) (bodyIn? name [rule]) := by
  induction rules with
  | nil => by_cases h : rule.name = name <;> simp [addTo, bodyIn?, h, Expr.fold?]
  | cons old rules ih =>
    by_cases hold : old.name = rule.name
    · rw [addTo, if_pos hold, bodyIn?_cons, bodyIn?_cons, bodyIn?_cons]
      by_cases hname : old.name = name
      · simp [hname, ← hold, Expr.fold?]
      · have hrule : rule.name ≠ name := hold ▸ hname
        simp [hname, hrule, bodyIn?, Expr.fold?]
    · rw [addTo, if_neg hold, bodyIn?_cons, bodyIn?_cons, ih]
      by_cases hname : old.name = name
      · have hrule : rule.name ≠ name := fun h ↦ hold (hname.trans h.symm)
        simp [hname, hrule, bodyIn?, Expr.fold?]
      · simp [hname]

namespace Grammar

theorem find?_foldl_add {rules : List Rule} (hnodup : (rules.map Rule.name).Nodup) (g : Grammar)
    (name : String) : (rules.foldl add g).find? name =
      Expr.fold? (g.find? name) (Rule.bodyIn? name rules) := by
  induction rules generalizing g with
  | nil => simp [Rule.bodyIn?, Expr.fold?]
  | cons rule rules ih =>
    obtain ⟨hfresh, hrest⟩ := List.nodup_cons.mp hnodup
    have hadd : (g.add rule).find? name =
        Expr.fold? (g.find? name) (Rule.bodyIn? name [rule]) := rule.bodyIn?_addTo name g.rules
    rw [List.foldl_cons, ih hrest, hadd, Rule.bodyIn?_cons, Rule.bodyIn?_cons]
    by_cases hname : rule.name = name
    · rw [if_pos hname, if_pos hname, Rule.bodyIn?_eq_none (hname ▸ hfresh)]
      simp [Expr.fold?]
    · rw [if_neg hname, if_neg hname]
      simp [Rule.bodyIn?, Expr.fold?]

variable {a b : Grammar} {name : String}

theorem union_eq_foldl (a b : Grammar) : a.union b = b.rules.foldl add a := by
  rw [union, ofRules, List.foldl_append]
  exact congrArg (b.rules.foldl add ·) a.ofRules_rules

/-- Both grammars have a say in what a name stands for. -/
theorem find?_union (a b : Grammar) (name : String) :
    (a.union b).find? name = Expr.fold? (a.find? name) (b.find? name) := by
  rw [union_eq_foldl]
  exact find?_foldl_add b.nodup_names a name

theorem mem_names_iff {g : Grammar} : name ∈ g.names ↔ ∃ e, g.find? name = some e := by
  rw [← Option.isSome_iff_exists, find?, Option.isSome_map, List.find?_isSome]
  simp [names]

theorem mem_names_union : name ∈ (a.union b).names ↔ name ∈ a.names ∨ name ∈ b.names := by
  rw [mem_names_iff, mem_names_iff, mem_names_iff, find?_union, Expr.fold?]
  cases a.find? name <;> cases b.find? name <;> simp

theorem mem_rules_iff {g : Grammar} {rule : Rule} :
    rule ∈ g.rules ↔ g.find? rule.name = some rule.body :=
  g.definitions_iff

/-- The alternatives that a name has, none if it is not defined. -/
def alternativesOf (g : Grammar) (name : String) : List Expr :=
  (g.find? name).elim [] Expr.alternatives

/-- The texts of the alternatives that a name has. -/
def textsOf (g : Grammar) (name : String) : List String :=
  (g.alternativesOf name).map Expr.render

/-- The alternatives of both grammars, those of the grammar on the right first. -/
theorem alternativesOf_union (a b : Grammar) (name : String) :
    (a.union b).alternativesOf name = b.alternativesOf name ++ a.alternativesOf name := by
  rw [alternativesOf, alternativesOf, alternativesOf, find?_union, Expr.fold?]
  cases a.find? name <;> cases b.find? name <;> simp

theorem names_union_perm (a b : Grammar) : (a.union b).names.Perm (b.union a).names := by
  refine (List.perm_ext_iff_of_nodup (a.union b).nodup_names (b.union a).nodup_names).mpr ?_
  intro name
  show name ∈ (a.union b).names ↔ name ∈ (b.union a).names
  rw [mem_names_union, mem_names_union, or_comm]

theorem names_foldl_add {rules : List Rule} {g : Grammar}
    (h : ∀ rule ∈ rules, rule.name ∈ g.names) : (rules.foldl add g).names = g.names := by
  induction rules generalizing g with
  | nil => rfl
  | cons rule rules ih =>
    obtain ⟨hrule, hrest⟩ := List.forall_mem_cons.mp h
    have hadd : (g.add rule).names = g.names := rule.map_name_addTo_of_mem g.rules hrule
    rw [List.foldl_cons, ih (hadd ▸ hrest), hadd]

end Grammar

namespace Expr

theorem all_alternatives {p : Expr → Bool} (choice : ∀ es, p (.choice es) = es.all p) (e : Expr) :
    e.alternatives.all p = p e := by
  cases e with
  | choice es => exact (choice es).symm
  | _ => simp [alternatives]

theorem all_mergeFront {p : Expr → Bool} (choice : ∀ es, p (.choice es) = es.all p)
    (newer existing : Expr) : p (newer.mergeFront existing) = (p newer && p existing) := by
  rw [mergeFront_eq_choice, choice, List.all_append, all_alternatives choice,
    all_alternatives choice]

theorem nestingAll_append (es fs : List Expr) :
    nestingAll (es ++ fs) = max (nestingAll es) (nestingAll fs) := by
  induction es with
  | nil => exact (Nat.zero_max _).symm
  | cons e es ih => rw [List.cons_append, nestingAll, nestingAll, ih, Nat.max_assoc]

theorem nesting_mergeFront_comm (e f : Expr) :
    (e.mergeFront f).nesting = (f.mergeFront e).nesting := by
  rw [mergeFront_eq_choice, mergeFront_eq_choice, nesting, nesting, nestingAll_append,
    nestingAll_append, Nat.max_comm]

theorem nesting_fold?_comm (e f : Option Expr) :
    (fold? e f).map nesting = (fold? f e).map nesting := by
  cases e <;> cases f <;> simp [fold?, nesting_mergeFront_comm]

theorem alternatives_inOrder (first : Expr) {rest : List Expr} (h : rest ≠ []) :
    (inOrder first rest).alternatives = [inOrder first rest] := by
  obtain ⟨second, others, rfl⟩ := List.exists_cons_of_ne_nil h
  rfl

/-- The normal form is a choice only where the expression is one. -/
theorem alternatives_normalize (e : Expr) :
    e.normalize.alternatives = e.alternatives.map normalize := by
  cases e with
  | symbol | terminal | range | star | plus => rfl
  | seq first second rest =>
    have hseveral : first.normalize.tailItems ++ second.normalize.itemsOf ++
        (normalizeAll rest).flatMap itemsOf ≠ [] := by simp [itemsOf]
    have halternatives : (seq first second rest).alternatives = [seq first second rest] := rfl
    rw [halternatives, List.map_singleton, normalize, alternatives_inOrder _ hseveral]
  | choice es => rw [normalize, normalizeAll_eq_map, alternatives_choice, alternatives_choice]
  | optional e =>
    show (optionOf e.normalize).alternatives = [optionOf e.normalize]
    unfold optionOf
    split <;> rfl

theorem map_render_alternatives_normalize (e : Expr) :
    e.normalize.alternatives.map render = e.alternatives.map render := by
  rw [alternatives_normalize, List.map_map]
  exact List.map_congr_left fun f _ ↦ f.render_normalize

end Expr

namespace Grammar

section Readable

variable {a b : Grammar}

theorem hasReadableNames_union (ha : a.hasReadableNames = true) (hb : b.hasReadableNames = true) :
    (a.union b).hasReadableNames = true := by
  rw [hasReadableNames, List.all_eq_true] at *
  refine forall_mem_ofRules ?_ (List.forall_mem_append.mpr ⟨ha, hb⟩)
  intro rule old hrule hold
  rw [Bool.and_eq_true] at *
  refine ⟨hold.1, ?_⟩
  rw [Expr.all_mergeFront Expr.hasReadableNames_choice, hrule.2, hold.2, Bool.and_self]

theorem hasReadableRanges_union (ha : a.hasReadableRanges = true)
    (hb : b.hasReadableRanges = true) : (a.union b).hasReadableRanges = true := by
  rw [hasReadableRanges, List.all_eq_true] at *
  refine forall_mem_ofRules ?_ (List.forall_mem_append.mpr ⟨ha, hb⟩)
  intro rule old hrule hold
  rw [Expr.all_mergeFront Expr.hasReadableRanges_choice, hrule, hold, Bool.and_self]

/-- Either way round the groups of a union nest as deep. -/
theorem nesting_union_le {n : Nat} (h : ∀ rule ∈ (a.union b).rules, rule.body.nesting ≤ n) :
    ∀ rule ∈ (b.union a).rules, rule.body.nesting ≤ n := by
  intro rule hmem
  have hnesting := Expr.nesting_fold?_comm (a.find? rule.name) (b.find? rule.name)
  rw [← find?_union, ← find?_union, mem_rules_iff.mp hmem, Option.map_some,
    Option.map_eq_some_iff] at hnesting
  obtain ⟨e, he, hsame⟩ := hnesting
  rw [← hsame]
  exact h ⟨rule.name, e⟩ (mem_rules_iff.mpr he)

theorem names_normalize (g : Grammar) : g.normalize.names = g.names :=
  List.map_map

theorem find?_normalize (g : Grammar) (name : String) :
    g.normalize.find? name = (g.find? name).map Expr.normalize := by
  rw [find?, find?, normalize, List.find?_map, Option.map_map, Option.map_map]
  rfl

/-- The normal form has the alternatives of the grammar, as far as their texts go. -/
theorem textsOf_normalize (g : Grammar) (name : String) :
    g.normalize.textsOf name = g.textsOf name := by
  rw [textsOf, textsOf, alternativesOf, alternativesOf, find?_normalize]
  cases g.find? name with
  | none => rfl
  | some e => exact e.map_render_alternatives_normalize

end Readable

/-- Both unions of two grammars define the same names, each for the same alternatives the same
number of times, in an order of its own; with itself a grammar has all its alternatives twice.
If what the grammars hold can be read, so can the texts of both unions, in any layout, with the
same names in the same order and, as texts, the same alternatives in the same order. -/
theorem alternatives_union_perm (a b : Grammar) :
    (a.union b).names.Perm (b.union a).names ∧
    (∀ name, ((a.union b).alternativesOf name).Perm ((b.union a).alternativesOf name)) ∧
    (a.union a).names = a.names ∧
    (∀ name, (a.union a).alternativesOf name = a.alternativesOf name ++ a.alternativesOf name) ∧
    (a.hasReadableNames = true → b.hasReadableNames = true →
      a.hasReadableRanges = true → b.hasReadableRanges = true →
      (∀ rule ∈ (a.union b).rules, rule.body.nesting ≤ maxNesting) →
      ∀ layout layout' : Layout, ∃ g h,
        Grammar.read ((a.union b).renderWith layout) = .ok g ∧
        Grammar.read ((b.union a).renderWith layout') = .ok h ∧
        g.names = (a.union b).names ∧ h.names = (b.union a).names ∧
        ∀ name, g.textsOf name = (a.union b).textsOf name ∧
          h.textsOf name = (b.union a).textsOf name ∧ (g.textsOf name).Perm (h.textsOf name)) := by
  have hperm (name : String) :
      ((a.union b).alternativesOf name).Perm ((b.union a).alternativesOf name) := by
    rw [alternativesOf_union, alternativesOf_union]
    exact List.perm_append_comm
  refine ⟨names_union_perm a b, hperm, ?_, alternativesOf_union a a, ?_⟩
  · rw [union_eq_foldl]
    exact names_foldl_add fun rule hmem ↦ List.mem_map_of_mem hmem
  · intro hnames hnames' hranges hranges' hdepth layout layout'
    have hread := read_renderWith_of_readable (hasReadableNames_union hnames hnames')
      (hasReadableRanges_union hranges hranges') hdepth layout
    have hread' := read_renderWith_of_readable (hasReadableNames_union hnames' hnames)
      (hasReadableRanges_union hranges' hranges) (nesting_union_le hdepth) layout'
    refine ⟨_, _, hread, hread', names_normalize _, names_normalize _, fun name ↦ ?_⟩
    rw [textsOf_normalize, textsOf_normalize]
    exact ⟨rfl, rfl, (hperm name).map Expr.render⟩

theorem alternatives_union_perm_regrouped :
    let a : Grammar := ⟨[⟨"s", .choice [.symbol "x", .optional (.plus (.symbol "y"))]⟩,
      ⟨"t", .terminal ";"⟩], by decide⟩
    let b : Grammar := ⟨[⟨"u", .choice []⟩,
      ⟨"s", .seq (.seq (.symbol "x") (.range ⟨'z', 'a'⟩) []) (.terminal "\"") []⟩], by decide⟩
    a.hasReadableNames = true ∧ b.hasReadableNames = true ∧
      a.hasReadableRanges = true ∧ b.hasReadableRanges = true ∧
      (∀ rule ∈ (a.union b).rules, rule.body.nesting ≤ maxNesting) ∧
      (a.union b).names = ["s", "t", "u"] ∧ (b.union a).names = ["u", "s", "t"] ∧
      ∃ g h, Grammar.read ((a.union b).renderWith {}) = .ok g ∧
        Grammar.read ((b.union a).renderWith ⟨.crlf, true⟩) = .ok h ∧
        g.names = (a.union b).names ∧ h.names = (b.union a).names ∧
        ∀ name, g.textsOf name = (a.union b).textsOf name ∧
          h.textsOf name = (b.union a).textsOf name ∧
          (g.textsOf name).Perm (h.textsOf name) := by
  intro a b
  have hnames : a.hasReadableNames = true ∧ b.hasReadableNames = true := by decide
  have hranges : a.hasReadableRanges = true ∧ b.hasReadableRanges = true := by decide
  have hdepth : ∀ rule ∈ (a.union b).rules, rule.body.nesting ≤ maxNesting := by decide
  have horder : (a.union b).names = ["s", "t", "u"] ∧ (b.union a).names = ["u", "s", "t"] := by
    decide
  obtain ⟨-, -, -, -, hread⟩ := alternatives_union_perm a b
  exact ⟨hnames.1, hnames.2, hranges.1, hranges.2, hdepth, horder.1, horder.2,
    hread hnames.1 hnames.2 hranges.1 hranges.2 hdepth {} ⟨.crlf, true⟩⟩

end Grammar

end Ebnf
