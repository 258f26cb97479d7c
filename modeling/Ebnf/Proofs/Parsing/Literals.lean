import Ebnf.Proofs.CharSet.Members
import Ebnf.Proofs.Parsing.Compiled
import Ebnf.Proofs.Parsing.Trees

/-!
Grammars of literals: one rule, whose body is a choice between fixed texts, a character set or a
range of characters. Such a grammar is written, read again and compiled as it is. The engine then
parses exactly the texts that are meant, each to a node of the one symbol with the text as its
only leaf, whatever the characters in it mean in grammar text.
-/

set_option autoImplicit false
set_option relaxedAutoImplicit false

namespace Ebnf

open Backtracking ParseTree Reading

/-- The trees of a text: a leaf, or none if it is empty. -/
def leafOf (text : String) : List ParseTree :=
  if text = "" then [] else [.leaf text]

@[simp] theorem textOf_leafOf (text : String) : textOf (leafOf text) = text := by
  unfold leafOf
  split
  · next h => rw [h]; rfl
  · exact textOf_leaf text

theorem leafOf_singleton (c : Char) :
    leafOf (String.singleton c) = [.leaf (String.singleton c)] := by
  simp [leafOf]

/-- The expression derives the texts with a property, on fewer levels than are looked at, and its
trees are a leaf that holds one of them. -/
structure IsLiteral (defs : Definitions) (e : Expr) (P : String → Prop) : Prop where
  derives : ∀ text, P text → DerivesWithin defs maxDepth e text.toList
  forest : ∀ ts, HasForest defs e ts → ∃ text, P text ∧ ts = leafOf text

theorem CharSet.toExpr_eq_oneOf (s : CharSet) :
    s.toExpr = .oneOf (s.members.map String.singleton) := by
  rw [toExpr, Expr.oneOf, List.map_map]
  rfl

section Literals

variable {defs : Definitions}

theorem eq_leafOf_of_hasForest {text : String} {ts : List ParseTree}
    (h : HasForest defs (.terminal text) ts) : ts = leafOf text := by
  cases h with
  | terminal hne => rw [leafOf, if_neg hne]
  | epsilon => rfl

theorem isLiteral_oneOf (texts : List String) :
    IsLiteral defs (.oneOf texts) (· ∈ texts) where
  derives text h := .choice (List.mem_map_of_mem h) .terminal
  forest ts h := by
    cases h with
    | choice hmem hforest =>
      obtain ⟨text, htext, rfl⟩ := List.mem_map.mp hmem
      exact ⟨text, htext, eq_leafOf_of_hasForest hforest⟩

theorem isLiteral_toExpr (s : CharSet) :
    IsLiteral defs s.toExpr fun text ↦ ∃ c, s.contains c = true ∧ text = String.singleton c := by
  have hmem (text : String) : text ∈ s.members.map String.singleton ↔
      ∃ c, s.contains c = true ∧ text = String.singleton c := by
    simp only [List.mem_map, CharSet.mem_members_iff, eq_comm]
  have h : IsLiteral defs (.oneOf (s.members.map String.singleton)) _ := isLiteral_oneOf _
  rw [← s.toExpr_eq_oneOf] at h
  simpa only [hmem] using h

theorem isLiteral_range (r : CharRange) : IsLiteral defs (.range r) fun text ↦
    ∃ c, (r.first ≤ c ∧ c ≤ r.last) ∧ text = String.singleton c where
  derives := by
    rintro _ ⟨c, hc, rfl⟩
    rw [String.toList_singleton]
    exact .range ((r.contains_iff c).mpr hc)
  forest ts h := by
    cases h with
    | @range _ c hc =>
      exact ⟨_, ⟨c, (r.contains_iff c).mp hc, rfl⟩, (leafOf_singleton c).symm⟩

end Literals

section Parse

variable {g : Grammar} {name : String} {body : Expr} {P : String → Prop}

theorem parse_eq_ok_iff_of_isLiteral (hdef : g.definitions name body)
    (h : IsLiteral g.definitions body P) {input : String} {t : ParseTree} :
    parse ⟨g, name⟩ input = .ok t ↔ P input ∧ t = .node name (leafOf input) := by
  have hparse {t : ParseTree} (ht : parse ⟨g, name⟩ input = .ok t) :
      P input ∧ t = .node name (leafOf input) := by
    obtain ⟨hforest, rfl⟩ := hasForest_of_parse ht
    cases hforest with
    | @symbol _ other ts hother hbody =>
      have heq : other = body := by
        rw [g.definitions_iff] at hdef hother
        exact Option.some.inj (hother.symm.trans hdef)
      subst heq
      obtain ⟨text, hP, rfl⟩ := h.forest ts hbody
      have htext : (ParseTree.node name (leafOf text)).text = text := by
        rw [← textOf_singleton, textOf_node, textOf_leafOf]
      rw [htext]
      exact ⟨hP, rfl⟩
  refine ⟨hparse, ?_⟩
  rintro ⟨hP, rfl⟩
  have hderived : IsDerived ⟨g, name⟩ input.toList := .symbol hdef (h.derives input hP)
  obtain ⟨t, ht⟩ := parse_isOk_iff.mpr hderived
  rw [ht, (hparse ht).2]

theorem parse_eq_ok_iff_of_isLiteral_singleton {Q : Char → Prop} (hdef : g.definitions name body)
    (h : IsLiteral g.definitions body fun text ↦ ∃ c, Q c ∧ text = String.singleton c)
    {input : String} {t : ParseTree} : parse ⟨g, name⟩ input = .ok t ↔
      ∃ c, Q c ∧ input = String.singleton c ∧ t = .node name [.leaf input] := by
  rw [parse_eq_ok_iff_of_isLiteral hdef h]
  constructor
  · rintro ⟨⟨c, hc, rfl⟩, rfl⟩
    exact ⟨c, hc, rfl, by rw [leafOf_singleton]⟩
  · rintro ⟨c, hc, rfl, rfl⟩
    exact ⟨⟨c, hc, rfl⟩, by rw [leafOf_singleton]⟩

end Parse

theorem nestingAll_map_terminal (texts : List String) :
    Expr.nestingAll (texts.map .terminal) = 0 := by
  induction texts with
  | nil => rfl
  | cons text texts ih => rw [List.map_cons, Expr.nestingAll, ih, Expr.nesting, Nat.max_self]

namespace Grammar

section Single

variable {name : String} {body : Expr}

theorem definitions_single : (ofRules [⟨name, body⟩]).definitions name body :=
  List.mem_singleton_self _

/-- A rule in normal form that can be read is compiled as it is. -/
theorem compileWith_single (hname : isReadableName name = true)
    (hnames : body.hasReadableNames = true) (hranges : body.hasReadableRanges = true)
    (hdepth : body.nesting ≤ maxNesting) (hnormal : body.normalize = body) :
    (ofRules [⟨name, body⟩]).compileWith .backtracking name =
      .ok ⟨ofRules [⟨name, body⟩], name⟩ := by
  have hrules : (ofRules [⟨name, body⟩]).rules = [⟨name, body⟩] := rfl
  have hnormalize : (ofRules [⟨name, body⟩]).normalize = ofRules [⟨name, body⟩] := by
    refine ext_rules ?_
    show (ofRules [⟨name, body⟩]).rules.map Rule.normalize = _
    rw [hrules, List.map_singleton, Rule.normalize, hnormal]
  have hcompile := @compileWith_of_readable (ofRules [⟨name, body⟩]) name
    (by simp [hasReadableNames, hrules, hname, hnames])
    (by simp [hasReadableRanges, hrules, hranges])
    (by simpa [hrules] using hdepth)
    (by simp [contains, find?, hrules])
  rwa [hnormalize] at hcompile

theorem compileWith_oneOf (hname : isReadableName name = true) (texts : List String) :
    (ofRules [⟨name, .oneOf texts⟩]).compileWith .backtracking name =
      .ok ⟨ofRules [⟨name, .oneOf texts⟩], name⟩ := by
  refine compileWith_single hname ?_ ?_ ?_ ?_
  · simp [Expr.oneOf, Expr.hasReadableNames]
  · simp [Expr.oneOf, Expr.hasReadableRanges]
  · rw [Expr.oneOf, Expr.nesting, nestingAll_map_terminal]
    decide
  · simp [Expr.oneOf, Expr.normalize]

theorem compileWith_toExpr (hname : isReadableName name = true) (s : CharSet) :
    (ofRules [⟨name, s.toExpr⟩]).compileWith .backtracking name =
      .ok ⟨ofRules [⟨name, s.toExpr⟩], name⟩ := by
  rw [s.toExpr_eq_oneOf]
  exact compileWith_oneOf hname _

theorem compileWith_range (hname : isReadableName name = true) {r : CharRange}
    (hr : r.isReadable = true) : (ofRules [⟨name, .range r⟩]).compileWith .backtracking name =
      .ok ⟨ofRules [⟨name, .range r⟩], name⟩ := by
  refine compileWith_single hname rfl hr ?_ rfl
  rw [Expr.nesting]
  decide

end Single

end Grammar

/-- A rule for a character set, for a list of texts or for a range compiles, and the engine parses
exactly the members of the set, the texts and the characters of the range, as a node of the
symbol with the input as its leaf. -/
theorem Grammar.parse_literals (name : String) (hname : isReadableName name = true) :
    (∀ s : CharSet, ∃ compiled,
      (ofRules [⟨name, s.toExpr⟩]).compileWith .backtracking name = .ok compiled ∧
      ∀ input t, Engine.backtracking.parse compiled input = .ok t ↔
        ∃ c, s.contains c = true ∧ input = String.singleton c ∧ t = .node name [.leaf input]) ∧
    (∀ texts : List String, ∃ compiled,
      (ofRules [⟨name, .oneOf texts⟩]).compileWith .backtracking name = .ok compiled ∧
      ∀ input t, Engine.backtracking.parse compiled input = .ok t ↔
        input ∈ texts ∧ t = .node name (leafOf input)) ∧
    ∀ r : CharRange, r.isReadable = true → ∃ compiled,
      (ofRules [⟨name, .range r⟩]).compileWith .backtracking name = .ok compiled ∧
      ∀ input t, Engine.backtracking.parse compiled input = .ok t ↔
        ∃ c, (r.first ≤ c ∧ c ≤ r.last) ∧ input = String.singleton c ∧
          t = .node name [.leaf input] := by
  refine ⟨fun s ↦ ⟨_, compileWith_toExpr hname s, fun input t ↦ ?_⟩,
    fun texts ↦ ⟨_, compileWith_oneOf hname texts, fun input t ↦ ?_⟩,
    fun r hr ↦ ⟨_, compileWith_range hname hr, fun input t ↦ ?_⟩⟩
  · exact parse_eq_ok_iff_of_isLiteral_singleton definitions_single (isLiteral_toExpr s)
  · exact parse_eq_ok_iff_of_isLiteral definitions_single (isLiteral_oneOf texts)
  · exact parse_eq_ok_iff_of_isLiteral_singleton definitions_single (isLiteral_range r)

theorem Grammar.parse_literals_delimiters :
    let s : CharSet := .union [.lineBreaks, .single '"', .single '\\']
    let texts := ["", "\";\n", "..."]
    let r : CharRange := ⟨'[', ']'⟩
    isReadableName "S" = true ∧ r.isReadable = true ∧
    (∃ compiled, (ofRules [⟨"S", s.toExpr⟩]).compileWith .backtracking "S" = .ok compiled ∧
      Engine.backtracking.parse compiled "\\" = .ok (.node "S" [.leaf "\\"])) ∧
    (∃ compiled, (ofRules [⟨"S", .oneOf texts⟩]).compileWith .backtracking "S" = .ok compiled ∧
      Engine.backtracking.parse compiled "" = .ok (.node "S" []) ∧
      Engine.backtracking.parse compiled "\";\n" = .ok (.node "S" [.leaf "\";\n"])) ∧
    ∃ compiled, (ofRules [⟨"S", .range r⟩]).compileWith .backtracking "S" = .ok compiled ∧
      Engine.backtracking.parse compiled "\\" = .ok (.node "S" [.leaf "\\"]) := by
  intro s texts r
  have hname : isReadableName "S" = true := by decide
  have hr : r.isReadable = true := by decide
  obtain ⟨hset, htexts, hrange⟩ := parse_literals "S" hname
  obtain ⟨ofSet, hofSet, hparseSet⟩ := hset s
  obtain ⟨ofTexts, hofTexts, hparseTexts⟩ := htexts texts
  obtain ⟨ofRange, hofRange, hparseRange⟩ := hrange r hr
  refine ⟨hname, hr, ⟨ofSet, hofSet, ?_⟩, ⟨ofTexts, hofTexts, ?_, ?_⟩, ofRange, hofRange, ?_⟩
  · exact (hparseSet _ _).mpr ⟨'\\', by decide, rfl, rfl⟩
  · exact (hparseTexts _ _).mpr ⟨by decide, rfl⟩
  · exact (hparseTexts _ _).mpr ⟨by decide, rfl⟩
  · exact (hparseRange _ _).mpr ⟨'\\', by decide, rfl, rfl⟩

end Ebnf
