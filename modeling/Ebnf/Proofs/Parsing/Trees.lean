import Ebnf.Proofs.Parsing.Depth
import Mathlib

/-!
The trees of parsing are derivation trees of the grammar. The search begins at a character and
ends in front of one, and its trees hold what lies between. The tree of a whole input is a node of
the start symbol, the trees below any node of it are a forest of the body of its name, and the
input is its text.
-/

set_option autoImplicit false
set_option relaxedAutoImplicit false

namespace Ebnf.Backtracking

open ParseTree

section Positions

variable {input : String} {pos : input.Pos} {m : Match} {text : String}

/-- A match whose text is at a position ends at a position behind the text. -/
theorem exists_stop_of_match (h : (input.sliceFrom pos).copy.toList = text.toList ++ m.rest) :
    ∃ (stop : input.Pos) (hle : pos ≤ stop), stop.offset.byteIdx = covered input m ∧
      (input.sliceFrom stop).copy.toList = m.rest ∧ (input.slice pos stop hle).copy = text := by
  have hrest : (input.sliceFrom pos).copy = text ++ String.ofList m.rest := by
    rw [← String.toList_inj, String.toList_append, String.toList_ofList, h]
  have hpos := pos.splits
  rw [hrest] at hpos
  have hinput : input = (input.sliceTo pos).copy ++ text ++ String.ofList m.rest := by
    rw [String.append_assoc]
    exact hpos.eq_append
  have hstop := String.Pos.splits_ofEqAppend hinput
  obtain ⟨hle, htext⟩ := String.copy_slice_eq_iff_splits.mpr ⟨_, _, hpos, hstop⟩
  exact ⟨_, hle, (covered_of_splits hstop).symm,
    by rw [hstop.copy_sliceFrom_eq, String.toList_ofList], htext⟩

end Positions

section Parse

variable {compiled : Compiled} {input : String} {t : ParseTree}

/-- The tree of an input is a forest of the start symbol that holds the input. -/
theorem hasForest_of_parse (h : parse compiled input = .ok t) :
    HasForest compiled.grammar.definitions (.symbol compiled.start) [t] ∧ t.text = input := by
  rcases parse_cases compiled input with ⟨m, hm, hrest, _, htrees, hok⟩ | ⟨-, herror⟩
  · rw [hok] at h
    cases h
    obtain ⟨cs, heq, hparse⟩ := findsOnly_derivations _ _ _ input.toList m hm
    have htext := hparse.text
    rw [htrees, textOf_singleton] at htext
    rw [hrest, List.append_nil] at heq
    exact ⟨htrees ▸ hparse.forest, String.toList_inj.mp (htext.trans heq.symm)⟩
  · rw [herror] at h
    cases h

end Parse

/-- The tree of a parsed input is a derivation tree of the input from the start symbol, with no
empty leaf. Wherever and on however many levels an expression is looked for, each match ends at a
character, and its trees are a forest of the expression that holds the text up to there. -/
theorem trees_of_parse (compiled : Compiled) (input : String) :
    (∀ t, parse compiled input = .ok t → (∃ children, t = .node compiled.start children) ∧
      t.text = input ∧ (∀ leaf ∈ t.leaves, leaf ≠ "") ∧
      ∀ name, ∀ node ∈ t.findAll name, ∃ body, compiled.grammar.find? name = some body ∧
        HasForest compiled.grammar.definitions body node.children) ∧
    ∀ (n : Nat) (e : Expr) (pos : input.Pos),
      ∀ m ∈ derivations compiled.grammar n e (input.sliceFrom pos).copy.toList,
        HasForest compiled.grammar.definitions e m.trees ∧
        ∃ (stop : input.Pos) (hle : pos ≤ stop), stop.offset.byteIdx = covered input m ∧
          (input.sliceFrom stop).copy.toList = m.rest ∧
          (input.slice pos stop hle).copy = String.join (leavesOf m.trees) := by
  constructor
  · intro t hparse
    obtain ⟨hforest, htext⟩ := hasForest_of_parse hparse
    have hleaves := hforest.leaf_ne_empty
    have hchildren := hforest.children
    simp only [leavesOf, findAllIn, List.append_nil, Grammar.definitions_iff] at hleaves hchildren
    refine ⟨?_, htext, hleaves, hchildren⟩
    cases hforest with
    | symbol => exact ⟨_, rfl⟩
  · intro n e pos m hm
    obtain ⟨cs, heq, hparse⟩ := findsOnly_derivations compiled.grammar n e _ m hm
    rw [← hparse.text] at heq
    exact ⟨hparse.forest, exists_stop_of_match heq⟩

theorem trees_of_parse_digits :
    let compiled : Compiled := ⟨.ofRules [⟨"s", .seq (.terminal "é") (.star (.symbol "d")) []⟩,
      ⟨"d", .choice [.range ⟨'0', '9'⟩, .terminal ""]⟩], "s"⟩
    let input := "é12"
    let t : ParseTree := .node "s" [.leaf "é", .node "d" [.leaf "1"], .node "d" [.leaf "2"]]
    let digit : Expr := .range ⟨'0', '9'⟩
    let m : Match := ⟨[.leaf "1"], ['2']⟩
    parse compiled input = .ok t ∧ ((∃ children, t = .node compiled.start children) ∧
      t.text = input ∧ (∀ leaf ∈ t.leaves, leaf ≠ "") ∧
      ∀ name, ∀ node ∈ t.findAll name, ∃ body, compiled.grammar.find? name = some body ∧
        HasForest compiled.grammar.definitions body node.children) ∧
    ∃ pos : input.Pos, m ∈ derivations compiled.grammar 1 digit (input.sliceFrom pos).copy.toList ∧
      HasForest compiled.grammar.definitions digit m.trees ∧
      ∃ (stop : input.Pos) (hle : pos ≤ stop), stop.offset.byteIdx = covered input m ∧
        (input.sliceFrom stop).copy.toList = m.rest ∧
        (input.slice pos stop hle).copy = String.join (leavesOf m.trees) := by
  intro compiled input t digit m
  have hparse : parse compiled input = .ok t := by cbv
  have hpos := String.Pos.splits_ofEqAppend (show input = "é" ++ "12" by rfl)
  have hm : m ∈ derivations compiled.grammar 1 digit
      (input.sliceFrom (String.Pos.ofEqAppend (show input = "é" ++ "12" by rfl))).copy.toList := by
    rw [hpos.copy_sliceFrom_eq]
    exact mem_derivations_range_iff.mpr ⟨'1', ['2'], rfl, by decide, rfl⟩
  have htrees := trees_of_parse compiled input
  exact ⟨hparse, htrees.1 t hparse, _, hm, htrees.2 1 digit _ m hm⟩

end Ebnf.Backtracking
