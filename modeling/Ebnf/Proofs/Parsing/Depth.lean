import Ebnf.Proofs.Parsing.Search
import Mathlib.Order.Bounds.Basic

/-!
Parsing decides what the start symbol derives on the levels that are looked at. It succeeds on the
inputs that are derived so. On any other it reports the last byte offset up to which the input is
derived so, or the first of all if no beginning is.
-/

set_option autoImplicit false
set_option relaxedAutoImplicit false

namespace Ebnf.Backtracking

section Offsets

variable {input text behind : String} {stop : input.Pos} {m : Match}

theorem exists_splits {cs rest : List Char} (h : input.toList = cs ++ rest) :
    ∃ stop : input.Pos, stop.Splits (String.ofList cs) (String.ofList rest) := by
  have hinput : input = String.ofList cs ++ String.ofList rest := by
    rw [← String.ofList_append, ← h, String.ofList_toList]
  exact ⟨_, String.Pos.splits_ofEqAppend hinput⟩

theorem offset_add_size_of_splits (h : stop.Splits text behind) :
    stop.offset.byteIdx + behind.utf8ByteSize = input.utf8ByteSize := by
  rw [h.offset_eq_rawEndPos, String.byteIdx_rawEndPos, ← String.utf8ByteSize_append,
    ← h.eq_append]

/-- A match that leaves what is behind a position covers as many bytes as are in front of it. -/
theorem covered_of_splits (h : stop.Splits text (String.ofList m.rest)) :
    covered input m = stop.offset.byteIdx := by
  have hsize := offset_add_size_of_splits h
  rw [covered]
  omega

end Offsets

section Start

variable {compiled : Compiled} {input : String} {m : Match} {rest : List Char}

/-- The start symbol derives the text on the levels that are looked at. -/
def IsDerived (compiled : Compiled) (cs : List Char) : Prop :=
  DerivesWithin compiled.grammar.definitions (maxDepth + 1) (.symbol compiled.start) cs

/-- The byte offsets up to which the input is derived. -/
def derivedOffsets (compiled : Compiled) (input : String) : Set Nat :=
  {offset | ∃ stop : input.Pos, stop.offset.byteIdx = offset ∧
    IsDerived compiled (input.sliceTo stop).copy.toList}

theorem exists_mem_startMatches_iff : (∃ m ∈ startMatches compiled input, m.rest = rest) ↔
    ∃ cs, input.toList = cs ++ rest ∧ IsDerived compiled cs := by
  constructor
  · rintro ⟨m, hm, rfl⟩
    obtain ⟨cs, heq, hparse⟩ := findsOnly_derivations _ _ _ input.toList m hm
    exact ⟨cs, heq, hparse.derives⟩
  · rintro ⟨cs, heq, hderived⟩
    rw [startMatches, heq]
    exact findsAll_derivations _ _ _ cs hderived rest

theorem exists_trees_of_mem_startMatches (h : m ∈ startMatches compiled input) :
    ∃ children, m.trees = [.node compiled.start children] := by
  obtain ⟨body, -, inner, -, rfl⟩ := mem_derivations_symbol_iff.mp h
  exact ⟨inner.trees, rfl⟩

theorem derivedOffsets_eq (compiled : Compiled) (input : String) :
    derivedOffsets compiled input =
      {offset | offset ∈ (startMatches compiled input).map (covered input)} := by
  ext offset
  rw [Set.mem_ofPred_eq, List.mem_map]
  constructor
  · rintro ⟨stop, rfl, hderived⟩
    have hinput := congrArg String.toList stop.splits.eq_append
    rw [String.toList_append] at hinput
    obtain ⟨m, hm, hrest⟩ := exists_mem_startMatches_iff.mpr ⟨_, hinput, hderived⟩
    have hsplits := stop.splits
    rw [← String.ofList_toList (s := (input.sliceFrom stop).copy), ← hrest] at hsplits
    exact ⟨m, hm, covered_of_splits hsplits⟩
  · rintro ⟨m, hm, rfl⟩
    obtain ⟨cs, heq, hderived⟩ := exists_mem_startMatches_iff.mp ⟨m, hm, rfl⟩
    obtain ⟨stop, hsplits⟩ := exists_splits heq
    refine ⟨_, (covered_of_splits hsplits).symm, ?_⟩
    rwa [hsplits.copy_sliceTo_eq, String.toList_ofList]

/-- Parsing ends with the tree of a match that leaves nothing, or there is none. -/
theorem parse_cases (compiled : Compiled) (input : String) :
    (∃ m ∈ startMatches compiled input, m.rest = [] ∧
      ∃ t, m.trees = [t] ∧ parse compiled input = .ok t) ∨
    ((∀ m ∈ startMatches compiled input, m.rest ≠ []) ∧ parse compiled input =
      .error (.rejected (((startMatches compiled input).map (covered input)).foldl max 0))) := by
  rw [parse]
  cases hfind : (startMatches compiled input).find? fun m ↦ m.rest.isEmpty with
  | some m =>
    have hm := List.mem_of_find?_eq_some hfind
    have hrest := List.find?_some hfind
    obtain ⟨children, htrees⟩ := exists_trees_of_mem_startMatches hm
    refine .inl ⟨m, hm, List.isEmpty_iff.mp hrest, _, htrees, ?_⟩
    simp [htrees]
  | none =>
    refine .inr ⟨fun m hm hrest ↦ ?_, by simp⟩
    exact List.find?_eq_none.mp hfind m hm (List.isEmpty_iff.mpr hrest)

theorem parse_isOk_iff :
    (∃ t, parse compiled input = .ok t) ↔ IsDerived compiled input.toList := by
  have hwhole : (∃ m ∈ startMatches compiled input, m.rest = []) ↔
      IsDerived compiled input.toList := by
    rw [exists_mem_startMatches_iff]
    simp
  rw [← hwhole]
  rcases parse_cases compiled input with ⟨m, hm, hrest, t, -, hparse⟩ | ⟨hnone, hparse⟩
  · exact iff_of_true ⟨t, hparse⟩ ⟨m, hm, hrest⟩
  · refine iff_of_false ?_ fun ⟨m, hm, hrest⟩ ↦ hnone m hm hrest
    rw [hparse]
    exact nofun

end Start

/-- The largest of some numbers, or zero if there are none. -/
theorem isGreatest_foldl_max_or (ns : List Nat) :
    IsGreatest {n | n ∈ ns} (ns.foldl max 0) ∨ {n | n ∈ ns} = ∅ ∧ ns.foldl max 0 = 0 := by
  have hmax : ns.foldl max 0 = ns.max?.getD 0 := by rw [List.foldl_max, Nat.zero_max]
  cases hns : ns.max? with
  | none =>
    obtain rfl := List.max?_eq_none_iff.mp hns
    exact .inr ⟨by simp, rfl⟩
  | some n =>
    rw [hmax, hns]
    exact .inl (List.max?_eq_some_iff.mp hns)

/-- Parsing succeeds exactly on the inputs that the start symbol derives on the levels that are
looked at. Otherwise it reports the largest offset up to which the input is derived so, or zero. -/
theorem parse_decides (compiled : Compiled) (input : String) :
    ((∃ t, parse compiled input = .ok t) ↔ IsDerived compiled input.toList) ∧
    ((∃ offset, parse compiled input = .error (.rejected offset) ∧
        (IsGreatest (derivedOffsets compiled input) offset ∨
          derivedOffsets compiled input = ∅ ∧ offset = 0)) ↔
      ¬IsDerived compiled input.toList) := by
  refine ⟨parse_isOk_iff, ?_⟩
  rw [← parse_isOk_iff]
  rcases parse_cases compiled input with ⟨-, -, -, t, -, hparse⟩ | ⟨-, hparse⟩
  · rw [hparse]
    exact iff_of_false nofun (not_not_intro ⟨t, rfl⟩)
  · have hfurthest := isGreatest_foldl_max_or ((startMatches compiled input).map (covered input))
    rw [← derivedOffsets_eq] at hfurthest
    rw [hparse]
    exact iff_of_true ⟨_, rfl, hfurthest⟩ nofun

end Ebnf.Backtracking
