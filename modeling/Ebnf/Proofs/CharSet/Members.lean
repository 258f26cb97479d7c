import Ebnf.CharSet.Members
import Mathlib

/-!
The members of character sets. A character of a set lies in a plane that the set may meet, so
nothing is lost with the planes that are passed over; and the planes come in order, each with its
characters in order. So the members are what a scan of all characters would find, and since lists
of ascending characters are determined by their elements, so are those of a union.
-/

set_option autoImplicit false
set_option relaxedAutoImplicit false

namespace Ebnf.CharSet

/-- All characters, in code point order. -/
def everyChar : List Char :=
  (List.range 0x110000).filterMap charAt?

section Planes

variable {c : Char} {n plane : Nat}

theorem toNat_lt (c : Char) : c.toNat < 0x110000 := by
  have hvalid : c.toNat.isValidChar := c.valid
  omega

theorem charAt?_eq_some_iff : charAt? n = some c ↔ c.toNat = n := by
  unfold charAt?
  split
  · next h =>
    rw [Option.some.injEq, ← Char.toNat_inj]
    show n = c.toNat ↔ c.toNat = n
    exact eq_comm
  · next h =>
    refine iff_of_false nofun ?_
    rintro rfl
    exact h c.valid

theorem planeOf_lt (c : Char) : planeOf c < planeCount :=
  Nat.div_lt_of_lt_mul (toNat_lt c)

theorem mem_planeChars_iff : c ∈ planeChars plane ↔ planeOf c = plane := by
  simp only [planeChars, List.mem_filterMap, List.mem_range, charAt?_eq_some_iff, planeOf]
  constructor
  · rintro ⟨i, hi, hc⟩
    rw [hc, Nat.mul_comm, Nat.mul_add_div (by decide), Nat.div_eq_of_lt hi, Nat.add_zero]
  · rintro rfl
    exact ⟨c.toNat % planeSize, Nat.mod_lt _ (by decide), (Nat.div_add_mod' _ _).symm⟩

theorem mem_everyChar (c : Char) : c ∈ everyChar :=
  List.mem_filterMap.mpr ⟨c.toNat, List.mem_range.mpr (toNat_lt c), charAt?_eq_some_iff.mpr rfl⟩

/-- Ascending code points are those of ascending characters. -/
theorem pairwise_lt_filterMap {f : Nat → Option Char} (hf : ∀ i c, f i = some c → c.toNat = n + i)
    (m : Nat) : ((List.range m).filterMap f).Pairwise (· < ·) := by
  rw [List.pairwise_filterMap]
  refine List.pairwise_lt_range.imp fun {i j} hlt c hc d hd ↦ ?_
  show c.toNat < d.toNat
  rw [hf i c hc, hf j d hd]
  exact Nat.add_lt_add_left hlt n

theorem pairwise_lt_everyChar : everyChar.Pairwise (· < ·) := by
  refine pairwise_lt_filterMap (n := 0) (fun i c hc ↦ ?_) _
  rw [Nat.zero_add]
  exact charAt?_eq_some_iff.mp hc

theorem pairwise_lt_planeChars (plane : Nat) : (planeChars plane).Pairwise (· < ·) :=
  pairwise_lt_filterMap (fun _ _ hc ↦ charAt?_eq_some_iff.mp hc) _

theorem lt_of_planeOf_lt {d : Char} (h : planeOf c < planeOf d) : c < d := by
  show c.toNat < d.toNat
  by_contra hle
  exact absurd (Nat.div_le_div_right (Nat.le_of_not_lt hle)) (Nat.not_le.mpr h)

end Planes

section Skipping

theorem planeOf_eq_zero {c : Char} (h : c.toNat < planeSize) : planeOf c = 0 :=
  Nat.div_eq_of_lt h

theorem toNat_lt_of_isWhiteSpace {c : Char} (h : Unicode.isWhiteSpace c = true) :
    c.toNat < planeSize := by
  simp only [Unicode.isWhiteSpace, Unicode.isHorizontalSpace, Unicode.isLineBreak, Bool.or_eq_true,
    Bool.and_eq_true, beq_iff_eq, decide_eq_true_eq] at h
  unfold planeSize
  omega

theorem toNat_lt_of_isAsciiDigit {c : Char} (h : isAsciiDigit c = true) : c.toNat < planeSize := by
  simp only [isAsciiDigit, Bool.and_eq_true, decide_eq_true_eq] at h
  exact Nat.lt_of_le_of_lt h.2 (by decide)

theorem rangeMeets_of_contains {r : CharRange} {c : Char} (h : r.contains c = true) :
    rangeMeets (planeOf c) r = true := by
  obtain ⟨hfirst, hlast⟩ := (r.contains_iff c).mp h
  have hinverted : r.isInverted = false := by
    simpa [CharRange.isInverted] using hfirst.trans hlast
  simp only [rangeMeets, hinverted, Bool.not_false, Bool.true_and, Bool.and_eq_true,
    decide_eq_true_eq]
  exact ⟨Nat.div_le_div_right hfirst, Nat.div_le_div_right hlast⟩

mutual

/-- A set may meet the planes in which its characters lie. -/
theorem mayMeet_of_contains {c : Char} :
    (s : CharSet) → s.contains c = true → s.mayMeet (planeOf c) = true
  | .horizontalSpace, h => by
    rw [contains] at h
    have hspace : Unicode.isWhiteSpace c = true := by rw [Unicode.isWhiteSpace, h, Bool.true_or]
    rw [mayMeet, planeOf_eq_zero (toNat_lt_of_isWhiteSpace hspace), beq_self_eq_true]
  | .lineBreaks, h => by
    rw [contains] at h
    have hspace : Unicode.isWhiteSpace c = true := by rw [Unicode.isWhiteSpace, h, Bool.or_true]
    rw [mayMeet, planeOf_eq_zero (toNat_lt_of_isWhiteSpace hspace), beq_self_eq_true]
  | .whiteSpace, h => by
    rw [contains] at h
    rw [mayMeet, planeOf_eq_zero (toNat_lt_of_isWhiteSpace h), beq_self_eq_true]
  | .asciiDigits, h => by
    rw [contains] at h
    rw [mayMeet, planeOf_eq_zero (toNat_lt_of_isAsciiDigit h), beq_self_eq_true]
  | .single m, h => by
    rw [contains, beq_iff_eq] at h
    rw [mayMeet, h, beq_self_eq_true]
  | .ranges rs, h => by
    rw [contains, List.any_eq_true] at h
    obtain ⟨r, hmem, hr⟩ := h
    rw [mayMeet, List.any_eq_true]
    exact ⟨r, hmem, rangeMeets_of_contains hr⟩
  | .union parts, h => by
    rw [contains] at h
    rw [mayMeet]
    exact anyMayMeet_of_anyContains parts h
  | .numeric, _ | .letters, _ | .alphanumeric, _ | .identifierStart, _ | .identifierContinue, _
  | .custom _, _ => by rw [mayMeet]

theorem anyMayMeet_of_anyContains {c : Char} :
    (ss : List CharSet) → anyContains ss c = true → anyMayMeet (planeOf c) ss = true
  | [], h => by rw [anyContains] at h; cases h
  | s :: ss, h => by
    rw [anyContains, Bool.or_eq_true] at h
    rw [anyMayMeet, Bool.or_eq_true]
    exact h.imp (mayMeet_of_contains s) (anyMayMeet_of_anyContains ss)

end

theorem mayMeetPlane_of_contains {s : CharSet} {c : Char} (h : s.contains c = true) :
    s.mayMeetPlane (planeOf c) = true := by
  simp only [mayMeetPlane, Bool.and_eq_true, decide_eq_true_eq]
  exact ⟨planeOf_lt c, mayMeet_of_contains s h⟩

end Skipping

section Members

variable {s : CharSet} {c : Char}

theorem mem_members_iff : c ∈ s.members ↔ s.contains c = true := by
  simp only [members, planeMembers, List.mem_flatMap, List.mem_filter, List.mem_range,
    mem_planeChars_iff]
  constructor
  · rintro ⟨plane, -, -, hc⟩
    exact hc
  · intro hc
    exact ⟨planeOf c, ⟨planeOf_lt c, mayMeetPlane_of_contains hc⟩, rfl, hc⟩

theorem pairwise_lt_members (s : CharSet) : s.members.Pairwise (· < ·) := by
  rw [members, List.pairwise_flatMap]
  refine ⟨fun plane _ ↦ (pairwise_lt_planeChars plane).filter _, ?_⟩
  refine (List.pairwise_lt_range.filter _).imp fun {plane plane'} hlt c hc d hd ↦ ?_
  obtain ⟨hc, -⟩ := List.mem_filter.mp hc
  obtain ⟨hd, -⟩ := List.mem_filter.mp hd
  refine lt_of_planeOf_lt ?_
  rwa [mem_planeChars_iff.mp hc, mem_planeChars_iff.mp hd]

/-- Listing the members plane by plane is scanning all characters for them. -/
theorem members_eq_filter (s : CharSet) : s.members = everyChar.filter s.contains := by
  refine (pairwise_lt_members s).eq_of_mem_iff (pairwise_lt_everyChar.filter _) fun c ↦ ?_
  rw [mem_members_iff, List.mem_filter]
  exact (and_iff_right (mem_everyChar c)).symm

/-- The members of a union are the members of its parts, each once and in order. -/
theorem members_union (parts : List CharSet) : (union parts).members =
    (parts.flatMap members).dedup.mergeSort fun c d ↦ decide (c ≤ d) := by
  have hperm := List.mergeSort_perm (parts.flatMap members).dedup fun c d ↦ decide (c ≤ d)
  have hle : ((parts.flatMap members).dedup.mergeSort fun c d ↦ decide (c ≤ d)).Pairwise (· ≤ ·) :=
    List.pairwise_mergeSort' (· ≤ ·) _
  have hne : ((parts.flatMap members).dedup.mergeSort fun c d ↦ decide (c ≤ d)).Nodup :=
    hperm.nodup_iff.mpr (List.nodup_dedup _)
  refine (pairwise_lt_members _).eq_of_mem_iff
    ((hle.and hne).imp fun {c d} h ↦ lt_of_le_of_ne h.1 h.2) fun c ↦ ?_
  rw [mem_members_iff, contains, anyContains_eq_any, List.any_eq_true, hperm.mem_iff,
    List.mem_dedup, List.mem_flatMap]
  exact exists_congr fun part ↦ and_congr_right fun _ ↦ mem_members_iff.symm

end Members

/-- Each character of a set lies in a plane that is not passed over, so listing the members plane
by plane gives what a scan of all characters gives: each member once, in code point order. The
choice that the set stands for has them as terminals in this order, and the members of a union are
those of its parts, sorted and without repetition. -/
theorem members_eq_scan (s : CharSet) (parts : List CharSet) :
    (∀ c, s.contains c = true → s.mayMeetPlane (planeOf c) = true) ∧
    s.members = everyChar.filter s.contains ∧
    s.members.Pairwise (· < ·) ∧
    (∀ c, c ∈ s.members ↔ s.contains c = true) ∧
    s.toExpr = .choice ((everyChar.filter s.contains).map fun c ↦ .terminal (String.singleton c)) ∧
    (union parts).members =
      (parts.flatMap members).dedup.mergeSort fun c d ↦ decide (c ≤ d) := by
  refine ⟨fun _ ↦ mayMeetPlane_of_contains, members_eq_filter s, pairwise_lt_members s,
    fun _ ↦ mem_members_iff, ?_, members_union parts⟩
  rw [toExpr, members_eq_filter]
  rfl

theorem members_eq_scan_across_planes :
    let s : CharSet := .union [.ranges [⟨'z', 'a'⟩, ⟨'\uFFFD', '𐀁'⟩],
      .custom fun c ↦ c.toNat % planeSize == 0]
    let c := '𐀀'
    s.contains c = true ∧ s.mayMeetPlane (planeOf c) = true ∧ c ∈ s.members ∧
      s.members = everyChar.filter s.contains ∧ s.members.Pairwise (· < ·) := by
  intro s c
  have hc : s.contains c = true := by decide
  obtain ⟨hplanes, hscan, hpairwise, hmem, -, -⟩ := members_eq_scan s []
  exact ⟨hc, hplanes c hc, (hmem c).mpr hc, hscan, hpairwise⟩

end Ebnf.CharSet
