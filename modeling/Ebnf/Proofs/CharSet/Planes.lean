import Ebnf.Proofs.CharSet.Members

/-!
The planes in which a character set has members. For a set that is given by listing its characters
the test for a plane is exact: a range that is not inverted has a member in each plane from that
of its first to that of its last character, since a plane behind the first begins with a
character, and a union has a member where one of its parts has.
-/

set_option autoImplicit false
set_option relaxedAutoImplicit false

namespace Ebnf.CharSet

/-- The set is given by listing its characters, not by a property that they have. -/
inductive IsListed : CharSet → Prop
  | horizontalSpace : IsListed .horizontalSpace
  | lineBreaks : IsListed .lineBreaks
  | whiteSpace : IsListed .whiteSpace
  | asciiDigits : IsListed .asciiDigits
  | single (c : Char) : IsListed (.single c)
  | ranges (rs : List CharRange) : IsListed (.ranges rs)
  | union {parts : List CharSet} : (∀ part ∈ parts, IsListed part) → IsListed (.union parts)

section Planes

variable {plane : Nat} {r : CharRange} {s : CharSet}

/-- Surrogates lie in the first plane, so every other one begins with a character. -/
theorem exists_plane_start (hfirst : plane ≠ 0) (hcount : plane < planeCount) :
    ∃ c : Char, c.toNat = plane * planeSize := by
  have hvalid : (plane * planeSize).isValidChar := by
    unfold planeCount at hcount
    unfold planeSize
    right
    omega
  exact ⟨Char.ofNatAux _ hvalid, charAt?_eq_some_iff.mp (dif_pos hvalid)⟩

theorem exists_of_rangeMeets (h : rangeMeets plane r = true) :
    ∃ c, planeOf c = plane ∧ r.contains c = true := by
  simp only [rangeMeets, CharRange.isInverted, Bool.and_eq_true, Bool.not_eq_true',
    decide_eq_false_iff_not, decide_eq_true_eq, Char.not_lt] at h
  obtain ⟨⟨horder, hfirst⟩, hlast⟩ := h
  by_cases heq : planeOf r.first = plane
  · exact ⟨r.first, heq, (r.contains_iff _).mpr ⟨Std.le_refl _, horder⟩⟩
  · -- The range goes on into the plane from an earlier one, so it has the beginning of the plane.
    have hlt : planeOf r.first < plane := Nat.lt_of_le_of_ne hfirst heq
    obtain ⟨c, hc⟩ := exists_plane_start (Nat.ne_zero_of_lt hlt)
      (Nat.lt_of_le_of_lt hlast (planeOf_lt r.last))
    have hplane : planeOf c = plane := by
      rw [planeOf, hc, Nat.mul_div_cancel _ (by decide)]
    refine ⟨c, hplane, (r.contains_iff c).mpr ⟨?_, ?_⟩⟩
    · exact (lt_of_planeOf_lt (hplane ▸ hlt)).le
    · show c.toNat ≤ r.last.toNat
      rw [hc]
      exact (Nat.mul_le_mul_right _ hlast).trans (Nat.div_mul_le_self _ _)

/-- Where a listed set may have members it has some. -/
theorem IsListed.exists_of_mayMeet (h : s.IsListed) (hmeet : s.mayMeet plane = true) :
    ∃ c, planeOf c = plane ∧ s.contains c = true := by
  induction h with
  | horizontalSpace | whiteSpace =>
    obtain rfl : plane = 0 := by simpa [mayMeet] using hmeet
    exact ⟨' ', by decide, by decide⟩
  | lineBreaks =>
    obtain rfl : plane = 0 := by simpa [mayMeet] using hmeet
    exact ⟨'\n', by decide, by decide⟩
  | asciiDigits =>
    obtain rfl : plane = 0 := by simpa [mayMeet] using hmeet
    exact ⟨'0', by decide, by decide⟩
  | single c =>
    rw [mayMeet, beq_iff_eq] at hmeet
    refine ⟨c, hmeet, ?_⟩
    rw [contains, beq_self_eq_true]
  | ranges rs =>
    rw [mayMeet, List.any_eq_true] at hmeet
    obtain ⟨r, hmem, hr⟩ := hmeet
    obtain ⟨c, hplane, hc⟩ := exists_of_rangeMeets hr
    refine ⟨c, hplane, ?_⟩
    rw [contains, List.any_eq_true]
    exact ⟨r, hmem, hc⟩
  | @union parts _ ih =>
    rw [mayMeet, anyMayMeet_eq_any, List.any_eq_true] at hmeet
    obtain ⟨part, hmem, hpart⟩ := hmeet
    obtain ⟨c, hplane, hc⟩ := ih part hmem hpart
    refine ⟨c, hplane, ?_⟩
    rw [contains, anyContains_eq_any, List.any_eq_true]
    exact ⟨part, hmem, hc⟩

end Planes

/-- A listed set passes the test for a plane exactly if one of its characters lies there. -/
theorem mayMeetPlane_iff_exists (s : CharSet) (h : s.IsListed) (plane : Nat) :
    s.mayMeetPlane plane = true ↔ ∃ c, planeOf c = plane ∧ s.contains c = true := by
  constructor
  · intro hmeet
    rw [mayMeetPlane, Bool.and_eq_true] at hmeet
    exact h.exists_of_mayMeet hmeet.2
  · rintro ⟨c, rfl, hc⟩
    exact mayMeetPlane_of_contains hc

theorem mayMeetPlane_iff_exists_inside_range :
    let s : CharSet :=
      .union [.ranges [⟨'𐀀', 'a'⟩], .union [.ranges [⟨'\uD7FF', '𠀁'⟩], .single '0']]
    s.IsListed ∧ s.mayMeetPlane 1 = true ∧ s.mayMeetPlane 3 = false ∧
      (∃ c, planeOf c = 1 ∧ s.contains c = true) ∧
      ¬∃ c, planeOf c = 3 ∧ s.contains c = true := by
  intro s
  have hs : s.IsListed := by
    refine .union (List.forall_mem_cons.mpr ⟨.ranges _, List.forall_mem_singleton.mpr ?_⟩)
    refine .union (List.forall_mem_cons.mpr ⟨.ranges _, ?_⟩)
    exact List.forall_mem_singleton.mpr (.single _)
  have hsecond : s.mayMeetPlane 1 = true := by decide
  have hfourth : s.mayMeetPlane 3 = false := by decide
  refine ⟨hs, hsecond, hfourth, (mayMeetPlane_iff_exists s hs 1).mp hsecond, fun hmem ↦ ?_⟩
  rw [(mayMeetPlane_iff_exists s hs 3).mpr hmem] at hfourth
  cases hfourth

end Ebnf.CharSet
