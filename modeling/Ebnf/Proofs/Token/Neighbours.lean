import Ebnf.Proofs.Token.Tiling
import Mathlib.Data.List.Infix

/-!
Tokens behind each other. Each ends where the next begins or in front of it, so the tokens that
lie in front of a token are those that come before it, and two tokens that reading takes one after
the other touch unless a token of white space stands between them.
-/

set_option autoImplicit false
set_option relaxedAutoImplicit false

namespace Ebnf.Token

section Order

variable {before after : List Char} {t : Token} {ts : List Token} {text : String}

theorem stop_eq (h : t.offset = byteLength before) :
    t.stop = byteLength (before ++ t.text.toList) := by
  rw [byteLength_append, byteLength_toList, ← h]
  rfl

theorem AreTokens.le_offset (h : AreTokens before ts after) (ht : t ∈ ts) :
    byteLength before ≤ t.offset := by
  obtain ⟨us, vs, rfl⟩ := List.append_of_mem ht
  rw [(areTokens_iff.mp h us t vs rfl).1, byteLength_append]
  exact Nat.le_add_right _ _

theorem AreTokens.pairwise (h : AreTokens before ts after) :
    ts.Pairwise fun t u ↦ t.stop ≤ u.offset := by
  induction ts generalizing before with
  | nil => exact .nil
  | cons t ts ih =>
    obtain ⟨hoffset, -, hrest⟩ := h
    refine .cons (fun u hu ↦ ?_) (ih hrest)
    rw [stop_eq hoffset]
    exact hrest.le_offset hu

/-- Tokens do not overlap. -/
theorem pairwise_significant (text : String) :
    (significant text).Pairwise fun t u ↦ t.stop ≤ u.offset :=
  (areTokens_scan text).pairwise.filter _

theorem offset_lt_stop (h : t ∈ significant text) : t.offset < t.stop := by
  have hne := mem_scan_ne_empty (List.mem_filter.mp h).1
  have hsize : 0 < t.text.utf8ByteSize := by
    rw [Nat.pos_iff_ne_zero, ne_eq, String.utf8ByteSize_eq_zero_iff]
    exact hne
  exact Nat.lt_add_of_pos_right hsize

theorem stop_le_size (h : t ∈ significant text) : t.stop ≤ text.utf8ByteSize := by
  obtain ⟨us, vs, heq⟩ := List.append_of_mem (List.mem_filter.mp h).1
  have htiling := isTiling_scan text
  have htext := htiling.text_eq
  rw [heq, joined_append, joined_cons, ← List.append_assoc] at htext
  rw [stop_eq (htiling.offset us t vs heq), ← byteLength_toList, ← htext,
    byteLength_append _ (joined vs)]
  exact Nat.le_add_right _ _

/-- The tokens that reading takes and that lie in front of a byte. -/
def endedBy (text : String) (start : Nat) : List Token :=
  (significant text).filter fun t ↦ t.stop ≤ start

theorem endedBy_offset {us : List Token} (h : significant text = ts ++ t :: us) :
    endedBy text t.offset = ts := by
  have hpairwise := pairwise_significant text
  have ht : t.offset < t.stop := offset_lt_stop (h ▸ List.mem_append_right ts List.mem_cons_self)
  rw [h, List.pairwise_append, List.pairwise_cons] at hpairwise
  obtain ⟨-, ⟨hafter, -⟩, hbefore⟩ := hpairwise
  have hall : (ts.filter fun u ↦ u.stop ≤ t.offset) = ts :=
    List.filter_eq_self.mpr fun u hu ↦ decide_eq_true (hbefore u hu t List.mem_cons_self)
  have hnone : ((t :: us).filter fun u ↦ u.stop ≤ t.offset) = [] := by
    refine List.filter_eq_nil_iff.mpr (List.forall_mem_cons.mpr ⟨?_, fun u hu ↦ ?_⟩)
    · simpa using ht
    · have hu' := offset_lt_stop (h ▸ List.mem_append_right ts (List.mem_cons_of_mem t hu))
      have hle := hafter u hu
      simp only [decide_eq_true_eq]
      omega
  rw [endedBy, h, List.filter_append, hall, hnone, List.append_nil]

theorem endedBy_size (text : String) : endedBy text text.utf8ByteSize = significant text :=
  List.filter_eq_self.mpr fun _ ht ↦ decide_eq_true (stop_le_size ht)

end Order

/-- White space stands between the two tokens of the text. -/
def IsApart (text : String) (t u : Token) : Prop :=
  ∃ space, space.kind = .whitespace ∧ [t, space, u] <:+: scan text

section Neighbours

variable {text : String} {before after : List Token} {t u : Token}

theorem offset_eq_stop (h : scan text = before ++ t :: u :: after) : u.offset = t.stop := by
  have hoffset := (isTiling_scan text).offset before t (u :: after) h
  have hnext := (isTiling_scan text).offset (before ++ [t]) u after (by simp [h])
  rw [hnext, joined_append, joined_cons, joined_nil, List.append_nil, stop_eq hoffset]

theorem kind_ne_whitespace (h : scan text = before ++ t :: u :: after)
    (ht : t.kind = .whitespace) : u.kind ≠ .whitespace := by
  intro hu
  have hfirst := (isTiling_scan text).covers before t (u :: after) h
  have hnext := (isTiling_scan text).covers (before ++ [t]) u after (by simp [h])
  rw [ht] at hfirst
  rw [hu] at hnext
  obtain ⟨c, cs, htext⟩ := List.exists_cons_of_ne_nil hnext.ne_nil
  have hspace : Unicode.isWhiteSpace c = true := hnext.inside c (by rw [htext]; exact .head _)
  have hother : Unicode.isWhiteSpace c = false := hfirst.after c (by rw [joined_cons, htext]; rfl)
  rw [hspace] at hother
  cases hother

/-- All that can stand between two tokens that reading takes one after the other is white space. -/
theorem offset_eq_stop_or_isApart (h : [t, u] <:+: significant text) :
    u.offset = t.stop ∨ IsApart text t u := by
  obtain ⟨front, back, heq⟩ := h
  rw [List.append_assoc] at heq
  obtain ⟨xs, ys, hscan, -, hys⟩ := List.filter_eq_append_iff.mp heq.symm
  obtain ⟨gap, zs, rfl, -, -, hzs⟩ := List.filter_eq_cons_iff.mp hys
  obtain ⟨spaces, rest, rfl, hspaces, -, -⟩ := List.filter_eq_cons_iff.mp hzs
  have hkind : ∀ space ∈ spaces, space.kind = .whitespace := fun space hmem ↦
    isTrivia_eq_true_iff.mp (by simpa using hspaces space hmem)
  rw [← List.append_assoc] at hscan
  match spaces, hkind with
  | [], _ => exact .inl (offset_eq_stop hscan)
  | [space], hkind =>
    refine .inr ⟨space, hkind space (List.mem_singleton_self _), xs ++ gap, rest, ?_⟩
    rw [hscan, List.append_assoc]
    rfl
  | first :: second :: others, hkind =>
    have htwo : scan text = (xs ++ gap ++ [t]) ++ first :: second :: (others ++ u :: rest) := by
      simpa using hscan
    exact absurd (hkind second (by simp)) (kind_ne_whitespace htwo (hkind first (by simp)))

end Neighbours

end Ebnf.Token
