import Ebnf.Proofs.Language.Meaning
import Ebnf.Proofs.Written.Grammar

/-!
Normal forms derive what the expressions derive that they come from. A sequence derives what its
items derive one behind the other, however they are grouped, and the option of a repetition is a
repetition from zero on. Both changes take levels away and add none, so the normal form needs no
more levels for a string.
-/

set_option autoImplicit false
set_option relaxedAutoImplicit false

namespace Ebnf

section Meaning

variable {defs : Definitions} {e : Expr} {es : List Expr} {cs : List Char}

theorem derive_itemsOf_iff : Derive defs e.itemsOf cs ↔ Derives defs e cs := by
  cases e with
  | seq first second rest => exact derives_seq_iff.symm
  | _ => exact derive_singleton_iff

theorem derive_flatMap_itemsOf_iff :
    Derive defs (es.flatMap Expr.itemsOf) cs ↔ Derive defs es cs := by
  induction es generalizing cs with
  | nil => rfl
  | cons e es ih =>
    rw [List.flatMap_cons, derive_append_iff, derive_cons_iff]
    simp only [derive_itemsOf_iff, ih]

theorem derives_optionOf_iff :
    Derives defs (.optionOf e) cs ↔ Derives defs (.optional e) cs := by
  cases e with
  | plus e =>
    rw [Expr.optionOf, derives_star_iff, derives_optional_iff, derives_plus_iff]
    constructor
    · rintro ⟨times, hes⟩
      cases times with
      | zero => exact .inl (derive_nil_iff.mp hes)
      | succ times => exact .inr ⟨times, hes⟩
    · rintro (rfl | ⟨times, hes⟩)
      · exact ⟨0, derive_nil_iff.mpr rfl⟩
      · exact ⟨times + 1, hes⟩
  | _ => rfl

/-- The normal form of an expression derives what the expression derives. -/
theorem derives_normalize_iff : Derives defs e.normalize cs ↔ Derives defs e cs := by
  induction e generalizing cs with
  | symbol | terminal | range => rfl
  | seq first second rest ih =>
    rw [← derive_itemsOf_iff, Expr.itemsOf_normalize_seq, ← List.flatMap_map Expr.normalize,
      derive_flatMap_itemsOf_iff, derives_seq_iff]
    exact derive_map_congr fun e he _ ↦ ih e he
  | choice es ih =>
    rw [Expr.normalize, Expr.normalizeAll_eq_map, derives_choice_iff, derives_choice_iff]
    simp only [List.mem_map, exists_exists_and_eq_and]
    exact exists_congr fun e ↦ and_congr_right fun he ↦ ih e he
  | optional e ih =>
    rw [Expr.normalize, derives_optionOf_iff, derives_optional_iff, derives_optional_iff, ih]
  | star e ih =>
    rw [Expr.normalize, derives_star_iff, derives_star_iff]
    exact exists_congr fun times ↦ derive_replicate_congr @ih times
  | plus e ih =>
    rw [Expr.normalize, derives_plus_iff, derives_plus_iff]
    exact exists_congr fun times ↦ derive_replicate_congr @ih (times + 1)

end Meaning

section Levels

variable {defs others : Definitions} {n : Nat} {e : Expr} {es : List Expr} {cs : List Char}

theorem DerivesWithin.items (h : DerivesWithin defs n e cs) : DeriveWithin defs n e.itemsOf cs := by
  cases e with
  | seq first second rest =>
    cases h with
    | seq hes => exact hes.mono (Nat.le_succ _)
  | _ => exact deriveWithin_singleton h

theorem DeriveWithin.items (h : DeriveWithin defs n es cs) :
    DeriveWithin defs n (es.flatMap Expr.itemsOf) cs := by
  induction es generalizing cs with
  | nil => exact h
  | cons e es ih =>
    cases h with
    | cons he hes => exact he.items.append (ih hes)

theorem derivesWithin_of_items (h : DeriveWithin defs n e.itemsOf cs) :
    DerivesWithin defs (n + 1) e cs := by
  cases e with
  | seq first second rest => exact .seq h
  | _ =>
    cases h with
    | cons he hnil =>
      cases hnil
      rw [List.append_nil]
      exact he.mono (Nat.le_succ n)

theorem DerivesWithin.optionOf (h : DerivesWithin defs n (.optional e) cs) :
    DerivesWithin defs n (.optionOf e) cs := by
  cases e with
  | plus e =>
    cases h with
    | omitted => exact .star 0 .nil
    | optional hbody =>
      cases hbody with
      | plus times hes => exact .star (times + 1) (hes.mono (Nat.le_succ _))
  | _ => exact h

/-- The normal form derives a string on the levels that the expression derives it on. -/
theorem DerivesWithin.normalize (hdefs : ∀ name body, defs name body → others name body.normalize)
    (h : DerivesWithin defs n e cs) : DerivesWithin others n e.normalize cs := by
  induction n generalizing e cs with
  | zero => cases h
  | succ n ih =>
    have hparts {es : List Expr} {cs : List Char} (hes : DeriveWithin defs n es cs) :
        DeriveWithin others n (es.map Expr.normalize) cs := hes.map fun e _ cs he ↦ ih he
    have hbodies {times : Nat} {body : Expr} {cs : List Char}
        (hes : DeriveWithin defs n (List.replicate times body) cs) :
        DeriveWithin others n (List.replicate times body.normalize) cs := by
      rw [← List.map_replicate]
      exact hparts hes
    cases h with
    | symbol hdef hbody => exact .symbol (hdefs _ _ hdef) (ih hbody)
    | terminal => exact .terminal
    | range hc => exact .range hc
    | seq hes =>
      apply derivesWithin_of_items
      rw [Expr.itemsOf_normalize_seq, ← List.flatMap_map Expr.normalize]
      exact (hparts hes).items
    | choice hmem he =>
      rw [Expr.normalize, Expr.normalizeAll_eq_map]
      exact .choice (List.mem_map_of_mem hmem) (ih he)
    | omitted => exact DerivesWithin.omitted.optionOf
    | optional hbody => exact (DerivesWithin.optional (ih hbody)).optionOf
    | star times hes => exact .star times (hbodies hes)
    | plus times hes => exact .plus times (hbodies hes)

end Levels

namespace Grammar

theorem definitions_normalize (g : Grammar) {name : String} {body : Expr}
    (h : g.definitions name body) : g.normalize.definitions name body.normalize :=
  List.mem_map_of_mem h

theorem sameBodies_normalize (g : Grammar) : g.normalize.definitions.SameBodies g.definitions := by
  intro inner name cs
  rw [definitions, definitions, exists_ofRules_iff, exists_ofRules_iff, normalize]
  simp only [List.mem_map, exists_exists_and_eq_and, Rule.normalize, derives_normalize_iff]

end Grammar

end Ebnf
