import Ebnf.Language
import Ebnf.Proofs.Expr.NormalForm

/-!
The meaning of expressions, constructor by constructor. What is derived on some levels is derived
on more, so parts that need different numbers of levels go together, and without regard to levels
each constructor has an equation. What an expression derives depends on the definitions only
through what they let symbols derive.
-/

set_option autoImplicit false
set_option relaxedAutoImplicit false

namespace Ebnf

section Levels

variable {defs others : Definitions} {n m : Nat} {e : Expr} {es fs : List Expr}
  {cs ds : List Char}

theorem DeriveWithin.map {f : Expr → Expr}
    (himp : ∀ e ∈ es, ∀ cs, DerivesWithin defs n e cs → DerivesWithin others m (f e) cs)
    (h : DeriveWithin defs n es cs) : DeriveWithin others m (es.map f) cs := by
  induction es generalizing cs with
  | nil =>
    cases h
    exact .nil
  | cons e es ih =>
    obtain ⟨hfirst, hrest⟩ := List.forall_mem_cons.mp himp
    cases h with
    | cons he hes => exact .cons (hfirst _ he) (ih hrest hes)

theorem DeriveWithin.imp
    (himp : ∀ e cs, DerivesWithin defs n e cs → DerivesWithin others m e cs)
    (h : DeriveWithin defs n es cs) : DeriveWithin others m es cs := by
  have hmap := h.map (f := id) fun e _ ↦ himp e
  rwa [List.map_id] at hmap

theorem DerivesWithin.mono (h : DerivesWithin defs n e cs) (hle : n ≤ m) :
    DerivesWithin defs m e cs := by
  induction n generalizing m e cs with
  | zero => cases h
  | succ n ih =>
    obtain ⟨m, rfl⟩ := Nat.exists_eq_add_of_le' (Nat.lt_of_lt_of_le n.succ_pos hle)
    have hpart (e : Expr) (cs : List Char) (he : DerivesWithin defs n e cs) :
        DerivesWithin defs m e cs := ih he (Nat.le_of_succ_le_succ hle)
    cases h with
    | symbol hdef hbody => exact .symbol hdef (hpart _ _ hbody)
    | terminal => exact .terminal
    | range hc => exact .range hc
    | seq hes => exact .seq (hes.imp hpart)
    | choice hmem he => exact .choice hmem (hpart _ _ he)
    | omitted => exact .omitted
    | optional hbody => exact .optional (hpart _ _ hbody)
    | star times hes => exact .star times (hes.imp hpart)
    | plus times hes => exact .plus times (hes.imp hpart)

theorem DeriveWithin.mono (h : DeriveWithin defs n es cs) (hle : n ≤ m) :
    DeriveWithin defs m es cs :=
  h.imp fun _ _ he ↦ he.mono hle

theorem DeriveWithin.append (h : DeriveWithin defs n es cs) (hfs : DeriveWithin defs n fs ds) :
    DeriveWithin defs n (es ++ fs) (cs ++ ds) := by
  induction es generalizing cs with
  | nil =>
    cases h
    exact hfs
  | cons e es ih =>
    cases h with
    | cons he hes =>
      rw [List.append_assoc]
      exact .cons he (ih hes)

theorem deriveWithin_singleton (h : DerivesWithin defs n e cs) : DeriveWithin defs n [e] cs := by
  have hcons := DeriveWithin.cons h .nil
  rwa [List.append_nil] at hcons

end Levels

/-- The strings that several expressions derive one behind the other, on any number of levels. -/
def Derive (defs : Definitions) (es : List Expr) (cs : List Char) : Prop :=
  ∃ levels, DeriveWithin defs levels es cs

section Equations

variable {defs : Definitions} {name text : String} {chars : CharRange}
  {e first second : Expr} {es fs rest : List Expr} {cs : List Char}

theorem derive_nil_iff : Derive defs [] cs ↔ cs = [] := by
  constructor
  · rintro ⟨n, h⟩
    cases h
    rfl
  · rintro rfl
    exact ⟨0, .nil⟩

theorem derive_cons_iff : Derive defs (e :: es) cs ↔
    ∃ as bs, cs = as ++ bs ∧ Derives defs e as ∧ Derive defs es bs := by
  constructor
  · rintro ⟨n, h⟩
    cases h with
    | cons he hes => exact ⟨_, _, rfl, ⟨n, he⟩, n, hes⟩
  · rintro ⟨as, bs, rfl, ⟨n, he⟩, m, hes⟩
    exact ⟨max n m, .cons (he.mono (Nat.le_max_left n m)) (hes.mono (Nat.le_max_right n m))⟩

theorem derives_symbol_iff : Derives defs (.symbol name) cs ↔
    ∃ body, defs name body ∧ Derives defs body cs := by
  constructor
  · rintro ⟨n, h⟩
    cases h with
    | symbol hdef hbody => exact ⟨_, hdef, _, hbody⟩
  · rintro ⟨body, hdef, n, hbody⟩
    exact ⟨n + 1, .symbol hdef hbody⟩

theorem derives_terminal_iff : Derives defs (.terminal text) cs ↔ cs = text.toList := by
  constructor
  · rintro ⟨n, h⟩
    cases h
    rfl
  · rintro rfl
    exact ⟨1, .terminal⟩

theorem derives_range_iff : Derives defs (.range chars) cs ↔
    ∃ c, cs = [c] ∧ chars.contains c = true := by
  constructor
  · rintro ⟨n, h⟩
    cases h with
    | range hc => exact ⟨_, rfl, hc⟩
  · rintro ⟨c, rfl, hc⟩
    exact ⟨1, .range hc⟩

theorem derives_seq_iff : Derives defs (.seq first second rest) cs ↔
    Derive defs (first :: second :: rest) cs := by
  constructor
  · rintro ⟨n, h⟩
    cases h with
    | seq hes => exact ⟨_, hes⟩
  · rintro ⟨n, hes⟩
    exact ⟨n + 1, .seq hes⟩

theorem derives_choice_iff : Derives defs (.choice es) cs ↔ ∃ e ∈ es, Derives defs e cs := by
  constructor
  · rintro ⟨n, h⟩
    cases h with
    | choice hmem he => exact ⟨_, hmem, _, he⟩
  · rintro ⟨e, hmem, n, he⟩
    exact ⟨n + 1, .choice hmem he⟩

theorem derives_optional_iff : Derives defs (.optional e) cs ↔ cs = [] ∨ Derives defs e cs := by
  constructor
  · rintro ⟨n, h⟩
    cases h with
    | omitted => exact .inl rfl
    | optional he => exact .inr ⟨_, he⟩
  · rintro (rfl | ⟨n, he⟩)
    · exact ⟨1, .omitted⟩
    · exact ⟨n + 1, .optional he⟩

theorem derives_star_iff : Derives defs (.star e) cs ↔
    ∃ times, Derive defs (List.replicate times e) cs := by
  constructor
  · rintro ⟨n, h⟩
    cases h with
    | star times hes => exact ⟨times, _, hes⟩
  · rintro ⟨times, n, hes⟩
    exact ⟨n + 1, .star times hes⟩

theorem derives_plus_iff : Derives defs (.plus e) cs ↔
    ∃ times, Derive defs (List.replicate (times + 1) e) cs := by
  constructor
  · rintro ⟨n, h⟩
    cases h with
    | plus times hes => exact ⟨times, _, hes⟩
  · rintro ⟨times, n, hes⟩
    exact ⟨n + 1, .plus times hes⟩

theorem derive_append_iff : Derive defs (es ++ fs) cs ↔
    ∃ as bs, cs = as ++ bs ∧ Derive defs es as ∧ Derive defs fs bs := by
  induction es generalizing cs with
  | nil =>
    constructor
    · exact fun hfs ↦ ⟨[], cs, rfl, derive_nil_iff.mpr rfl, hfs⟩
    · rintro ⟨as, bs, rfl, hes, hfs⟩
      rw [derive_nil_iff.mp hes]
      exact hfs
  | cons e es ih =>
    rw [List.cons_append, derive_cons_iff]
    constructor
    · rintro ⟨as, bs, rfl, he, hes⟩
      obtain ⟨bs, ds, rfl, hes, hfs⟩ := ih.mp hes
      exact ⟨as ++ bs, ds, by rw [List.append_assoc],
        derive_cons_iff.mpr ⟨as, bs, rfl, he, hes⟩, hfs⟩
    · rintro ⟨as, ds, rfl, hes, hfs⟩
      obtain ⟨as, bs, rfl, he, hes⟩ := derive_cons_iff.mp hes
      exact ⟨as, bs ++ ds, by rw [List.append_assoc], he, ih.mpr ⟨bs, ds, rfl, hes, hfs⟩⟩

theorem derive_singleton_iff : Derive defs [e] cs ↔ Derives defs e cs := by
  simp [derive_cons_iff, derive_nil_iff]

/-- Expressions that derive the same derive the same one behind the other. -/
theorem derive_map_congr {f : Expr → Expr}
    (h : ∀ e ∈ es, ∀ cs, Derives defs (f e) cs ↔ Derives defs e cs) :
    Derive defs (es.map f) cs ↔ Derive defs es cs := by
  induction es generalizing cs with
  | nil => rw [List.map_nil]
  | cons e es ih =>
    obtain ⟨he, hes⟩ := List.forall_mem_cons.mp h
    simp only [List.map_cons, derive_cons_iff, he, ih hes]

theorem derive_replicate_congr {f : Expr}
    (h : ∀ {cs}, Derives defs e cs ↔ Derives defs f cs) (times : Nat) :
    Derive defs (List.replicate times e) cs ↔ Derive defs (List.replicate times f) cs := by
  induction times generalizing cs with
  | zero => rfl
  | succ times ih => simp only [List.replicate_succ, derive_cons_iff, h, ih]

end Equations

section Definitions

variable {defs others : Definitions} {e : Expr} {cs : List Char}

theorem exists_ofRules_iff {rules : List Rule} {name : String} {P : Expr → Prop} :
    (∃ body, Definitions.ofRules rules name body ∧ P body) ↔
      ∃ rule ∈ rules, rule.name = name ∧ P rule.body := by
  constructor
  · rintro ⟨body, hmem, hbody⟩
    exact ⟨_, hmem, rfl, hbody⟩
  · rintro ⟨rule, hmem, rfl, hbody⟩
    exact ⟨rule.body, hmem, hbody⟩

theorem DeriveWithin.derive {n : Nat} {es : List Expr}
    (himp : ∀ e cs, DerivesWithin defs n e cs → Derives others e cs)
    (h : DeriveWithin defs n es cs) : Derive others es cs := by
  induction es generalizing cs with
  | nil =>
    cases h
    exact derive_nil_iff.mpr rfl
  | cons e es ih =>
    cases h with
    | cons he hes => exact derive_cons_iff.mpr ⟨_, _, rfl, himp _ _ he, ih hes⟩

/-- An expression derives no less under other definitions under which the symbols derive no less. -/
theorem Derives.imp
    (hsymbol : ∀ name body, defs name body →
      ∀ cs, Derives others body cs → Derives others (.symbol name) cs)
    (h : Derives defs e cs) : Derives others e cs := by
  obtain ⟨n, h⟩ := h
  -- On levels, since the body of a symbol is no part of it.
  induction n generalizing e cs with
  | zero => cases h
  | succ n ih =>
    have hparts {es : List Expr} {cs : List Char} (hes : DeriveWithin defs n es cs) :
        Derive others es cs := hes.derive fun _ _ he ↦ ih he
    cases h with
    | symbol hdef hbody => exact hsymbol _ _ hdef _ (ih hbody)
    | terminal => exact derives_terminal_iff.mpr rfl
    | range hc => exact derives_range_iff.mpr ⟨_, rfl, hc⟩
    | seq hes => exact derives_seq_iff.mpr (hparts hes)
    | choice hmem he => exact derives_choice_iff.mpr ⟨_, hmem, ih he⟩
    | omitted => exact derives_optional_iff.mpr (.inl rfl)
    | optional hbody => exact derives_optional_iff.mpr (.inr (ih hbody))
    | star times hes => exact derives_star_iff.mpr ⟨times, hparts hes⟩
    | plus times hes => exact derives_plus_iff.mpr ⟨times, hparts hes⟩

/-- The bodies of each name derive the same, whatever the symbols in them are replaced by. -/
def Definitions.SameBodies (defs others : Definitions) : Prop :=
  ∀ (inner : Definitions) (name : String) (cs : List Char),
    (∃ body, defs name body ∧ Derives inner body cs) ↔
      ∃ body, others name body ∧ Derives inner body cs

theorem Definitions.SameBodies.derives_iff (h : defs.SameBodies others) :
    Derives defs e cs ↔ Derives others e cs := by
  constructor
  · refine Derives.imp fun name body hdef cs hbody ↦ ?_
    exact derives_symbol_iff.mpr ((h others name cs).mp ⟨body, hdef, hbody⟩)
  · refine Derives.imp fun name body hdef cs hbody ↦ ?_
    exact derives_symbol_iff.mpr ((h defs name cs).mpr ⟨body, hdef, hbody⟩)

end Definitions

theorem Grammar.definitions_iff (g : Grammar) {name : String} {body : Expr} :
    g.definitions name body ↔ g.find? name = some body := by
  have hnodup : (g.rules.map Rule.name).Nodup := g.nodup_names
  show ⟨name, body⟩ ∈ g.rules ↔ (g.rules.find? fun rule ↦ rule.name == name).map Rule.body = _
  generalize g.rules = rules at hnodup ⊢
  induction rules with
  | nil => simp
  | cons rule rules ih =>
    rw [List.map_cons, List.nodup_cons] at hnodup
    by_cases hname : rule.name = name
    · have hfresh : ⟨name, body⟩ ∉ rules :=
        fun hmem ↦ hnodup.1 (hname ▸ List.mem_map_of_mem (f := Rule.name) hmem)
      cases rule
      simp_all [eq_comm]
    · have hother : ⟨name, body⟩ ≠ rule := fun heq ↦ hname (heq ▸ rfl)
      simp [hname, hother, ih hnodup.2]

end Ebnf
