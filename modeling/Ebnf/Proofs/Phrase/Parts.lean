import Ebnf.Proofs.Expr.Parts
import Ebnf.Proofs.Phrase.Leaves
import Ebnf.Proofs.Token.Neighbours

/-!
The parts of what is read. Operands are no sequences, so no sequence that is read has one among
its items; and an option of a repetition is read only of a square group around a curly group with
white space between their brackets. Where a text has no such group, what is read of it is its own
normal form.
-/

set_option autoImplicit false
set_option relaxedAutoImplicit false

namespace Ebnf.Reading

/-- The tokens are a square group around a curly group for `f`, and on one side the brackets of
the two do not touch. -/
def IsLooseGroup (n : Nat) (f : Expr) (group : List Token) : Prop :=
  ∃ left opener body closer right m, group = left :: opener :: body ++ [closer, right] ∧
    ArePair .square left right ∧ ArePair .curly opener closer ∧ IsExpr m body f ∧ m + 2 ≤ n ∧
      (¬Touches left opener ∨ ¬Touches closer right)

/-- A part of an expression that the tokens are read as. -/
structure IsReadPart (n : Nat) (ts : List Token) (part : Expr) : Prop where
  items : ∀ items, part.items? = some items → ∀ item ∈ items, item.items? = none
  option : ∀ f, part = .optional (.plus f) → ∃ group, group <:+: ts ∧ IsLooseGroup n f group

section Parts

variable {n m : Nat} {ts us body : List Token} {left right : Token} {part e f : Expr}
  {es : List Expr}

theorem IsLooseGroup.mono (h : IsLooseGroup n f ts) (hn : n ≤ m) : IsLooseGroup m f ts := by
  obtain ⟨left, opener, body, closer, right, k, heq, hsquare, hcurly, hbody, hk, hapart⟩ := h
  exact ⟨left, opener, body, closer, right, k, heq, hsquare, hcurly, hbody, hk.trans hn, hapart⟩

theorem IsReadPart.mono (h : IsReadPart n ts part) (hn : n ≤ m) (hts : ts <:+: us) :
    IsReadPart m us part where
  items := h.items
  option f hf := by
    obtain ⟨group, hgroup, hloose⟩ := h.option f hf
    exact ⟨group, hgroup.trans hts, hloose.mono hn⟩

/-- Neither a sequence nor an option. -/
theorem isReadPart_of_plain (hitems : part.items? = none) (hoption : ∀ f, part ≠ .optional f) :
    IsReadPart n ts part where
  items items h := by
    rw [hitems] at h
    cases h
  option f h := absurd h (hoption _)

theorem isReadPart_seq {second : Expr} {rest : List Expr}
    (hflat : ∀ item ∈ e :: second :: rest, item.items? = none)
    (hparts : ∀ part ∈ (e :: second :: rest).flatMap Expr.parts, IsReadPart n ts part) :
    ∀ part ∈ (Expr.seq e second rest).parts, IsReadPart n ts part := by
  rw [Expr.parts_seq]
  refine List.forall_mem_cons.mpr ⟨⟨fun items hitems ↦ ?_, nofun⟩, hparts⟩
  cases hitems
  exact hflat

theorem isReadPart_choice (hparts : ∀ part ∈ es.flatMap Expr.parts, IsReadPart n ts part) :
    ∀ part ∈ (Expr.choice es).parts, IsReadPart n ts part := by
  rw [Expr.parts_choice]
  exact List.forall_mem_cons.mpr ⟨isReadPart_of_plain rfl nofun, hparts⟩

/-- An expression that is a repetition is a single operand. -/
theorem IsExpr.isOperand_of_plus (h : IsExpr n ts (.plus f)) : IsOperand n ts (.plus f) := by
  cases h with
  | alternative halternative =>
    cases halternative with
    | one hseq =>
      cases hseq with
      | item hitem =>
        cases hitem with
        | one hop => exact hop

/-- An option of a repetition is read of brackets that do not touch on both sides. -/
theorem isLooseGroup_of_square (hpair : ArePair .square left right)
    (hbody : IsExpr n body (.plus f)) (htouch : ¬TouchesBoth left right body) :
    IsLooseGroup (n + 1) f (left :: body ++ [right]) := by
  cases hbody.isOperand_of_plus with
  | @curly k opener closer inner _ hcurly hinner =>
    refine ⟨left, opener, inner, closer, right, k, by simp, hpair, hcurly, hinner,
      Nat.le_refl _, ?_⟩
    rw [← not_and_or]
    rintro ⟨hleft, hright⟩
    refine htouch ⟨by simpa using hleft, fun t ht ↦ ?_⟩
    rw [List.getLast?_concat, Option.mem_def, Option.some.injEq] at ht
    exact ht ▸ hright

theorem isInfix_behind (ts us : List Token) (separator : Token) :
    us <:+: ts ++ separator :: us :=
  ⟨ts ++ [separator], [], by simp⟩

theorem isInfix_group (left right : Token) (body : List Token) :
    body <:+: left :: body ++ [right] :=
  ⟨[left], [right], rfl⟩

end Parts

mutual

theorem IsOperand.parts : {n : Nat} → {ts : List Token} → {e : Expr} → IsOperand n ts e →
    e.items? = none ∧ ∀ part ∈ e.parts, IsReadPart n ts part
  | _, _, _, .symbol _ | _, _, _, .terminal _ _ | _, _, _, .range _ _ _ _ _ | _, _, _, .empty _ =>
    ⟨rfl, List.forall_mem_singleton.mpr (isReadPart_of_plain rfl nofun)⟩
  | _, _, _, .round _ hbody =>
    ⟨rfl, isReadPart_choice fun part hpart ↦
      (hbody.parts part hpart).mono (Nat.le_succ _) (isInfix_group _ _ _)⟩
  | _, _, _, .curly _ hbody => by
    refine ⟨rfl, List.forall_mem_cons.mpr ⟨isReadPart_of_plain rfl nofun, fun part hpart ↦ ?_⟩⟩
    exact (hbody.parts part hpart).mono (Nat.le_succ _) (isInfix_group _ _ _)
  | _, _, _, .square hpair hbody hstar => by
    refine ⟨rfl, List.forall_mem_cons.mpr ⟨⟨nofun, fun f hf ↦ ?_⟩, fun part hpart ↦ ?_⟩⟩
    · cases hf
      exact ⟨_, List.infix_rfl, isLooseGroup_of_square hpair hbody (hstar f rfl)⟩
    · exact (hbody.parts part hpart).mono (Nat.le_succ _) (isInfix_group _ _ _)
  | _, _, _, .braced _ hbody _ => by
    refine ⟨rfl, List.forall_mem_cons.mpr ⟨isReadPart_of_plain rfl nofun, fun part hpart ↦ ?_⟩⟩
    obtain ⟨-, hparts⟩ := hbody.parts
    exact (hparts part (List.mem_cons_of_mem _ hpart)).mono (Nat.le_succ _) (isInfix_group _ _ _)

theorem AreItems.parts : {n : Nat} → {ts : List Token} → {e : Expr} → {es : List Expr} →
    AreItems n ts e es → (∀ item ∈ e :: es, item.items? = none) ∧
      ∀ part ∈ (e :: es).flatMap Expr.parts, IsReadPart n ts part
  | _, _, _, _, .one hfirst => by
    rw [List.flatMap_singleton, List.forall_mem_singleton]
    exact hfirst.parts
  | _, _, _, _, .cons hfirst _ hrest => by
    obtain ⟨hflat, hparts⟩ := hfirst.parts
    obtain ⟨hflats, hparts'⟩ := hrest.parts
    rw [List.flatMap_cons, List.forall_mem_append]
    refine ⟨List.forall_mem_cons.mpr ⟨hflat, hflats⟩, fun part hpart ↦ ?_, fun part hpart ↦ ?_⟩
    · exact (hparts part hpart).mono (Nat.le_refl _) (List.prefix_append _ _).isInfix
    · exact (hparts' part hpart).mono (Nat.le_refl _) (isInfix_behind _ _ _)

theorem IsSequence.parts : {n : Nat} → {ts : List Token} → {e : Expr} → IsSequence n ts e →
    ∀ part ∈ e.parts, IsReadPart n ts part
  | _, _, _, .item hitem => by
    obtain ⟨-, hparts⟩ := hitem.parts
    rwa [List.flatMap_singleton] at hparts
  | _, _, _, .items hall => by
    obtain ⟨hflat, hparts⟩ := hall.parts
    exact isReadPart_seq hflat hparts

theorem AreAlternatives.parts : {n : Nat} → {ts : List Token} → {e : Expr} →
    {es : List Expr} → AreAlternatives n ts e es →
      ∀ part ∈ (e :: es).flatMap Expr.parts, IsReadPart n ts part
  | _, _, _, _, .one hfirst => by
    rw [List.flatMap_singleton]
    exact hfirst.parts
  | _, _, _, _, .cons hfirst _ hrest => by
    rw [List.flatMap_cons, List.forall_mem_append]
    refine ⟨fun part hpart ↦ ?_, fun part hpart ↦ ?_⟩
    · exact (hfirst.parts part hpart).mono (Nat.le_refl _) (List.prefix_append _ _).isInfix
    · exact (hrest.parts part hpart).mono (Nat.le_refl _) (isInfix_behind _ _ _)

theorem IsExpr.parts : {n : Nat} → {ts : List Token} → {e : Expr} → IsExpr n ts e →
    ∀ part ∈ e.parts, IsReadPart n ts part
  | _, _, _, .alternative halternative => by
    have hparts := halternative.parts
    rwa [List.flatMap_singleton] at hparts
  | _, _, _, .alternatives hall => isReadPart_choice hall.parts

end

theorem IsRule.exists_isExpr {n : Nat} {ts : List Token} {rule : Rule} (h : IsRule n ts rule) :
    ∃ body, body <:+: ts ∧ IsExpr n body rule.body := by
  cases h with
  | @mk name equals semicolon body e _ _ hbody _ =>
    exact ⟨body, ⟨[name, equals], [semicolon], rfl⟩, hbody⟩

theorem AreRules.exists_isExpr {n : Nat} {ts : List Token} {rules : List Rule}
    (h : AreRules n ts rules) {rule : Rule} (hmem : rule ∈ rules) :
    ∃ body, body <:+: ts ∧ IsExpr n body rule.body := by
  induction h with
  | nil => cases hmem
  | @cons us vs first rest hrule _ ih =>
    rcases List.mem_cons.mp hmem with rfl | hrest
    · obtain ⟨body, hbody, hexpr⟩ := hrule.exists_isExpr
      exact ⟨body, hbody.trans (List.prefix_append us vs).isInfix, hexpr⟩
    · obtain ⟨body, hbody, hexpr⟩ := ih hrest
      exact ⟨body, hbody.trans (List.suffix_append us vs).isInfix, hexpr⟩

end Ebnf.Reading

namespace Ebnf

open Reading Token

/-- Somewhere in the text stands a square group around a curly group for `f`, and white space
between their opening brackets or between their closing brackets. -/
def HasLooseGroup (text : String) (f : Expr) : Prop :=
  ∃ left opener body closer right n,
    left :: opener :: body ++ [closer, right] <:+: significant text ∧
    ArePair .square left right ∧ ArePair .curly opener closer ∧ IsExpr n body f ∧
    n + 2 ≤ maxNesting ∧ (IsApart text left opener ∨ IsApart text closer right)

theorem Reading.IsLooseGroup.hasLooseGroup {text : String} {f : Expr} {group : List Token}
    (h : IsLooseGroup maxNesting f group) (hgroup : group <:+: significant text) :
    HasLooseGroup text f := by
  obtain ⟨left, opener, body, closer, right, n, rfl, hsquare, hcurly, hbody, hn, hapart⟩ := h
  refine ⟨left, opener, body, closer, right, n, hgroup, hsquare, hcurly, hbody, hn, ?_⟩
  have hleft : [left, opener] <:+: significant text :=
    List.IsInfix.trans ⟨[], body ++ [closer, right], rfl⟩ hgroup
  have hright : [closer, right] <:+: significant text :=
    List.IsInfix.trans ⟨left :: opener :: body, [], by simp⟩ hgroup
  rcases hapart with h | h
  · exact .inl ((offset_eq_stop_or_isApart hleft).resolve_left h)
  · exact .inr ((offset_eq_stop_or_isApart hright).resolve_left h)

/-- Without white space behind square brackets that open and curly ones that close there is no
such group. -/
theorem not_hasLooseGroup {text : String} (h : (scan text).IsChain fun t u ↦
    u.kind = .whitespace → t.kind ≠ .opening .square ∧ t.kind ≠ .closing .curly) (f : Expr) :
    ¬HasLooseGroup text f := by
  have htouch {t u : Token} (hapart : IsApart text t u) :
      t.kind ≠ .opening .square ∧ t.kind ≠ .closing .curly := by
    obtain ⟨space, hspace, hinfix⟩ := hapart
    have hchain := List.IsChain.infix h hinfix
    exact (List.isChain_cons_cons.mp hchain).1 hspace
  rintro ⟨left, opener, body, closer, right, n, -, hsquare, hcurly, -, -, hapart | hapart⟩
  · exact (htouch hapart).1 hsquare.1
  · exact (htouch hapart).2 hcurly.2

/-- The shape of an expression that is read in a text: its names and ranges are those of tokens,
the items of its sequences are no sequences, its options are of repetitions only where the text
has white space between the brackets, and where there is none it is its own normal form. -/
structure IsReadFrom (text : String) (e : Expr) : Prop where
  leaves : e.HasScannedLeaves
  items : ∀ part ∈ e.parts, ∀ items, part.items? = some items →
    2 ≤ items.length ∧ ∀ item ∈ items, item.items? = none
  option : ∀ f, .optional (.plus f) ∈ e.parts → HasLooseGroup text f
  normalize : (∀ f, ¬HasLooseGroup text f) → e.normalize = e

theorem two_le_length_of_items? {e : Expr} {items : List Expr} (h : e.items? = some items) :
    2 ≤ items.length := by
  cases e with
  | seq =>
    cases h
    exact Nat.le_add_left _ _
  | _ => cases h

theorem Reading.IsExpr.isReadFrom {text : String} {ts : List Token} {e : Expr}
    (h : IsExpr maxNesting ts e) (hts : ts <:+: significant text) : IsReadFrom text e := by
  have hoption : ∀ f, .optional (.plus f) ∈ e.parts → HasLooseGroup text f := by
    intro f hf
    obtain ⟨group, hgroup, hloose⟩ := (h.parts _ hf).option f rfl
    exact hloose.hasLooseGroup (hgroup.trans hts)
  refine ⟨?_, fun part hpart items hitems ↦ ?_, hoption, fun hnone ↦ ?_⟩
  · exact h.hasScannedLeaves fun t ht ↦ isScanned_significant text t (hts.subset ht)
  · exact ⟨two_le_length_of_items? hitems, (h.parts part hpart).items items hitems⟩
  · refine Expr.normalize_eq_self fun part hpart ↦ ⟨(h.parts part hpart).items, ?_⟩
    rintro f rfl
    exact hnone f (hoption f hpart)

/-- Whatever is read of a text has the shape of what is read. -/
theorem isReadFrom_of_read (text : String) :
    (∀ e, Expr.read text = .ok e → IsReadFrom text e) ∧
    ∀ rules, Rule.readAll text = .ok rules → ∀ rule ∈ rules, IsReadFrom text rule.body := by
  refine ⟨fun e h ↦ ?_, fun rules h rule hmem ↦ ?_⟩
  · exact (Expr.read_ok_iff_isExpr.mp h).isReadFrom List.infix_rfl
  obtain ⟨body, hbody, hexpr⟩ := (Rule.readAll_eq_ok_iff.mp h).exists_isExpr hmem
  exact hexpr.isReadFrom hbody

theorem isReadFrom_of_read_apart :
    let text := "[ \x7b\"...\"\x7d], (a, b)"
    let rules := "S = [\x7b\"a\"...\"b\"\x7d ]; T = [\x7ba\x7d], b;"
    let tight := "[\x7ba\x7d, c], ( b | [\x7bc\x7d] )"
    let e : Expr := .seq (.optional (.plus (.terminal "...")))
      (.choice [.seq (.symbol "a") (.symbol "b") []]) []
    let first : Rule := ⟨"S", .optional (.plus (.range ⟨'a', 'b'⟩))⟩
    let second : Rule := ⟨"T", .seq (.star (.symbol "a")) (.symbol "b") []⟩
    let f : Expr := .seq (.optional (.seq (.plus (.symbol "a")) (.symbol "c") []))
      (.choice [.symbol "b", .star (.symbol "c")]) []
    Expr.read text = .ok e ∧ IsReadFrom text e ∧ Rule.readAll rules = .ok [first, second] ∧
      (∀ rule ∈ [first, second], IsReadFrom rules rule.body) ∧
      Expr.read tight = .ok f ∧ (∀ g, ¬HasLooseGroup tight g) ∧ f.normalize = f := by
  intro text rules tight e first second f
  have hexpr : Expr.read text = .ok e := by cbv
  have hrules : Rule.readAll rules = .ok [first, second] := by cbv
  have htight : Expr.read tight = .ok f := by cbv
  have hnone : ∀ g, ¬HasLooseGroup tight g := not_hasLooseGroup (by decide +kernel)
  exact ⟨hexpr, (isReadFrom_of_read text).1 e hexpr, hrules, (isReadFrom_of_read rules).2 _ hrules,
    htight, hnone, ((isReadFrom_of_read tight).1 f htight).normalize hnone⟩

end Ebnf
