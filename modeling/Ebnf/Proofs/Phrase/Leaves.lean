import Ebnf.Proofs.Expr.Leaves
import Ebnf.Proofs.Grammar.Folding
import Ebnf.Proofs.Phrase.Rules

/-!
What names and range ends can be read from a text. Every name is the run of name characters that a
name token is, and every end of a range is what a string token has alone between its quotes, which
is neither a quote nor a backslash.
-/

set_option autoImplicit false
set_option relaxedAutoImplicit false

namespace Ebnf

namespace Expr

/-- A leaf that some text is read as: the name is a run of name characters, and neither end of the
range is a quote or a backslash. -/
def IsScanned : Expr → Prop
  | .symbol name => IsRun name
  | .range chars => chars.isReadable = true
  | .terminal _ => True
  | _ => False

/-- Some text is read as each leaf of the expression. -/
def HasScannedLeaves (e : Expr) : Prop :=
  ∀ leaf ∈ e.leaves, leaf.IsScanned

end Expr

namespace Reading

theorem isReadable_of_boundary {lower upper : Char} (hlower : lower ≠ '"' ∧ lower ≠ '\\')
    (hupper : upper ≠ '"' ∧ upper ≠ '\\') : CharRange.isReadable ⟨lower, upper⟩ = true := by
  simp [CharRange.isReadable, hlower, hupper]

/-- The tokens between two brackets are scanned if all are. -/
theorem isScanned_body {left right : Token} {body : List Token}
    (h : ∀ t ∈ left :: body ++ [right], t.IsScanned) : ∀ t ∈ body, t.IsScanned :=
  fun t hmem ↦ h t (List.mem_cons_of_mem left (List.mem_append_left [right] hmem))

mutual

theorem IsOperand.hasScannedLeaves : {n : Nat} → {ts : List Token} → {e : Expr} →
    IsOperand n ts e → (∀ t ∈ ts, t.IsScanned) → e.HasScannedLeaves
  | _, _, _, .symbol ht, h => by
    have hrun : IsRun _ := (h _ (List.mem_singleton_self _)).isRun ht
    exact List.forall_mem_singleton.mpr hrun
  | _, _, _, .terminal _ _, _ => List.forall_mem_singleton.mpr trivial
  | _, _, _, .range ht _ hu hlower hupper, h => by
    have hfirst := (h _ (by simp)).boundary ht hlower
    have hlast := (h _ (by simp)).boundary hu hupper
    exact List.forall_mem_singleton.mpr (isReadable_of_boundary hfirst hlast)
  | _, _, _, .empty _, _ => by simp [Expr.HasScannedLeaves, Expr.leaves]
  | _, _, _, .round _ hbody, h => by
    rw [Expr.HasScannedLeaves, Expr.leaves_choice]
    exact hbody.forall_leaves (isScanned_body h)
  | _, _, _, .curly _ hbody, h => hbody.hasScannedLeaves (isScanned_body h)
  | _, _, _, .square _ hbody _, h => hbody.hasScannedLeaves (isScanned_body h)
  | _, _, _, .braced _ hbody _, h => hbody.hasScannedLeaves (isScanned_body h)

theorem AreItems.forall_leaves : {n : Nat} → {ts : List Token} → {e : Expr} →
    {es : List Expr} → AreItems n ts e es → (∀ t ∈ ts, t.IsScanned) →
      ∀ leaf ∈ (e :: es).flatMap Expr.leaves, leaf.IsScanned
  | _, _, _, _, .one hfirst, h => by
    rw [List.flatMap_singleton]
    exact hfirst.hasScannedLeaves h
  | _, _, _, _, .cons hfirst _ hrest, h => by
    obtain ⟨hts, hus⟩ := List.forall_mem_append.mp h
    rw [List.flatMap_cons, List.forall_mem_append]
    exact ⟨hfirst.hasScannedLeaves hts, hrest.forall_leaves (List.forall_mem_cons.mp hus).2⟩

theorem IsSequence.hasScannedLeaves : {n : Nat} → {ts : List Token} → {e : Expr} →
    IsSequence n ts e → (∀ t ∈ ts, t.IsScanned) → e.HasScannedLeaves
  | _, _, _, .item hitem, h => by
    have hleaves := hitem.forall_leaves h
    rwa [List.flatMap_singleton] at hleaves
  | _, _, _, .items hall, h => by
    rw [Expr.HasScannedLeaves, Expr.leaves_seq]
    exact hall.forall_leaves h

theorem AreAlternatives.forall_leaves : {n : Nat} → {ts : List Token} → {e : Expr} →
    {es : List Expr} → AreAlternatives n ts e es → (∀ t ∈ ts, t.IsScanned) →
      ∀ leaf ∈ (e :: es).flatMap Expr.leaves, leaf.IsScanned
  | _, _, _, _, .one hfirst, h => by
    rw [List.flatMap_singleton]
    exact hfirst.hasScannedLeaves h
  | _, _, _, _, .cons hfirst _ hrest, h => by
    obtain ⟨hts, hus⟩ := List.forall_mem_append.mp h
    rw [List.flatMap_cons, List.forall_mem_append]
    exact ⟨hfirst.hasScannedLeaves hts, hrest.forall_leaves (List.forall_mem_cons.mp hus).2⟩

theorem IsExpr.hasScannedLeaves : {n : Nat} → {ts : List Token} → {e : Expr} →
    IsExpr n ts e → (∀ t ∈ ts, t.IsScanned) → e.HasScannedLeaves
  | _, _, _, .alternative halternative, h => by
    have hleaves := halternative.forall_leaves h
    rwa [List.flatMap_singleton] at hleaves
  | _, _, _, .alternatives hall, h => by
    rw [Expr.HasScannedLeaves, Expr.leaves_choice]
    exact hall.forall_leaves h

end

end Reading

namespace Rule

/-- Some text is read as the name of the rule and as each leaf of its body. -/
def IsScanned (rule : Rule) : Prop :=
  IsRun rule.name ∧ rule.body.HasScannedLeaves

end Rule

namespace Reading

variable {n : Nat} {ts : List Token} {rule : Rule} {rules : List Rule}

theorem IsRule.isScanned (h : IsRule n ts rule) (hts : ∀ t ∈ ts, t.IsScanned) :
    rule.IsScanned := by
  cases h with
  | mk hname _ hbody _ =>
    refine ⟨(hts _ (by simp)).isRun hname, ?_⟩
    exact hbody.hasScannedLeaves fun t ht ↦ hts t (by simp [ht])

theorem AreRules.isScanned (h : AreRules n ts rules) (hts : ∀ t ∈ ts, t.IsScanned) :
    ∀ rule ∈ rules, rule.IsScanned := by
  induction h with
  | nil => exact fun _ hmem ↦ absurd hmem List.not_mem_nil
  | cons hrule _ ih =>
    obtain ⟨hfirst, hrest⟩ := List.forall_mem_append.mp hts
    exact List.forall_mem_cons.mpr ⟨hrule.isScanned hfirst, ih hrest⟩

end Reading

/-- The names and leaves of a grammar that has been read are those of scanned tokens. -/
theorem Grammar.isScanned_of_read {text : String} {g : Grammar} (h : Grammar.read text = .ok g) :
    ∀ rule ∈ g.rules, rule.IsScanned := by
  cases hrules : Rule.readAll text with
  | error failure =>
    rw [Grammar.read, hrules] at h
    cases h
  | ok rules =>
    rw [Grammar.read, hrules] at h
    cases h
    have hscanned := (Rule.readAll_eq_ok_iff.mp hrules).isScanned (Token.isScanned_significant text)
    refine forall_mem_ofRules ?_ hscanned
    rintro rule old ⟨-, hnew⟩ ⟨hname, hold⟩
    refine ⟨hname, ?_⟩
    rw [Expr.HasScannedLeaves, Expr.leaves_mergeFront, List.forall_mem_append]
    exact ⟨hnew, hold⟩

end Ebnf
