import Ebnf.Proofs.Phrase.Alike
import Mathlib

/-!
White space in grammar text. It separates tokens and keeps brackets apart that would be read as
one, and that is all it does: texts whose tokens are the same and whose brackets are joined alike
are read as the same, and if they have faults these are the same faults at the same tokens.
-/

set_option autoImplicit false
set_option relaxedAutoImplicit false

namespace Ebnf

open Reading Token

/-- The hint at a group that is left open. -/
def openedAt (bracket : Bracket) (offset : Nat) : String :=
  (Kind.opening bracket).describe ++ " opened at byte " ++ toString offset

/-- Diagnostics in texts of the given sizes that differ in places only. They are about paired
tokens, or about the ends of the texts; the hints at groups that are left open are about paired
opening brackets. -/
structure Diagnostic.Alike (R : Token → Token → Prop) (size size' : Nat)
    (d d' : Diagnostic) : Prop where
  code : d'.code = d.code
  message : d'.message = d.message
  span : ∃ found found', Option.Rel R found found' ∧
    d.span = Problem.locate size found ∧ d'.span = Problem.locate size' found'
  hint : (∃ bracket t u, d.code = Problem.unclosedCode bracket ∧ R t u ∧
      t.kind = .opening bracket ∧ d.hint = some (openedAt bracket t.offset) ∧
      d'.hint = some (openedAt bracket u.offset)) ∨
    (∀ bracket, d.code ≠ Problem.unclosedCode bracket) ∧ d'.hint = d.hint

/-- Texts that cannot be read, with as many diagnostics in both, related one by one. -/
inductive Failure.Alike (D : Diagnostic → Diagnostic → Prop) : Failure → Failure → Prop
  | malformed {ds ds' : List Diagnostic} :
    List.Forall₂ D ds ds' → Alike D (.malformed ds) (.malformed ds')

section Diagnostics

variable {R : Token → Token → Prop} {problem problem' : Problem}

/-- A token is the one it is paired with, at another place. -/
theorem Reading.IsPairing.eq (hpairing : IsPairing R) {t u : Token} (hR : R t u) :
    u = { t with offset := u.offset } := by
  obtain ⟨hkind, htext⟩ := hpairing t u hR
  rw [← hkind, ← htext]

theorem expected_of_rel (hpairing : IsPairing R) {found found' : Option Token}
    (h : Option.Rel R found found') (what : String) :
    Problem.expected what found' = Problem.expected what found := by
  cases h with
  | none => rfl
  | some hR =>
    rw [hpairing.eq hR]
    rfl

theorem Reading.Problem.Alike.code (h : Problem.Alike R problem problem') :
    problem'.code = problem.code := by
  cases h <;> rfl

theorem Reading.Problem.Alike.token? (h : Problem.Alike R problem problem') :
    Option.Rel R problem.token? problem'.token? := by
  cases h with
  | noOperand hfound | noBoundary hfound | noName hfound | noEquals hfound | noSemicolon hfound
  | unclosed _ _ hfound => exact hfound
  | unterminated hR | invalidCharacter hR | strayCloser hR | tooDeep hR | badBoundary hR
  | leftover hR => exact .some hR

theorem Reading.Problem.Alike.message (hpairing : IsPairing R)
    (h : Problem.Alike R problem problem') : problem'.message = problem.message := by
  cases h with
  | noOperand hfound | noBoundary hfound | noName hfound | noEquals hfound | noSemicolon hfound
  | unclosed _ _ hfound => exact expected_of_rel hpairing hfound _
  | leftover hR => exact expected_of_rel hpairing (.some hR) _
  | unterminated hR | invalidCharacter hR | strayCloser hR | tooDeep hR | badBoundary hR =>
    rw [hpairing.eq hR]
    rfl

/-- Only the hint at an open group names a place. -/
theorem Reading.Problem.Alike.hint (h : Problem.Alike R problem problem') :
    (∃ bracket t u, problem.code = Problem.unclosedCode bracket ∧ R t u ∧
      t.kind = .opening bracket ∧ problem.hint = some (openedAt bracket t.offset) ∧
      problem'.hint = some (openedAt bracket u.offset)) ∨
    (∀ bracket, problem.code ≠ Problem.unclosedCode bracket) ∧ problem'.hint = problem.hint := by
  cases h with
  | unclosed hR hkind _ => exact .inl ⟨_, _, _, rfl, hR, hkind, rfl, rfl⟩
  | _ => exact .inr ⟨fun bracket ↦ by cases bracket <;> nofun, rfl⟩

theorem Reading.Problem.Alike.diagnostic (hpairing : IsPairing R)
    (h : Problem.Alike R problem problem') (size size' : Nat) :
    Diagnostic.Alike R size size' (problem.diagnostic size) (problem'.diagnostic size') where
  code := h.code
  message := h.message hpairing
  span := ⟨_, _, h.token?, rfl, rfl⟩
  hint := h.hint

end Diagnostics

/-- The tokens stand at the same place of their lists. -/
def SamePlace (ts us : List Token) (t u : Token) : Prop :=
  ∃ i : Nat, ts[i]? = some t ∧ us[i]? = some u

section Pairs

variable {ts us : List Token}

theorem samePlace_of_mem_zip {p : Token × Token} (h : p ∈ ts.zip us) :
    SamePlace ts us p.1 p.2 := by
  obtain ⟨i, hi⟩ := List.mem_iff_getElem?.mp h
  exact ⟨i, List.getElem?_zip_eq_some.mp hi⟩

theorem isPairing_samePlace
    (h : ts.map (fun t ↦ (t.kind, t.text)) = us.map fun t ↦ (t.kind, t.text)) :
    IsPairing (SamePlace ts us) := by
  rintro t u ⟨i, ht, hu⟩
  have hcontent := congrArg (·[i]?) h
  simp only [List.getElem?_map, ht, hu, Option.map_some, Option.some.injEq, Prod.mk.injEq]
    at hcontent
  exact ⟨hcontent.1.symm, hcontent.2.symm⟩

end Pairs

/-- Texts with the same tokens, white space left out, are read alike if the brackets that can be
read as one touch in both or in neither: as the same expression and as the same rules, or with as
many diagnostics, which differ in places only and are about tokens at the same places. -/
theorem read_congr_spacing (first second : String)
    (hcontent : (significant first).map (fun t ↦ (t.kind, t.text)) =
      (significant second).map fun t ↦ (t.kind, t.text))
    (hjoin : ((significant first).zip (significant second)).IsChain JoinAlike) :
    let D := Diagnostic.Alike (SamePlace (significant first) (significant second))
      first.utf8ByteSize second.utf8ByteSize
    Agree (Failure.Alike D) Eq (Expr.read first) (Expr.read second) ∧
      Agree (Failure.Alike D) Eq (Rule.readAll first) (Rule.readAll second) := by
  intro D
  have hlength : (significant first).length = (significant second).length := by
    simpa using congrArg List.length hcontent
  have hpairing := isPairing_samePlace hcontent
  have hR : ∀ p ∈ (significant first).zip (significant second),
      SamePlace (significant first) (significant second) p.1 p.2 :=
    fun p hp ↦ samePlace_of_mem_zip hp
  have hexpr := expr_alike hpairing hR hjoin
  have hrules := rules_alike hpairing hR hjoin
  rw [List.map_fst_zip hlength.le, List.map_snd_zip hlength.ge] at hexpr hrules
  constructor
  · unfold Expr.read
    generalize expr (significant first) = result, expr (significant second) = result' at hexpr
    cases hexpr with
    | ok he => exact .ok he
    | error hproblem => exact .error (.malformed (.cons (hproblem.diagnostic hpairing _ _) .nil))
  · unfold Rule.readAll
    generalize rules (significant first) = result, rules (significant second) = result' at hrules
    cases hrules with
    | ok hrs => exact .ok hrs
    | error hproblems =>
      refine .error (.malformed ?_)
      rw [List.forall₂_map_left_iff, List.forall₂_map_right_iff]
      exact hproblems.imp fun _ _ h ↦ h.diagnostic hpairing _ _

theorem read_congr_spacing_left_open :
    let first := "A=[\x7bb\x7d"
    let second := "A = [\x7b b \x7d"
    let D := Diagnostic.Alike (SamePlace (significant first) (significant second))
      first.utf8ByteSize second.utf8ByteSize
    (significant first).map (fun t ↦ (t.kind, t.text)) =
      (significant second).map (fun t ↦ (t.kind, t.text)) ∧
    ((significant first).zip (significant second)).IsChain JoinAlike ∧
    Agree (Failure.Alike D) Eq (Expr.read first) (Expr.read second) ∧
      Agree (Failure.Alike D) Eq (Rule.readAll first) (Rule.readAll second) := by
  intro first second D
  have hfirst : significant first = [⟨.name, "A", 0⟩, ⟨.equals, "=", 1⟩,
      ⟨.opening .square, "[", 2⟩, ⟨.opening .curly, "\x7b", 3⟩, ⟨.name, "b", 4⟩,
      ⟨.closing .curly, "\x7d", 5⟩] := by cbv
  have hsecond : significant second = [⟨.name, "A", 0⟩, ⟨.equals, "=", 2⟩,
      ⟨.opening .square, "[", 4⟩, ⟨.opening .curly, "\x7b", 5⟩, ⟨.name, "b", 7⟩,
      ⟨.closing .curly, "\x7d", 9⟩] := by cbv
  have hcontent : (significant first).map (fun t ↦ (t.kind, t.text)) =
      (significant second).map fun t ↦ (t.kind, t.text) := by
    rw [hfirst, hsecond]
    rfl
  have hjoin : ((significant first).zip (significant second)).IsChain JoinAlike := by
    rw [hfirst, hsecond]
    decide
  exact ⟨hcontent, hjoin, read_congr_spacing first second hcontent hjoin⟩

end Ebnf
