import Ebnf.Proofs.Phrase.Complete
import Ebnf.Proofs.Phrase.Sound

/-!
What reading accepts and what it makes of it: an expression is read from a text exactly when the
tokens of the text, white space left out, are a phrase for it with no more groups inside each
other than there may be. Reading is a function, so a phrase is for one expression only.
-/

set_option autoImplicit false
set_option relaxedAutoImplicit false

namespace Ebnf

namespace Reading

/-- The tokens of an expression are read to the end, whatever they end in front of. -/
theorem run_finish_of_isExpr {ts : List Token} {e : Expr} (h : IsExpr maxNesting ts e)
    (found : Option Token) : ∃ s, State.run {} ts = .ok s ∧ s.finish found = .ok e := by
  obtain ⟨level, last, phase, hlast, hvalue, hrun⟩ :=
    run_of_isExpr h {} .operand (Nat.le_of_eq (Nat.zero_add _)) rfl
  exact ⟨_, hrun, State.finish_eq_ok_iff.mpr ⟨rfl, last, hlast.operand, hvalue.symm⟩⟩

theorem expr_eq_ok_iff_run {ts : List Token} {e : Expr} :
    expr ts = .ok e ↔ ∃ s, State.run {} ts = .ok s ∧ s.finish none = .ok e := by
  unfold expr
  cases hrun : State.run {} ts with
  | error problem => exact ⟨nofun, fun ⟨s, hs, _⟩ ↦ nomatch hs⟩
  | ok s =>
    refine ⟨fun h ↦ ⟨s, rfl, h⟩, ?_⟩
    rintro ⟨u, hu, h⟩
    cases hu
    exact h

/-- A fault shows at one of the tokens, or at the end when all of them have been read. -/
theorem exists_of_expr_eq_error {ts : List Token} {problem : Problem}
    (h : expr ts = .error problem) :
    (∃ us t vs s, ts = us ++ t :: vs ∧ State.run {} us = .ok s ∧ s.step t = .error problem) ∨
      ∃ s, State.run {} ts = .ok s ∧ s.finish none = .error problem := by
  unfold expr at h
  cases hrun : State.run {} ts with
  | error problem' =>
    rw [hrun] at h
    cases h
    exact .inl (State.exists_of_run_eq_error hrun)
  | ok s =>
    rw [hrun] at h
    exact .inr ⟨s, rfl, h⟩

theorem expr_eq_ok_iff {ts : List Token} (hts : ∀ t ∈ ts, t.IsScanned) {e : Expr} :
    expr ts = .ok e ↔ IsExpr maxNesting ts e := by
  rw [expr_eq_ok_iff_run]
  exact ⟨fun ⟨_, hrun, hfinish⟩ ↦ isExpr_of_run hts hrun hfinish,
    fun h ↦ run_finish_of_isExpr h none⟩

theorem expr_of_isExpr {ts : List Token} {e : Expr} (h : IsExpr maxNesting ts e) :
    expr ts = .ok e :=
  expr_eq_ok_iff_run.mpr (run_finish_of_isExpr h none)

/-- Tokens are an expression in one way only. -/
theorem IsExpr.unique {ts : List Token} {e f : Expr} (he : IsExpr maxNesting ts e)
    (hf : IsExpr maxNesting ts f) : e = f := by
  have h := (expr_of_isExpr he).symm.trans (expr_of_isExpr hf)
  rwa [Except.ok.injEq] at h

end Reading

section Read

variable {text : String}

theorem Expr.read_ok_iff_expr {e : Expr} :
    Expr.read text = .ok e ↔ Reading.expr (Token.significant text) = .ok e := by
  rw [Expr.read]
  cases Reading.expr (Token.significant text) <;> simp

theorem Expr.read_error_iff_expr {failure : Failure} : Expr.read text = .error failure ↔
    ∃ problem, Reading.expr (Token.significant text) = .error problem ∧
      failure = .malformed [problem.diagnostic text.utf8ByteSize] := by
  rw [Expr.read]
  cases Reading.expr (Token.significant text) <;> simp [eq_comm]

theorem Expr.read_ok_iff_isExpr {e : Expr} : Expr.read text = .ok e ↔
    Reading.IsExpr Reading.maxNesting (Token.significant text) e :=
  Expr.read_ok_iff_expr.trans (Reading.expr_eq_ok_iff (Token.isScanned_significant text))

end Read

/-- A text is read as an expression exactly when its tokens other than white space are a phrase
for it with at most 128 groups inside each other. -/
theorem Expr.read_eq_ok_iff (text : String) (e : Expr) : Expr.read text = .ok e ↔
    Reading.IsExpr 128 ((Token.scan text).filter fun t ↦ t.kind ≠ .whitespace) e := by
  rw [← Token.significant_eq_filter]
  exact Expr.read_ok_iff_isExpr

end Ebnf
