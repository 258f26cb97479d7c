import Ebnf.Proofs.Phrase.Expr
import Ebnf.Reading.Rules

/-!
Texts of rules that are read without a fault: their tokens are phrases for rules, one behind the
other and nothing between them. A fault that has been met is never forgotten, so reading of such
texts is settled by what each token does while there is none.
-/

set_option autoImplicit false
set_option relaxedAutoImplicit false

namespace Ebnf

namespace Reading

/-- The tokens of a rule. -/
inductive IsRule (n : Nat) : List Token → Rule → Prop
  | mk {name equals semicolon : Token} {body : List Token} {e : Expr} :
    name.kind = .name → equals.kind = .equals → IsExpr n body e → semicolon.kind = .semicolon →
      IsRule n (name :: equals :: body ++ [semicolon]) ⟨name.text, e⟩

/-- The tokens of several rules. -/
inductive AreRules (n : Nat) : List Token → List Rule → Prop
  | nil : AreRules n [] []
  | cons {ts us : List Token} {rule : Rule} {rules : List Rule} :
    IsRule n ts rule → AreRules n us rules → AreRules n (ts ++ us) (rule :: rules)

theorem AreRules.snoc {n : Nat} {ts us : List Token} {rule : Rule} {rules : List Rule}
    (h : AreRules n ts rules) (hlast : IsRule n us rule) :
    AreRules n (ts ++ us) (rules ++ [rule]) := by
  induction h with
  | nil =>
    rw [List.nil_append, List.nil_append, ← List.append_nil us]
    exact .cons hlast .nil
  | cons hrule _ ih =>
    rw [List.append_assoc, List.cons_append]
    exact .cons hrule ih

theorem areRules_singleton_iff {n : Nat} {ts : List Token} {rule : Rule} :
    AreRules n ts [rule] ↔ IsRule n ts rule := by
  constructor
  · intro h
    cases h with
    | cons hrule hnone =>
      cases hnone
      rwa [List.append_nil]
  · intro hrule
    rw [← List.append_nil ts]
    exact .cons hrule .nil

theorem Moves.kind_ne_semicolon {s s' : State} {t : Token} (h : Moves s t s') :
    t.kind ≠ .semicolon := by
  cases h <;> simp_all

/-- While the expression of a rule is read, nothing else changes. -/
theorem foldl_step_body {s s' : State} {ts : List Token} (rules : List Rule)
    (problems : List Problem) (name : String) (h : s.run ts = .ok s') :
    ts.foldl Progress.step ⟨rules, problems, .body name s⟩ = ⟨rules, problems, .body name s'⟩ := by
  induction ts generalizing s with
  | nil => cases h; rfl
  | cons t ts ih =>
    obtain ⟨next, hmove, hrest⟩ := State.exists_of_run_cons h
    have hstep : Progress.step ⟨rules, problems, .body name s⟩ t =
        ⟨rules, problems, .body name next⟩ := by
      simp [Progress.step, hmove.kind_ne_semicolon, State.step_of_moves hmove]
    rw [List.foldl_cons, hstep]
    exact ih hrest

theorem foldl_step_of_isRule {ts : List Token} {rule : Rule} (rules : List Rule)
    (problems : List Problem) (h : IsRule maxNesting ts rule) :
    ts.foldl Progress.step ⟨rules, problems, .start⟩ = ⟨rule :: rules, problems, .start⟩ := by
  cases h with
  | @mk name equals semicolon body e hname hequals hbody hsemicolon =>
    obtain ⟨s, hrun, hfinish⟩ := run_finish_of_isExpr hbody (some semicolon)
    have hhead : Progress.step (Progress.step ⟨rules, problems, .start⟩ name) equals =
        ⟨rules, problems, .body name.text {}⟩ := by
      simp [Progress.step, hname, hequals]
    rw [List.cons_append, List.cons_append, List.foldl_cons, List.foldl_cons, hhead,
      List.foldl_append, foldl_step_body rules problems name.text hrun]
    simp [Progress.step, hsemicolon, hfinish]

theorem foldl_step_of_areRules {ts : List Token} {rules : List Rule}
    (h : AreRules maxNesting ts rules) (before : List Rule) (problems : List Problem) :
    ts.foldl Progress.step ⟨before, problems, .start⟩ =
      ⟨rules.reverse ++ before, problems, .start⟩ := by
  induction h generalizing before with
  | nil => rfl
  | cons hrule _ ih =>
    rw [List.foldl_append, foldl_step_of_isRule before problems hrule, ih, List.reverse_cons,
      List.append_assoc, List.singleton_append]

/-- The tokens of a rule that has not ended yet. -/
inductive StageRead : Stage → List Token → Prop
  | start : StageRead .start []
  | named {t : Token} : t.kind = .name → StageRead (.named t.text) [t]
  | body {name equals : Token} {ts : List Token} {s : State} :
    name.kind = .name → equals.kind = .equals → (∀ t ∈ ts, t.IsScanned) →
      State.run {} ts = .ok s → StageRead (.body name.text s) (name :: equals :: ts)

/-- The tokens that have led to where reading is, as long as there has been no fault. -/
def ProgressRead (p : Progress) (read : List Token) : Prop :=
  p.problems = [] → ∃ ts us, read = ts ++ us ∧ AreRules maxNesting ts p.rules.reverse ∧
    StageRead p.stage us

theorem progressRead_fail (p : Progress) (problem : Problem) (t : Token) (read : List Token) :
    ProgressRead (p.fail problem t) read :=
  fun h ↦ absurd h (List.cons_ne_nil _ _)

theorem ProgressRead.step {p : Progress} {read : List Token} {t : Token}
    (h : ProgressRead p read) (ht : t.IsScanned) : ProgressRead (p.step t) (read ++ [t]) := by
  obtain ⟨rules, problems, stage⟩ := p
  unfold Progress.step
  cases stage with
  | start =>
    dsimp only
    split
    · next hk =>
      intro hnone
      obtain ⟨ts, us, rfl, hrules, hstage⟩ := h hnone
      cases hstage
      exact ⟨ts, [t], by simp, hrules, .named hk⟩
    · exact progressRead_fail _ _ _ _
  | named name =>
    dsimp only
    split
    · next hk =>
      intro hnone
      obtain ⟨ts, us, rfl, hrules, hstage⟩ := h hnone
      cases hstage with
      | named hname => exact ⟨ts, [_, t], by simp, hrules, .body hname hk (by simp) rfl⟩
    · exact progressRead_fail _ _ _ _
  | body name s =>
    dsimp only
    split
    · next hk =>
      split
      · next e hfinish =>
        intro hnone
        obtain ⟨ts, us, rfl, hrules, hstage⟩ := h hnone
        cases hstage with
        | @body first equals body _ hname hequals hbody hrun =>
          have hrule := IsRule.mk hname hequals (isExpr_of_run hbody hrun hfinish) hk
          refine ⟨ts ++ (first :: equals :: body ++ [t]), [], by simp, ?_, .start⟩
          rw [List.reverse_cons]
          exact hrules.snoc hrule
      · exact progressRead_fail _ _ _ _
    · split
      · next next hstep =>
        intro hnone
        obtain ⟨ts, us, rfl, hrules, hstage⟩ := h hnone
        cases hstage with
        | @body first equals body _ hname hequals hbody hrun =>
          have hnext : ∀ u ∈ body ++ [t], u.IsScanned :=
            List.forall_mem_append.mpr ⟨hbody, List.forall_mem_singleton.mpr ht⟩
          refine ⟨ts, first :: equals :: (body ++ [t]), by simp, hrules,
            .body hname hequals hnext ?_⟩
          rw [State.run_append_of_run hrun]
          exact State.run_singleton_of_moves (State.moves_of_step hstep)
      · exact progressRead_fail _ _ _ _
  | skipping =>
    intro hnone
    have hproblems : problems = [] := by
      dsimp only at hnone
      split at hnone <;> exact hnone
    obtain ⟨_, _, _, _, hstage⟩ := h hproblems
    cases hstage

theorem ProgressRead.foldl {p : Progress} {read ts : List Token} (h : ProgressRead p read)
    (hts : ∀ t ∈ ts, t.IsScanned) : ProgressRead (ts.foldl Progress.step p) (read ++ ts) := by
  induction ts generalizing p read with
  | nil => rwa [List.append_nil]
  | cons t ts ih =>
    obtain ⟨ht, hrest⟩ := List.forall_mem_cons.mp hts
    have hnext := ih (h.step ht) hrest
    rwa [List.append_assoc, List.singleton_append] at hnext

/-- Tokens are read as rules exactly when they are phrases for them. -/
theorem rules_eq_ok_iff {ts : List Token} (hts : ∀ t ∈ ts, t.IsScanned) {rs : List Rule} :
    rules ts = .ok rs ↔ AreRules maxNesting ts rs := by
  unfold rules
  constructor
  · intro h
    have hread : ProgressRead (ts.foldl Progress.step {}) ts :=
      ProgressRead.foldl (fun _ ↦ ⟨[], [], rfl, .nil, .start⟩) hts
    generalize ts.foldl Progress.step {} = p at h hread
    dsimp only at h
    split at h
    · next hall =>
      rw [Except.ok.injEq] at h
      rw [List.isEmpty_iff, Progress.allProblems, List.append_eq_nil_iff,
        List.reverse_eq_nil_iff] at hall
      obtain ⟨us, vs, rfl, hrules, hstage⟩ := hread hall.1
      have hend := hall.2
      cases hst : p.stage with
      | start =>
        rw [hst] at hstage
        cases hstage
        rwa [List.append_nil, ← h]
      | skipping => rw [hst] at hstage; cases hstage
      | named name => simp [Progress.problemAtEnd?, hst] at hend
      | body name s =>
        simp only [Progress.problemAtEnd?, hst] at hend
        split at hend <;> simp at hend
    · cases h
  · intro h
    have hfold := foldl_step_of_areRules h [] []
    rw [List.append_nil] at hfold
    show (if (ts.foldl Progress.step ⟨[], [], .start⟩).allProblems.isEmpty then _ else _) = _
    rw [hfold]
    simp [Progress.allProblems, Progress.problemAtEnd?]

/-- Where tokens are no rules there is a fault to report. -/
theorem exists_problems_of_rules {ts : List Token} (hts : ∀ t ∈ ts, t.IsScanned)
    (h : ∀ rs, ¬AreRules maxNesting ts rs) :
    ∃ problems, problems ≠ [] ∧ rules ts = .error problems := by
  cases hrules : rules ts with
  | ok rs => exact absurd ((rules_eq_ok_iff hts).mp hrules) (h rs)
  | error problems =>
    refine ⟨problems, ?_, rfl⟩
    rintro rfl
    simp only [rules] at hrules
    split at hrules
    · cases hrules
    · next hall =>
      rw [Except.error.injEq] at hrules
      exact hall (by rw [hrules]; rfl)

end Reading

namespace Rule

variable {text : String}

/-- A text is read as rules exactly when its tokens are phrases for them. -/
theorem readAll_eq_ok_iff {rules : List Rule} : readAll text = .ok rules ↔
    Reading.AreRules Reading.maxNesting (Token.significant text) rules := by
  rw [← Reading.rules_eq_ok_iff (Token.isScanned_significant text), readAll]
  split
  · next hrules => rw [hrules, Except.ok.injEq, Except.ok.injEq]
  · next hrules => simp [hrules]

theorem readAll_eq_error
    (h : ∀ rules, ¬Reading.AreRules Reading.maxNesting (Token.significant text) rules) :
    ∃ ds, ds ≠ [] ∧ readAll text = .error (.malformed ds) := by
  obtain ⟨problems, hne, hproblems⟩ :=
    Reading.exists_problems_of_rules (Token.isScanned_significant text) h
  rw [readAll, hproblems]
  exact ⟨_, mt List.map_eq_nil_iff.mp hne, rfl⟩

end Rule

theorem Grammar.read_eq_error {text : String}
    (h : ∀ rules, ¬Reading.AreRules Reading.maxNesting (Token.significant text) rules) :
    ∃ ds, ds ≠ [] ∧ Grammar.read text = .error (.malformed ds) := by
  obtain ⟨ds, hne, hread⟩ := Rule.readAll_eq_error h
  refine ⟨ds, hne, ?_⟩
  rw [Grammar.read, hread]
  rfl

end Ebnf
