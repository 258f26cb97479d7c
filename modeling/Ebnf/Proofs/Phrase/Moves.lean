import Ebnf.Reading.Expr

/-!
What one token does to a state of reading. `Moves` lists the ten ways in which reading can go on
behind a token, each with all that it asks for, and `step_eq_ok_iff` says that a token is read
in one of these ways or not at all. What is proved about reading further on is proved by cases
on `Moves`, in both directions, and does not look at the function that takes the step.
-/

set_option autoImplicit false
set_option relaxedAutoImplicit false

namespace Ebnf.Reading

/-- The phases in which an operand may begin. -/
inductive Phase.IsDue : Phase → Prop
  | operand : IsDue .operand
  | opened (bracket : Bracket) (stop : Nat) : IsDue (.opened bracket stop)

/-- The operand that has been read, in the phases in which one has been. -/
def Phase.operand? : Phase → Option Expr
  | .operand | .opened _ _ | .boundary _ => none
  | .literal string => some (.terminal (Quoted.decode string.text))
  | .braced body _ => some (.plus body)
  | .complete e => some e

/-- The state behind the opening bracket of a group. -/
def State.inside (s : State) (bracket : Bracket) (attached : Bool) (left : Token) : State :=
  ⟨⟨bracket, left.offset, attached, s.level⟩ :: s.stack, {}, .opened bracket left.stop⟩

/-- Reading a token takes the first state to the second. -/
inductive Moves : State → Token → State → Prop
  | symbol {s : State} {t : Token} :
    s.phase.IsDue → t.kind = .name → Moves s t { s with phase := .complete (.symbol t.text) }
  | literal {s : State} {t : Token} :
    s.phase.IsDue → t.kind = .string → Moves s t { s with phase := .literal t }
  | opener {s : State} {t : Token} {bracket : Bracket} {attached : Bool} :
    s.phase.IsDue → t.kind = .opening bracket → s.stack.length < maxNesting →
      (attached = true ↔ bracket = .curly ∧ s.phase = .opened .square t.offset) →
        Moves s t (s.inside bracket attached t)
  | empty {s : State} {t : Token} {stop : Nat} :
    s.phase = .opened .round stop → t.kind = .closing .round → Moves s t (s.closeAs (.choice []))
  | dots {s : State} {t string : Token} :
    s.phase = .literal string → t.kind = .ellipsis →
      Moves s t { s with phase := .boundary string }
  | range {s : State} {t string : Token} {lower upper : Char} :
    s.phase = .boundary string → t.kind = .string → Quoted.body string.text = [lower] →
      Quoted.body t.text = [upper] →
        Moves s t { s with phase := .complete (.range ⟨lower, upper⟩) }
  | star {s : State} {t : Token} {body : Expr} :
    s.phase = .braced body t.offset → t.kind = .closing .square → Moves s t (s.closeAs (.star body))
  | comma {s : State} {t : Token} {e : Expr} :
    s.phase.operand? = some e → t.kind = .comma →
      Moves s t { s with level := s.level.addItem e, phase := .operand }
  | pipe {s : State} {t : Token} {e : Expr} :
    s.phase.operand? = some e → t.kind = .pipe →
      Moves s t { s with level := s.level.addAlternative e, phase := .operand }
  | close {s : State} {t : Token} {e : Expr} {frame : Frame} {outer : List Frame} :
    s.phase.operand? = some e → s.stack = frame :: outer → t.kind = .closing frame.bracket →
      (∀ body, s.phase = .braced body t.offset → t.kind ≠ .closing .square) →
        Moves s t ⟨outer, frame.outer, State.closed frame s.level e t⟩

namespace State

variable {s s' : State} {t : Token} {e : Expr}

theorem moves_of_startOperand (hdue : s.phase.IsDue)
    (hopen : t.kind = .opening .curly → s.phase ≠ .opened .square t.offset)
    (h : s.startOperand t = .ok s') : Moves s t s' := by
  unfold startOperand at h
  split at h
  · next hk => cases h; exact .symbol hdue hk
  · next hk => cases h; exact .literal hdue hk
  · next bracket hk =>
    unfold descend at h
    split at h
    · cases h
    · next hn =>
      cases h
      refine .opener hdue hk (Nat.not_le.mp hn) ⟨fun hf ↦ Bool.noConfusion hf, ?_⟩
      rintro ⟨rfl, hp⟩
      exact absurd hp (hopen hk)
  all_goals cases h

theorem moves_of_afterOperand (hop : s.phase.operand? = some e)
    (hstar : ∀ body, s.phase = .braced body t.offset → t.kind ≠ .closing .square)
    (h : s.afterOperand e t = .ok s') : Moves s t s' := by
  unfold afterOperand at h
  split at h
  · next hk => cases h; exact .comma hop hk
  · next hk => cases h; exact .pipe hop hk
  · split at h
    · cases h
    · next hs =>
      split at h
      · next hk => cases h; exact .close hop hs hk hstar
      · cases h

theorem boundary_eq_ok_iff {c : Char} : boundary t = .ok c ↔ Quoted.body t.text = [c] := by
  unfold boundary
  split
  · next d hd => simp [hd]
  · next hd =>
    exact ⟨fun h ↦ (by cases h), fun h ↦ absurd h (hd c)⟩

theorem moves_of_step (h : s.step t = .ok s') : Moves s t s' := by
  unfold step at h
  split at h
  · next hp => exact moves_of_startOperand (hp ▸ .operand) (fun _ hq ↦ by simp [hp] at hq) h
  · next bracket stop hp =>
    split at h
    · next hk => cases h; exact .empty (hk.1 ▸ hp) hk.2
    · split at h
      · next hk =>
        unfold descend at h
        split at h
        · cases h
        · next hn =>
          cases h
          obtain ⟨rfl, hc, rfl⟩ := hk
          exact .opener (hp ▸ .opened _ _) hc (Nat.not_le.mp hn) (by simp [hp])
      · next hk =>
        refine moves_of_startOperand (hp ▸ .opened _ _) (fun hc hq ↦ hk ?_) h
        rw [hp, Phase.opened.injEq] at hq
        exact ⟨hq.1, hc, hq.2.symm⟩
  · next string hp =>
    split at h
    · next hk => cases h; exact .dots hp hk
    · exact moves_of_afterOperand (by rw [hp]; rfl) (fun _ hq ↦ by simp [hp] at hq) h
  · next first hp =>
    split at h
    · next hk =>
      cases hl : boundary first with
      | error problem => rw [hl] at h; cases h
      | ok lower =>
        cases hu : boundary t with
        | error problem => rw [hl, hu] at h; cases h
        | ok upper =>
          rw [hl, hu] at h
          cases h
          exact .range hp hk (boundary_eq_ok_iff.mp hl) (boundary_eq_ok_iff.mp hu)
    · cases h
  · next body stop hp =>
    split at h
    · next hk => cases h; exact .star (hk.2 ▸ hp) hk.1
    · next hk =>
      refine moves_of_afterOperand (by rw [hp]; rfl) (fun other hq hc ↦ hk ⟨hc, ?_⟩) h
      rw [hp, Phase.braced.injEq] at hq
      exact hq.2.symm
  · next e hp => exact moves_of_afterOperand (by rw [hp]; rfl) (fun _ hq ↦ by simp [hp] at hq) h

theorem step_of_isDue (hdue : s.phase.IsDue) (hk : t.kind ≠ .closing .round)
    (hopen : t.kind = .opening .curly → s.phase ≠ .opened .square t.offset) :
    s.step t = s.startOperand t := by
  unfold step
  cases hp : s.phase with
  | operand => rfl
  | opened bracket stop =>
    dsimp only
    rw [if_neg fun h ↦ hk h.2, if_neg]
    rintro ⟨rfl, hc, rfl⟩
    exact hopen hc hp
  | _ => rw [hp] at hdue; cases hdue

theorem step_of_operand? (hop : s.phase.operand? = some e) (hk : t.kind ≠ .ellipsis)
    (hstar : ∀ body, s.phase = .braced body t.offset → t.kind ≠ .closing .square) :
    s.step t = s.afterOperand e t := by
  unfold step
  cases hp : s.phase with
  | literal string =>
    rw [hp, Phase.operand?, Option.some.injEq] at hop
    subst hop
    exact if_neg hk
  | braced body stop =>
    rw [hp, Phase.operand?, Option.some.injEq] at hop
    subst hop
    refine if_neg ?_
    rintro ⟨hc, rfl⟩
    exact hstar body hp hc
  | complete e =>
    rw [hp, Phase.operand?, Option.some.injEq] at hop
    subst hop
    rfl
  | _ => rw [hp] at hop; cases hop

theorem step_of_moves (h : Moves s t s') : s.step t = .ok s' := by
  cases h with
  | symbol hdue hk | literal hdue hk =>
    rw [step_of_isDue hdue (by simp [hk]) (by simp [hk])]
    simp [startOperand, hk]
  | @opener bracket attached hdue hk hn ha =>
    have hdescend (b : Bool) : s.descend bracket b t = .ok (s.inside bracket b t) :=
      if_neg (Nat.not_le.mpr hn)
    cases attached with
    | true =>
      obtain ⟨rfl, hp⟩ := ha.mp rfl
      simp [step, hp, hk, hdescend]
    | false =>
      rw [step_of_isDue hdue (by simp [hk]), startOperand, hk, ← hdescend]
      intro hc hp
      rw [hk, Token.Kind.opening.injEq] at hc
      exact Bool.noConfusion (ha.mpr ⟨hc, hp⟩)
  | empty hp hk => simp [step, hp, hk]
  | dots hp hk => simp [step, hp, hk]
  | range hp hk hl hu =>
    have hlower := boundary_eq_ok_iff.mpr hl
    have hupper := boundary_eq_ok_iff.mpr hu
    simp only [step, hp, hk, hlower, hupper, if_true]
    rfl
  | star hp hk => simp [step, hp, hk]
  | comma hop hk =>
    rw [step_of_operand? hop (by simp [hk]) (by simp [hk])]
    simp [afterOperand, hk]
  | pipe hop hk =>
    rw [step_of_operand? hop (by simp [hk]) (by simp [hk])]
    simp [afterOperand, hk]
  | close hop hs hk hstar =>
    rw [step_of_operand? hop (by simp [hk]) hstar]
    simp [afterOperand, hk, hs]

/-- A token is read in one of the listed ways or not at all. -/
theorem step_eq_ok_iff : s.step t = .ok s' ↔ Moves s t s' :=
  ⟨moves_of_step, step_of_moves⟩

theorem finish_of_operand? (hop : s.phase.operand? = some e) (found : Option Token) :
    s.finish found = s.conclude e found := by
  unfold finish
  cases hp : s.phase with
  | literal | braced | complete =>
    rw [hp, Phase.operand?, Option.some.injEq] at hop
    subst hop
    rfl
  | _ => rw [hp] at hop; cases hop

/-- What is read ends well where an operand has been read and no group is open. -/
theorem finish_eq_ok_iff {found : Option Token} : s.finish found = .ok e ↔
    s.stack = [] ∧ ∃ last, s.phase.operand? = some last ∧ e = s.level.expr last := by
  cases hop : s.phase.operand? with
  | none =>
    refine ⟨fun h ↦ ?_, fun ⟨_, _, hl, _⟩ ↦ (by cases hl)⟩
    unfold finish at h
    cases hp : s.phase <;> simp_all [Phase.operand?]
  | some last =>
    rw [finish_of_operand? hop, conclude]
    cases hs : s.stack with
    | nil => simp [eq_comm]
    | cons frame outer => simp

theorem run_append (s : State) (ts us : List Token) :
    s.run (ts ++ us) = (s.run ts).bind fun s ↦ s.run us := by
  simp only [run, List.foldlM_append]
  rfl

theorem run_append_of_run {ts us : List Token} (h : s.run ts = .ok s') :
    s.run (ts ++ us) = s'.run us := by
  rw [run_append, h]
  rfl

theorem run_cons (s : State) (t : Token) (ts : List Token) :
    s.run (t :: ts) = (s.step t).bind fun s ↦ s.run ts :=
  rfl

theorem run_cons_of_moves {ts : List Token} (h : Moves s t s') : s.run (t :: ts) = s'.run ts := by
  rw [run_cons, step_of_moves h]
  rfl

theorem run_singleton (s : State) (t : Token) : s.run [t] = s.step t := by
  rw [run_cons]
  cases s.step t <;> rfl

theorem run_singleton_of_moves (h : Moves s t s') : s.run [t] = .ok s' :=
  run_cons_of_moves h

/-- Tokens that are read are read one after the other. -/
theorem exists_of_run_cons {ts : List Token} (h : s.run (t :: ts) = .ok s') :
    ∃ u, Moves s t u ∧ u.run ts = .ok s' := by
  rw [run_cons] at h
  cases hstep : s.step t with
  | error problem => rw [hstep] at h; cases h
  | ok u => rw [hstep] at h; exact ⟨u, moves_of_step hstep, h⟩

theorem exists_of_run_append {ts us : List Token} (h : s.run (ts ++ us) = .ok s') :
    ∃ u, s.run ts = .ok u ∧ u.run us = .ok s' := by
  rw [run_append] at h
  cases hrun : s.run ts with
  | error problem => rw [hrun] at h; cases h
  | ok u => rw [hrun] at h; exact ⟨u, rfl, h⟩

/-- A run that meets a fault meets it at one of its tokens. -/
theorem exists_of_run_eq_error {ts : List Token} {problem : Problem}
    (h : s.run ts = .error problem) : ∃ us t vs u, ts = us ++ t :: vs ∧ s.run us = .ok u ∧
      u.step t = .error problem := by
  induction ts generalizing s with
  | nil => cases h
  | cons t ts ih =>
    rw [run_cons] at h
    cases hstep : s.step t with
    | error problem' =>
      rw [hstep] at h
      cases h
      exact ⟨[], t, ts, s, rfl, rfl, hstep⟩
    | ok next =>
      rw [hstep] at h
      obtain ⟨us, t', vs, u, rfl, hrun, hfault⟩ := ih h
      refine ⟨t :: us, t', vs, u, rfl, ?_, hfault⟩
      rw [run_cons, hstep]
      exact hrun

end State

end Ebnf.Reading
