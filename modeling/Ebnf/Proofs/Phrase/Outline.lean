import Ebnf.Proofs.Phrase.Sound
import Mathlib.Logic.Basic

/-!
What the kinds of tokens tell about reading. The `Outline` of a state is the brackets that are
open and what may come next, without what has been read and where. Two states with one outline
read tokens of the same kinds in step, except that one of them may refuse the ends of a range.
A fault other than that shows at the token that is read, and in front of it all open brackets can
be closed, behind an operand if one is due.
-/

set_option autoImplicit false
set_option relaxedAutoImplicit false

namespace Ebnf.Reading

/-- What may come next, as far as it depends on the kinds of tokens. -/
inductive Stance where
  /-- An operand is due. -/
  | due
  /-- An operand is due unless the round group that has been opened is closed. -/
  | opened
  /-- A string has been read. -/
  | literal
  /-- The second end of a range is due. -/
  | boundary
  /-- An operand other than a string has been read. -/
  | done
deriving DecidableEq, Repr

def Phase.stance : Phase → Stance
  | .operand => .due
  | .opened bracket _ => if bracket = .round then .opened else .due
  | .literal _ => .literal
  | .boundary _ => .boundary
  | .braced _ _ | .complete _ => .done

/-- The brackets that are open, innermost first, and what may come next. -/
structure Outline where
  brackets : List Bracket
  stance : Stance
deriving DecidableEq, Repr

def State.outline (s : State) : Outline :=
  ⟨s.stack.map Frame.bracket, s.phase.stance⟩

section Stance

variable {phase : Phase}

theorem Phase.isDue_iff : phase.IsDue ↔ phase.stance = .due ∨ phase.stance = .opened := by
  constructor
  · rintro (_ | ⟨bracket, stop⟩)
    · exact .inl rfl
    · exact (ite_eq_or_eq (bracket = .round) Stance.opened .due).symm
  · intro h
    cases phase with
    | operand => exact .operand
    | opened bracket stop => exact .opened bracket stop
    | _ => rcases h with h | h <;> cases h

theorem Phase.exists_operand?_iff :
    (∃ e, phase.operand? = some e) ↔ phase.stance = .literal ∨ phase.stance = .done := by
  cases phase <;> simp [Phase.operand?, Phase.stance, ite_eq_iff]

theorem Phase.exists_opened_iff :
    (∃ stop, phase = .opened .round stop) ↔ phase.stance = .opened := by
  cases phase <;> simp [Phase.stance]

theorem Phase.exists_literal_iff : (∃ string, phase = .literal string) ↔
    phase.stance = .literal := by
  cases phase <;> simp [Phase.stance, ite_eq_iff]

theorem Phase.exists_boundary_iff : (∃ first, phase = .boundary first) ↔
    phase.stance = .boundary := by
  cases phase <;> simp [Phase.stance, ite_eq_iff]

end Stance

section Top

variable {s : State} {ts : List Token} {bracket : Bracket} {stop : Nat} {body : Expr}

/-- The bracket in front of an operand is on top of the stack. -/
theorem StackRead.bracket_of_opening {frames : List Frame} {n : Nat} {us : List Token}
    {level : Level} {left : Token} (h : StackRead frames ts) (hlevel : LevelRead n us level)
    (hlast : (ts ++ us).getLast? = some left) (hk : left.kind = .opening bracket) :
    ∃ outer, frames.map Frame.bracket = bracket :: outer := by
  obtain rfl := hlevel.eq_nil_of_opening hlast hk
  rw [List.append_nil] at hlast
  cases h with
  | nil => cases hlast
  | @cons outer frame _ _ _ _ _ hopen _ _ =>
    rw [List.getLast?_concat, Option.some.injEq] at hlast
    rw [hlast, hk, Token.Kind.opening.injEq] at hopen
    exact ⟨outer.map Frame.bracket, by rw [List.map_cons, hopen]⟩

theorem StateRead.bracket_of_opened (h : StateRead s ts) (hp : s.phase = .opened bracket stop) :
    ∃ outer, s.stack.map Frame.bracket = bracket :: outer := by
  obtain ⟨us, vs, ws, -, hstack, hlevel, hphase⟩ := h
  rw [hp] at hphase
  cases hphase with
  | opened hlast hk => exact hstack.bracket_of_opening hlevel hlast hk

theorem StateRead.bracket_of_braced (h : StateRead s ts) (hp : s.phase = .braced body stop) :
    ∃ outer, s.stack.map Frame.bracket = .square :: outer := by
  obtain ⟨us, vs, ws, -, hstack, hlevel, hphase⟩ := h
  rw [hp] at hphase
  cases hphase with
  | braced hbody htouch _ =>
    obtain ⟨first, rest, rfl⟩ := List.exists_cons_of_ne_nil hbody.ne_nil
    obtain ⟨left, hlast, hk, -⟩ := htouch first rfl
    exact hstack.bracket_of_opening hlevel hlast hk

end Top

section Moves

variable {s u u' : State} {t t' first : Token} {e : Expr} {bracket : Bracket}
  {brackets : List Bracket}

theorem stance_closed (frame : Frame) (level : Level) (e : Expr) (t : Token) :
    (State.closed frame level e t).stance = .done := by
  unfold State.closed
  split
  · rfl
  · rfl
  · split <;> rfl

theorem outline_closeAs (hstack : s.stack.map Frame.bracket = bracket :: brackets) (e : Expr) :
    (s.closeAs e).outline = ⟨brackets, .done⟩ := by
  obtain ⟨frame, outer, hframes, rfl, rfl⟩ := List.map_eq_cons_iff.mp hstack
  rw [State.closeAs, hframes]
  rfl

/-- Behind an operand the innermost group can be closed. -/
theorem exists_moves_closing (hop : s.phase.operand? = some e)
    (hstack : s.stack.map Frame.bracket = bracket :: brackets) (hk : t.kind = .closing bracket) :
    ∃ s', Moves s t s' ∧ s'.outline = ⟨brackets, .done⟩ := by
  by_cases hstar : ∃ body, s.phase = .braced body t.offset ∧ t.kind = .closing .square
  · obtain ⟨body, hp, hsquare⟩ := hstar
    exact ⟨_, .star hp hsquare, outline_closeAs hstack _⟩
  · obtain ⟨frame, outer, hframes, rfl, rfl⟩ := List.map_eq_cons_iff.mp hstack
    refine ⟨_, .close hop hframes hk fun body hp hsquare ↦ hstar ⟨body, hp, hsquare⟩, ?_⟩
    rw [State.outline, stance_closed]

theorem exists_moves_opening (hdue : s.phase.IsDue) (hk : t.kind = .opening bracket)
    (hn : s.stack.length < maxNesting) : ∃ s', Moves s t s' ∧
      s'.outline = ⟨bracket :: s.outline.brackets, if bracket = .round then .opened else .due⟩ := by
  classical
  exact ⟨s.inside bracket (decide (bracket = .curly ∧ s.phase = .opened .square t.offset)) t,
    .opener hdue hk hn decide_eq_true_iff, rfl⟩

/-- A string may be no second end of a range, or what was to be the first end is none. -/
theorem exists_moves_range (hp : s.phase = .boundary first) (hk : t.kind = .string) :
    (∃ s', Moves s t s' ∧ s'.outline = ⟨s.outline.brackets, .done⟩) ∨
      ∃ problem, s.step t = .error problem ∧ problem.code = .badBoundary := by
  have hbad (string : Token) : (∃ c, State.boundary string = .ok c) ∨
      State.boundary string = .error (.badBoundary string) := by
    unfold State.boundary
    split
    · exact .inl ⟨_, rfl⟩
    · exact .inr rfl
  rcases hbad first with ⟨lower, hlower⟩ | hlower
  · rcases hbad t with ⟨upper, hupper⟩ | hupper
    · exact .inl ⟨_, .range hp hk (State.boundary_eq_ok_iff.mp hlower)
        (State.boundary_eq_ok_iff.mp hupper), rfl⟩
    · refine .inr ⟨.badBoundary t, ?_, rfl⟩
      simp only [State.step, hp, hk, if_true, hlower, hupper]
      rfl
  · refine .inr ⟨.badBoundary first, ?_, rfl⟩
    simp only [State.step, hp, hk, if_true, hlower]
    rfl

/-- What a state reads, any state with its outline reads too, unless it refuses the ends of a
range, and the outlines stay the same. -/
theorem Moves.in_step {us : List Token} (h : Moves u t u') (hu : StateRead u us)
    (heq : s.outline = u.outline) (hkind : t'.kind = t.kind) :
    (∃ s', Moves s t' s' ∧ s'.outline = u'.outline) ∨
      ∃ problem, s.step t' = .error problem ∧ problem.code = .badBoundary := by
  obtain ⟨hbrackets, hstance⟩ : s.stack.map Frame.bracket = u.stack.map Frame.bracket ∧
    s.phase.stance = u.phase.stance := by simpa [State.outline] using heq
  have hdue (h : u.phase.IsDue) : s.phase.IsDue :=
    Phase.isDue_iff.mpr (hstance ▸ Phase.isDue_iff.mp h)
  have hoperand {e : Expr} (h : u.phase.operand? = some e) : ∃ f, s.phase.operand? = some f :=
    Phase.exists_operand?_iff.mpr (hstance ▸ Phase.exists_operand?_iff.mp ⟨e, h⟩)
  cases h with
  | symbol h hk =>
    exact .inl ⟨_, .symbol (hdue h) (hkind.trans hk), congrArg (Outline.mk · .done) hbrackets⟩
  | literal h hk =>
    exact .inl ⟨_, .literal (hdue h) (hkind.trans hk), congrArg (Outline.mk · .literal) hbrackets⟩
  | @opener bracket attached h hk hroom _ =>
    have hlength : s.stack.length = u.stack.length := by
      simpa using congrArg List.length hbrackets
    obtain ⟨s', hmove, houtline⟩ :=
      exists_moves_opening (hdue h) (hkind.trans hk) (hlength ▸ hroom)
    refine .inl ⟨s', hmove, houtline.trans ?_⟩
    rw [heq]
    rfl
  | @empty stop hp hk =>
    obtain ⟨stop', hp'⟩ := Phase.exists_opened_iff.mpr
      (hstance.trans (Phase.exists_opened_iff.mp ⟨stop, hp⟩))
    obtain ⟨outer, houter⟩ := hu.bracket_of_opened hp
    refine .inl ⟨_, .empty hp' (hkind.trans hk), ?_⟩
    rw [outline_closeAs houter, outline_closeAs (hbrackets.trans houter)]
  | @dots string hp hk =>
    obtain ⟨string', hp'⟩ := Phase.exists_literal_iff.mpr
      (hstance.trans (Phase.exists_literal_iff.mp ⟨string, hp⟩))
    exact .inl ⟨_, .dots hp' (hkind.trans hk), congrArg (Outline.mk · .boundary) hbrackets⟩
  | @range first lower upper hp hk _ _ =>
    obtain ⟨first', hp'⟩ := Phase.exists_boundary_iff.mpr
      (hstance.trans (Phase.exists_boundary_iff.mp ⟨first, hp⟩))
    refine (exists_moves_range hp' (hkind.trans hk)).imp_left ?_
    rintro ⟨s', hmove, houtline⟩
    exact ⟨s', hmove, by rw [houtline, heq]; rfl⟩
  | star hp hk =>
    obtain ⟨outer, houter⟩ := hu.bracket_of_braced hp
    obtain ⟨f, hop⟩ := hoperand (by rw [hp]; rfl)
    obtain ⟨s', hmove, houtline⟩ :=
      exists_moves_closing hop (hbrackets.trans houter) (hkind.trans hk)
    exact .inl ⟨s', hmove, houtline.trans (outline_closeAs houter _).symm⟩
  | comma h hk =>
    obtain ⟨f, hop⟩ := hoperand h
    exact .inl ⟨_, .comma hop (hkind.trans hk), congrArg (Outline.mk · .due) hbrackets⟩
  | pipe h hk =>
    obtain ⟨f, hop⟩ := hoperand h
    exact .inl ⟨_, .pipe hop (hkind.trans hk), congrArg (Outline.mk · .due) hbrackets⟩
  | @close e frame outer h hframes hk _ =>
    obtain ⟨f, hop⟩ := hoperand h
    rw [hframes, List.map_cons] at hbrackets
    obtain ⟨s', hmove, houtline⟩ := exists_moves_closing hop hbrackets (hkind.trans hk)
    refine .inl ⟨s', hmove, houtline.trans ?_⟩
    rw [State.outline, stance_closed]

end Moves

section Run

variable {s s' u u' : State} {ts us : List Token} {t : Token} {e : Expr}
  {problem : Problem}

/-- What a state reads to the end, any state with its outline reads to the end too, unless it
refuses the ends of a range. -/
theorem run_in_step {read : List Token} (hrun : u.run us = .ok u') (hu : StateRead u read)
    (hus : ∀ t ∈ us, t.IsScanned) (heq : s.outline = u.outline)
    (hkinds : ts.map Token.kind = us.map Token.kind) :
    (∃ s', s.run ts = .ok s' ∧ s'.outline = u'.outline) ∨
      ∃ problem, s.run ts = .error problem ∧ problem.code = .badBoundary := by
  induction us generalizing s u ts read with
  | nil =>
    rw [List.map_nil, List.map_eq_nil_iff] at hkinds
    subst hkinds
    cases hrun
    exact .inl ⟨s, rfl, heq⟩
  | cons t us ih =>
    obtain ⟨t', ts', rfl, hkind, hrest⟩ := List.map_eq_cons_iff.mp hkinds
    obtain ⟨ht, hscanned⟩ := List.forall_mem_cons.mp hus
    obtain ⟨next, hmove, hrun'⟩ := State.exists_of_run_cons hrun
    rcases hmove.in_step hu heq hkind with ⟨next', hmove', heq'⟩ | ⟨problem, hproblem, hcode⟩
    · rw [State.run_cons_of_moves hmove']
      exact ih hrun' (hu.moves ht hmove) hscanned heq' hrest
    · exact .inr ⟨problem, by rw [State.run_cons, hproblem]; rfl, hcode⟩

/-- Whether reading may end can be seen from the outline. -/
theorem exists_finish_iff {found : Option Token} : (∃ e, s.finish found = .ok e) ↔
    s.outline.brackets = [] ∧ (s.outline.stance = .literal ∨ s.outline.stance = .done) := by
  have hiff : s.outline.brackets = [] ↔ s.stack = [] := List.map_eq_nil_iff
  rw [hiff, State.outline, ← Phase.exists_operand?_iff]
  constructor
  · rintro ⟨e, h⟩
    obtain ⟨hstack, last, hop, -⟩ := State.finish_eq_ok_iff.mp h
    exact ⟨hstack, last, hop⟩
  · rintro ⟨hstack, last, hop⟩
    exact ⟨_, State.finish_eq_ok_iff.mpr ⟨hstack, last, hop, rfl⟩⟩

/-- Behind an operand the brackets that are open can be closed one after the other. -/
theorem exists_run_closers {brackets : List Bracket} (hbrackets : s.outline.brackets = brackets)
    (hop : s.phase.operand? = some e) (hkinds : ts.map Token.kind = brackets.map .closing) :
    ∃ s', s.run ts = .ok s' ∧ ∃ e, s'.finish none = .ok e := by
  induction brackets generalizing s ts e with
  | nil =>
    rw [List.map_nil, List.map_eq_nil_iff] at hkinds
    subst hkinds
    exact ⟨s, rfl, exists_finish_iff.mpr ⟨hbrackets, Phase.exists_operand?_iff.mp ⟨e, hop⟩⟩⟩
  | cons bracket brackets ih =>
    obtain ⟨t, ts, rfl, hkind, hrest⟩ := List.map_eq_cons_iff.mp hkinds
    obtain ⟨s', hmove, houtline⟩ := exists_moves_closing hop hbrackets hkind
    rw [State.run_cons_of_moves hmove]
    have hstance : s'.phase.stance = .done := congrArg Outline.stance houtline
    obtain ⟨f, hop'⟩ := Phase.exists_operand?_iff.mpr (.inr hstance)
    exact ih (by rw [houtline]) hop' hrest

end Run

section Faults

variable {s : State} {t : Token} {e : Expr} {found : Option Token} {problem : Problem}

theorem eq_of_descend_eq_error {bracket : Bracket} {attached : Bool}
    (h : s.descend bracket attached t = .error problem) : problem = .tooDeep t := by
  unfold State.descend at h
  split at h <;> cases h
  rfl

theorem token?_of_descend {bracket : Bracket} {attached : Bool}
    (h : s.descend bracket attached t = .error problem) : problem.token? = some t := by
  rw [eq_of_descend_eq_error h]
  rfl

theorem token?_of_startOperand (h : s.startOperand t = .error problem) :
    problem.token? = some t := by
  unfold State.startOperand at h
  split at h
  · cases h
  · cases h
  · exact token?_of_descend h
  all_goals
    cases h
    rfl

theorem token?_of_afterOperand (h : s.afterOperand e t = .error problem) :
    problem.token? = some t := by
  unfold State.afterOperand at h
  split at h
  · cases h
  · cases h
  · split at h
    · cases h
      rfl
    · split at h <;> cases h
      rfl

theorem token?_of_conclude (h : s.conclude e found = .error problem) :
    problem.token? = found := by
  unfold State.conclude at h
  split at h <;> cases h
  rfl

theorem eq_of_boundary_eq_error (h : State.boundary t = .error problem) :
    problem = .badBoundary t := by
  unfold State.boundary at h
  split at h <;> cases h
  rfl

/-- The fault in a range is one of its ends, or what stands in place of the second. -/
theorem fault_of_boundary {first : Token} (hp : s.phase = .boundary first)
    (h : s.step t = .error problem) :
    problem = .badBoundary first ∨ problem = .badBoundary t ∨ problem = .noBoundary (some t) := by
  simp only [State.step, hp] at h
  split at h
  · cases hlower : State.boundary first with
    | error _ =>
      rw [hlower] at h
      cases h
      exact .inl (eq_of_boundary_eq_error hlower)
    | ok lower =>
      cases hupper : State.boundary t with
      | error _ =>
        rw [hlower, hupper] at h
        cases h
        exact .inr (.inl (eq_of_boundary_eq_error hupper))
      | ok upper =>
        rw [hlower, hupper] at h
        cases h
  · cases h
    exact .inr (.inr rfl)

theorem code_of_step_boundary {first : Token} (hp : s.phase = .boundary first)
    (h : s.step t = .error problem) : problem.code = .badBoundary := by
  rcases fault_of_boundary hp h with rfl | rfl | rfl <;> rfl

/-- Outside a range a token is refused in place of an operand or behind one. -/
theorem step_error_cases (hstance : s.phase.stance ≠ .boundary) (h : s.step t = .error problem) :
    (s.descend .curly true t = .error problem ∨ s.startOperand t = .error problem) ∨
      ∃ e, s.afterOperand e t = .error problem := by
  unfold State.step at h
  split at h
  · exact .inl (.inr h)
  · split at h
    · cases h
    · split at h
      · exact .inl (.inl h)
      · exact .inl (.inr h)
  · split at h
    · cases h
    · exact .inr ⟨_, h⟩
  · next first hp => exact absurd (Phase.exists_boundary_iff.mp ⟨first, hp⟩) hstance
  · split at h
    · cases h
    · exact .inr ⟨_, h⟩
  · exact .inr ⟨_, h⟩

theorem token?_of_step_of_stance (hstance : s.phase.stance ≠ .boundary)
    (h : s.step t = .error problem) : problem.token? = some t := by
  rcases step_error_cases hstance h with (h | h) | ⟨e, h⟩
  · exact token?_of_descend h
  · exact token?_of_startOperand h
  · exact token?_of_afterOperand h

/-- A fault other than in a range shows at the token that is read. -/
theorem token?_of_step (h : s.step t = .error problem) (hcode : problem.code ≠ .badBoundary) :
    s.phase.stance ≠ .boundary ∧ problem.token? = some t := by
  have hstance : s.phase.stance ≠ .boundary := by
    intro hstance
    obtain ⟨first, hp⟩ := Phase.exists_boundary_iff.mpr hstance
    exact hcode (code_of_step_boundary hp h)
  exact ⟨hstance, token?_of_step_of_stance hstance h⟩

/-- What ends the reading too early is the end of an operand, of a range or of a group. -/
theorem finish_error_cases (h : s.finish found = .error problem) :
    problem = .noOperand found ∨ problem = .noBoundary found ∨
      ∃ e, s.conclude e found = .error problem := by
  unfold State.finish at h
  split at h
  · cases h
    exact .inl rfl
  · cases h
    exact .inl rfl
  · exact .inr (.inr ⟨_, h⟩)
  · cases h
    exact .inr (.inl rfl)
  · exact .inr (.inr ⟨_, h⟩)
  · exact .inr (.inr ⟨_, h⟩)

theorem token?_eq_of_finish (h : s.finish found = .error problem) : problem.token? = found := by
  rcases finish_error_cases h with rfl | rfl | ⟨e, h⟩
  · rfl
  · rfl
  · exact token?_of_conclude h

/-- A fault other than in a range shows at what ends the reading. -/
theorem token?_of_finish (h : s.finish found = .error problem)
    (hcode : problem.code ≠ .badBoundary) :
    s.phase.stance ≠ .boundary ∧ problem.token? = found := by
  refine ⟨fun hstance ↦ ?_, token?_eq_of_finish h⟩
  obtain ⟨first, hp⟩ := Phase.exists_boundary_iff.mpr hstance
  simp only [State.finish, hp] at h
  cases h
  exact hcode rfl

end Faults

end Ebnf.Reading
