import Ebnf.Reading.Phrase
import Ebnf.Reading.Rules
import Mathlib.Data.List.Chain
import Mathlib.Data.List.Forall2

/-!
Two readings in step. The tokens of two texts are taken in pairs that agree in kind and text and
may stand anywhere, except that two brackets that can be read as one touch in both texts or in
neither. One token after the other the readings do the same: what they hold differs in places
only, and where one meets a fault, so does the other, at the other token of the pair.
-/

set_option autoImplicit false
set_option relaxedAutoImplicit false

namespace Ebnf.Reading

/-- Both succeed, with results that are alike, or both fail, with faults that are alike. -/
inductive Agree {ε ε' α β : Type} (F : ε → ε' → Prop) (S : α → β → Prop) :
    Except ε α → Except ε' β → Prop
  | ok {a : α} {b : β} : S a b → Agree F S (.ok a) (.ok b)
  | error {x : ε} {y : ε'} : F x y → Agree F S (.error x) (.error y)

theorem Agree.bind {ε ε' α β γ δ : Type} {F : ε → ε' → Prop} {S : α → β → Prop}
    {T : γ → δ → Prop} {x : Except ε α} {y : Except ε' β} {f : α → Except ε γ}
    {g : β → Except ε' δ} (h : Agree F S x y) (hnext : ∀ a b, S a b → Agree F T (f a) (g b)) :
    Agree F T (x >>= f) (y >>= g) := by
  cases h with
  | ok hab => exact hnext _ _ hab
  | error hxy => exact .error hxy

/-- The two tokens are brackets that can be read as one if they touch: a square bracket and a
curly one behind it, which open a group together, or a curly bracket and a square one behind it,
which close one. -/
def MayJoin (t t' : Token) : Prop :=
  t.kind = .opening .square ∧ t'.kind = .opening .curly ∨
    t.kind = .closing .curly ∧ t'.kind = .closing .square

instance (t t' : Token) : Decidable (MayJoin t t') :=
  inferInstanceAs (Decidable (_ ∨ _))

instance (t u : Token) : Decidable (Touches t u) :=
  inferInstanceAs (Decidable (_ = _))

/-- Two pairs of tokens, one behind the other in each text: brackets that can be read as one are
read as one in both texts or in neither. -/
def JoinAlike (p q : Token × Token) : Prop :=
  MayJoin p.1 q.1 → (Touches p.1 q.1 ↔ Touches p.2 q.2)

instance (p q : Token × Token) : Decidable (JoinAlike p q) :=
  inferInstanceAs (Decidable (_ → _))

/-- Paired tokens agree in kind and text. -/
def IsPairing (R : Token → Token → Prop) : Prop :=
  ∀ t u, R t u → u.kind = t.kind ∧ u.text = t.text

section Relations

variable (R : Token → Token → Prop)

/-- Faults of one kind at paired tokens, or both at the end. -/
inductive Problem.Alike : Problem → Problem → Prop
  | noOperand {f g : Option Token} : Option.Rel R f g → Alike (.noOperand f) (.noOperand g)
  | unterminated {t u : Token} : R t u → Alike (.unterminated t) (.unterminated u)
  | invalidCharacter {t u : Token} : R t u → Alike (.invalidCharacter t) (.invalidCharacter u)
  | strayCloser {t u : Token} : R t u → Alike (.strayCloser t) (.strayCloser u)
  | tooDeep {t u : Token} : R t u → Alike (.tooDeep t) (.tooDeep u)
  | unclosed {t u : Token} {bracket : Bracket} {f g : Option Token} :
    R t u → t.kind = .opening bracket → Option.Rel R f g →
      Alike (.unclosed bracket t.offset f) (.unclosed bracket u.offset g)
  | noBoundary {f g : Option Token} : Option.Rel R f g → Alike (.noBoundary f) (.noBoundary g)
  | badBoundary {t u : Token} : R t u → Alike (.badBoundary t) (.badBoundary u)
  | leftover {t u : Token} : R t u → Alike (.leftover t) (.leftover u)
  | noName {f g : Option Token} : Option.Rel R f g → Alike (.noName f) (.noName g)
  | noEquals {f g : Option Token} : Option.Rel R f g → Alike (.noEquals f) (.noEquals g)
  | noSemicolon {name : String} {f g : Option Token} :
    Option.Rel R f g → Alike (.noSemicolon name f) (.noSemicolon name g)

/-- Groups opened by paired brackets, on the same level. -/
inductive Frame.Alike : Frame → Frame → Prop
  | mk {t u : Token} {bracket : Bracket} {attached : Bool} {outer : Level} :
    R t u → t.kind = .opening bracket →
      Alike ⟨bracket, t.offset, attached, outer⟩ ⟨bracket, u.offset, attached, outer⟩

/-- What may come next is the same, in front of the next pair of tokens: if the brackets that it
may be are a bracket with the last ones in one text, they are so in the other. -/
inductive Phase.Alike (next : Option (Token × Token)) : Phase → Phase → Prop
  | operand : Alike next .operand .operand
  | opened {bracket : Bracket} {stop stop' : Nat} :
    (bracket = .square → ∀ p ∈ next, p.1.kind = .opening .curly →
      (p.1.offset = stop ↔ p.2.offset = stop')) →
        Alike next (.opened bracket stop) (.opened bracket stop')
  | literal {t u : Token} : R t u → Alike next (.literal t) (.literal u)
  | boundary {t u : Token} : R t u → Alike next (.boundary t) (.boundary u)
  | braced {body : Expr} {stop stop' : Nat} :
    (∀ p ∈ next, p.1.kind = .closing .square → (p.1.offset = stop ↔ p.2.offset = stop')) →
      Alike next (.braced body stop) (.braced body stop')
  | complete {e : Expr} : Alike next (.complete e) (.complete e)

/-- States in front of the next pair of tokens that differ in places only. -/
inductive State.Alike (next : Option (Token × Token)) : State → State → Prop
  | mk {stack stack' : List Frame} {level : Level} {phase phase' : Phase} :
    List.Forall₂ (Frame.Alike R) stack stack' → Phase.Alike R next phase phase' →
      Alike next ⟨stack, level, phase⟩ ⟨stack', level, phase'⟩

end Relations

section Step

variable {R : Token → Token → Prop} {next : Option (Token × Token)} {t u : Token}
  {stack stack' : List Frame} {level : Level} {phase phase' : Phase} {s s' : State} {e : Expr}

theorem descend_alike (hR : R t u) {bracket : Bracket} (hk : t.kind = .opening bracket)
    (hjoin : ∀ p ∈ next, JoinAlike (t, u) p) (hstack : List.Forall₂ (Frame.Alike R) stack stack')
    (attached : Bool) : Agree (Problem.Alike R) (State.Alike R next)
      (State.descend ⟨stack, level, phase⟩ bracket attached t)
      (State.descend ⟨stack', level, phase'⟩ bracket attached u) := by
  unfold State.descend
  dsimp only
  rw [← hstack.length_eq]
  split_ifs
  · exact .error (.tooDeep hR)
  · refine .ok (.mk (.cons (.mk hR hk) hstack) (.opened ?_))
    rintro rfl p hp hopening
    exact hjoin p hp (.inl ⟨hk, hopening⟩)

theorem startOperand_alike (hpairing : IsPairing R) (hR : R t u)
    (hjoin : ∀ p ∈ next, JoinAlike (t, u) p) (hstack : List.Forall₂ (Frame.Alike R) stack stack') :
    Agree (Problem.Alike R) (State.Alike R next)
      (State.startOperand ⟨stack, level, phase⟩ t)
      (State.startOperand ⟨stack', level, phase'⟩ u) := by
  obtain ⟨hkind, htext⟩ := hpairing t u hR
  unfold State.startOperand
  rw [hkind, htext]
  cases hk : t.kind with
  | name => exact .ok (.mk hstack .complete)
  | string => exact .ok (.mk hstack (.literal hR))
  | opening bracket => exact descend_alike hR hk hjoin hstack false
  | closing => exact .error (.strayCloser hR)
  | unterminatedString => exact .error (.unterminated hR)
  | invalid => exact .error (.invalidCharacter hR)
  | _ => exact .error (.noOperand (.some hR))

theorem afterOperand_alike (hpairing : IsPairing R) (hR : R t u)
    (hjoin : ∀ p ∈ next, JoinAlike (t, u) p) (hstack : List.Forall₂ (Frame.Alike R) stack stack') :
    Agree (Problem.Alike R) (State.Alike R next)
      (State.afterOperand ⟨stack, level, phase⟩ e t)
      (State.afterOperand ⟨stack', level, phase'⟩ e u) := by
  obtain ⟨hkind, -⟩ := hpairing t u hR
  unfold State.afterOperand
  rw [hkind]
  split
  · exact .ok (.mk hstack .operand)
  · exact .ok (.mk hstack .operand)
  · cases hstack with
    | nil => exact .error (.leftover hR)
    | cons hframe houter =>
      cases hframe with
      | @mk opener opener' bracket attached outer hopener hkind =>
        dsimp only
        split_ifs with hclosing
        · refine .ok (.mk houter ?_)
          unfold State.closed
          cases bracket with
          | round | square => exact .complete
          | curly =>
            cases attached with
            | false => exact .complete
            | true => exact .braced fun p hp hsquare ↦ hjoin p hp (.inr ⟨hclosing, hsquare⟩)
        · exact .error (.unclosed hopener hkind (.some hR))

theorem closeAs_alike (hstack : List.Forall₂ (Frame.Alike R) stack stack') :
    State.Alike R next (State.closeAs ⟨stack, level, phase⟩ e)
      (State.closeAs ⟨stack', level, phase'⟩ e) := by
  cases hstack with
  | nil => exact .mk .nil .complete
  | cons hframe houter =>
    cases hframe
    exact .mk houter .complete

theorem boundary_alike (hpairing : IsPairing R) (hR : R t u) :
    Agree (Problem.Alike R) Eq (State.boundary t) (State.boundary u) := by
  unfold State.boundary
  rw [(hpairing t u hR).2]
  split
  · exact .ok rfl
  · exact .error (.badBoundary hR)

/-- One token of each text takes states that are alike to states that are alike. -/
theorem State.Alike.step (hpairing : IsPairing R) (h : State.Alike R (some (t, u)) s s')
    (hR : R t u) (hjoin : ∀ p ∈ next, JoinAlike (t, u) p) :
    Agree (Problem.Alike R) (State.Alike R next) (s.step t) (s'.step u) := by
  obtain ⟨hkind, -⟩ := hpairing t u hR
  obtain ⟨hstack, hphase⟩ := h
  unfold State.step
  dsimp only
  cases hphase with
  | operand => exact startOperand_alike hpairing hR hjoin hstack
  | @opened bracket stop stop' hattached =>
    have hcurly : bracket = .square ∧ t.kind = .opening .curly ∧ t.offset = stop ↔
        bracket = .square ∧ t.kind = .opening .curly ∧ u.offset = stop' :=
      and_congr_right fun hb ↦ and_congr_right fun hk ↦ hattached hb _ rfl hk
    dsimp only
    rw [hkind]
    simp only [← hcurly]
    split_ifs with hempty hopening
    · exact .ok (closeAs_alike hstack)
    · exact descend_alike hR hopening.2.1 hjoin hstack true
    · exact startOperand_alike hpairing hR hjoin hstack
  | literal hstring =>
    dsimp only
    rw [hkind, (hpairing _ _ hstring).2]
    split_ifs
    · exact .ok (.mk hstack (.boundary hstring))
    · exact afterOperand_alike hpairing hR hjoin hstack
  | boundary hfirst =>
    dsimp only
    rw [hkind]
    split_ifs
    · refine (boundary_alike hpairing hfirst).bind ?_
      rintro lower _ rfl
      refine (boundary_alike hpairing hR).bind ?_
      rintro upper _ rfl
      exact .ok (.mk hstack .complete)
    · exact .error (.noBoundary (.some hR))
  | @braced body stop stop' hattached =>
    have hsquare : t.kind = .closing .square ∧ t.offset = stop ↔
        t.kind = .closing .square ∧ u.offset = stop' :=
      and_congr_right fun hk ↦ hattached _ rfl hk
    dsimp only
    rw [hkind]
    simp only [← hsquare]
    split_ifs
    · exact .ok (closeAs_alike hstack)
    · exact afterOperand_alike hpairing hR hjoin hstack
  | complete => exact afterOperand_alike hpairing hR hjoin hstack

theorem conclude_alike {f g : Option Token} (hfound : Option.Rel R f g)
    (hstack : List.Forall₂ (Frame.Alike R) stack stack') :
    Agree (Problem.Alike R) Eq (State.conclude ⟨stack, level, phase⟩ e f)
      (State.conclude ⟨stack', level, phase'⟩ e g) := by
  unfold State.conclude
  cases hstack with
  | nil => exact .ok rfl
  | cons hframe _ =>
    cases hframe with
    | mk hopener hkind => exact .error (.unclosed hopener hkind hfound)

theorem State.Alike.finish (hpairing : IsPairing R) (h : State.Alike R next s s')
    {f g : Option Token} (hfound : Option.Rel R f g) :
    Agree (Problem.Alike R) Eq (s.finish f) (s'.finish g) := by
  obtain ⟨hstack, hphase⟩ := h
  unfold State.finish
  cases hphase with
  | operand | opened => exact .error (.noOperand hfound)
  | literal hstring =>
    dsimp only
    rw [(hpairing _ _ hstring).2]
    exact conclude_alike hfound hstack
  | boundary => exact .error (.noBoundary hfound)
  | braced | complete => exact conclude_alike hfound hstack

end Step

/-- Stages in front of the next pair of tokens that differ in places only. -/
inductive Stage.Alike (R : Token → Token → Prop) (next : Option (Token × Token)) :
    Stage → Stage → Prop
  | start : Alike R next .start .start
  | named {name : String} : Alike R next (.named name) (.named name)
  | body {name : String} {s s' : State} :
    State.Alike R next s s' → Alike R next (.body name s) (.body name s')
  | skipping : Alike R next .skipping .skipping

/-- The same rules and faults that are alike, in front of the next pair of tokens. -/
inductive Progress.Alike (R : Token → Token → Prop) (next : Option (Token × Token)) :
    Progress → Progress → Prop
  | mk {rules : List Rule} {problems problems' : List Problem} {stage stage' : Stage} :
    List.Forall₂ (Problem.Alike R) problems problems' → Stage.Alike R next stage stage' →
      Alike R next ⟨rules, problems, stage⟩ ⟨rules, problems', stage'⟩

section Progress

variable {R : Token → Token → Prop} {next : Option (Token × Token)} {t u : Token}
  {p p' : Progress} {problem problem' : Problem}

theorem Problem.Alike.inRule (h : Problem.Alike R problem problem') (name : String) :
    Problem.Alike R (problem.inRule name) (problem'.inRule name) := by
  cases h with
  | leftover hR => exact .noSemicolon (.some hR)
  | noOperand h => exact .noOperand h
  | unterminated h => exact .unterminated h
  | invalidCharacter h => exact .invalidCharacter h
  | strayCloser h => exact .strayCloser h
  | tooDeep h => exact .tooDeep h
  | unclosed h hk hfound => exact .unclosed h hk hfound
  | noBoundary h => exact .noBoundary h
  | badBoundary h => exact .badBoundary h
  | noName h => exact .noName h
  | noEquals h => exact .noEquals h
  | noSemicolon h => exact .noSemicolon h

theorem initial_alike : State.Alike R next {} {} :=
  .mk .nil .operand

theorem fail_alike {rules : List Rule} {problems problems' : List Problem} {stage stage' : Stage}
    (hproblems : List.Forall₂ (Problem.Alike R) problems problems')
    (hkind : u.kind = t.kind) (hproblem : Problem.Alike R problem problem') :
    Progress.Alike R next (Progress.fail ⟨rules, problems, stage⟩ problem t)
      (Progress.fail ⟨rules, problems', stage'⟩ problem' u) := by
  unfold Progress.fail
  rw [hkind]
  split_ifs
  · exact .mk (.cons hproblem hproblems) .start
  · exact .mk (.cons hproblem hproblems) .skipping

theorem Progress.Alike.step (hpairing : IsPairing R) (h : Progress.Alike R (some (t, u)) p p')
    (hR : R t u) (hjoin : ∀ q ∈ next, JoinAlike (t, u) q) :
    Progress.Alike R next (p.step t) (p'.step u) := by
  obtain ⟨hkind, htext⟩ := hpairing t u hR
  obtain ⟨hproblems, hstage⟩ := h
  unfold Progress.step
  dsimp only
  rw [hkind, htext]
  cases hstage with
  | start =>
    dsimp only
    split_ifs
    · exact .mk hproblems .named
    · exact fail_alike hproblems hkind (.noName (.some hR))
  | named =>
    dsimp only
    split_ifs
    · exact .mk hproblems (.body initial_alike)
    · exact fail_alike hproblems hkind (.noEquals (.some hR))
  | @body name s s' hs =>
    dsimp only
    split_ifs
    · have hfinish := hs.finish hpairing (.some hR)
      generalize s.finish (some t) = result, s'.finish (some u) = result' at hfinish
      cases hfinish with
      | ok he =>
        subst he
        exact .mk hproblems .start
      | error hproblem => exact fail_alike hproblems hkind hproblem
    · have hstep := hs.step hpairing hR hjoin
      generalize s.step t = result, s'.step u = result' at hstep
      cases hstep with
      | ok hnext => exact .mk hproblems (.body hnext)
      | error hproblem => exact fail_alike hproblems hkind (hproblem.inRule name)
  | skipping =>
    dsimp only
    split_ifs
    · exact .mk hproblems .start
    · exact .mk hproblems .skipping

theorem Progress.Alike.allProblems (hpairing : IsPairing R) (h : Progress.Alike R next p p') :
    List.Forall₂ (Problem.Alike R) p.allProblems p'.allProblems := by
  obtain ⟨hproblems, hstage⟩ := h
  refine List.rel_append (List.rel_reverse hproblems) ?_
  unfold Progress.problemAtEnd?
  cases hstage with
  | start | skipping => exact .nil
  | named => exact .cons (.noEquals .none) .nil
  | @body name s s' hs =>
    have hfinish := hs.finish hpairing .none
    dsimp only
    generalize s.finish none = result, s'.finish none = result' at hfinish
    cases hfinish with
    | ok => exact .cons (.noSemicolon .none) .nil
    | error hproblem => exact .cons hproblem .nil

end Progress

section Run

variable {R : Token → Token → Prop} {ps : List (Token × Token)}

theorem State.Alike.run (hpairing : IsPairing R) (hR : ∀ p ∈ ps, R p.1 p.2)
    (hjoin : ps.IsChain JoinAlike) {s s' : State} (h : State.Alike R ps.head? s s') :
    Agree (Problem.Alike R) (State.Alike R none) (s.run (ps.map Prod.fst))
      (s'.run (ps.map Prod.snd)) := by
  induction ps generalizing s s' with
  | nil => exact .ok h
  | cons p ps ih =>
    obtain ⟨hfirst, hrest⟩ := List.forall_mem_cons.mp hR
    obtain ⟨hnext, hjoins⟩ := List.isChain_cons.mp hjoin
    exact (h.step hpairing hfirst hnext).bind fun s s' hs ↦ ih hrest hjoins hs

theorem Progress.Alike.foldl (hpairing : IsPairing R) (hR : ∀ p ∈ ps, R p.1 p.2)
    (hjoin : ps.IsChain JoinAlike) {p p' : Progress} (h : Progress.Alike R ps.head? p p') :
    Progress.Alike R none ((ps.map Prod.fst).foldl Progress.step p)
      ((ps.map Prod.snd).foldl Progress.step p') := by
  induction ps generalizing p p' with
  | nil => exact h
  | cons q ps ih =>
    obtain ⟨hfirst, hrest⟩ := List.forall_mem_cons.mp hR
    obtain ⟨hnext, hjoins⟩ := List.isChain_cons.mp hjoin
    exact ih hrest hjoins (h.step hpairing hfirst hnext)

/-- An expression is read of both lists of tokens, the same one, or of neither. -/
theorem expr_alike (hpairing : IsPairing R) (hR : ∀ p ∈ ps, R p.1 p.2)
    (hjoin : ps.IsChain JoinAlike) :
    Agree (Problem.Alike R) Eq (expr (ps.map Prod.fst)) (expr (ps.map Prod.snd)) :=
  (State.Alike.run hpairing hR hjoin initial_alike).bind fun _ _ hs ↦ hs.finish hpairing .none

/-- Both lists of tokens are the same rules, or there are as many faults in both. -/
theorem rules_alike (hpairing : IsPairing R) (hR : ∀ p ∈ ps, R p.1 p.2)
    (hjoin : ps.IsChain JoinAlike) :
    Agree (List.Forall₂ (Problem.Alike R)) Eq (rules (ps.map Prod.fst))
      (rules (ps.map Prod.snd)) := by
  have hfold : Progress.Alike R none ((ps.map Prod.fst).foldl Progress.step {})
      ((ps.map Prod.snd).foldl Progress.step {}) :=
    Progress.Alike.foldl hpairing hR hjoin (.mk .nil .start)
  unfold rules
  dsimp only
  generalize (ps.map Prod.fst).foldl Progress.step {} = p,
    (ps.map Prod.snd).foldl Progress.step {} = p' at hfold
  have hrules : p.rules = p'.rules := by cases hfold; rfl
  have hproblems := hfold.allProblems hpairing
  rw [hrules]
  generalize p.allProblems = problems, p'.allProblems = problems' at hproblems
  cases hproblems with
  | nil => exact .ok rfl
  | cons hfirst hrest => exact .error (.cons hfirst hrest)

end Run

end Ebnf.Reading
