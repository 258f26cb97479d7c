import Ebnf.Proofs.Phrase.Joining
import Ebnf.Proofs.Phrase.Moves
import Ebnf.Proofs.Token.Scanned

/-!
What has been read is the beginning of a phrase. `StateRead` says of a state which tokens led to
it: for each open group the finished alternatives and items in front of it and its bracket, then
those of the innermost level, then the operand in hand. One token keeps it (`StateRead.moves`),
so every run does, and where a run ends well with no group open its tokens are a phrase.
-/

set_option autoImplicit false
set_option relaxedAutoImplicit false

namespace Ebnf.Reading

/-- The token stands directly behind a square bracket that opens and touches it. -/
def TouchesSquare (before : List Token) (t : Token) : Prop :=
  ∃ left ∈ before.getLast?, left.kind = .opening .square ∧ Touches left t

/-- The items of a sequence that have been read, the latest first, each with its comma. -/
inductive ItemsRead (n : Nat) : List Token → List Expr → Prop
  | nil : ItemsRead n [] []
  | snoc {ts : List Token} {comma : Token} {e : Expr} {es items : List Expr} :
    AreItems n ts e es → comma.kind = .comma → items.reverse = e :: es →
      ItemsRead n (ts ++ [comma]) items

/-- The alternatives that have been read, the latest first, each with its bar. -/
inductive AlternativesRead (n : Nat) : List Token → List Expr → Prop
  | nil : AlternativesRead n [] []
  | snoc {ts : List Token} {bar : Token} {e : Expr} {es alternatives : List Expr} :
    AreAlternatives n ts e es → bar.kind = .pipe → alternatives.reverse = e :: es →
      AlternativesRead n (ts ++ [bar]) alternatives

/-- What has been read at one level in front of the operand in hand. -/
def LevelRead (n : Nat) (read : List Token) (level : Level) : Prop :=
  ∃ ts us, read = ts ++ us ∧ AlternativesRead n ts level.alternatives ∧ ItemsRead n us level.items

/-- The tokens up to the innermost bracket that is open. -/
inductive StackRead : List Frame → List Token → Prop
  | nil : StackRead [] []
  | cons {frames : List Frame} {frame : Frame} {ts us : List Token} {left : Token} :
    StackRead frames ts → LevelRead (maxNesting - frames.length) us frame.outer →
      left.kind = .opening frame.bracket → frames.length < maxNesting →
        (frame.attached = true ↔ frame.bracket = .curly ∧ TouchesSquare (ts ++ us) left) →
          StackRead (frame :: frames) (ts ++ us ++ [left])

/-- The tokens of the operand in hand. A curly group is kept apart from other operands where it
touches a square bracket in front of it. -/
inductive PhaseRead (n : Nat) (before : List Token) : Phase → List Token → Prop
  | operand : (∀ t ∈ before.getLast?, ∀ bracket, t.kind ≠ .opening bracket) →
    PhaseRead n before .operand []
  | opened {left : Token} {bracket : Bracket} :
    before.getLast? = some left → left.kind = .opening bracket →
      PhaseRead n before (.opened bracket left.stop) []
  | literal {string : Token} :
    string.kind = .string → string.IsScanned → PhaseRead n before (.literal string) [string]
  | boundary {first dots : Token} :
    first.kind = .string → first.IsScanned → dots.kind = .ellipsis →
      PhaseRead n before (.boundary first) [first, dots]
  | braced {ts : List Token} {body : Expr} {stop : Nat} :
    IsOperand n ts (.plus body) → (∀ t ∈ ts.head?, TouchesSquare before t) → EndsAt ts stop →
      PhaseRead n before (.braced body stop) ts
  | complete {ts : List Token} {e : Expr} :
    IsOperand n ts e → (∀ body, e = .plus body → ∀ t ∈ ts.head?, ¬TouchesSquare before t) →
      PhaseRead n before (.complete e) ts

/-- The tokens that have led to a state. -/
def StateRead (s : State) (read : List Token) : Prop :=
  ∃ ts us vs, read = ts ++ us ++ vs ∧ StackRead s.stack ts ∧
    LevelRead (maxNesting - s.stack.length) us s.level ∧
      PhaseRead (maxNesting - s.stack.length) (ts ++ us) s.phase vs

section Level

variable {n : Nat} {ts us : List Token} {t : Token} {e : Expr} {items : List Expr} {level : Level}

theorem ItemsRead.areItems (h : ItemsRead n ts items) (hop : IsOperand n us e) :
    ∃ f fs, items.reverse ++ [e] = f :: fs ∧ AreItems n (ts ++ us) f fs := by
  cases h with
  | nil => exact ⟨e, [], rfl, .one hop⟩
  | @snoc ts comma f fs _ hread hcomma hitems =>
    refine ⟨f, fs ++ [e], by rw [hitems, List.cons_append], ?_⟩
    rw [List.append_assoc, List.singleton_append]
    exact hread.append hcomma (.one hop)

theorem LevelRead.nil : LevelRead n [] {} :=
  ⟨[], [], rfl, .nil, .nil⟩

theorem LevelRead.areAlternatives (h : LevelRead n ts level) (hop : IsOperand n us e) :
    ∃ f fs, level.choices e = f :: fs ∧ AreAlternatives n (ts ++ us) f fs := by
  obtain ⟨alternatives, items⟩ := level
  obtain ⟨ts, vs, rfl, halternatives, hitems⟩ := h
  dsimp only at halternatives hitems
  obtain ⟨f, fs, hf, hread⟩ := hitems.areItems hop
  have hseq : IsSequence n (vs ++ us) (Level.sequence ⟨alternatives, items⟩ e) :=
    hread.isSequence hf
  rw [Level.choices, List.append_assoc]
  cases halternatives with
  | nil => exact ⟨_, [], rfl, .one hseq⟩
  | @snoc ts bar g gs _ hread hbar hg =>
    refine ⟨g, gs ++ [_], by rw [hg, List.cons_append], ?_⟩
    rw [List.append_assoc, List.singleton_append]
    exact hread.snoc hbar hseq

theorem LevelRead.addItem (h : LevelRead n ts level) (hop : IsOperand n us e)
    (hcomma : t.kind = .comma) : LevelRead n (ts ++ us ++ [t]) (level.addItem e) := by
  obtain ⟨ts, vs, rfl, halternatives, hitems⟩ := h
  obtain ⟨f, fs, hf, hread⟩ := hitems.areItems hop
  refine ⟨ts, vs ++ us ++ [t], by simp, halternatives, .snoc hread hcomma ?_⟩
  rw [Level.addItem, List.reverse_cons, hf]

theorem LevelRead.addAlternative (h : LevelRead n ts level) (hop : IsOperand n us e)
    (hbar : t.kind = .pipe) : LevelRead n (ts ++ us ++ [t]) (level.addAlternative e) := by
  obtain ⟨f, fs, hf, hread⟩ := h.areAlternatives hop
  refine ⟨ts ++ us ++ [t], [], (List.append_nil _).symm, .snoc hread hbar ?_, .nil⟩
  rw [Level.addAlternative, List.reverse_cons]
  exact hf

/-- In front of an operand stands a separator or the bracket of the level. -/
theorem LevelRead.eq_nil_of_opening (h : LevelRead n us level)
    (hlast : (ts ++ us).getLast? = some t) {bracket : Bracket} (hk : t.kind = .opening bracket) :
    us = [] := by
  obtain ⟨alternatives, items⟩ := level
  obtain ⟨vs, ws, rfl, halternatives, hitems⟩ := h
  dsimp only at halternatives hitems
  cases hitems with
  | snoc _ hcomma _ =>
    rw [← List.append_assoc, ← List.append_assoc, List.getLast?_concat, Option.some.injEq] at hlast
    rw [← hlast, hcomma] at hk
    cases hk
  | nil =>
    cases halternatives with
    | snoc _ hbar _ =>
      rw [List.append_nil, ← List.append_assoc, List.getLast?_concat, Option.some.injEq] at hlast
      rw [← hlast, hbar] at hk
      cases hk
    | nil => rfl

theorem LevelRead.eq_nil (h : LevelRead n us {}) : us = [] := by
  obtain ⟨vs, ws, rfl, halternatives, hitems⟩ := h
  cases halternatives with
  | snoc _ _ hr => cases hr
  | nil =>
    cases hitems with
    | snoc _ _ hr => cases hr
    | nil => rfl

end Level

section Phase

variable {n : Nat} {before ts : List Token} {phase : Phase} {e : Expr}

theorem PhaseRead.operand_of_separator {t : Token} (h : ∀ bracket, t.kind ≠ .opening bracket) :
    PhaseRead n (before ++ [t]) .operand [] := by
  refine .operand fun u hu ↦ ?_
  rw [List.getLast?_concat, Option.mem_def, Option.some.injEq] at hu
  exact hu ▸ h

theorem PhaseRead.isOperand (h : PhaseRead n before phase ts) (hop : phase.operand? = some e) :
    IsOperand n ts e := by
  cases h with
  | literal hk hscanned =>
    cases hop
    obtain ⟨cs, -, hcs⟩ := hscanned.content hk
    exact .terminal hk (hcs.denotes_iff.mpr rfl)
  | braced hbody => cases hop; exact hbody
  | complete hbody => cases hop; exact hbody
  | _ => cases hop

theorem PhaseRead.eq_nil_of_isDue (h : PhaseRead n before phase ts) (hdue : phase.IsDue) :
    ts = [] := by
  cases hdue <;> cases h <;> rfl

/-- Which curly brackets are attached can be seen from the token in front of them. -/
theorem PhaseRead.opened_iff (h : PhaseRead n before phase ts) (hdue : phase.IsDue) (t : Token) :
    phase = .opened .square t.offset ↔ TouchesSquare before t := by
  unfold TouchesSquare
  cases h with
  | operand hlast =>
    refine ⟨fun hp ↦ (by cases hp), ?_⟩
    rintro ⟨left, hleft, hk, -⟩
    exact absurd hk (hlast left hleft .square)
  | @opened left bracket hleft hk =>
    rw [Phase.opened.injEq]
    constructor
    · rintro ⟨rfl, hstop⟩
      exact ⟨left, hleft, hk, hstop.symm⟩
    · rintro ⟨other, hother, hsquare, htouch⟩
      rw [Option.mem_def, hleft, Option.some.injEq] at hother
      subst hother
      rw [hk, Token.Kind.opening.injEq] at hsquare
      exact ⟨hsquare, htouch.symm⟩
  | _ => cases hdue

/-- A curly group in hand that is closed by a square bracket keeps its braces unless it touches
that bracket and the one in front of it. -/
theorem PhaseRead.not_touchesBoth {left right : Token} {body : Expr}
    (h : PhaseRead n before phase ts) (hop : phase.operand? = some (.plus body))
    (hleft : before.getLast? = some left) (hk : left.kind = .opening .square)
    (hopen : ∀ f, phase ≠ .braced f right.offset) : ¬TouchesBoth left right ts := by
  have hne : ts ≠ [] := (h.isOperand hop).ne_nil
  rw [touchesBoth_iff hne]
  rintro ⟨hstart, hend⟩
  cases h with
  | literal => cases hop
  | @braced ts f stop _ _ hstop =>
    rw [EndsAt, hstop, Option.some.injEq] at hend
    exact hopen f (by rw [hend])
  | @complete ts e _ hfree =>
    cases hop
    obtain ⟨t, us, rfl⟩ := List.exists_cons_of_ne_nil hne
    rw [startsAt_cons] at hstart
    exact hfree body rfl t rfl ⟨left, hleft, hk, hstart⟩
  | _ => cases hop

/-- Behind a group that has been closed the group is the operand in hand. -/
theorem PhaseRead.closed {frame : Frame} {left right : Token} {level : Level} {f : Expr}
    {fs : List Expr} (hpair : ArePair frame.bracket left right)
    (hattached : frame.attached = true ↔ frame.bracket = .curly ∧ TouchesSquare before left)
    (hchoices : level.choices e = f :: fs) (hbody : AreAlternatives n ts f fs)
    (hstar : frame.bracket = .square →
      ∀ body, level.expr e = .plus body → ¬TouchesBoth left right ts) :
    PhaseRead (n + 1) before (State.closed frame level e right) (left :: ts ++ [right]) := by
  have hexpr : IsExpr n ts (level.expr e) := hbody.isExpr hchoices
  unfold State.closed
  cases hb : frame.bracket with
  | round =>
    dsimp only
    rw [hchoices]
    exact .complete (.round (hb ▸ hpair) hbody) (by simp)
  | square => exact .complete (.square (hb ▸ hpair) hexpr (hstar hb)) (by simp)
  | curly =>
    have hgroup : IsOperand (n + 1) (left :: ts ++ [right]) (.plus (level.expr e)) :=
      .curly (hb ▸ hpair) hexpr
    rw [hb] at hattached
    dsimp only
    split
    · next ha =>
      refine .braced hgroup (fun t ht ↦ ?_) ((endsAt_append_singleton _ _ _).mpr rfl)
      rw [List.cons_append, List.head?_cons, Option.mem_def, Option.some.injEq] at ht
      exact ht ▸ (hattached.mp ha).2
    · next ha =>
      refine .complete hgroup fun body _ t ht htouch ↦ ha (hattached.mpr ⟨rfl, ?_⟩)
      rw [List.cons_append, List.head?_cons, Option.mem_def, Option.some.injEq] at ht
      exact ht ▸ htouch

end Phase

/-- Inside a group that may be opened there is room for one level less. -/
theorem levels_left {opened : Nat} (h : opened < maxNesting) :
    maxNesting - opened = maxNesting - (opened + 1) + 1 := by
  omega

/-- The bracket in front of an operand is that of the innermost group. -/
theorem StackRead.exists_of_opening {frames : List Frame} {n : Nat} {ts us : List Token}
    {level : Level} {left : Token} {bracket : Bracket} (h : StackRead frames ts)
    (hlevel : LevelRead n us level) (hlast : (ts ++ us).getLast? = some left)
    (hk : left.kind = .opening bracket) :
    us = [] ∧ ∃ frame outer before items, frames = frame :: outer ∧ ts = before ++ items ++ [left] ∧
      StackRead outer before ∧ LevelRead (maxNesting - outer.length) items frame.outer ∧
        outer.length < maxNesting := by
  obtain rfl := hlevel.eq_nil_of_opening hlast hk
  rw [List.append_nil] at hlast
  cases h with
  | nil => cases hlast
  | @cons outer frame before items right hstack houter _ hroom _ =>
    rw [List.getLast?_concat, Option.some.injEq] at hlast
    subst hlast
    exact ⟨rfl, frame, outer, before, items, rfl, rfl, hstack, houter, hroom⟩

/-- Each token that is read keeps the account of what has been read. -/
theorem StateRead.moves {s s' : State} {ts : List Token} {t : Token} (h : StateRead s ts)
    (ht : t.IsScanned) (hmove : Moves s t s') : StateRead s' (ts ++ [t]) := by
  obtain ⟨ts, us, vs, rfl, hstack, hlevel, hphase⟩ := h
  cases hmove with
  | symbol hdue hk =>
    obtain rfl := hphase.eq_nil_of_isDue hdue
    exact ⟨ts, us, [t], by simp, hstack, hlevel, .complete (.symbol hk) (by simp)⟩
  | literal hdue hk =>
    obtain rfl := hphase.eq_nil_of_isDue hdue
    exact ⟨ts, us, [t], by simp, hstack, hlevel, .literal hk ht⟩
  | opener hdue hk hroom hattached =>
    obtain rfl := hphase.eq_nil_of_isDue hdue
    refine ⟨ts ++ us ++ [t], [], [], by simp, .cons hstack hlevel hk hroom ?_, .nil, .opened ?_ hk⟩
    · rw [hattached, hphase.opened_iff hdue]
    · simp
  | empty hp hk =>
    rw [hp] at hphase
    cases hphase with
    | @opened left _ hlast hopen =>
      obtain ⟨rfl, frame, outer, before, items, hframes, rfl, hbefore, hitems, hroom⟩ :=
        hstack.exists_of_opening hlevel hlast hopen
      simp only [State.closeAs, hframes]
      refine ⟨before, items, [left, t], by simp, hbefore, hitems, .complete ?_ (by simp)⟩
      rw [levels_left hroom]
      exact .empty ⟨hopen, hk⟩
  | dots hp hk =>
    rw [hp] at hphase
    cases hphase with
    | literal hstring hscanned =>
      exact ⟨ts, us, [_, t], by simp, hstack, hlevel, .boundary hstring hscanned hk⟩
  | range hp hk hlower hupper =>
    rw [hp] at hphase
    cases hphase with
    | boundary hfirst hscanned hdots =>
      have hlower := hscanned.encloses_of_body hfirst hlower
      have hupper := ht.encloses_of_body hk hupper
      exact ⟨ts, us, [_, _, t], by simp, hstack, hlevel,
        .complete (.range hfirst hdots hk hlower hupper) (by simp)⟩
  | star hp hk =>
    rw [hp] at hphase
    cases hphase with
    | braced hbody htouch hend =>
      obtain ⟨first, rest, rfl⟩ := List.exists_cons_of_ne_nil hbody.ne_nil
      obtain ⟨left, hlast, hopen, hstart⟩ := htouch first rfl
      obtain ⟨rfl, frame, outer, before, items, hframes, rfl, hbefore, hitems, hroom⟩ :=
        hstack.exists_of_opening hlevel hlast hopen
      have hboth : TouchesBoth left t (first :: rest) :=
        (touchesBoth_iff hbody.ne_nil).mpr ⟨(startsAt_cons _ _ _).mpr hstart, hend⟩
      simp only [State.closeAs, hframes]
      refine ⟨before, items, left :: first :: rest ++ [t], by simp, hbefore, hitems,
        .complete ?_ (by simp)⟩
      rw [hframes, List.length_cons] at hbody
      rw [levels_left hroom]
      exact .braced ⟨hopen, hk⟩ hbody hboth
  | comma hop hk =>
    refine ⟨ts, us ++ vs ++ [t], [], by simp, hstack, hlevel.addItem (hphase.isOperand hop) hk, ?_⟩
    rw [← List.append_assoc]
    exact .operand_of_separator (by simp [hk])
  | pipe hop hk =>
    refine ⟨ts, us ++ vs ++ [t], [], by simp, hstack,
      hlevel.addAlternative (hphase.isOperand hop) hk, ?_⟩
    rw [← List.append_assoc]
    exact .operand_of_separator (by simp [hk])
  | @close e frame outer hop hframes hk hopen =>
    rw [hframes] at hstack hlevel hphase
    cases hstack with
    | @cons _ _ before items left hbefore hitems hleft hroom hattached =>
      rw [List.length_cons] at hlevel hphase
      obtain ⟨f, fs, hchoices, hread⟩ := hlevel.areAlternatives (hphase.isOperand hop)
      refine ⟨before, items, left :: (us ++ vs) ++ [t], by simp, hbefore, hitems, ?_⟩
      rw [levels_left hroom]
      refine .closed ⟨hleft, hk⟩ hattached hchoices hread fun hb body hplus ↦ ?_
      obtain ⟨hempty, rfl⟩ := Level.eq_empty_of_expr hplus
      rw [hempty] at hlevel
      obtain rfl := hlevel.eq_nil
      rw [List.nil_append]
      refine hphase.not_touchesBoth hop (by simp) (hb ▸ hleft) fun g hg ↦ ?_
      exact hopen g hg (hb ▸ hk)

/-- Each run keeps the account of what has been read. -/
theorem StateRead.run {s s' : State} {ts us : List Token} (h : StateRead s ts)
    (hus : ∀ t ∈ us, t.IsScanned) (hrun : s.run us = .ok s') : StateRead s' (ts ++ us) := by
  induction us generalizing s ts with
  | nil =>
    cases hrun
    rwa [List.append_nil]
  | cons t us ih =>
    obtain ⟨ht, hrest⟩ := List.forall_mem_cons.mp hus
    obtain ⟨next, hmove, hrun'⟩ := State.exists_of_run_cons hrun
    have hnext := ih (h.moves ht hmove) hrest hrun'
    rwa [List.append_assoc, List.singleton_append] at hnext

theorem stateRead_initial : StateRead {} [] :=
  ⟨[], [], [], rfl, .nil, .nil, .operand (by simp)⟩

/-- Tokens that are read to a good end are an expression. -/
theorem isExpr_of_run {s : State} {ts : List Token} {e : Expr} {found : Option Token}
    (hts : ∀ t ∈ ts, t.IsScanned) (hrun : State.run {} ts = .ok s)
    (hfinish : s.finish found = .ok e) : IsExpr maxNesting ts e := by
  obtain ⟨us, vs, ws, heq, hstack, hlevel, hphase⟩ := stateRead_initial.run hts hrun
  obtain ⟨hnil, last, hop, rfl⟩ := State.finish_eq_ok_iff.mp hfinish
  rw [hnil] at hstack hlevel hphase
  cases hstack with
  | nil =>
    obtain ⟨f, fs, hchoices, hread⟩ := hlevel.areAlternatives (hphase.isOperand hop)
    rw [List.nil_append, List.nil_append] at heq
    exact heq ▸ hread.isExpr hchoices

end Ebnf.Reading
