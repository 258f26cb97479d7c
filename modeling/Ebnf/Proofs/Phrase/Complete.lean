import Ebnf.Proofs.Phrase.Joining
import Ebnf.Proofs.Phrase.Moves

/-!
Every phrase is read. A state in which an operand is due, with room for as many groups as the
phrase has inside each other, comes through the tokens of the phrase without a fault, and what
it then holds is the expression of the phrase. The look-ahead behind a square bracket is settled
by one more fact that goes through the induction: reading stands behind a curly group that
touches its square bracket exactly where the tokens say so.
-/

set_option autoImplicit false
set_option relaxedAutoImplicit false

namespace Ebnf.Reading

/-- What the phase says behind an operand that has been read from the phase `start` on. -/
structure HoldsOperand (start : Phase) (ts : List Token) (e : Expr) (phase : Phase) : Prop where
  operand : phase.operand? = some e
  braced_iff : ∀ body stop, phase = .braced body stop ↔
    e = .plus body ∧ EndsAt ts stop ∧ ∃ first, start = .opened .square first ∧ StartsAt ts first

/-- What the phase says behind the last of several operands: a curly group that touches its
square bracket is all there is. -/
structure HoldsLast (start : Phase) (ts : List Token) (e : Expr) (es : List Expr) (last : Expr)
    (phase : Phase) : Prop where
  operand : phase.operand? = some last
  alone : ∀ body stop, phase = .braced body stop → es = [] ∧ e = .plus body ∧ EndsAt ts stop ∧
    ∃ first, start = .opened .square first ∧ StartsAt ts first

theorem HoldsOperand.of_complete {start : Phase} {ts : List Token} {e : Expr}
    (h : ∀ body, e ≠ .plus body) : HoldsOperand start ts e (.complete e) :=
  ⟨rfl, fun body _ ↦ ⟨fun hp ↦ (by cases hp), fun hp ↦ absurd hp.1 (h body)⟩⟩

theorem HoldsOperand.holdsLast {start phase : Phase} {ts : List Token} {e : Expr}
    (h : HoldsOperand start ts e phase) : HoldsLast start ts e [] e phase :=
  ⟨h.operand, fun body stop hp ↦ ⟨rfl, (h.braced_iff body stop).mp hp⟩⟩

/-- Where there are several operands no curly group is all there is. -/
theorem HoldsLast.of_several {start phase : Phase} {ts : List Token} {e f last : Expr}
    {es : List Expr} (h : HoldsLast start ts e (f :: es) last phase) (value : Expr) :
    HoldsLast start ts value [] last phase := by
  refine ⟨h.operand, fun body stop hp ↦ ?_⟩
  obtain ⟨hnone, -⟩ := h.alone body stop hp
  cases hnone

/-- Behind a separator an operand is due, and it does not touch a square bracket. -/
theorem HoldsLast.of_operand {phase : Phase} {ts us : List Token} {e f last : Expr}
    {es fs : List Expr} {start : Phase} (h : HoldsLast .operand ts e es last phase) :
    HoldsLast start us f fs last phase := by
  refine ⟨h.operand, fun body stop hp ↦ ?_⟩
  obtain ⟨_, _, _, first, hs, _⟩ := h.alone body stop hp
  cases hs

/-- The body of a group has room for one group less than the group. -/
theorem State.room_inside {s : State} {left : Token} {bracket : Bracket} {attached : Bool} {n : Nat}
    (h : s.stack.length + (n + 1) ≤ maxNesting) :
    (s.inside bracket attached left).stack.length + n ≤ maxNesting := by
  rw [State.inside, List.length_cons]
  omega

/-- A group is read if its body is and its closing bracket does not make a repetition of it. -/
theorem State.run_group {s : State} {left right : Token} {body : List Token} {bracket : Bracket}
    {attached : Bool} {level : Level} {last e : Expr} {es : List Expr} {phase : Phase}
    (hpair : ArePair bracket left right) (hdue : s.phase.IsDue)
    (hroom : s.stack.length < maxNesting)
    (hattached : attached = true ↔ bracket = .curly ∧ s.phase = .opened .square left.offset)
    (hbody : (s.inside bracket attached left).run body =
      .ok ⟨(s.inside bracket attached left).stack, level, phase⟩)
    (hlast : HoldsLast (.opened bracket left.stop) body e es last phase)
    (hstar : bracket = .square → ∀ f, e = .plus f → ¬TouchesBoth left right body) :
    s.run (left :: body ++ [right]) = .ok { s with
      phase := State.closed ⟨bracket, left.offset, attached, s.level⟩ level last right } := by
  rw [List.cons_append, run_cons_of_moves (.opener hdue hpair.1 hroom hattached),
    run_append_of_run hbody]
  refine run_singleton_of_moves (@Moves.close _ right last ⟨bracket, left.offset, attached, s.level⟩
    s.stack hlast.operand rfl hpair.2 fun f hp hk ↦ ?_)
  have hsquare : bracket = .square := by
    rw [hpair.2, Token.Kind.closing.injEq] at hk
    exact hk
  obtain ⟨rfl, rfl, hend, first, hstart, hfirst⟩ := hlast.alone f right.offset hp
  rw [Phase.opened.injEq] at hstart
  rw [← hstart.2] at hfirst
  have hne : body ≠ [] := fun h ↦ by simp [h, StartsAt] at hfirst
  exact hstar hsquare f rfl ((touchesBoth_iff hne).mpr ⟨hfirst, hend⟩)

mutual

theorem run_of_isOperand : {n : Nat} → {ts : List Token} → {e : Expr} → IsOperand n ts e →
    (s : State) → s.phase.IsDue → s.stack.length + n ≤ maxNesting →
      ∃ phase, HoldsOperand s.phase ts e phase ∧ s.run ts = .ok { s with phase := phase }
  | _, _, _, .symbol ht, s, hdue, _ =>
    ⟨_, .of_complete (by simp), s.run_singleton_of_moves (.symbol hdue ht)⟩
  | _, _, _, .terminal ht hdenotes, s, hdue, _ => by
    refine ⟨_, ⟨?_, fun body stop ↦ ?_⟩, s.run_singleton_of_moves (.literal hdue ht)⟩
    · rw [Phase.operand?, hdenotes.decode_eq]
    · simp
  | _, _, _, .range ht hd hu hl hr, s, hdue, _ => by
    refine ⟨_, .of_complete (by simp), ?_⟩
    rw [State.run_cons_of_moves (.literal hdue ht), State.run_cons_of_moves (.dots rfl hd)]
    exact State.run_singleton_of_moves (.range rfl hu hl.body_eq hr.body_eq)
  | _, _, _, @IsOperand.empty _ left _ hpair, s, hdue, hdepth => by
    refine ⟨_, .of_complete (by simp), ?_⟩
    have hattached : false = true ↔
        Bracket.round = .curly ∧ s.phase = .opened .square left.offset := by simp
    rw [State.run_cons_of_moves (.opener hdue hpair.1 (by omega) hattached)]
    exact State.run_singleton_of_moves (.empty rfl hpair.2)
  | _, _, _, .round hpair hbody, s, hdue, hdepth => by
    obtain ⟨level, last, phase, hlast, hchoices, hrun⟩ :=
      run_of_areAlternatives hbody (s.inside .round false _) (.opened _ _)
        (State.room_inside hdepth) rfl
    refine ⟨_, ?_, State.run_group hpair hdue (by omega) (by simp) hrun hlast (by simp)⟩
    show HoldsOperand _ _ _ (.complete (.choice (level.choices last)))
    rw [hchoices]
    exact .of_complete (by simp)
  | _, _, _, @IsOperand.curly _ left right body e hpair hbody, s, hdue, hdepth => by
    by_cases hsquare : s.phase = .opened .square left.offset
    · obtain ⟨level, last, phase, hlast, hexpr, hrun⟩ :=
        run_of_isExpr hbody (s.inside .curly true left) (.opened _ _)
          (State.room_inside hdepth) rfl
      refine ⟨_, ?_, State.run_group hpair hdue (by omega) (by simp [hsquare]) hrun hlast (by simp)⟩
      show HoldsOperand _ _ _ (.braced (level.expr last) right.stop)
      rw [hexpr]
      refine ⟨rfl, fun f stop ↦ ?_⟩
      rw [List.cons_append, ← List.cons_append, endsAt_append_singleton, List.cons_append]
      simp [hsquare]
    · obtain ⟨level, last, phase, hlast, hexpr, hrun⟩ :=
        run_of_isExpr hbody (s.inside .curly false left) (.opened _ _)
          (State.room_inside hdepth) rfl
      refine ⟨_, ?_, State.run_group hpair hdue (by omega) (by simp [hsquare]) hrun hlast (by simp)⟩
      show HoldsOperand _ _ _ (.complete (.plus (level.expr last)))
      rw [hexpr]
      refine ⟨rfl, fun f stop ↦ ⟨fun hp ↦ (by cases hp), ?_⟩⟩
      rintro ⟨-, -, first, hstart, hfirst⟩
      rw [List.cons_append, startsAt_cons] at hfirst
      exact absurd (hfirst ▸ hstart) hsquare
  | _, _, _, .square hpair hbody hstar, s, hdue, hdepth => by
    obtain ⟨level, last, phase, hlast, hexpr, hrun⟩ :=
      run_of_isExpr hbody (s.inside .square false _) (.opened _ _)
        (State.room_inside hdepth) rfl
    refine ⟨_, ?_, State.run_group hpair hdue (by omega) (by simp) hrun hlast fun _ ↦ hstar⟩
    show HoldsOperand _ _ _ (.complete (.optional (level.expr last)))
    rw [hexpr]
    exact .of_complete (by simp)
  | _, _, _, @IsOperand.braced _ left right body e hpair hbody htouch, s, hdue, hdepth => by
    have hattached : false = true ↔
        Bracket.square = .curly ∧ s.phase = .opened .square left.offset := by simp
    obtain ⟨phase, hphase, hrun⟩ := run_of_isOperand hbody (s.inside .square false left)
      (.opened _ _) (State.room_inside hdepth)
    obtain ⟨hstart, hend⟩ := (touchesBoth_iff hbody.ne_nil).mp htouch
    have hbraced := (hphase.braced_iff e right.offset).mpr ⟨rfl, hend, left.stop, rfl, hstart⟩
    refine ⟨_, .of_complete (by simp), ?_⟩
    rw [List.cons_append, State.run_cons_of_moves (.opener hdue hpair.1 (by omega) hattached),
      State.run_append_of_run hrun]
    exact State.run_singleton_of_moves (.star hbraced hpair.2)

theorem run_of_areItems : {n : Nat} → {ts : List Token} → {e : Expr} → {es : List Expr} →
    AreItems n ts e es → (s : State) → s.phase.IsDue → s.stack.length + n ≤ maxNesting →
      ∃ items last phase, HoldsLast s.phase ts e es last phase ∧
        items.reverse ++ [last] = s.level.items.reverse ++ e :: es ∧
          s.run ts = .ok ⟨s.stack, ⟨s.level.alternatives, items⟩, phase⟩
  | _, _, _, _, .one hfirst, s, hdue, hdepth => by
    obtain ⟨phase, hphase, hrun⟩ := run_of_isOperand hfirst s hdue hdepth
    exact ⟨s.level.items, _, phase, hphase.holdsLast, rfl, hrun⟩
  | _, _, _, _, .cons hfirst hcomma hrest, s, hdue, hdepth => by
    obtain ⟨phase, hphase, hrun⟩ := run_of_isOperand hfirst s hdue hdepth
    obtain ⟨items, last, phase', hlast, hitems, hrun'⟩ :=
      run_of_areItems hrest ⟨s.stack, s.level.addItem _, .operand⟩ .operand hdepth
    refine ⟨items, last, phase', hlast.of_operand, ?_, ?_⟩
    · simpa [Level.addItem] using hitems
    · rw [State.run_append_of_run hrun,
        State.run_cons_of_moves (.comma hphase.operand hcomma)]
      exact hrun'

theorem run_of_isSequence : {n : Nat} → {ts : List Token} → {e : Expr} → IsSequence n ts e →
    (s : State) → s.phase.IsDue → s.stack.length + n ≤ maxNesting → s.level.items = [] →
      ∃ items last phase, HoldsLast s.phase ts e [] last phase ∧
        Level.sequence ⟨s.level.alternatives, items⟩ last = e ∧
          s.run ts = .ok ⟨s.stack, ⟨s.level.alternatives, items⟩, phase⟩
  | _, _, _, .item hitem, s, hdue, hdepth, hempty => by
    obtain ⟨items, last, phase, hlast, hitems, hrun⟩ := run_of_areItems hitem s hdue hdepth
    rw [hempty, List.reverse_nil, List.nil_append] at hitems
    exact ⟨items, last, phase, hlast, Level.sequence_of_item hitems, hrun⟩
  | _, _, _, .items hall, s, hdue, hdepth, hempty => by
    obtain ⟨items, last, phase, hlast, hitems, hrun⟩ := run_of_areItems hall s hdue hdepth
    rw [hempty, List.reverse_nil, List.nil_append] at hitems
    exact ⟨items, last, phase, hlast.of_several _, Level.sequence_of_items hitems, hrun⟩

theorem run_of_areAlternatives : {n : Nat} → {ts : List Token} → {e : Expr} → {es : List Expr} →
    AreAlternatives n ts e es → (s : State) → s.phase.IsDue → s.stack.length + n ≤ maxNesting →
      s.level.items = [] →
        ∃ level last phase, HoldsLast s.phase ts e es last phase ∧
          level.choices last = s.level.alternatives.reverse ++ e :: es ∧
            s.run ts = .ok ⟨s.stack, level, phase⟩
  | _, _, _, _, .one hfirst, s, hdue, hdepth, hempty => by
    obtain ⟨items, last, phase, hlast, hvalue, hrun⟩ :=
      run_of_isSequence hfirst s hdue hdepth hempty
    exact ⟨_, last, phase, hlast, by rw [Level.choices, hvalue], hrun⟩
  | _, _, _, _, .cons hfirst hbar hrest, s, hdue, hdepth, hempty => by
    obtain ⟨items, last, phase, hlast, hvalue, hrun⟩ :=
      run_of_isSequence hfirst s hdue hdepth hempty
    obtain ⟨level', last', phase', hlast', hchoices, hrun'⟩ :=
      run_of_areAlternatives hrest
        ⟨s.stack, Level.addAlternative ⟨s.level.alternatives, items⟩ last, .operand⟩ .operand
        hdepth rfl
    refine ⟨level', last', phase', hlast'.of_operand, ?_, ?_⟩
    · rw [hchoices, Level.addAlternative, hvalue]
      simp
    · rw [State.run_append_of_run hrun, State.run_cons_of_moves (.pipe hlast.operand hbar)]
      exact hrun'

theorem run_of_isExpr : {n : Nat} → {ts : List Token} → {e : Expr} → IsExpr n ts e →
    (s : State) → s.phase.IsDue → s.stack.length + n ≤ maxNesting → s.level = {} →
      ∃ level last phase, HoldsLast s.phase ts e [] last phase ∧ level.expr last = e ∧
        s.run ts = .ok ⟨s.stack, level, phase⟩
  | _, _, _, .alternative halternative, s, hdue, hdepth, hempty => by
    obtain ⟨level, last, phase, hlast, hchoices, hrun⟩ :=
      run_of_areAlternatives halternative s hdue hdepth (by rw [hempty])
    rw [hempty, List.reverse_nil, List.nil_append] at hchoices
    exact ⟨level, last, phase, hlast, Level.expr_of_choice hchoices, hrun⟩
  | _, _, _, .alternatives hall, s, hdue, hdepth, hempty => by
    obtain ⟨level, last, phase, hlast, hchoices, hrun⟩ :=
      run_of_areAlternatives hall s hdue hdepth (by rw [hempty])
    rw [hempty, List.reverse_nil, List.nil_append] at hchoices
    exact ⟨level, last, phase, hlast.of_several _, Level.expr_of_choices hchoices, hrun⟩

end

end Ebnf.Reading
