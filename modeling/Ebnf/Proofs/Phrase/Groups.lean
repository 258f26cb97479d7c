import Ebnf.Proofs.Phrase.Outline

/-!
The groups that are open. The tokens in front of the bracket that opened a group, and those behind
it, are balanced but for the brackets of the groups around them: a group that is closed leaves
nothing open inside it. So the frame on top of the stack stands for the innermost group, and that
is the one a fault names which leaves a group open.
-/

set_option autoImplicit false
set_option relaxedAutoImplicit false

namespace Ebnf.Reading

/-- The brackets among the tokens come in pairs, inside each other or one pair behind the other. -/
inductive IsBalanced : List Token → Prop
  | nil : IsBalanced []
  | token {t : Token} :
    (∀ bracket, t.kind ≠ .opening bracket ∧ t.kind ≠ .closing bracket) → IsBalanced [t]
  | group {bracket : Bracket} {left right : Token} {ts : List Token} :
    ArePair bracket left right → IsBalanced ts → IsBalanced (left :: ts ++ [right])
  | append {ts us : List Token} : IsBalanced ts → IsBalanced us → IsBalanced (ts ++ us)

/-- The tokens open the groups of the frames and close none of them. Other than for their brackets
they are balanced. -/
inductive LeavesOpen : List Frame → List Token → Prop
  | nil {ts : List Token} : IsBalanced ts → LeavesOpen [] ts
  | cons {frames : List Frame} {frame : Frame} {ts us : List Token} {left : Token} :
    LeavesOpen frames ts → left.kind = .opening frame.bracket → left.offset = frame.offset →
      IsBalanced us → LeavesOpen (frame :: frames) (ts ++ left :: us)

section Open

variable {frames : List Frame} {frame : Frame} {ts us : List Token} {t : Token} {s s' : State}

theorem LeavesOpen.append (h : LeavesOpen frames ts) (hus : IsBalanced us) :
    LeavesOpen frames (ts ++ us) := by
  cases h with
  | nil hts => exact .nil (hts.append hus)
  | cons hbefore hk hoffset hafter =>
    rw [List.append_assoc, List.cons_append]
    exact .cons hbefore hk hoffset (hafter.append hus)

theorem LeavesOpen.close (h : LeavesOpen (frame :: frames) ts)
    (hk : t.kind = .closing frame.bracket) : LeavesOpen frames (ts ++ [t]) := by
  cases h with
  | cons hbefore hleft _ hafter =>
    rw [List.append_assoc]
    exact hbefore.append (.group ⟨hleft, hk⟩ hafter)

/-- What closes the innermost group with a value of its own closes it as any bracket does. -/
theorem LeavesOpen.closeAs {bracket : Bracket} (h : LeavesOpen s.stack ts)
    (hstack : ∃ outer, s.stack.map Frame.bracket = bracket :: outer)
    (hk : t.kind = .closing bracket) (e : Expr) : LeavesOpen (s.closeAs e).stack (ts ++ [t]) := by
  obtain ⟨_, hbrackets⟩ := hstack
  obtain ⟨frame, outer, hframes, rfl, -⟩ := List.map_eq_cons_iff.mp hbrackets
  rw [hframes] at h
  rw [State.closeAs, hframes]
  exact h.close hk

/-- Each token that is read keeps the account of what is open. -/
theorem LeavesOpen.moves (h : LeavesOpen s.stack ts) (hread : StateRead s ts)
    (hmove : Moves s t s') : LeavesOpen s'.stack (ts ++ [t]) := by
  cases hmove with
  | symbol _ hk | literal _ hk | dots _ hk | range _ hk _ _ | comma _ hk | pipe _ hk =>
    exact h.append (.token (by simp [hk]))
  | opener _ hk _ _ => exact .cons h hk rfl .nil
  | empty hp hk => exact h.closeAs (hread.bracket_of_opened hp) hk _
  | star hp hk => exact h.closeAs (hread.bracket_of_braced hp) hk _
  | close _ hframes hk _ =>
    rw [hframes] at h
    exact h.close hk

/-- Each run keeps the account of what is open. -/
theorem LeavesOpen.run (h : LeavesOpen s.stack ts) (hread : StateRead s ts)
    (hus : ∀ t ∈ us, t.IsScanned) (hrun : s.run us = .ok s') : LeavesOpen s'.stack (ts ++ us) := by
  induction us generalizing s ts with
  | nil =>
    cases hrun
    rwa [List.append_nil]
  | cons t us ih =>
    obtain ⟨ht, hrest⟩ := List.forall_mem_cons.mp hus
    obtain ⟨next, hmove, hrun'⟩ := State.exists_of_run_cons hrun
    have hnext := ih (h.moves hread hmove) (hread.moves ht hmove) hrest hrun'
    rwa [List.append_assoc, List.singleton_append] at hnext

theorem leavesOpen_of_run (hts : ∀ t ∈ ts, t.IsScanned) (hrun : State.run {} ts = .ok s) :
    LeavesOpen s.stack ts :=
  LeavesOpen.run (.nil .nil) stateRead_initial hts hrun

end Open

section Faults

variable {s : State} {t : Token} {e : Expr} {found : Option Token} {bracket : Bracket}
  {offset : Nat}

/-- The innermost group that is open has this bracket, and it stands at this byte. -/
def State.HasInnermost (s : State) (bracket : Bracket) (offset : Nat) : Prop :=
  ∃ frame outer, s.stack = frame :: outer ∧ frame.bracket = bracket ∧ frame.offset = offset

theorem hasInnermost_of_afterOperand
    (h : s.afterOperand e t = .error (.unclosed bracket offset found)) :
    s.HasInnermost bracket offset := by
  unfold State.afterOperand at h
  split at h
  · cases h
  · cases h
  · split at h
    · cases h
    · next frame outer hstack =>
      split at h <;> cases h
      exact ⟨frame, outer, hstack, rfl, rfl⟩

theorem hasInnermost_of_conclude
    (h : s.conclude e found = .error (.unclosed bracket offset found)) :
    s.HasInnermost bracket offset := by
  unfold State.conclude at h
  split at h <;> cases h
  next frame outer hstack => exact ⟨frame, outer, hstack, rfl, rfl⟩

/-- The token that leaves a group open leaves the innermost one open. -/
theorem hasInnermost_of_step (h : s.step t = .error (.unclosed bracket offset found)) :
    found = some t ∧ s.HasInnermost bracket offset := by
  obtain ⟨hstance, htoken⟩ := token?_of_step h (by cases bracket <;> nofun)
  refine ⟨htoken, ?_⟩
  rcases step_error_cases hstance h with (h | h) | ⟨e, h⟩
  · cases eq_of_descend_eq_error h
  · unfold State.startOperand at h
    split at h
    · cases h
    · cases h
    · cases eq_of_descend_eq_error h
    all_goals cases h
  · exact hasInnermost_of_afterOperand h

theorem hasInnermost_of_finish {next : Option Token}
    (h : s.finish next = .error (.unclosed bracket offset found)) :
    found = next ∧ s.HasInnermost bracket offset := by
  obtain rfl : found = next := token?_eq_of_finish h
  refine ⟨rfl, ?_⟩
  rcases finish_error_cases h with h | h | ⟨e, h⟩
  · cases h
  · cases h
  · exact hasInnermost_of_conclude h

end Faults

/-- The first end of a range is among the tokens that have been read. -/
theorem StateRead.mem_of_boundary {s : State} {ts : List Token} {first : Token}
    (h : StateRead s ts) (hp : s.phase = .boundary first) : first ∈ ts := by
  obtain ⟨us, vs, ws, rfl, -, -, hphase⟩ := h
  rw [hp] at hphase
  cases hphase
  simp

end Ebnf.Reading
