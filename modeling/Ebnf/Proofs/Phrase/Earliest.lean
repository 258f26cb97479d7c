import Ebnf.Proofs.Phrase.Expr
import Ebnf.Proofs.Phrase.Outline
import Ebnf.Proofs.Token.Continued

/-!
Faults are found as early as they can be. Up to the token at which a fault shows, a text can be
continued to one that is read: what is open is closed, behind a name if an operand is due. With
that token it cannot, whatever is written in place of names and strings and wherever white space
stands. The ends of a range are left out, because they are looked at together.
-/

set_option autoImplicit false
set_option relaxedAutoImplicit false

namespace Ebnf

namespace Reading

open Token

/-- What can be written behind the tokens that have led to a state to end the text well. -/
def State.ending (s : State) : List Char :=
  (if s.phase.operand?.isSome then [] else ['x']) ++ s.outline.brackets.map Bracket.closer

section Ending

variable {s s' : State} {t : Token}

theorem ofPunctuation?_closer (bracket : Bracket) :
    Kind.ofPunctuation? bracket.closer = some (.closing bracket) := by
  cases bracket <;> rfl

theorem kinds_closers (brackets : List Bracket) (offset : Nat) :
    (significantFrom offset (brackets.map Bracket.closer)).map Token.kind =
      brackets.map .closing := by
  induction brackets generalizing offset with
  | nil => simp
  | cons bracket brackets ih =>
    rw [List.map_cons, significantFrom_punctuation (ofPunctuation?_closer bracket), List.map_cons,
      ih, List.map_cons]

theorem plain_of_closer {brackets : List Bracket} :
    ∀ c ∈ (brackets.map Bracket.closer).head?,
      Unicode.isWhiteSpace c = false ∧ isNameChar c = false := by
  intro c hc
  obtain ⟨bracket, -, rfl⟩ := List.mem_map.mp (List.mem_of_head? hc)
  cases bracket <;> decide

theorem isWhiteSpace_ending : ∀ c ∈ s.ending.head?, Unicode.isWhiteSpace c = false := by
  unfold State.ending
  split
  · exact fun c hc ↦ (plain_of_closer c hc).1
  · intro c hc
    cases hc
    decide

theorem isNameChar_ending (hstance : s.phase.stance = .done) :
    ∀ c ∈ s.ending.head?, isNameChar c = false := by
  obtain ⟨e, hop⟩ := Phase.exists_operand?_iff.mpr (.inr hstance)
  rw [State.ending, hop]
  exact fun c hc ↦ (plain_of_closer c hc).2

theorem exists_run_ending (hstance : s.phase.stance ≠ .boundary) (offset : Nat) :
    ∃ s', s.run (significantFrom offset s.ending) = .ok s' ∧ ∃ e, s'.finish none = .ok e := by
  cases hop : s.phase.operand? with
  | some e =>
    rw [State.ending, hop]
    exact exists_run_closers rfl hop (kinds_closers _ offset)
  | none =>
    have hdue : s.phase.IsDue := by
      refine Phase.isDue_iff.mpr ?_
      have hnone : ¬∃ e, s.phase.operand? = some e := by simp [hop]
      rw [Phase.exists_operand?_iff] at hnone
      cases h : s.phase.stance <;> simp_all
    have hrun : ∀ c ∈ ['x'], isNameChar c = true := List.forall_mem_singleton.mpr (by decide)
    have hname : runKind ['x'] (s.outline.brackets.map Bracket.closer) = .name := rfl
    rw [State.ending, hop, if_neg (by simp), significantFrom_run (List.cons_ne_nil _ _) hrun
      fun c hc ↦ (plain_of_closer c hc).2, hname, State.run_cons_of_moves (.symbol hdue rfl)]
    exact exists_run_closers rfl rfl (kinds_closers _ _)

theorem Moves.kind_of_stance (h : Moves s t s') (hstance : s'.phase.stance ≠ .boundary) :
    t.kind ≠ .ellipsis ∧ t.kind ≠ .unterminatedString ∧
      (t.kind = .name → s'.phase.stance = .done) := by
  cases h with
  | dots => exact absurd rfl hstance
  | symbol _ hk => exact ⟨by simp [hk], by simp [hk], fun _ ↦ rfl⟩
  | literal _ hk | opener _ hk | empty _ hk | range _ hk | star _ hk | comma _ hk | pipe _ hk
  | close _ _ hk => simp [hk]

end Ending

end Reading

open Reading Token

/-- The tokens are the beginning of those of a text that is read. -/
def IsBeginning (ts : List Token) : Prop :=
  ∃ text e, Expr.read text = .ok e ∧ ts <+: significant text

/-- No text that is read begins with tokens of these kinds. -/
def IsRefused (kinds : List Token.Kind) : Prop :=
  ∀ text e, Expr.read text = .ok e → ¬kinds <+: (significant text).map Token.kind

/-- The span is that of the first token with which no text that is read can begin, or it is at
the end of a text that can only be continued. -/
structure IsEarliest (text : String) (span : Span) : Prop where
  beginning : IsBeginning (endedBy text span.start)
  refused : (∃ t rest, significant text = endedBy text span.start ++ t :: rest ∧
      span = ⟨t.offset, t.stop⟩ ∧ IsRefused ((endedBy text span.start ++ [t]).map Token.kind)) ∨
    significant text = endedBy text span.start ∧ span = .empty text.utf8ByteSize ∧
      ∀ other e, Expr.read other = .ok e →
        (significant other).map Token.kind ≠ (significant text).map Token.kind

section Earliest

variable {s : State} {t : Token} {xs ys : List Token} {text : String} {problem : Problem}

/-- What has been read without a fault can be continued to a text that is read. -/
theorem isBeginning_of_run (h : significant text = xs ++ ys) (hrun : State.run {} xs = .ok s)
    (hstance : s.phase.stance ≠ .boundary) : IsBeginning xs := by
  have hlast : ∀ t ∈ xs.getLast?, t.kind ≠ .ellipsis ∧ t.kind ≠ .unterminatedString ∧
      (t.kind = .name → ∀ c ∈ s.ending.head?, isNameChar c = false) := by
    intro t ht
    obtain ⟨front, rfl⟩ := List.getLast?_eq_some_iff.mp ht
    obtain ⟨u, -, hstep⟩ := State.exists_of_run_append hrun
    rw [State.run_singleton] at hstep
    obtain ⟨hdots, hended, hname⟩ := (State.moves_of_step hstep).kind_of_stance hstance
    exact ⟨hdots, hended, fun hkind ↦ isNameChar_ending (hname hkind)⟩
  obtain ⟨other, offset, hother⟩ := exists_continued h isWhiteSpace_ending hlast
  obtain ⟨s', hrun', e, hfinish⟩ := exists_run_ending hstance offset
  refine ⟨other, e, Expr.read_ok_iff_expr.mpr (expr_eq_ok_iff_run.mpr ⟨s', ?_, hfinish⟩), ?_⟩
  · rw [hother, State.run_append_of_run hrun, hrun']
  · rw [hother]
    exact List.prefix_append _ _

theorem isRefused_of_step (hrun : State.run {} xs = .ok s) (hstep : s.step t = .error problem)
    (hcode : problem.code ≠ .badBoundary) : IsRefused ((xs ++ [t]).map Token.kind) := by
  rintro other e hread ⟨rest, hrest⟩
  obtain ⟨u, hother, -⟩ := expr_eq_ok_iff_run.mp (Expr.read_ok_iff_expr.mp hread)
  obtain ⟨us, vs, hsplit, hkinds, -⟩ := List.map_eq_append_iff.mp hrest.symm
  rw [hsplit] at hother
  obtain ⟨v, hus, -⟩ := State.exists_of_run_append hother
  have hfault : State.run {} (xs ++ [t]) = .error problem := by
    rw [State.run_append_of_run hrun, State.run_singleton, hstep]
  have hscanned : ∀ t ∈ us, t.IsScanned := fun t ht ↦
    isScanned_significant other t (hsplit ▸ List.mem_append_left vs ht)
  rcases run_in_step hus stateRead_initial hscanned rfl hkinds.symm with
    ⟨s', hs', -⟩ | ⟨p, hp, hbad⟩
  · rw [hfault] at hs'
    cases hs'
  · rw [hfault] at hp
    cases hp
    exact hcode hbad

theorem kinds_ne_of_finish (hrun : State.run {} xs = .ok s)
    (hfinish : s.finish none = .error problem) {other : String} {e : Expr}
    (hread : Expr.read other = .ok e) :
    (significant other).map Token.kind ≠ xs.map Token.kind := by
  intro hkinds
  obtain ⟨u, hother, hend⟩ := expr_eq_ok_iff_run.mp (Expr.read_ok_iff_expr.mp hread)
  rcases run_in_step hother stateRead_initial (isScanned_significant other) rfl hkinds.symm with
    ⟨s', hs', heq⟩ | ⟨p, hp, -⟩
  · rw [hrun] at hs'
    cases hs'
    obtain ⟨f, hf⟩ := exists_finish_iff.mpr (heq ▸ exists_finish_iff.mp ⟨e, hend⟩)
    rw [hfinish] at hf
    cases hf
  · rw [hrun] at hp
    cases hp

theorem isEarliest_of_step (hsplit : significant text = xs ++ t :: ys)
    (hrun : State.run {} xs = .ok s) (hstep : s.step t = .error problem)
    (hcode : problem.code ≠ .badBoundary) :
    IsEarliest text (problem.diagnostic text.utf8ByteSize).span := by
  obtain ⟨hstance, htoken⟩ := token?_of_step hstep hcode
  have hspan : (problem.diagnostic text.utf8ByteSize).span = ⟨t.offset, t.stop⟩ := by
    rw [Problem.diagnostic, htoken]
    rfl
  have hended : endedBy text (Span.mk t.offset t.stop).start = xs := endedBy_offset hsplit
  rw [hspan]
  refine ⟨?_, .inl ⟨t, ys, ?_, rfl, ?_⟩⟩ <;> rw [hended]
  · exact isBeginning_of_run hsplit hrun hstance
  · exact hsplit
  · exact isRefused_of_step hrun hstep hcode

theorem isEarliest_of_finish (hrun : State.run {} (significant text) = .ok s)
    (hfinish : s.finish none = .error problem) (hcode : problem.code ≠ .badBoundary) :
    IsEarliest text (problem.diagnostic text.utf8ByteSize).span := by
  obtain ⟨hstance, htoken⟩ := token?_of_finish hfinish hcode
  have hspan : (problem.diagnostic text.utf8ByteSize).span = .empty text.utf8ByteSize := by
    rw [Problem.diagnostic, htoken]
    rfl
  have hended : endedBy text (Span.empty text.utf8ByteSize).start = significant text :=
    endedBy_size text
  rw [hspan]
  refine ⟨?_, .inr ⟨hended.symm, rfl, fun other e ↦ kinds_ne_of_finish hrun hfinish⟩⟩
  rw [hended]
  exact isBeginning_of_run (List.append_nil _).symm hrun hstance

end Earliest

/-- A text that is not read has one fault, and but for the ends of ranges it is reported at the
first token with which there must be one. -/
theorem isEarliest_of_read_error (text : String) (failure : Failure)
    (h : Expr.read text = .error failure) : ∃ d, failure = .malformed [d] ∧
      (d.code ≠ .badBoundary → IsEarliest text d.span) := by
  obtain ⟨problem, hexpr, rfl⟩ := Expr.read_error_iff_expr.mp h
  refine ⟨_, rfl, fun hcode ↦ ?_⟩
  obtain ⟨xs, t, ys, s, hsplit, hrun, hstep⟩ | ⟨s, hrun, hfinish⟩ :=
    exists_of_expr_eq_error hexpr
  · exact isEarliest_of_step hsplit hrun hstep hcode
  · exact isEarliest_of_finish hrun hfinish hcode

theorem isEarliest_of_read_error_unclosed :
    let text := "[\x7ba\x7d, (b \x7d"
    let d := (Problem.unclosed .round 6 (some ⟨.closing .curly, "\x7d", 9⟩)).diagnostic 10
    Expr.read text = .error (.malformed [d]) ∧ d.code = .unclosedRound ∧ d.span = ⟨9, 10⟩ ∧
      IsEarliest text ⟨9, 10⟩ := by
  intro text d
  have hexpr : Reading.expr (significant text) =
    .error (.unclosed .round 6 (some ⟨.closing .curly, "\x7d", 9⟩)) := by cbv
  have hread : Expr.read text = .error (.malformed [d]) := by
    rw [Expr.read, hexpr]
    rfl
  have hspan : d.span = ⟨9, 10⟩ := by decide
  obtain ⟨d', heq, hearliest⟩ := isEarliest_of_read_error text _ hread
  obtain rfl : d = d' := by simpa using heq
  exact ⟨hread, rfl, hspan, hspan ▸ hearliest (by decide)⟩

end Ebnf
