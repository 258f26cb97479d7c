import Ebnf.Proofs.Phrase.Groups
import Ebnf.Proofs.Phrase.Segments
import Ebnf.Proofs.Phrase.Spacing
import Ebnf.Proofs.Token.Neighbours

/-!
Where faults are reported. Each is about one token that reading takes, or about the end of the
text, and a segment has its fault among its own tokens unless the text ends with it, so that the
places of all faults are in order. A group that is left open is named by its bracket: behind that
bracket the tokens are balanced up to the fault, so no group inside it is open there.
-/

set_option autoImplicit false
set_option relaxedAutoImplicit false

namespace Ebnf

namespace Reading

/-- The bracket at the byte opens the innermost group that is open in front of `found`, and one
segment holds all that lies between them. -/
def IsInnermost (tokens : List Token) (bracket : Bracket) (offset : Nat)
    (found : Option Token) : Prop :=
  ∃ before left between after, tokens = before ++ left :: between ++ after ∧
    left.kind = .opening bracket ∧ left.offset = offset ∧ IsBalanced between ∧
      after.head? = found ∧
        ∃ segment ∈ segments tokens, left :: between ++ found.toList <:+: segment

/-- The fault is at one of the tokens `ts`, which are some of `tokens`, or at what follows them.
If it leaves a group open, that is the innermost one there. -/
structure Problem.IsAmong (tokens ts : List Token) (next : Option Token)
    (problem : Problem) : Prop where
  token : (∃ t ∈ ts, problem.token? = some t) ∨ problem.token? = next
  innermost : ∀ bracket offset found, problem = .unclosed bracket offset found →
    IsInnermost tokens bracket offset found

section Segments

variable {tokens ts us segment : List Token}

theorem mem_segments_append {after : List Token} (h : IsOpen ts) (hne : ts ≠ [])
    (hafter : ∀ t ∈ after.head?, t.kind = .semicolon) :
    ts ++ after.head?.toList ∈ segments (ts ++ after) := by
  cases after with
  | nil =>
    simp [segments_of_isOpen h hne]
  | cons t rest =>
    rw [segments_append_cons h (hafter t rfl)]
    exact List.mem_cons_self

theorem exists_isOpen_append (ts : List Token) : ∃ us after, ts = us ++ after ∧ IsOpen us ∧
    ∀ t ∈ after.head?, t.kind = .semicolon := by
  induction ts using segments_induction with
  | isOpen ts h => exact ⟨ts, [], (List.append_nil ts).symm, h, by simp⟩
  | append ts t rest h ht _ => exact ⟨ts, t :: rest, rfl, h, by simpa using ht⟩

/-- Tokens without a semicolon are in one segment, together with what follows them. -/
theorem exists_segment_of_isOpen (before : List Token) (h : IsOpen us) (hne : us ≠ [])
    (after : List Token) : ∃ segment ∈ segments (before ++ us ++ after),
      us ++ after.head?.toList <:+: segment := by
  induction before using segments_induction with
  | isOpen before hbefore =>
    obtain ⟨first, rest, rfl, hfirst, hrest⟩ := exists_isOpen_append after
    have hopen : IsOpen (before ++ us ++ first) := by
      intro t ht
      simp only [List.mem_append] at ht
      exact ht.elim (fun ht ↦ ht.elim (hbefore t) (h t)) (hfirst t)
    have hmem := mem_segments_append hopen (by simp [hne]) hrest
    rw [List.append_assoc] at hmem
    refine ⟨_, hmem, ?_⟩
    -- The token behind them is the semicolon of the segment or stands in front of it.
    cases first with
    | nil => exact ⟨before, [], by simp⟩
    | cons t first => exact ⟨before, first ++ rest.head?.toList, by simp⟩
  | append before t rest hbefore ht ih =>
    obtain ⟨segment, hmem, hinfix⟩ := ih
    refine ⟨segment, ?_, hinfix⟩
    rw [List.append_assoc, List.append_assoc, List.cons_append, segments_append_cons hbefore ht,
      ← List.append_assoc]
    exact List.mem_cons_of_mem _ hmem

/-- A segment ends with the first semicolon behind its beginning, or with the text. -/
theorem exists_of_segment (h : segment ∈ segments tokens) : ∃ pre us after,
    tokens = pre ++ us ++ after ∧ IsOpen us ∧ (∀ t ∈ after.head?, t.kind = .semicolon) ∧
      segment = us ++ after.head?.toList := by
  induction tokens using segments_induction with
  | isOpen ts hopen =>
    by_cases hne : ts = []
    · rw [hne] at h
      cases h
    · rw [segments_of_isOpen hopen hne, List.mem_singleton] at h
      exact ⟨[], ts, [], by simp, hopen, by simp, by simp [h]⟩
  | append ts t rest hopen ht ih =>
    rw [segments_append_cons hopen ht, List.mem_cons] at h
    rcases h with rfl | h
    · exact ⟨[], ts, t :: rest, by simp, hopen, by simpa using ht, by simp⟩
    · obtain ⟨pre, us, after, rfl, hrest⟩ := ih h
      exact ⟨ts ++ t :: pre, us, after, by simp, hrest⟩

/-- A segment lies in front of all that follow it, and it has a semicolon if there are any. -/
theorem pairwise_segments {R : Token → Token → Prop} (h : tokens.Pairwise R) :
    (segments tokens).Pairwise fun us vs ↦ ¬IsOpen us ∧ ∀ t ∈ us, ∀ u ∈ vs, R t u := by
  induction tokens using segments_induction with
  | isOpen ts hopen =>
    by_cases hne : ts = []
    · rw [hne]
      exact .nil
    · rw [segments_of_isOpen hopen hne]
      exact List.pairwise_singleton _ _
  | append ts t rest hopen ht ih =>
    have htext : ts ++ t :: rest = (ts ++ [t]) ++ rest := by simp
    rw [htext, List.pairwise_append] at h
    obtain ⟨-, hrest, hacross⟩ := h
    rw [segments_append_cons hopen ht]
    refine .cons (fun vs hvs ↦ ⟨fun hclosed ↦ hclosed t (by simp) ht, ?_⟩) (ih hrest)
    exact fun u hu v hv ↦ hacross u hu v (mem_of_mem_segment hvs hv)

end Segments

section Faults

variable {tokens pre read ts rest after body segment : List Token} {t : Token} {s s' : State}
  {bracket : Bracket} {offset : Nat} {problem : Problem} {name : String} {next : Option Token}

theorem isOpen_of_run (hrun : s.run ts = .ok s') : IsOpen ts := by
  induction ts generalizing s with
  | nil => simp [IsOpen]
  | cons t ts ih =>
    obtain ⟨u, hmove, hrest⟩ := State.exists_of_run_cons hrun
    exact List.forall_mem_cons.mpr ⟨hmove.kind_ne_semicolon, ih hrest⟩

/-- The bracket of the group on top of the stack is among the tokens, and behind it the tokens are
balanced. -/
theorem isInnermost_of_run (hscanned : ∀ t ∈ tokens, t.IsScanned)
    (htokens : tokens = pre ++ read ++ after) (hrun : State.run {} read = .ok s)
    (h : s.HasInnermost bracket offset) : IsInnermost tokens bracket offset after.head? := by
  obtain ⟨frame, outer, hstack, rfl, rfl⟩ := h
  have hgroups := leavesOpen_of_run (fun t ht ↦ hscanned t (by simp [htokens, ht])) hrun
  rw [hstack] at hgroups
  cases hgroups with
  | @cons _ _ before between left _ hk hoffset hbetween =>
    have hsplit : tokens = (pre ++ before) ++ left :: between ++ after := by simp [htokens]
    have hopen : IsOpen (left :: between) :=
      fun t ht ↦ isOpen_of_run hrun t (List.mem_append_right before ht)
    obtain ⟨segment, hmem, hinfix⟩ :=
      exists_segment_of_isOpen (pre ++ before) hopen (List.cons_ne_nil _ _) after
    exact ⟨_, left, between, after, hsplit, hk, hoffset, hbetween, rfl, segment, hsplit ▸ hmem,
      hinfix⟩

theorem Problem.IsAmong.of_step (hscanned : ∀ t ∈ tokens, t.IsScanned)
    (htokens : tokens = pre ++ (read ++ t :: rest) ++ after)
    (hrun : State.run {} read = .ok s) (h : s.step t = .error problem) :
    problem.IsAmong tokens (read ++ t :: rest) after.head? where
  token := by
    left
    -- Only a range can have its fault at a token that has been read before, its first end.
    by_cases hstance : s.phase.stance = .boundary
    · obtain ⟨first, hp⟩ := Phase.exists_boundary_iff.mpr hstance
      have hread := stateRead_initial.run (fun u hu ↦ hscanned u (by simp [htokens, hu])) hrun
      have hfirst : first ∈ read := hread.mem_of_boundary hp
      rcases fault_of_boundary hp h with rfl | rfl | rfl
      · exact ⟨first, List.mem_append_left _ hfirst, rfl⟩
      · exact ⟨t, by simp, rfl⟩
      · exact ⟨t, by simp, rfl⟩
    · exact ⟨t, by simp, token?_of_step_of_stance hstance h⟩
  innermost := by
    rintro bracket offset found rfl
    obtain ⟨rfl, hinnermost⟩ := hasInnermost_of_step h
    have hsplit : tokens = pre ++ read ++ (t :: (rest ++ after)) := by simp [htokens]
    exact isInnermost_of_run hscanned hsplit hrun hinnermost

theorem Problem.IsAmong.of_finish (hscanned : ∀ t ∈ tokens, t.IsScanned)
    (htokens : tokens = pre ++ read ++ after) (hrun : State.run {} read = .ok s)
    (h : s.finish after.head? = .error problem) :
    problem.IsAmong tokens read after.head? where
  token := .inr (token?_eq_of_finish h)
  innermost := by
    rintro bracket offset found rfl
    obtain ⟨rfl, hinnermost⟩ := hasInnermost_of_finish h
    exact isInnermost_of_run hscanned htokens hrun hinnermost

theorem Problem.IsAmong.inRule (h : problem.IsAmong tokens ts next) (name : String) :
    (problem.inRule name).IsAmong tokens ts next := by
  cases problem with
  | leftover found => exact ⟨h.token, nofun⟩
  | _ => exact h

theorem Problem.IsAmong.mono (h : problem.IsAmong tokens ts next) {us : List Token}
    (hsubset : ts ⊆ us) : problem.IsAmong tokens us next where
  token := h.token.imp_left fun ⟨t, ht, htoken⟩ ↦ ⟨t, hsubset ht, htoken⟩
  innermost := h.innermost

theorem isAmong_of_expr (hscanned : ∀ t ∈ tokens, t.IsScanned)
    (h : expr tokens = .error problem) : problem.IsAmong tokens tokens none := by
  have hall : tokens = [] ++ tokens ++ [] := by simp
  obtain ⟨read, t, rest, s, rfl, hrun, hstep⟩ | ⟨s, hrun, hfinish⟩ := exists_of_expr_eq_error h
  · exact .of_step hscanned hall hrun hstep
  · exact .of_finish hscanned hall hrun hfinish

/-- What is wrong behind the equals sign is a fault in the expression, at the end of it, or the
end of the text in place of a semicolon. -/
theorem bodyBefore_error_cases (h : bodyBefore next name s body = .error problem) :
    (∃ fault, s.run body = .error fault ∧ problem = fault.inRule name) ∨
      (∃ s', s.run body = .ok s' ∧ s'.finish next = .error problem) ∨
        next = none ∧ problem = .noSemicolon name none := by
  unfold bodyBefore at h
  cases hrun : s.run body with
  | error fault =>
    rw [hrun] at h
    cases h
    exact .inl ⟨fault, rfl, rfl⟩
  | ok s' =>
    rw [hrun] at h
    cases hfinish : s'.finish next with
    | error fault =>
      simp only [Except.mapError, bind, Except.bind, hfinish] at h
      cases h
      exact .inr (.inl ⟨s', rfl, hfinish⟩)
    | ok e =>
      simp only [Except.mapError, bind, Except.bind, hfinish] at h
      cases next with
      | some t => cases h
      | none =>
        cases h
        exact .inr (.inr ⟨rfl, rfl⟩)

theorem isAmong_of_bodyBefore (hscanned : ∀ t ∈ tokens, t.IsScanned)
    (htokens : tokens = pre ++ body ++ after)
    (h : bodyBefore after.head? name {} body = .error problem) :
    problem.IsAmong tokens body after.head? := by
  rcases bodyBefore_error_cases h with ⟨fault, hrun, rfl⟩ | ⟨s, hrun, hfinish⟩ | ⟨hend, rfl⟩
  · obtain ⟨read, t, rest, s, rfl, hread, hstep⟩ := State.exists_of_run_eq_error hrun
    exact (Problem.IsAmong.of_step hscanned htokens hread hstep).inRule name
  · exact .of_finish hscanned htokens hrun hfinish
  · exact ⟨.inr hend.symm, nofun⟩

theorem isAmong_of_ruleBefore (hscanned : ∀ t ∈ tokens, t.IsScanned)
    (htokens : tokens = pre ++ ts ++ after) (h : ruleBefore after.head? ts = .error problem) :
    problem.IsAmong tokens ts after.head? := by
  unfold ruleBefore at h
  split at h
  · cases h
    exact ⟨.inr rfl, nofun⟩
  · split at h <;> cases h
    · exact ⟨.inr rfl, nofun⟩
    · exact ⟨.inl ⟨_, by simp, rfl⟩, nofun⟩
  · next name equals body =>
    split at h
    · cases h
      exact ⟨.inl ⟨_, by simp, rfl⟩, nofun⟩
    · split at h
      · cases h
        exact ⟨.inl ⟨equals, by simp, rfl⟩, nofun⟩
      · have hsplit : tokens = (pre ++ [name, equals]) ++ body ++ after := by simp [htokens]
        exact (isAmong_of_bodyBefore hscanned hsplit h).mono (by simp)

/-- A segment that is no rule has its fault at one of its tokens, or at the end of the text if it
has no semicolon. -/
theorem isAmong_of_rule (hscanned : ∀ t ∈ tokens, t.IsScanned)
    (hmem : segment ∈ segments tokens) (h : rule segment = .error problem) :
    ∃ us next, segment = us ++ next.toList ∧ IsOpen us ∧ problem.IsAmong tokens us next := by
  obtain ⟨pre, us, after, htokens, hopen, hafter, rfl⟩ := exists_of_segment hmem
  rw [rule_append_toList hopen hafter] at h
  exact ⟨us, after.head?, rfl, hopen, isAmong_of_ruleBefore hscanned htokens h⟩

/-- The place of a fault in one of the segments. -/
theorem token?_of_rule (hscanned : ∀ t ∈ tokens, t.IsScanned)
    (hmem : segment ∈ segments tokens) (h : rule segment = .error problem) :
    (∃ t ∈ segment, problem.token? = some t) ∨ IsOpen segment ∧ problem.token? = none := by
  obtain ⟨us, next, rfl, hopen, hamong⟩ := isAmong_of_rule hscanned hmem h
  rcases hamong.token with ⟨t, ht, htoken⟩ | hnext
  · exact .inl ⟨t, List.mem_append_left _ ht, htoken⟩
  · cases next with
    | none => exact .inr ⟨by simpa using hopen, hnext⟩
    | some t => exact .inl ⟨t, by simp, hnext⟩

end Faults

/-- What the tokens are read as is a list of faults, one for each segment that has one. -/
theorem rules_eq_error_iff {tokens : List Token} {problems : List Problem} :
    rules tokens = .error problems ↔
      problems ≠ [] ∧ problems = ((segments tokens).map rule).filterMap problem? := by
  rw [rules_eq_of_segments]
  split_ifs with hnone
  · rw [hnone]
    simp
  · rw [Except.error.injEq, eq_comm]
    exact ⟨fun h ↦ ⟨h ▸ hnone, h⟩, And.right⟩

theorem problem?_eq_some_iff {outcome : Except Problem Rule} {problem : Problem} :
    problem? outcome = some problem ↔ outcome = .error problem := by
  cases outcome <;> simp [problem?]

theorem exists_of_code_unclosed {problem : Problem} {bracket : Bracket}
    (h : problem.code = Problem.unclosedCode bracket) :
    ∃ offset found, problem = .unclosed bracket offset found := by
  cases problem with
  | unclosed other offset found =>
    refine ⟨offset, found, ?_⟩
    cases other <;> cases bracket <;> first | rfl | cases h
  | _ => cases bracket <;> cases h

end Reading

open Reading Token

/-- The diagnostic is about a token of the text or about its end. If it is about a group that is
left open, the hint names the bracket of that group, which is the innermost one there. -/
structure Diagnostic.IsPlaced (text : String) (d : Diagnostic) : Prop where
  span : (∃ t ∈ significant text, d.span = ⟨t.offset, t.stop⟩) ∨
    d.span = .empty text.utf8ByteSize
  hint : ∀ bracket, d.code = Problem.unclosedCode bracket → ∃ offset found,
    d.hint = some (openedAt bracket offset) ∧
      d.span = Problem.locate text.utf8ByteSize found ∧
        IsInnermost (significant text) bracket offset found

section Diagnostics

variable {text : String} {ts : List Token} {next : Option Token} {problem problem' : Problem}
  {problems : List Problem} {t : Token}

theorem Reading.Problem.IsAmong.isPlaced (h : problem.IsAmong (significant text) ts next)
    (hts : ∀ t ∈ ts ++ next.toList, t ∈ significant text) :
    (problem.diagnostic text.utf8ByteSize).IsPlaced text where
  span := by
    rcases h.token with ⟨t, ht, htoken⟩ | hnext
    · refine .inl ⟨t, hts t (List.mem_append_left _ ht), ?_⟩
      rw [Problem.diagnostic, htoken]
      rfl
    · rw [Problem.diagnostic, hnext]
      cases next with
      | none => exact .inr rfl
      | some t => exact .inl ⟨t, hts t (by simp), rfl⟩
  hint := by
    intro bracket hcode
    obtain ⟨offset, found, rfl⟩ := exists_of_code_unclosed hcode
    exact ⟨offset, found, rfl, rfl, h.innermost bracket offset found rfl⟩

theorem span_start_of_token (h : problem.token? = some t) (size : Nat) :
    (problem.diagnostic size).span.start = t.offset := by
  rw [Problem.diagnostic, h]
  rfl

theorem span_start_of_none (h : problem.token? = none) (size : Nat) :
    (problem.diagnostic size).span.start = size := by
  rw [Problem.diagnostic, h]
  rfl

/-- The faults of two segments are in the order of the segments. -/
theorem span_start_lt {us vs : List Token} (hus : us ∈ segments (significant text))
    (hvs : vs ∈ segments (significant text)) (hclosed : ¬IsOpen us)
    (hbefore : ∀ t ∈ us, ∀ u ∈ vs, t.stop ≤ u.offset) (h : rule us = .error problem)
    (h' : rule vs = .error problem') :
    (problem.diagnostic text.utf8ByteSize).span.start <
      (problem'.diagnostic text.utf8ByteSize).span.start := by
  have hscanned := isScanned_significant text
  obtain ⟨t, ht, htoken⟩ | ⟨hopen, -⟩ := token?_of_rule hscanned hus h
  · have hsignificant := mem_of_mem_segment hus ht
    rw [span_start_of_token htoken]
    rcases token?_of_rule hscanned hvs h' with ⟨u, hu, htoken'⟩ | ⟨-, hend⟩
    · rw [span_start_of_token htoken']
      exact (offset_lt_stop hsignificant).trans_le (hbefore t ht u hu)
    · rw [span_start_of_none hend]
      exact (offset_lt_stop hsignificant).trans_le (stop_le_size hsignificant)
  · exact absurd hopen hclosed

theorem pairwise_start_of_rules (h : rules (significant text) = .error problems) :
    (problems.map (Problem.diagnostic text.utf8ByteSize)).Pairwise
      fun d d' ↦ d.span.start < d'.span.start := by
  obtain ⟨-, rfl⟩ := rules_eq_error_iff.mp h
  rw [List.pairwise_map, List.pairwise_filterMap, List.pairwise_map]
  refine (pairwise_segments (pairwise_significant text)).imp_of_mem ?_
  intro us vs hus hvs ⟨hclosed, hbefore⟩ problem hproblem problem' hproblem'
  exact span_start_lt hus hvs hclosed hbefore (problem?_eq_some_iff.mp hproblem)
    (problem?_eq_some_iff.mp hproblem')

theorem isPlaced_of_rules (h : rules (significant text) = .error problems) :
    ∀ problem ∈ problems, (problem.diagnostic text.utf8ByteSize).IsPlaced text := by
  obtain ⟨-, rfl⟩ := rules_eq_error_iff.mp h
  intro problem hproblem
  obtain ⟨_, houtcome, hproblem⟩ := List.mem_filterMap.mp hproblem
  obtain ⟨segment, hmem, rfl⟩ := List.mem_map.mp houtcome
  obtain ⟨us, next, rfl, -, hamong⟩ :=
    isAmong_of_rule (isScanned_significant text) hmem (problem?_eq_some_iff.mp hproblem)
  exact hamong.isPlaced fun t ht ↦ mem_of_mem_segment hmem ht

end Diagnostics

/-- A text that is not read, as an expression or as rules, has diagnostics. Each is about a token
of the text or about its end, they are in order, and a group that is left open is named by the
place of its bracket. -/
theorem isPlaced_of_read_error (text : String) (failure : Failure)
    (h : Expr.read text = .error failure ∨ Rule.readAll text = .error failure) :
    ∃ ds, failure = .malformed ds ∧ ds ≠ [] ∧ (∀ d ∈ ds, d.IsPlaced text) ∧
      ds.Pairwise fun d d' ↦ d.span.start < d'.span.start := by
  rcases h with h | h
  · obtain ⟨problem, hexpr, rfl⟩ := Expr.read_error_iff_expr.mp h
    refine ⟨_, rfl, List.cons_ne_nil _ _, ?_, List.pairwise_singleton _ _⟩
    rw [List.forall_mem_singleton]
    exact (isAmong_of_expr (isScanned_significant text) hexpr).isPlaced (by simp)
  · rw [Rule.readAll] at h
    split at h <;> cases h
    next problems hproblems =>
      refine ⟨_, rfl, mt List.map_eq_nil_iff.mp (rules_eq_error_iff.mp hproblems).1, ?_,
        pairwise_start_of_rules hproblems⟩
      exact List.forall_mem_map.mpr (isPlaced_of_rules hproblems)

theorem isPlaced_of_read_error_left_open :
    let text := "A = [\x7bb\x7d, (c; D = \x7be"
    let d := (Problem.unclosed .round 10 (some ⟨.semicolon, ";", 12⟩)).diagnostic 20
    let d' := (Problem.unclosed .curly 18 none).diagnostic 20
    Rule.readAll text = .error (.malformed [d, d']) ∧
      d.code = .unclosedRound ∧ d.span = ⟨12, 13⟩ ∧ d.hint = some "'(' opened at byte 10" ∧
      d'.code = .unclosedCurly ∧ d'.span = ⟨20, 20⟩ ∧
      d'.hint = some "'\x7b' opened at byte 18" ∧ d.IsPlaced text ∧ d'.IsPlaced text := by
  intro text d d'
  have hrules : rules (significant text) =
      .error [.unclosed .round 10 (some ⟨.semicolon, ";", 12⟩), .unclosed .curly 18 none] := by
    cbv
  have hread : Rule.readAll text = .error (.malformed [d, d']) := by
    rw [Rule.readAll, hrules]
    rfl
  obtain ⟨ds, heq, -, hplaced, -⟩ := isPlaced_of_read_error text _ (.inr hread)
  obtain rfl : [d, d'] = ds := by simpa using heq
  exact ⟨hread, rfl, rfl, rfl, rfl, rfl, rfl, hplaced d (by simp), hplaced d' (by simp)⟩

end Ebnf
