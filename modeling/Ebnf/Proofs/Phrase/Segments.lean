import Ebnf.Proofs.Phrase.Rules
import Mathlib

/-!
Recovery from faults. The tokens of a text are cut behind every semicolon, and each segment is
read as if it were all there is: reading a segment from where a rule may start notes one rule or
one fault and ends where a rule may start again, and the end of the text does for the last
segment what a semicolon does for the others. So what is read of a text is what is read of its
segments, one by one and in order.
-/

set_option autoImplicit false
set_option relaxedAutoImplicit false

namespace Ebnf

namespace Reading

/-- The tokens of a text cut behind every semicolon. -/
def segments (tokens : List Token) : List (List Token) :=
  tokens.splitBy fun t _ ↦ t.kind != .semicolon

/-- Reads what is left of a rule behind its equals sign, in front of its semicolon or in front of
the end of the text. -/
def bodyBefore (semicolon : Option Token) (name : String) (s : State) (tokens : List Token) :
    Except Problem Rule := do
  let s ← (s.run tokens).mapError (Problem.inRule name)
  let e ← s.finish semicolon
  if semicolon.isSome then .ok ⟨name, e⟩ else .error (.noSemicolon name none)

/-- Reads a rule from the tokens in front of its semicolon, or in front of the end of the text. -/
def ruleBefore (semicolon : Option Token) : List Token → Except Problem Rule
  | [] => .error (.noName semicolon)
  | [name] =>
    if name.kind = .name then .error (.noEquals semicolon) else .error (.noName (some name))
  | name :: equals :: body =>
    if name.kind ≠ .name then .error (.noName (some name))
    else if equals.kind ≠ .equals then .error (.noEquals (some equals))
    else bodyBefore semicolon name.text {} body

/-- Reads a segment as a rule. -/
def rule (segment : List Token) : Except Problem Rule :=
  ruleBefore (segment.find? fun t ↦ t.kind == .semicolon)
    (segment.takeWhile fun t ↦ t.kind != .semicolon)

/-- The fault in a segment that is no rule. -/
def problem? : Except Problem Rule → Option Problem
  | .ok _ => none
  | .error problem => some problem

/-- No semicolon is among the tokens. -/
def IsOpen (tokens : List Token) : Prop :=
  ∀ t ∈ tokens, t.kind ≠ .semicolon

/-- The tokens end with a semicolon, if there are any. -/
def EndsWithSemicolon (tokens : List Token) : Prop :=
  ∀ t ∈ tokens.getLast?, t.kind = .semicolon

section Segments

variable {ts rest : List Token} {t : Token}

theorem isChain_of_isOpen (h : IsOpen ts) :
    ts.IsChain fun t _ ↦ (t.kind != .semicolon) = true := by
  refine List.Pairwise.isChain (List.pairwise_iff_forall_sublist.mpr ?_)
  intro a b hab
  simpa using h a (hab.subset List.mem_cons_self)

theorem segments_of_isOpen (h : IsOpen ts) (hne : ts ≠ []) : segments ts = [ts] :=
  List.splitBy_of_isChain hne (isChain_of_isOpen h)

/-- Behind a semicolon, what is cut is cut apart from what stands in front. -/
theorem segments_append (h : EndsWithSemicolon ts) (us : List Token) :
    segments (ts ++ us) = segments ts ++ segments us := by
  refine List.splitBy_append fun t ht _ _ ↦ ?_
  simp [h t ht]

theorem segments_append_cons (h : IsOpen ts) (ht : t.kind = .semicolon) :
    segments (ts ++ t :: rest) = (ts ++ [t]) :: segments rest := by
  have hfirst : segments (ts ++ [t]) = [ts ++ [t]] := by
    apply List.splitBy_of_isChain (by simp)
    refine (isChain_of_isOpen h).append (.singleton t) ?_
    intro u hu _ _
    simpa using h u (List.mem_of_mem_getLast? hu)
  have htext : ts ++ t :: rest = (ts ++ [t]) ++ rest := by simp
  have hlast : EndsWithSemicolon (ts ++ [t]) := by simpa [EndsWithSemicolon] using ht
  rw [htext, segments_append hlast, hfirst, List.singleton_append]

/-- A segment stays one when it is cut again. -/
theorem segments_of_mem {segment : List Token} (h : segment ∈ segments ts) :
    segments segment = [segment] :=
  List.splitBy_of_isChain (List.ne_nil_of_mem_splitBy h) (List.isChain_of_mem_splitBy h)

/-- Token lists are either open or begin with an open segment and its semicolon. -/
theorem segments_induction {motive : List Token → Prop} (isOpen : ∀ ts, IsOpen ts → motive ts)
    (append : ∀ ts t rest, IsOpen ts → t.kind = .semicolon → motive rest →
      motive (ts ++ t :: rest)) (ts : List Token) : motive ts := by
  induction hlength : ts.length using Nat.strong_induction_on generalizing ts with
  | _ n ih =>
    cases hfind : ts.find? fun t ↦ t.kind == .semicolon with
    | none => exact isOpen ts (by simpa [IsOpen] using hfind)
    | some t =>
      obtain ⟨ht, first, rest, rfl, hfirst⟩ := List.find?_eq_some_iff_append.mp hfind
      have hrest : rest.length < n := by
        rw [← hlength, List.length_append, List.length_cons]
        omega
      exact append first t rest (by simpa [IsOpen] using hfirst) (by simpa using ht)
        (ih rest.length hrest rest rfl)

theorem rule_append_toList (h : IsOpen ts) {semicolon : Option Token}
    (hsemicolon : ∀ t ∈ semicolon, t.kind = .semicolon) :
    rule (ts ++ semicolon.toList) = ruleBefore semicolon ts := by
  have hfind : (ts ++ semicolon.toList).find? (fun t ↦ t.kind == .semicolon) = semicolon := by
    have hnone : ts.find? (fun t ↦ t.kind == .semicolon) = none := by simpa [IsOpen] using h
    rw [List.find?_append, hnone, Option.none_or]
    cases semicolon with
    | none => rfl
    | some t => simp [hsemicolon t rfl]
  have htake : (ts ++ semicolon.toList).takeWhile (fun t ↦ t.kind != .semicolon) = ts := by
    rw [List.takeWhile_append_of_pos (by simpa [IsOpen] using h)]
    cases semicolon with
    | none => simp
    | some t => simp [hsemicolon t rfl]
  rw [rule, hfind, htake]

theorem rule_of_isOpen (h : IsOpen ts) : rule ts = ruleBefore none ts := by
  have happend := @rule_append_toList ts h none (by simp)
  rwa [Option.toList_none, List.append_nil] at happend

theorem mem_of_mem_segment {segment : List Token} (h : segment ∈ segments ts) (ht : t ∈ segment) :
    t ∈ ts := by
  rw [← List.flatten_splitBy (r := fun t _ ↦ t.kind != .semicolon) (l := ts)]
  exact List.mem_flatten_of_mem h ht

/-- At the end of the text in place of its semicolon no body is that of a rule. -/
theorem exists_problem_of_bodyBefore (name : String) (s : State) (ts : List Token) :
    ∃ problem, bodyBefore none name s ts = .error problem := by
  unfold bodyBefore
  cases s.run ts with
  | error problem => exact ⟨_, rfl⟩
  | ok s' =>
    cases hfinish : s'.finish none with
    | error problem => exact ⟨problem, by simp [Except.mapError, bind, Except.bind, hfinish]⟩
    | ok e =>
      exact ⟨.noSemicolon name none, by simp [Except.mapError, bind, Except.bind, hfinish]⟩

theorem exists_problem_of_isOpen (h : IsOpen ts) : ∃ problem, rule ts = .error problem := by
  rw [rule_of_isOpen h]
  unfold ruleBefore
  split
  · exact ⟨_, rfl⟩
  · split <;> exact ⟨_, rfl⟩
  · split_ifs
    · exact ⟨_, rfl⟩
    · exact ⟨_, rfl⟩
    · exact exists_problem_of_bodyBefore _ _ _

end Segments

namespace Progress

/-- Notes what a segment has been read as. Behind it a rule may start. -/
def note (p : Progress) : Except Problem Rule → Progress
  | .ok rule => ⟨rule :: p.rules, p.problems, .start⟩
  | .error problem => ⟨p.rules, problem :: p.problems, .start⟩

/-- Ends a segment, with its semicolon or with the text. -/
def ended (p : Progress) : Option Token → Progress
  | some t => p.step t
  | none => ⟨p.rules, p.problemAtEnd?.toList ++ p.problems, .start⟩

theorem allProblems_eq (p : Progress) : p.allProblems = (p.ended none).problems.reverse := by
  rw [ended, allProblems, List.reverse_append]
  cases p.problemAtEnd? <;> rfl

end Progress

section Step

variable {ts : List Token} {t : Token} {semicolon : Option Token} {rules : List Rule}
  {problems : List Problem}

theorem ended_skipping (hsemicolon : ∀ t ∈ semicolon, t.kind = .semicolon) :
    Progress.ended ⟨rules, problems, .skipping⟩ semicolon = ⟨rules, problems, .start⟩ := by
  cases semicolon with
  | none => rfl
  | some t => simp [Progress.ended, Progress.step, hsemicolon t rfl]

theorem foldl_step_skipping (h : IsOpen ts) :
    ts.foldl Progress.step ⟨rules, problems, .skipping⟩ = ⟨rules, problems, .skipping⟩ := by
  induction ts with
  | nil => rfl
  | cons t ts ih =>
    obtain ⟨ht, hts⟩ := List.forall_mem_cons.mp h
    have hstep : Progress.step ⟨rules, problems, .skipping⟩ t = ⟨rules, problems, .skipping⟩ := by
      simp [Progress.step, ht]
    rw [List.foldl_cons, hstep, ih hts]

/-- Behind a fault the rest of the segment is passed over. -/
theorem ended_foldl_fail (hsemicolon : ∀ t ∈ semicolon, t.kind = .semicolon)
    (h : IsOpen (t :: ts)) (p : Progress) (problem : Problem) :
    (ts.foldl Progress.step (p.fail problem t)).ended semicolon = p.note (.error problem) := by
  obtain ⟨ht, hts⟩ := List.forall_mem_cons.mp h
  have hfail : p.fail problem t = ⟨p.rules, problem :: p.problems, .skipping⟩ := by
    simp [Progress.fail, ht]
  rw [hfail, foldl_step_skipping hts, ended_skipping hsemicolon]
  rfl

theorem ended_foldl_body (hsemicolon : ∀ t ∈ semicolon, t.kind = .semicolon) (h : IsOpen ts)
    (name : String) (s : State) :
    (ts.foldl Progress.step ⟨rules, problems, .body name s⟩).ended semicolon =
      Progress.note ⟨rules, problems, .start⟩ (bodyBefore semicolon name s ts) := by
  induction ts generalizing s with
  | nil =>
    have hrun : bodyBefore semicolon name s [] = (s.finish semicolon).bind fun e ↦
        if semicolon.isSome then .ok ⟨name, e⟩ else .error (.noSemicolon name none) := rfl
    rw [hrun, List.foldl_nil]
    cases semicolon with
    | none =>
      cases hfinish : s.finish none <;>
        simp [Progress.ended, Progress.problemAtEnd?, hfinish, Except.bind, Progress.note]
    | some t =>
      rw [Progress.ended, Progress.step]
      simp only [hsemicolon t rfl, if_true]
      cases s.finish (some t) with
      | error problem => simp [Progress.fail, hsemicolon t rfl, Except.bind, Progress.note]
      | ok e => rfl
  | cons t ts ih =>
    obtain ⟨ht, hts⟩ := List.forall_mem_cons.mp h
    rw [List.foldl_cons]
    cases hstep : s.step t with
    | error problem =>
      have hfail : Progress.step ⟨rules, problems, .body name s⟩ t =
          Progress.fail ⟨rules, problems, .body name s⟩ (problem.inRule name) t := by
        simp [Progress.step, ht, hstep]
      have hrun : bodyBefore semicolon name s (t :: ts) = .error (problem.inRule name) := by
        rw [bodyBefore, State.run_cons, hstep]
        rfl
      rw [hfail, ended_foldl_fail hsemicolon h, hrun]
      rfl
    | ok next =>
      have hmove : Progress.step ⟨rules, problems, .body name s⟩ t =
          ⟨rules, problems, .body name next⟩ := by
        simp [Progress.step, ht, hstep]
      have hrun : bodyBefore semicolon name s (t :: ts) = bodyBefore semicolon name next ts := by
        rw [bodyBefore, State.run_cons, hstep]
        rfl
      rw [hmove, ih hts, hrun]

/-- Reading a segment from where a rule may start notes what the segment is, whatever has been
read before it. -/
theorem ended_foldl_start (hsemicolon : ∀ t ∈ semicolon, t.kind = .semicolon) (h : IsOpen ts)
    (hne : ts ++ semicolon.toList ≠ []) :
    (ts.foldl Progress.step ⟨rules, problems, .start⟩).ended semicolon =
      Progress.note ⟨rules, problems, .start⟩ (ruleBefore semicolon ts) := by
  cases ts with
  | nil =>
    cases semicolon with
    | none => simp at hne
    | some t => simp [Progress.ended, Progress.step, Progress.fail, hsemicolon t rfl, ruleBefore,
        Progress.note]
  | cons name ts =>
    by_cases hname : name.kind = .name
    · have hnamed : Progress.step ⟨rules, problems, .start⟩ name =
          ⟨rules, problems, .named name.text⟩ := by
        simp [Progress.step, hname]
      rw [List.foldl_cons, hnamed]
      cases ts with
      | nil =>
        cases semicolon with
        | none => simp [Progress.ended, Progress.problemAtEnd?, ruleBefore, hname, Progress.note]
        | some t => simp [Progress.ended, Progress.step, Progress.fail, hsemicolon t rfl,
            ruleBefore, hname, Progress.note]
      | cons equals ts =>
        obtain ⟨-, hrest⟩ := List.forall_mem_cons.mp h
        by_cases hequals : equals.kind = .equals
        · have hbody : Progress.step ⟨rules, problems, .named name.text⟩ equals =
              ⟨rules, problems, .body name.text {}⟩ := by
            simp [Progress.step, hequals]
          rw [List.foldl_cons, hbody, ended_foldl_body hsemicolon (List.forall_mem_cons.mp hrest).2]
          simp [ruleBefore, hname, hequals]
        · have hfail : Progress.step ⟨rules, problems, .named name.text⟩ equals =
              Progress.fail ⟨rules, problems, .named name.text⟩ (.noEquals (some equals))
                equals := by
            simp [Progress.step, hequals]
          rw [List.foldl_cons, hfail, ended_foldl_fail hsemicolon hrest]
          simp [ruleBefore, hname, hequals, Progress.note]
    · have hfail : Progress.step ⟨rules, problems, .start⟩ name =
          Progress.fail ⟨rules, problems, .start⟩ (.noName (some name)) name := by
        simp [Progress.step, hname]
      rw [List.foldl_cons, hfail, ended_foldl_fail hsemicolon h]
      cases ts <;> simp [ruleBefore, hname, Progress.note]

end Step

/-- A segment is read in one go, and behind its semicolon nothing of it is left. -/
theorem foldl_step_segment {ts : List Token} {t : Token} (h : IsOpen ts) (ht : t.kind = .semicolon)
    {p : Progress} (hstart : p.stage = .start) :
    (ts ++ [t]).foldl Progress.step p = p.note (rule (ts ++ [t])) := by
  obtain ⟨rules, problems, stage⟩ := p
  dsimp only at hstart
  subst hstart
  have hsemicolon : ∀ u ∈ some t, u.kind = .semicolon := by simpa using ht
  have hrule := rule_append_toList h hsemicolon
  rw [Option.toList_some] at hrule
  rw [List.foldl_append, List.foldl_cons, List.foldl_nil, hrule]
  exact ended_foldl_start hsemicolon h (by simp)

section Run

variable {ts : List Token} {outcomes : List (Except Problem Rule)}

theorem foldl_note (p : Progress) (hstart : p.stage = .start) : outcomes.foldl Progress.note p =
    ⟨(outcomes.filterMap Except.toOption).reverse ++ p.rules,
      (outcomes.filterMap problem?).reverse ++ p.problems, .start⟩ := by
  induction outcomes generalizing p with
  | nil =>
    obtain ⟨rules, problems, stage⟩ := p
    dsimp only at hstart
    rw [hstart]
    rfl
  | cons outcome outcomes ih =>
    rw [List.foldl_cons, ih _ (by cases outcome <;> rfl)]
    cases outcome <;> simp [Progress.note, List.filterMap_cons, Except.toOption, problem?]

/-- Reading goes through the segments one by one. -/
theorem ended_foldl_segments (rules : List Rule) (problems : List Problem) :
    (ts.foldl Progress.step ⟨rules, problems, .start⟩).ended none =
      ((segments ts).map rule).foldl Progress.note ⟨rules, problems, .start⟩ := by
  induction ts using segments_induction generalizing rules problems with
  | isOpen ts h =>
    by_cases hne : ts = []
    · subst hne
      rfl
    · rw [segments_of_isOpen h hne, ended_foldl_start (by simp) h (by simpa using hne)]
      simp [rule_of_isOpen h]
  | append ts t rest h ht ih =>
    have htext : ts ++ t :: rest = (ts ++ [t]) ++ rest := by simp
    rw [segments_append_cons h ht, htext, List.foldl_append, foldl_step_segment h ht rfl,
      List.map_cons, List.foldl_cons]
    cases rule (ts ++ [t]) <;> exact ih _ _

/-- Tokens are read as what their segments are read as. -/
theorem rules_eq_of_segments (ts : List Token) : rules ts =
    if ((segments ts).map rule).filterMap problem? = [] then
      .ok (((segments ts).map rule).filterMap Except.toOption)
    else .error (((segments ts).map rule).filterMap problem?) := by
  have hended := @ended_foldl_segments ts [] []
  rw [foldl_note _ rfl, List.append_nil, List.append_nil] at hended
  have hrules : (ts.foldl Progress.step ({} : Progress)).rules.reverse =
      ((segments ts).map rule).filterMap Except.toOption := by
    show (Progress.ended (ts.foldl Progress.step {}) none).rules.reverse = _
    rw [hended, List.reverse_reverse]
  have hproblems : (ts.foldl Progress.step ({} : Progress)).allProblems =
      ((segments ts).map rule).filterMap problem? := by
    rw [Progress.allProblems_eq, hended, List.reverse_reverse]
  rw [Reading.rules, hrules, hproblems]
  simp only [List.isEmpty_iff]

/-- Whatever the other segments are, a segment is read as it is read alone. -/
theorem rules_of_mem_segments {segment : List Token} (h : segment ∈ segments ts) :
    rules segment = match rule segment with
      | .ok rule => .ok [rule]
      | .error problem => .error [problem] := by
  rw [rules_eq_of_segments, segments_of_mem h, List.map_singleton]
  cases rule segment <;> simp [List.filterMap_cons, Except.toOption, problem?]

theorem rule_eq_ok_iff {segment : List Token} (hts : ∀ t ∈ ts, t.IsScanned)
    (h : segment ∈ segments ts) {result : Rule} :
    rule segment = .ok result ↔ IsRule maxNesting segment result := by
  have hrules : rules segment = .ok [result] ↔ AreRules maxNesting segment [result] :=
    rules_eq_ok_iff fun t ht ↦ hts t (mem_of_mem_segment h ht)
  rw [← areRules_singleton_iff, ← hrules, rules_of_mem_segments h]
  cases rule segment <;> simp

/-- Without a fault there is one segment for each semicolon. -/
theorem length_segments (h : ((segments ts).map rule).filterMap problem? = []) :
    (segments ts).length = ts.countP fun t ↦ t.kind == .semicolon := by
  induction ts using segments_induction with
  | isOpen ts hopen =>
    by_cases hne : ts = []
    · subst hne
      rfl
    · obtain ⟨problem, hproblem⟩ := exists_problem_of_isOpen hopen
      rw [segments_of_isOpen hopen hne, List.map_singleton, hproblem] at h
      cases h
  | append ts t rest hopen ht ih =>
    have hnone : ts.countP (fun u ↦ u.kind == .semicolon) = 0 := by
      rw [List.countP_eq_zero]
      simpa [IsOpen] using hopen
    rw [segments_append_cons hopen ht, List.map_cons, List.filterMap_cons] at h
    rw [segments_append_cons hopen ht, List.length_cons, List.countP_append, hnone,
      List.countP_cons, Nat.zero_add]
    cases hrule : rule (ts ++ [t]) with
    | ok result =>
      rw [hrule] at h
      rw [ih h]
      simp [ht]
    | error problem =>
      rw [hrule] at h
      cases h

/-- A segment with a semicolon has it at its end. -/
theorem exists_of_mem_segments {segment : List Token} (hmem : segment ∈ segments ts)
    (h : ¬IsOpen segment) : ∃ us t, segment = us ++ [t] ∧ IsOpen us ∧ t.kind = .semicolon := by
  induction segment using segments_induction with
  | isOpen us hopen => exact absurd hopen h
  | append us t rest hopen ht _ =>
    have hsingle := segments_of_mem hmem
    rw [segments_append_cons hopen ht] at hsingle
    have hsegment := (List.cons.inj hsingle).1
    exact ⟨us, t, hsegment.symm, hopen, ht⟩

end Run

end Reading

open Reading Token

/-- A text is read segment by segment. Each segment is read as it would be alone, with no group
open: as a rule, if that is what all its tokens are, or else to one fault, which for a last
segment without a semicolon there always is. If there is no fault, the result is the rules in
order, one for each semicolon, and otherwise it is the faults in order. A segment that ends with
its semicolon is read in one go, whatever has been read before it. -/
theorem Rule.readAll_segments (text : String) :
    let segments := segments (significant text)
    let outcomes := segments.map Reading.rule
    let problems := outcomes.filterMap problem?
    Rule.readAll text =
      (if problems = [] then .ok (outcomes.filterMap Except.toOption)
      else .error (.malformed (problems.map (Problem.diagnostic text.utf8ByteSize)))) ∧
    (problems = [] →
      segments.length = (significant text).countP fun t ↦ t.kind == .semicolon) ∧
    ∀ segment ∈ segments,
      (rules segment = match Reading.rule segment with
        | .ok rule => .ok [rule]
        | .error problem => .error [problem]) ∧
      (∀ rule, Reading.rule segment = .ok rule ↔ IsRule maxNesting segment rule) ∧
      (IsOpen segment → ∃ problem, Reading.rule segment = .error problem) ∧
      (¬IsOpen segment → ∀ p : Progress, p.stage = .start →
        segment.foldl Progress.step p = p.note (Reading.rule segment)) := by
  refine ⟨?_, length_segments, ?_⟩
  · rw [Rule.readAll, rules_eq_of_segments]
    split_ifs <;> rfl
  · intro segment hmem
    refine ⟨rules_of_mem_segments hmem, fun rule ↦ rule_eq_ok_iff (isScanned_significant text) hmem,
      exists_problem_of_isOpen, ?_⟩
    intro hclosed p hstart
    obtain ⟨us, t, rfl, hopen, ht⟩ := exists_of_mem_segments hmem hclosed
    exact foldl_step_segment hopen ht hstart

theorem Rule.readAll_segments_left_open :
    let text := "A = (b; C = d; E = {e}"
    let problems : List Problem :=
      [.unclosed .round 4 (some ⟨.semicolon, ";", 6⟩), .noSemicolon "E" none]
    (segments (significant text)).map Reading.rule =
      [.error (.unclosed .round 4 (some ⟨.semicolon, ";", 6⟩)), .ok ⟨"C", .symbol "d"⟩,
        .error (.noSemicolon "E" none)] ∧
    Rule.readAll text =
      .error (.malformed (problems.map (Problem.diagnostic text.utf8ByteSize))) := by
  intro text problems
  have houtcomes : (segments (significant text)).map Reading.rule =
      [.error (.unclosed .round 4 (some ⟨.semicolon, ";", 6⟩)), .ok ⟨"C", .symbol "d"⟩,
        .error (.noSemicolon "E" none)] := by cbv
  refine ⟨houtcomes, ?_⟩
  have hread := (Rule.readAll_segments text).1
  rw [houtcomes] at hread
  exact hread

end Ebnf
