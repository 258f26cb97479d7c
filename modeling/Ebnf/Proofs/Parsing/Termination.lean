import Ebnf.Proofs.Parsing.Depth
import Ebnf.Proofs.Parsing.Worklist

/-!
Every search ends, whatever the grammar is. Symbols that begin with themselves or that only refer to
each other are cut off by the depth: no call is more than one level below the last that is looked
at. A repetition goes on behind a match only where less of the input is left, so what a worklist
gets is always further on in the input. The matches of a search are those of `derivations`, in the
same order.
-/

set_option autoImplicit false
set_option relaxedAutoImplicit false

namespace Ebnf.Backtracking

open Search

namespace Match

/-- The match with those of a matcher behind it. -/
def continued (matcher : Matcher) (m : Match) : List Match :=
  (matcher m.rest).map (.after m.trees)

theorem nothing_after (m : Match) : (nothing m.rest).after m.trees = m := by
  simp [nothing, after]

theorem continued_nothing (matcher : Matcher) (input : List Char) :
    (nothing input).continued matcher = matcher input :=
  List.map_id _

theorem after_comp_after (ts us : List ParseTree) : after us ∘ after ts = after (us ++ ts) := by
  funext m
  simp [after]

end Match

section Matchers

variable {matcher : Matcher} {matchers : List Matcher} {m : Match} {ms : List Match}
  {input : List Char}

/-- The matches of a sequence behind some others can be found item by item. -/
theorem flatMap_continued_sequence_cons :
    ms.flatMap (Match.continued (sequence (matcher :: matchers))) =
      (ms.flatMap (Match.continued matcher)).flatMap (Match.continued (sequence matchers)) := by
  rw [List.flatMap_assoc]
  refine congrArg (ms.flatMap ·) (funext fun m ↦ ?_)
  simp only [Match.continued, sequence, List.map_flatMap, List.flatMap_map, List.map_map,
    Match.after_comp_after]
  rfl

theorem flatMap_continued_sequence_nil : ms.flatMap (Match.continued (sequence [])) = ms := by
  have hsingle (m : Match) : m.continued (sequence []) = [m] :=
    congrArg ([·]) m.nothing_after
  rw [funext hsingle, List.flatMap_singleton']

theorem extensions_eq (matcher : Matcher) (input : List Char) :
    extensions matcher input = advancing matcher input ++
      (advancing matcher input).reverse.flatMap (Match.continued (extensions matcher)) := by
  rw [extensions, List.flatMap_def, List.flatMap_def,
    ← List.attach_map_val (l := (advancing matcher input).reverse)]
  rfl

/-- What goes on behind a match begins with one item behind it, and goes on behind the last of
these first. -/
theorem continued_extensions : m.continued (extensions matcher) =
    m.continued (advancing matcher) ++
      (m.continued (advancing matcher)).reverse.flatMap (Match.continued (extensions matcher)) := by
  rw [Match.continued, extensions_eq, List.map_append, List.map_flatMap, Match.continued,
    ← List.map_reverse, List.flatMap_map]
  simp only [Match.continued, List.map_map, Match.after_comp_after]
  rfl

theorem repetitions_eq (matcher : Matcher) (input : List Char) : repetitions matcher input =
    .nothing input :: (Match.nothing input).continued (extensions matcher) := by
  rw [repetitions, Match.continued_nothing]

end Matchers

section Bounded

variable {g : Grammar} {e body : Expr} {items : List Expr} {n depth : Nat}
  {input rest : List Char} {m : Match} {found worklist partials entries : List Match}
  {result : List Match}

/-- A call is at most one level below the last one that is looked at, and an entry is pushed behind
another one only if it leaves less of the input. -/
def Event.IsBounded (input : List Char) : Event → Prop
  | .call depth => depth ≤ maxDepth + 1
  | .push popped pushed => popped.rest <:+ input ∧ pushed.rest <:+ popped.rest ∧
    pushed.rest.length < popped.rest.length

theorem ends_call (h : depth ≤ maxDepth) :
    Ends (Event.IsBounded input) (fun _ ↦ note (.call depth)) () :=
  ends_note (Nat.le_succ_of_le h)

theorem isSuffix_of_mem_derivations (h : m ∈ derivations g n e input) : m.rest <:+ input := by
  obtain ⟨cs, heq, -⟩ := findsOnly_derivations g n e input m h
  exact ⟨cs, heq.symm⟩

/-- Since no match goes backwards, those that end elsewhere than they begin are further on. -/
theorem filter_derivations_eq : ((derivations g n e input).filter fun m ↦
    m.rest.length ≠ input.length) = advancing (derivations g n e) input := by
  refine List.filter_congr fun m hm ↦ decide_eq_decide.mpr ?_
  exact (isSuffix_of_mem_derivations hm).length_le.lt_iff_ne.symm

/-- From this depth on every search in the input ends with what is found on so many levels. -/
def Explores (g : Grammar) (input : List Char) (depth n : Nat) : Prop :=
  ∀ e rest, rest <:+ input → Ends (Event.IsBounded input)
    (fun fuel ↦ explore g fuel e rest depth) (derivations g n e rest)

theorem Explores.continued (h : Explores g input depth n) (hm : m.rest <:+ input) (e : Expr) :
    Ends (Event.IsBounded input) (fun fuel ↦ explore g fuel e m.rest depth >>= fun more ↦
      pure (more.map (.after m.trees))) (m.continued (derivations g n e)) :=
  (h e m.rest hm).map _

theorem isSuffix_of_mem_continued (hm : m.rest <:+ input) {more : Match}
    (hmore : more ∈ m.continued (derivations g n e)) : more.rest <:+ input := by
  obtain ⟨more, hmem, rfl⟩ := List.mem_map.mp hmore
  exact (isSuffix_of_mem_derivations hmem).trans hm

theorem Explores.ends_exploreAll (h : Explores g input (depth + 1) n) (hdepth : depth ≤ maxDepth)
    (hpartials : ∀ m ∈ partials, m.rest <:+ input) :
    Ends (Event.IsBounded input) (fun fuel ↦ exploreAll g fuel items depth partials)
      (partials.flatMap (Match.continued (sequence (items.map (derivations g n))))) := by
  induction items generalizing partials with
  | nil =>
    rw [List.map_nil, flatMap_continued_sequence_nil]
    exact .of_succ ((ends_call hdepth).bind (ends_pure partials))
  | cons e items ih =>
    rw [List.map_cons, flatMap_continued_sequence_cons]
    refine .of_succ ((ends_call hdepth).bind ?_)
    refine (ends_mapM fun m hm ↦ h.continued (hpartials m hm) e).bind ?_
    rw [← List.flatMap_def]
    split
    · next hnone =>
      rw [List.isEmpty_iff.mp hnone]
      exact ends_pure []
    · refine ih fun more hmore ↦ ?_
      obtain ⟨m, hm, hmore⟩ := List.mem_flatMap.mp hmore
      exact isSuffix_of_mem_continued (hpartials m hm) hmore

theorem isSuffix_and_lt_of_mem_advancing {more : Match}
    (h : more ∈ m.continued (advancing (derivations g n body))) :
    more.rest <:+ m.rest ∧ more.rest.length < m.rest.length := by
  obtain ⟨more, hmem, rfl⟩ := List.mem_map.mp h
  have hlt : more.rest.length < m.rest.length := length_rest_lt_of_mem_advancing hmem
  have hsuffix : more.rest <:+ m.rest := isSuffix_of_mem_derivations (List.mem_filter.mp hmem).1
  exact ⟨hsuffix, hlt⟩

/-- One entry is taken off, and those behind it go on top. -/
theorem Explores.ends_drain_cons (h : Explores g input (depth + 1) n) (hdepth : depth ≤ maxDepth)
    (hm : m.rest <:+ input) (hnext : Ends (Event.IsBounded input)
      (fun fuel ↦ drain g fuel body depth
        (found ++ m.continued (advancing (derivations g n body)))
        ((m.continued (advancing (derivations g n body))).reverse ++ worklist)) result) :
    Ends (Event.IsBounded input) (fun fuel ↦ drain g fuel body depth found (m :: worklist))
      result := by
  refine .of_succ ((ends_call hdepth).bind ((h body m.rest hm).bind ?_))
  rw [filter_derivations_eq]
  refine (ends_forM fun more hmore ↦ ends_note ?_).bind hnext
  exact ⟨hm, isSuffix_and_lt_of_mem_advancing hmore⟩

/-- Entries on top of a worklist go, with all that is found behind them. -/
theorem Explores.ends_drain_append (h : Explores g input (depth + 1) n) (hdepth : depth ≤ maxDepth)
    (bound : Nat) (hentries : ∀ m ∈ entries, m.rest <:+ input ∧ m.rest.length < bound)
    (hnext : Ends (Event.IsBounded input) (fun fuel ↦ drain g fuel body depth
      (found ++ entries.flatMap (Match.continued (extensions (derivations g n body)))) worklist)
      result) :
    Ends (Event.IsBounded input) (fun fuel ↦ drain g fuel body depth found (entries ++ worklist))
      result := by
  -- On the most that an entry leaves of the input: what it puts on the worklist leaves less.
  induction bound generalizing entries found worklist with
  | zero =>
    obtain rfl : entries = [] := List.eq_nil_iff_forall_not_mem.mpr fun m hm ↦
      absurd (hentries m hm).2 (Nat.not_lt_zero _)
    simpa using hnext
  | succ bound ih =>
    induction entries generalizing found with
    | nil => simpa using hnext
    | cons m entries ihentries =>
      obtain ⟨⟨hm, hbound⟩, hrest⟩ := List.forall_mem_cons.mp hentries
      rw [List.flatMap_cons, continued_extensions] at hnext
      rw [List.cons_append]
      refine h.ends_drain_cons hdepth hm (ih (fun more hmore ↦ ?_) (ihentries hrest ?_))
      · obtain ⟨hsuffix, hlt⟩ := isSuffix_and_lt_of_mem_advancing (List.mem_reverse.mp hmore)
        exact ⟨hsuffix.trans hm, hlt.trans_le (Nat.lt_succ_iff.mp hbound)⟩
      · simpa only [List.append_assoc] using hnext

/-- A worklist is emptied. -/
theorem Explores.ends_drain (h : Explores g input (depth + 1) n) (hdepth : depth ≤ maxDepth)
    (hworklist : ∀ m ∈ worklist, m.rest <:+ input) :
    Ends (Event.IsBounded input) (fun fuel ↦ drain g fuel body depth found worklist)
      (found ++ worklist.flatMap (Match.continued (extensions (derivations g n body)))) := by
  have hempty (found : List Match) :
      Ends (Event.IsBounded input) (fun fuel ↦ drain g fuel body depth found []) found :=
    .of_succ ((ends_call hdepth).bind (ends_pure found))
  have hall := h.ends_drain_append hdepth (input.length + 1) (fun m hm ↦
    ⟨hworklist m hm, Nat.lt_succ_of_le (hworklist m hm).length_le⟩)
    (hempty (found ++ worklist.flatMap (Match.continued (extensions (derivations g n body)))))
  rwa [List.append_nil] at hall

theorem Explores.ends_repetitions (h : Explores g input (depth + 1) n) (hdepth : depth ≤ maxDepth)
    (hrest : rest <:+ input) (body : Expr) : Ends (Event.IsBounded input)
      (fun fuel ↦ drain g fuel body depth [.nothing rest] [.nothing rest])
      (repetitions (derivations g n body) rest) := by
  rw [repetitions_eq]
  have hnothing : ∀ m ∈ [Match.nothing rest], m.rest <:+ input :=
    List.forall_mem_singleton.mpr hrest
  have hdrain : Ends (Event.IsBounded input)
      (fun fuel ↦ drain g fuel body depth [.nothing rest] [.nothing rest]) _ :=
    h.ends_drain hdepth hnothing
  rwa [List.flatMap_singleton] at hdrain

/-- Nothing is looked for too deep. -/
theorem explores_zero (h : maxDepth < depth) (hcall : depth ≤ maxDepth + 1) :
    Explores g input depth 0 := by
  intro e rest _
  refine .of_succ ((ends_note hcall).bind ?_)
  simp only [if_pos h]
  exact ends_pure []

/-- On one level more, what is found is found with what the next level finds. -/
theorem Explores.succ (h : Explores g input (depth + 1) n) (hdepth : depth ≤ maxDepth) :
    Explores g input depth (n + 1) := by
  intro e rest hrest
  refine .of_succ ((ends_call hdepth).bind ?_)
  simp only [if_neg (Nat.not_lt.mpr hdepth)]
  cases e with
  | symbol name =>
    rw [derivations]
    dsimp only
    cases g.find? name with
    | none => exact ends_pure []
    | some body => exact (h body rest hrest).map _
  | terminal text =>
    rw [derivations]
    dsimp only
    cases dropPrefix? text.toList rest with
    | none => exact ends_pure []
    | some rest => exact ends_pure _
  | range chars =>
    cases rest with
    | nil => exact ends_pure []
    | cons c rest => exact ends_pure _
  | choice es =>
    rw [derivations, List.flatMap_def]
    exact (ends_mapM fun e _ ↦ h e rest hrest).map _
  | seq first second items =>
    have hnothing : ∀ m ∈ [Match.nothing rest], m.rest <:+ input :=
      List.forall_mem_singleton.mpr hrest
    have hall : Ends (Event.IsBounded input)
        (fun fuel ↦ exploreAll g fuel (first :: second :: items) depth [.nothing rest]) _ :=
      h.ends_exploreAll hdepth hnothing
    rwa [List.flatMap_singleton, Match.continued_nothing] at hall
  | optional body =>
    rw [derivations]
    exact (h body rest hrest).map _
  | star body =>
    rw [derivations]
    exact h.ends_repetitions hdepth hrest body
  | plus body =>
    rw [derivations, List.flatMap_def]
    refine (h body rest hrest).bind ((ends_mapM fun m hm ↦ ?_).map _)
    exact (h.ends_repetitions hdepth ((isSuffix_of_mem_derivations hm).trans hrest) body).map _

/-- Whatever is looked for, at whatever depth, is looked for on the levels that are left. -/
theorem explores_of_add_eq (h : depth + n = maxDepth + 1) : Explores g input depth n := by
  induction n generalizing depth with
  | zero => exact explores_zero (by omega) (by omega)
  | succ n ih => exact (ih (by omega)).succ (by omega)

end Bounded

/-- The match covers the input up to the position. -/
def Match.StopsAt {input : String} (m : Match) (pos : input.Pos) : Prop :=
  (input.sliceFrom pos).copy.toList = m.rest

section Positions

variable {input : String} {m popped pushed : Match} {pos start stop : input.Pos}

theorem exists_stopsAt (h : m.rest <:+ input.toList) : ∃ pos : input.Pos, m.StopsAt pos := by
  obtain ⟨cs, heq⟩ := h
  obtain ⟨pos, hsplits⟩ := exists_splits heq.symm
  exact ⟨pos, by rw [Match.StopsAt, hsplits.copy_sliceFrom_eq, String.toList_ofList]⟩

theorem Match.StopsAt.offset_add_size (h : m.StopsAt pos) :
    pos.offset.byteIdx + (String.ofList m.rest).utf8ByteSize = input.utf8ByteSize := by
  rw [← h, String.ofList_toList]
  exact offset_add_size_of_splits pos.splits

/-- A match that leaves less of the input stops further on. -/
theorem Match.StopsAt.lt (hpopped : popped.StopsAt start) (hpushed : pushed.StopsAt stop)
    (hsuffix : pushed.rest <:+ popped.rest) (hlt : pushed.rest.length < popped.rest.length) :
    start < stop := by
  obtain ⟨cs, heq⟩ := hsuffix
  have hcs : (String.ofList cs).utf8ByteSize ≠ 0 := by
    rw [ne_eq, String.utf8ByteSize_eq_zero_iff, String.ofList_eq_empty_iff]
    rintro rfl
    exact hlt.ne (congrArg List.length heq)
  have hstart := hpopped.offset_add_size
  have hstop := hpushed.offset_add_size
  rw [← heq, String.ofList_append, String.utf8ByteSize_append] at hstart
  rw [String.Pos.lt_iff, String.Pos.Raw.lt_iff]
  omega

end Positions

/-- The search for the start symbol ends, whatever fuel it has beyond some amount, with the matches
that parsing looks at. No call is deeper than one level below the last that is looked at. Each entry
that a worklist gets stops further on than the one that it is pushed behind, inside the input. -/
theorem explore_start_ends (compiled : Compiled) (input : String) :
    ∃ enough events, (∀ fuel, enough ≤ fuel →
        (explore compiled.grammar fuel (.symbol compiled.start) input.toList 0).run [] =
          some (startMatches compiled input, events)) ∧
      (∀ depth, Event.call depth ∈ events → depth ≤ maxDepth + 1) ∧
      ∀ popped pushed, Event.push popped pushed ∈ events → ∃ start stop : input.Pos,
        popped.StopsAt start ∧ pushed.StopsAt stop ∧ start < stop ∧ stop ≤ input.endPos := by
  have hexplores : Explores compiled.grammar input.toList 0 (maxDepth + 1) :=
    explores_of_add_eq (Nat.zero_add _)
  obtain ⟨enough, events, hrun, hevents⟩ :=
    hexplores (.symbol compiled.start) input.toList (List.suffix_refl _)
  refine ⟨enough, events, fun fuel hfuel ↦ ?_, fun depth hcall ↦ hevents _ hcall,
    fun popped pushed hpush ↦ ?_⟩
  · have hstart := hrun fuel hfuel []
    rwa [List.append_nil] at hstart
  · obtain ⟨hpopped, hpushed, hlt⟩ := hevents _ hpush
    obtain ⟨start, hstart⟩ := exists_stopsAt hpopped
    obtain ⟨stop, hstop⟩ := exists_stopsAt (hpushed.trans hpopped)
    exact ⟨start, stop, hstart, hstop, hstart.lt hstop hpushed hlt, stop.le_endPos⟩

end Ebnf.Backtracking
