import Ebnf.Backtracking
import Ebnf.Proofs.Language.Meaning
import Ebnf.Proofs.Parsing.Forest

/-!
The search finds what can be derived, and nothing else. First, what the matches of each kind of
matcher are. Every match covers a beginning of the input, which the expression derives on the
levels that were looked at, with trees that are a forest of the expression and hold the covered
text. Conversely every beginning that is derived on so many levels is covered: the search drops
the empty items of a repetition, and a derivation can do without them.
-/

set_option autoImplicit false
set_option relaxedAutoImplicit false

namespace Ebnf.Backtracking

open ParseTree

section Matches

variable {g : Grammar} {n : Nat} {name text : String} {chars : CharRange}
  {body first second : Expr} {es rest : List Expr} {matcher : Matcher} {matchers : List Matcher}
  {input : List Char} {m : Match}

theorem dropPrefix?_eq_some_iff {cs rest : List Char} :
    dropPrefix? cs input = some rest ↔ input = cs ++ rest := by
  induction cs generalizing input with
  | nil => simp [dropPrefix?]
  | cons c cs ih =>
    cases input with
    | nil => simp [dropPrefix?]
    | cons d input =>
      by_cases h : c = d
      · simp [dropPrefix?, h, ih]
      · simp [dropPrefix?, h, Ne.symm h]

theorem mem_sequence_cons_iff : m ∈ sequence (matcher :: matchers) input ↔
    ∃ first ∈ matcher input, ∃ more ∈ sequence matchers first.rest,
      more.after first.trees = m := by
  simp [sequence]

/-- A repetition is empty, or goes on behind an item that has covered something. -/
theorem mem_repetitions_iff : m ∈ repetitions matcher input ↔ m = .nothing input ∨
    ∃ first ∈ advancing matcher input, ∃ more ∈ repetitions matcher first.rest,
      more.after first.trees = m := by
  have hsingle (first : Match) : (Match.nothing first.rest).after first.trees = first := by
    simp [Match.nothing, Match.after]
  rw [repetitions, List.mem_cons, extensions]
  refine or_congr_right ?_
  simp only [repetitions, List.mem_cons, List.mem_append, List.mem_flatMap, List.mem_attach,
    true_and, Subtype.exists, List.mem_reverse, List.mem_map]
  constructor
  · rintro (h | ⟨first, hfirst, more, hmore, rfl⟩)
    · exact ⟨m, h, .nothing m.rest, .inl rfl, hsingle m⟩
    · exact ⟨first, hfirst, more, .inr hmore, rfl⟩
  · rintro ⟨first, hfirst, more, rfl | hmore, rfl⟩
    · rw [hsingle]
      exact .inl hfirst
    · exact .inr ⟨first, hfirst, more, hmore, rfl⟩

theorem mem_derivations_symbol_iff : m ∈ derivations g (n + 1) (.symbol name) input ↔
    ∃ body, g.definitions name body ∧ ∃ inner ∈ derivations g n body input,
      ⟨[.node name inner.trees], inner.rest⟩ = m := by
  simp only [derivations, g.definitions_iff]
  cases g.find? name <;> simp

theorem mem_derivations_terminal_iff : m ∈ derivations g (n + 1) (.terminal text) input ↔
    ∃ rest, input = text.toList ++ rest ∧
      m = ⟨if text.isEmpty then [] else [.leaf text], rest⟩ := by
  simp only [derivations, ← dropPrefix?_eq_some_iff]
  cases dropPrefix? text.toList input <;> simp

theorem mem_derivations_range_iff : m ∈ derivations g (n + 1) (.range chars) input ↔
    ∃ c rest, input = c :: rest ∧ chars.contains c = true ∧
      m = ⟨[.leaf (String.singleton c)], rest⟩ := by
  cases input with
  | nil => simp [derivations]
  | cons c input =>
    by_cases h : chars.contains c = true
    · simp [derivations, h, and_assoc]
    · simp [derivations, h]

theorem mem_derivations_seq_iff : m ∈ derivations g (n + 1) (.seq first second rest) input ↔
    m ∈ sequence ((first :: second :: rest).map (derivations g n)) input := by
  rw [derivations]

theorem mem_derivations_choice_iff : m ∈ derivations g (n + 1) (.choice es) input ↔
    ∃ e ∈ es, m ∈ derivations g n e input := by
  rw [derivations, List.mem_flatMap]

theorem mem_derivations_optional_iff : m ∈ derivations g (n + 1) (.optional body) input ↔
    m = .nothing input ∨ m ∈ derivations g n body input := by
  rw [derivations, List.mem_cons]

theorem mem_derivations_star_iff : m ∈ derivations g (n + 1) (.star body) input ↔
    m ∈ repetitions (derivations g n body) input := by
  rw [derivations]

theorem mem_derivations_plus_iff : m ∈ derivations g (n + 1) (.plus body) input ↔
    ∃ first ∈ derivations g n body input,
      ∃ more ∈ repetitions (derivations g n body) first.rest, more.after first.trees = m := by
  simp [derivations]

end Matches

/-- The trees are a forest of the expression that holds the text, and the expression derives the
text on so many levels. -/
structure IsParse (defs : Definitions) (n : Nat) (e : Expr) (cs : List Char)
    (ts : List ParseTree) : Prop where
  derives : DerivesWithin defs n e cs
  forest : HasForest defs e ts
  text : (textOf ts).toList = cs

/-- The same of several expressions, one behind the other. -/
structure AreParses (defs : Definitions) (n : Nat) (es : List Expr) (cs : List Char)
    (ts : List ParseTree) : Prop where
  derive : DeriveWithin defs n es cs
  forest : HaveForest defs es ts
  text : (textOf ts).toList = cs

/-- Every match covers a text that, with its trees, has the property. -/
def FindsOnly (P : List Char → List ParseTree → Prop) (matcher : Matcher) : Prop :=
  ∀ input, ∀ m ∈ matcher input, ∃ cs, input = cs ++ m.rest ∧ P cs m.trees

/-- Every text with the property is covered, whatever comes behind it. -/
def FindsAll (P : List Char → Prop) (matcher : Matcher) : Prop :=
  ∀ cs, P cs → ∀ rest, ∃ m ∈ matcher (cs ++ rest), m.rest = rest

section Sound

variable {defs : Definitions} {n : Nat} {e body : Expr} {es : List Expr} {cs ds : List Char}
  {ts us : List ParseTree} {matcher : Matcher}

theorem areParses_nil : AreParses defs n [] [] [] :=
  ⟨.nil, .nil, rfl⟩

theorem AreParses.cons (h : AreParses defs n es ds us) (he : IsParse defs n e cs ts) :
    AreParses defs n (e :: es) (cs ++ ds) (ts ++ us) where
  derive := .cons he.derives h.derive
  forest := .cons he.forest h.forest
  text := by rw [textOf_append, String.toList_append, he.text, h.text]

theorem findsOnly_sequence {matcherOf : Expr → Matcher}
    (h : ∀ e ∈ es, FindsOnly (IsParse defs n e) (matcherOf e)) :
    FindsOnly (AreParses defs n es) (sequence (es.map matcherOf)) := by
  induction es with
  | nil =>
    intro input m hm
    obtain rfl : m = .nothing input := List.mem_singleton.mp hm
    exact ⟨[], rfl, areParses_nil⟩
  | cons e es ih =>
    obtain ⟨hfirst, hrest⟩ := List.forall_mem_cons.mp h
    intro input m hm
    obtain ⟨first, hfirst', more, hmore, rfl⟩ := mem_sequence_cons_iff.mp hm
    obtain ⟨cs, rfl, he⟩ := hfirst input first hfirst'
    obtain ⟨ds, heq, hes⟩ := ih hrest first.rest more hmore
    exact ⟨cs ++ ds, by rw [heq, List.append_assoc]; rfl, hes.cons he⟩

theorem findsOnly_repetitions (h : FindsOnly (IsParse defs n body) matcher) :
    FindsOnly (fun cs ts ↦ ∃ times, AreParses defs n (List.replicate times body) cs ts)
      (repetitions matcher) := by
  intro input
  -- On the length of the input: behind an item that has covered something it is shorter.
  induction hsize : input.length using Nat.strongRecOn generalizing input with
  | ind size ih =>
    subst hsize
    intro m hm
    rcases mem_repetitions_iff.mp hm with rfl | ⟨first, hadvance, more, hmore, rfl⟩
    · exact ⟨[], rfl, 0, areParses_nil⟩
    · have hshorter := length_rest_lt_of_mem_advancing hadvance
      obtain ⟨cs, heq, hfirst⟩ := h input first (List.mem_filter.mp hadvance).1
      obtain ⟨ds, hrest, times, hparses⟩ := ih _ hshorter first.rest rfl more hmore
      refine ⟨cs ++ ds, ?_, times + 1, hparses.cons hfirst⟩
      rw [heq, hrest, List.append_assoc]
      rfl

/-- What is found is a parse. -/
theorem findsOnly_derivations (g : Grammar) (n : Nat) (e : Expr) :
    FindsOnly (IsParse g.definitions n e) (derivations g n e) := by
  induction n generalizing e with
  | zero => exact fun _ _ hm ↦ absurd hm List.not_mem_nil
  | succ n ih =>
    intro input m hm
    cases e with
    | symbol name =>
      obtain ⟨body, hdef, inner, hinner, rfl⟩ := mem_derivations_symbol_iff.mp hm
      obtain ⟨cs, heq, hbody⟩ := ih body input inner hinner
      refine ⟨cs, heq, .symbol hdef hbody.derives, .symbol hdef hbody.forest, ?_⟩
      rw [textOf_node, hbody.text]
    | terminal text =>
      obtain ⟨rest, heq, rfl⟩ := mem_derivations_terminal_iff.mp hm
      refine ⟨text.toList, heq, ?_⟩
      by_cases hempty : text = ""
      · subst hempty
        exact ⟨.terminal, .epsilon, rfl⟩
      · rw [if_neg (by simpa using hempty)]
        exact ⟨.terminal, .terminal hempty, by rw [textOf_leaf]⟩
    | range chars =>
      obtain ⟨c, rest, rfl, hc, rfl⟩ := mem_derivations_range_iff.mp hm
      exact ⟨[c], rfl, .range hc, .range hc, by simp⟩
    | seq first second rest =>
      obtain ⟨cs, heq, hparses⟩ := findsOnly_sequence (fun e _ ↦ ih e) input m
        (mem_derivations_seq_iff.mp hm)
      exact ⟨cs, heq, .seq hparses.derive, .seq hparses.forest, hparses.text⟩
    | choice es =>
      obtain ⟨e, he, hm⟩ := mem_derivations_choice_iff.mp hm
      obtain ⟨cs, heq, hparse⟩ := ih e input m hm
      exact ⟨cs, heq, .choice he hparse.derives, .choice he hparse.forest, hparse.text⟩
    | optional body =>
      rcases mem_derivations_optional_iff.mp hm with rfl | hm
      · exact ⟨[], rfl, .omitted, .omitted, rfl⟩
      · obtain ⟨cs, heq, hparse⟩ := ih body input m hm
        exact ⟨cs, heq, .optional hparse.derives, .optional hparse.forest, hparse.text⟩
    | star body =>
      obtain ⟨cs, heq, times, hparses⟩ := findsOnly_repetitions (ih body) input m
        (mem_derivations_star_iff.mp hm)
      exact ⟨cs, heq, .star times hparses.derive, .star times hparses.forest, hparses.text⟩
    | plus body =>
      obtain ⟨first, hfirst, more, hmore, rfl⟩ := mem_derivations_plus_iff.mp hm
      obtain ⟨cs, rfl, hparse⟩ := ih body input first hfirst
      obtain ⟨ds, hrest, times, hparses⟩ := findsOnly_repetitions (ih body) first.rest more hmore
      have hall := hparses.cons hparse
      refine ⟨cs ++ ds, ?_, .plus times hall.derive, .plus times hall.forest, hall.text⟩
      rw [hrest, List.append_assoc]
      rfl

end Sound

section Complete

variable {defs : Definitions} {n : Nat} {body : Expr} {es : List Expr} {matcher : Matcher}

theorem findsAll_sequence {matcherOf : Expr → Matcher}
    (h : ∀ e ∈ es, FindsAll (DerivesWithin defs n e) (matcherOf e)) :
    FindsAll (DeriveWithin defs n es) (sequence (es.map matcherOf)) := by
  induction es with
  | nil =>
    intro cs hcs rest
    cases hcs
    exact ⟨.nothing rest, List.mem_singleton_self _, rfl⟩
  | cons e es ih =>
    obtain ⟨hfirst, hrest⟩ := List.forall_mem_cons.mp h
    intro cs hcs rest
    cases hcs with
    | @cons _ _ _ cs ds he hes =>
      obtain ⟨first, hfirst, heq⟩ := hfirst cs he (ds ++ rest)
      obtain ⟨more, hmore, rfl⟩ := ih hrest ds hes rest
      rw [← heq] at hmore
      refine ⟨more.after first.trees, ?_, rfl⟩
      rw [List.append_assoc]
      exact mem_sequence_cons_iff.mpr ⟨first, hfirst, more, hmore, rfl⟩

theorem findsAll_repetitions (h : FindsAll (DerivesWithin defs n body) matcher) :
    FindsAll (fun cs ↦ ∃ times, DeriveWithin defs n (List.replicate times body) cs)
      (repetitions matcher) := by
  rintro cs ⟨times, hcs⟩ rest
  induction times generalizing cs with
  | zero =>
    cases hcs
    exact ⟨.nothing rest, mem_repetitions_iff.mpr (.inl rfl), rfl⟩
  | succ times ih =>
    cases hcs with
    | @cons _ _ _ cs ds hbody hbodies =>
      obtain ⟨more, hmore, rfl⟩ := ih ds hbodies
      -- An empty item is passed over, any other one is an item that the search goes on behind.
      by_cases hempty : cs = []
      · subst hempty
        exact ⟨more, hmore, rfl⟩
      · obtain ⟨first, hfirst, heq⟩ := h cs hbody (ds ++ more.rest)
        have hadvance : first ∈ advancing matcher (cs ++ (ds ++ more.rest)) := by
          refine List.mem_filter.mpr ⟨hfirst, ?_⟩
          have hpos : 0 < cs.length := List.length_pos_iff.mpr hempty
          simp only [heq, List.length_append, decide_eq_true_eq]
          omega
        rw [← heq] at hmore
        refine ⟨more.after first.trees, ?_, rfl⟩
        rw [List.append_assoc]
        exact mem_repetitions_iff.mpr (.inr ⟨first, hadvance, more, hmore, rfl⟩)

/-- What is derived on so many levels is found on so many levels. -/
theorem findsAll_derivations (g : Grammar) (n : Nat) (e : Expr) :
    FindsAll (DerivesWithin g.definitions n e) (derivations g n e) := by
  induction n generalizing e with
  | zero => exact fun _ h ↦ nomatch h
  | succ n ih =>
    intro cs h rest
    cases h with
    | symbol hdef hbody =>
      obtain ⟨inner, hinner, rfl⟩ := ih _ cs hbody rest
      exact ⟨_, mem_derivations_symbol_iff.mpr ⟨_, hdef, inner, hinner, rfl⟩, rfl⟩
    | terminal => exact ⟨_, mem_derivations_terminal_iff.mpr ⟨rest, rfl, rfl⟩, rfl⟩
    | range hc => exact ⟨_, mem_derivations_range_iff.mpr ⟨_, rest, rfl, hc, rfl⟩, rfl⟩
    | seq hes =>
      obtain ⟨m, hm, heq⟩ := findsAll_sequence (fun e _ ↦ ih e) cs hes rest
      exact ⟨m, mem_derivations_seq_iff.mpr hm, heq⟩
    | choice hmem he =>
      obtain ⟨m, hm, heq⟩ := ih _ cs he rest
      exact ⟨m, mem_derivations_choice_iff.mpr ⟨_, hmem, hm⟩, heq⟩
    | omitted => exact ⟨.nothing rest, mem_derivations_optional_iff.mpr (.inl rfl), rfl⟩
    | optional hbody =>
      obtain ⟨m, hm, heq⟩ := ih _ cs hbody rest
      exact ⟨m, mem_derivations_optional_iff.mpr (.inr hm), heq⟩
    | star times hes =>
      obtain ⟨m, hm, heq⟩ := findsAll_repetitions (ih _) cs ⟨times, hes⟩ rest
      exact ⟨m, mem_derivations_star_iff.mpr hm, heq⟩
    | plus times hes =>
      cases hes with
      | @cons _ _ _ cs ds hbody hbodies =>
        obtain ⟨first, hfirst, heq⟩ := ih _ cs hbody (ds ++ rest)
        obtain ⟨more, hmore, rfl⟩ := findsAll_repetitions (ih _) ds ⟨times, hbodies⟩ rest
        rw [← heq] at hmore
        refine ⟨more.after first.trees, ?_, rfl⟩
        rw [List.append_assoc]
        exact mem_derivations_plus_iff.mpr ⟨first, hfirst, more, hmore, rfl⟩

end Complete

end Ebnf.Backtracking
