import Ebnf.Proofs.Phrase.Shape
import Ebnf.Proofs.Written.Scan

/-!
Texts that cannot be phrases because of where their quotes stand. `Fails` is said of a text that
is scanned from its beginning, `FailsInside` of one that is scanned with a string still open, so
that its quotes close what they should open. In the second case nothing that is written between
two quotes helps: up to an escaped quote it is scanned as names and punctuation, a backslash
makes the last of them a name, and no string may stand behind a name.
-/

set_option autoImplicit false
set_option relaxedAutoImplicit false

namespace Ebnf

open Reading Token

/-- Wherever the text stands, its tokens are not spaced as those of phrases are. -/
def Fails (cs : List Char) : Prop :=
  ∀ offset, ¬WellSpaced (significantFrom offset cs)

/-- The text fails behind the beginning of a string that has not ended. -/
def FailsInside (cs : List Char) : Prop :=
  ∀ inside rest, splitAtQuote? cs = some (inside, rest) →
    ∀ (t : Token) (offset : Nat), t.kind = .string → ¬WellSpaced (t :: significantFrom offset rest)

section Fails

variable {cs rest : List Char} {t : Token}

theorem Fails.of_suffix (h : Fails rest)
    (hsuffix : ∀ offset, ∃ before stop, significantFrom offset cs =
      before ++ significantFrom stop rest) : Fails cs := by
  intro offset hspaced
  obtain ⟨before, stop, heq⟩ := hsuffix offset
  rw [heq] at hspaced
  exact h stop hspaced.right_of_append

theorem Fails.not_wellSpaced_cons (h : Fails rest) (t : Token) (offset : Nat) :
    ¬WellSpaced (t :: significantFrom offset rest) :=
  fun hspaced ↦ h offset (@WellSpaced.right_of_append [t] _ hspaced)

theorem Fails.punctuation {c : Char} {kind : Kind} (h : Fails rest)
    (hc : Kind.ofPunctuation? c = some kind) : Fails (c :: rest) :=
  h.of_suffix fun offset ↦ ⟨[⟨kind, String.ofList [c], offset⟩], offset + c.utf8Size,
    significantFrom_punctuation hc⟩

/-- A quote that is not inside a string begins one, whether it ends or not. -/
theorem not_wellSpaced_quote (ht : t.kind = .name ∨ t.kind = .string) (offset : Nat) :
    ¬WellSpaced (t :: significantFrom offset ('"' :: cs)) := by
  rintro ⟨hended, hchain⟩
  cases hsplit : splitAtQuote? cs with
  | none =>
    rw [significantFrom_unterminated hsplit] at hended
    exact hended _ (List.mem_cons_of_mem t (List.mem_singleton_self _)) rfl
  | some split =>
    rw [significantFrom_string hsplit] at hchain
    exact (List.isChain_cons_cons.mp hchain).1 ht rfl

theorem failsInside_nil : FailsInside [] := by
  intro inside rest h
  cases h

theorem FailsInside.append (h : FailsInside rest) (hcs : StaysInside cs rest) :
    FailsInside (cs ++ rest) := by
  intro inside others hsplit
  rw [hcs, Option.map_eq_some_iff] at hsplit
  obtain ⟨⟨last, others'⟩, hlast, heq⟩ := hsplit
  cases heq
  exact h last others hlast

theorem FailsInside.fails (h : FailsInside rest) : Fails ('"' :: rest) := by
  intro offset hspaced
  cases hsplit : splitAtQuote? rest with
  | none =>
    rw [significantFrom_unterminated hsplit] at hspaced
    exact hspaced.1 _ (List.mem_singleton_self _) rfl
  | some split =>
    rw [significantFrom_string hsplit] at hspaced
    exact h _ _ hsplit _ _ rfl hspaced

end Fails

section NoQuotes

variable {c : Char} {cs rest : List Char}

theorem getLast?_of_cons_ne {d : Char} (h : (c :: cs).getLast? = some d) (hne : c ≠ d) :
    cs.getLast? = some d := by
  cases cs with
  | nil => exact absurd (by simpa using h) hne
  | cons c' cs => rwa [List.getLast?_cons_cons] at h

/-- The name characters at the beginning of a text, as many as there are. -/
theorem exists_run (h : isNameChar c = true) : ∃ run others, c :: cs = run ++ others ∧ run ≠ [] ∧
    (∀ d ∈ run, isNameChar d = true) ∧ ∀ d ∈ others.head?, isNameChar d = false := by
  refine ⟨(c :: cs).takeWhile isNameChar, (c :: cs).dropWhile isNameChar,
    List.takeWhile_append_dropWhile.symm, by simp [h], List.all_eq_true.mp List.all_takeWhile, ?_⟩
  intro d hd
  have hnot := (c :: cs).head?_dropWhile_not (p := isNameChar)
  rw [hd] at hnot
  simpa using hnot

/-- The last of the tokens is a name. -/
def EndsInName (ts : List Token) : Prop :=
  ∃ first t, ts = first ++ [t] ∧ t.kind = .name

theorem EndsInName.cons {ts : List Token} (h : EndsInName ts) (t : Token) :
    EndsInName (t :: ts) := by
  obtain ⟨first, last, rfl, hlast⟩ := h
  exact ⟨t :: first, last, rfl, hlast⟩

theorem endsInName_of_run {run : List Char} (h : run.getLast? = some '\\') (rest : List Char)
    (offset : Nat) : EndsInName [⟨runKind run rest, String.ofList run, offset⟩] := by
  have hdots : run ≠ ['.', '.', '.'] := by
    rintro rfl
    simp at h
  exact ⟨[], _, rfl, by simp [runKind, hdots]⟩

/-- A text without quotes leaves a quote behind it the beginning of a string, and if it ends with
a backslash its last token is a name. -/
theorem exists_of_not_mem (h : '"' ∉ cs) (offset : Nat) :
    ∃ before stop, significantFrom offset (cs ++ '"' :: rest) =
      before ++ significantFrom stop ('"' :: rest) ∧
        (cs.getLast? = some '\\' → EndsInName before) := by
  -- On the length, because a run of name characters is taken off as a whole.
  induction hlength : cs.length using Nat.strong_induction_on generalizing cs offset with
  | _ n ih =>
    cases cs with
    | nil => exact ⟨[], offset, rfl, by simp⟩
    | cons c cs =>
      subst hlength
      obtain ⟨hc, hcs⟩ := not_or.mp (mt List.mem_cons.mpr h)
      by_cases hspace : Unicode.isWhiteSpace c = true
      · have hne : c ≠ '\\' := by rintro rfl; exact absurd hspace (by decide)
        obtain ⟨before, stop, heq, hlast⟩ :=
          ih cs.length (Nat.lt_succ_self _) hcs (offset + c.utf8Size) rfl
        refine ⟨before, stop, ?_, fun hl ↦ hlast (getLast?_of_cons_ne hl hne)⟩
        rw [List.cons_append, significantFrom_whiteSpace hspace, heq]
      cases hkind : Kind.ofPunctuation? c with
      | some kind =>
        have hne : c ≠ '\\' := by rintro rfl; cases hkind
        obtain ⟨before, stop, heq, hlast⟩ :=
          ih cs.length (Nat.lt_succ_self _) hcs (offset + c.utf8Size) rfl
        rw [List.cons_append, significantFrom_punctuation hkind, heq]
        exact ⟨_ :: before, stop, rfl, fun hl ↦ (hlast (getLast?_of_cons_ne hl hne)).cons _⟩
      | none =>
        have hname : isNameChar c = true := by simp [isNameChar, hspace, hkind, Ne.symm hc]
        obtain ⟨run, others, heq, hne, hrun, hhead⟩ := @exists_run c cs hname
        rw [heq] at ih h ⊢
        have hend : ∀ d ∈ (others ++ '"' :: rest).head?, isNameChar d = false := by
          cases others with
          | nil => simp [isNameChar]
          | cons d ds => exact hhead
        rw [List.append_assoc, significantFrom_run hne hrun hend]
        by_cases hnil : others = []
        · subst hnil
          rw [List.append_nil]
          exact ⟨[_], _, rfl, fun hl ↦ endsInName_of_run hl _ _⟩
        · have hlt : others.length < (run ++ others).length := by
            have hpos := List.length_pos_iff.mpr hne
            rw [List.length_append]
            omega
          obtain ⟨before, stop, heq, hlast⟩ := ih others.length hlt
            (fun hm ↦ h (List.mem_append_right run hm)) (offset + byteLength run) rfl
          rw [heq, List.getLast?_append_of_ne_nil run hnil]
          exact ⟨_ :: before, stop, rfl, fun hl ↦ (hlast hl).cons _⟩

theorem Fails.of_not_mem (h : Fails ('"' :: rest)) (hcs : '"' ∉ cs) : Fails (cs ++ '"' :: rest) :=
  h.of_suffix fun offset ↦ by
    obtain ⟨before, stop, heq, -⟩ := @exists_of_not_mem cs rest hcs offset
    exact ⟨before, stop, heq⟩

/-- Where it is scanned, an escaped quote begins a string directly behind a name. -/
theorem fails_of_backslash (h : '"' ∉ cs) : Fails (cs ++ '\\' :: '"' :: rest) := by
  intro offset hspaced
  have htext : cs ++ '\\' :: '"' :: rest = cs ++ ['\\'] ++ '"' :: rest := by simp
  have hnone : '"' ∉ cs ++ ['\\'] := by simp [h]
  obtain ⟨before, stop, heq, hlast⟩ := @exists_of_not_mem _ rest hnone offset
  obtain ⟨first, t, rfl, ht⟩ := hlast List.getLast?_concat
  rw [htext, heq, List.append_assoc] at hspaced
  exact not_wellSpaced_quote (.inl ht) stop hspaced.right_of_append

end NoQuotes

section Quoted

variable {c : Char} {rest : List Char}

/-- The closing quote of what was open already makes the text between two quotes be scanned. -/
theorem failsInside_quote (h : ∀ t : Token, t.kind = .string → ∀ offset,
    ¬WellSpaced (t :: significantFrom offset rest)) : FailsInside ('"' :: rest) := by
  intro inside others hsplit t offset ht
  cases hsplit
  exact h t ht offset

theorem FailsInside.terminal (h : FailsInside rest) (content : List Char) :
    FailsInside ('"' :: (content.flatMap Quoted.escapeChar ++ '"' :: rest)) := by
  refine failsInside_quote fun t _ offset ↦ Fails.not_wellSpaced_cons ?_ t offset
  have hescape {cs : List Char} (hcs : '"' ∉ cs) : '"' ∉ cs.flatMap Quoted.escapeChar := by
    intro hmem
    obtain ⟨d, hd, hquote⟩ := List.mem_flatMap.mp hmem
    have hne : d ≠ '"' := ne_of_mem_of_not_mem hd hcs
    unfold Quoted.escapeChar at hquote
    split at hquote <;> simp [hne.symm] at hquote
  by_cases hquote : '"' ∈ content
  · obtain ⟨front, back, rfl, hfront⟩ := List.eq_append_cons_of_mem hquote
    have htext : (front ++ '"' :: back).flatMap Quoted.escapeChar ++ '"' :: rest =
        front.flatMap Quoted.escapeChar ++
          '\\' :: '"' :: (back.flatMap Quoted.escapeChar ++ '"' :: rest) := by
      simp [Quoted.escapeChar]
    rw [htext]
    exact fails_of_backslash (hescape hfront)
  · exact h.fails.of_not_mem (hescape hquote)

theorem FailsInside.boundary (h : FailsInside rest) (c : Char) :
    FailsInside ('"' :: c :: '"' :: rest) := by
  refine failsInside_quote fun t ht offset ↦ ?_
  by_cases hc : c = '"'
  · rw [hc]
    exact not_wellSpaced_quote (.inr ht) offset
  · have hfails : Fails ([c] ++ '"' :: rest) := h.fails.of_not_mem (by simp [Ne.symm hc])
    exact hfails.not_wellSpaced_cons t offset

/-- A quote as a boundary ends its string at once, and a backslash keeps its string from ending
where it should. -/
theorem FailsInside.fails_boundary (h : FailsInside rest) (hc : c = '"' ∨ c = '\\') :
    Fails ('"' :: c :: '"' :: rest) := by
  rcases hc with rfl | rfl
  · intro offset
    rw [significantFrom_string rfl]
    exact not_wellSpaced_quote (.inr rfl) _
  · exact (h.append staysInside_backslash).fails

end Quoted

end Ebnf
