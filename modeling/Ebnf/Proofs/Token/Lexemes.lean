import Ebnf.Proofs.Written.Scan

/-!
What a token may be between the text in front of it and the text behind it. White space, names
and three dots are runs that can be made longer on neither side; a string has all quotes of its
content taken by backslashes; punctuation is one character. `Covers` says this for each kind,
and for a text that begins with `c` the first token is the only thing that covers its front.
-/

set_option autoImplicit false
set_option relaxedAutoImplicit false

namespace Ebnf.Token

open Unicode

/-- One or more characters of a class, with none of the class directly in front or behind. -/
structure IsMaximalRun (p : Char → Bool) (before run after : List Char) : Prop where
  ne_nil : run ≠ []
  inside : ∀ c ∈ run, p c = true
  before : ∀ c ∈ before.getLast?, p c = false
  after : ∀ c ∈ after.head?, p c = false

/-- What may stand between the quotes of a string: each backslash takes the next character with
it, whatever that is, and no quote is left that has not been taken. -/
inductive IsContent : List Char → Prop
  | nil : IsContent []
  | char {c : Char} {cs : List Char} : c ≠ '"' → c ≠ '\\' → IsContent cs → IsContent (c :: cs)
  | taken {c : Char} {cs : List Char} : IsContent cs → IsContent ('\\' :: c :: cs)

/-- Three dots, and no white space outside ASCII directly behind them. -/
def AreDots (run after : List Char) : Prop :=
  run = ['.', '.', '.'] ∧ ∀ c ∈ after.head?, isWhiteSpace c = true → c.toNat < 0x80

/-- The text may be a token of the kind between the text in front and the text behind. -/
def Kind.Covers : Kind → (before text after : List Char) → Prop
  | .whitespace, before, text, after => IsMaximalRun isWhiteSpace before text after
  | .name, before, text, after => IsMaximalRun isNameChar before text after ∧ ¬AreDots text after
  | .ellipsis, before, text, after =>
    IsMaximalRun isNameChar before text after ∧ AreDots text after
  | .string, _, text, _ => ∃ content, IsContent content ∧ text = '"' :: content ++ ['"']
  | .unterminatedString, _, text, after => after = [] ∧ text.head? = some '"' ∧
    ∀ content rest, IsContent content → text ≠ '"' :: content ++ '"' :: rest
  | .invalid, _, _, _ => False
  | kind, _, text, _ => ∃ c, text = [c] ∧ Kind.ofPunctuation? c = some kind

section Content

variable {cs inside rest : List Char}

theorem exists_content_of_splitAtQuote? (h : splitAtQuote? cs = some (inside, rest)) :
    ∃ content, IsContent content ∧ inside = content ++ ['"'] := by
  fun_induction splitAtQuote? cs generalizing inside rest with
  | case1 => cases h
  | case2 cs =>
    cases h
    exact ⟨[], .nil, rfl⟩
  | case3 c cs ih =>
    obtain ⟨⟨tail, _⟩, hsplit, heq⟩ := Option.map_eq_some_iff.mp h
    cases heq
    obtain ⟨content, hcontent, rfl⟩ := ih hsplit
    exact ⟨_, .taken hcontent, rfl⟩
  | case4 c cs hquote hpair ih =>
    obtain ⟨⟨tail, _⟩, hsplit, heq⟩ := Option.map_eq_some_iff.mp h
    cases heq
    obtain ⟨content, hcontent, rfl⟩ := ih hsplit
    refine ⟨c :: content, .char hquote ?_ hcontent, rfl⟩
    rintro rfl
    cases cs with
    | nil => cases hsplit
    | cons d ds => exact hpair d ds rfl rfl

theorem IsContent.staysInside (h : IsContent cs) : StaysInside cs rest := by
  induction h with
  | nil => exact staysInside_nil
  | char hquote hbackslash _ ih => exact StaysInside.append (staysInside_char hquote hbackslash) ih
  | taken _ ih => exact StaysInside.append staysInside_backslash ih

theorem splitAtQuote?_of_isContent (h : IsContent cs) (rest : List Char) :
    splitAtQuote? (cs ++ '"' :: rest) = some (cs ++ ['"'], rest) :=
  splitAtQuote?_of_staysInside h.staysInside

theorem splitAtQuote?_eq_none_iff : splitAtQuote? cs = none ↔
    ∀ content rest, IsContent content → cs ≠ content ++ '"' :: rest := by
  constructor
  · rintro h content rest hcontent rfl
    rw [splitAtQuote?_of_isContent hcontent] at h
    cases h
  · intro h
    rw [Option.eq_none_iff_forall_ne_some]
    rintro ⟨inside, rest⟩ hsplit
    obtain ⟨content, hcontent, rfl⟩ := exists_content_of_splitAtQuote? hsplit
    have happend := append_of_splitAtQuote? hsplit
    exact h content rest hcontent (by simp [← happend])

end Content

theorem runKind_eq {run rest : List Char} :
    AreDots run rest ∧ runKind run rest = .ellipsis ∨
      ¬AreDots run rest ∧ runKind run rest = .name := by
  have hdots : AreDots run rest ↔ (run = ['.', '.', '.'] && !wideSpaceFollows rest) = true := by
    unfold AreDots
    cases rest with
    | nil => simp [wideSpaceFollows]
    | cons c cs => cases hc : isWhiteSpace c <;> simp [wideSpaceFollows, hc]
  rw [hdots, runKind]
  split
  · next h => exact .inl ⟨h, rfl⟩
  · next h => exact .inr ⟨h, rfl⟩

/-- Between the texts no run is cut in two. -/
def IsCut (before after : List Char) : Prop :=
  ∀ c ∈ before.getLast?, ∀ d ∈ after.head?, (isWhiteSpace d = true → isWhiteSpace c = false) ∧
    (isNameChar d = true → isNameChar c = false)

theorem isCut_nil (after : List Char) : IsCut [] after := by
  simp [IsCut]

section First

variable {kind : Kind} {before text after cs : List Char} {c : Char}

theorem isNameChar_iff : isNameChar c = true ↔
    isWhiteSpace c = false ∧ c ≠ '"' ∧ Kind.ofPunctuation? c = none := by
  simp [isNameChar, and_assoc]

theorem isMaximalRun_takeWhile {p : Char → Bool} (hc : p c = true)
    (hbefore : ∀ d ∈ before.getLast?, p d = false) :
    IsMaximalRun p before (c :: cs.takeWhile p) (cs.dropWhile p) where
  ne_nil := List.cons_ne_nil _ _
  inside := List.forall_mem_cons.mpr ⟨hc, List.all_eq_true.mp List.all_takeWhile⟩
  before := hbefore
  after := by
    intro d hd
    have hhead := List.head?_dropWhile_not p cs
    rw [hd] at hhead
    exact Bool.eq_false_iff.mpr (by simpa using hhead)

/-- The first token covers the front of the text. -/
theorem covers_first (h : IsCut before (c :: cs)) :
    (Lexeme.first c cs).kind.Covers before (Lexeme.first c cs).text (Lexeme.first c cs).rest := by
  unfold Lexeme.first
  split
  · next hspace => exact isMaximalRun_takeWhile hspace fun d hd ↦ (h d hd c rfl).1 hspace
  next hspace =>
  split
  · next hquote =>
    split
    · next inside rest hsplit =>
      obtain ⟨content, hcontent, rfl⟩ := exists_content_of_splitAtQuote? hsplit
      exact ⟨content, hcontent, by rw [hquote]; rfl⟩
    · next hsplit =>
      refine ⟨rfl, congrArg some hquote, fun content rest hcontent heq ↦ ?_⟩
      exact splitAtQuote?_eq_none_iff.mp hsplit content rest hcontent (List.cons.inj heq).2
  next hquote =>
  split
  · next kind hkind =>
    unfold Kind.ofPunctuation? at hkind
    split at hkind <;> cases hkind <;> exact ⟨_, rfl, rfl⟩
  · next hkind =>
    have hname : isNameChar c = true :=
      isNameChar_iff.mpr ⟨Bool.eq_false_iff.mpr hspace, hquote, hkind⟩
    have hrun : IsMaximalRun isNameChar before (c :: cs.takeWhile isNameChar)
        (cs.dropWhile isNameChar) :=
      isMaximalRun_takeWhile hname fun d hd ↦ (h d hd c rfl).2 hname
    dsimp only
    obtain ⟨hdots, heq⟩ | ⟨hdots, heq⟩ := @runKind_eq (c :: cs.takeWhile isNameChar)
      (cs.dropWhile isNameChar)
    · rw [heq]
      exact ⟨hrun, hdots⟩
    · rw [heq]
      exact ⟨hrun, hdots⟩

theorem IsMaximalRun.takeWhile_eq {p : Char → Bool} (h : IsMaximalRun p before (c :: cs) after) :
    p c = true ∧ (cs ++ after).takeWhile p = cs ∧ (cs ++ after).dropWhile p = after := by
  obtain ⟨hc, hcs⟩ := List.forall_mem_cons.mp h.inside
  have hstop : after.takeWhile p = [] ∧ after.dropWhile p = after := by
    cases hafter : after with
    | nil => exact ⟨rfl, rfl⟩
    | cons d ds =>
      have hd : p d = false := h.after d (by rw [hafter]; rfl)
      exact ⟨List.takeWhile_cons_of_neg (by simp [hd]), List.dropWhile_cons_of_neg (by simp [hd])⟩
  refine ⟨hc, ?_, ?_⟩
  · rw [List.takeWhile_append_of_pos hcs, hstop.1, List.append_nil]
  · rw [List.dropWhile_append_of_pos hcs, hstop.2]

theorem first_of_run (h : IsMaximalRun isNameChar before (c :: cs) after) :
    Lexeme.first c (cs ++ after) = ⟨runKind (c :: cs) after, c :: cs, after⟩ := by
  obtain ⟨hname, htake, hdrop⟩ := h.takeWhile_eq
  obtain ⟨hspace, hquote, hkind⟩ := isNameChar_iff.mp hname
  simp [Lexeme.first, hspace, hquote, hkind, htake, hdrop]

/-- Nothing else covers the front of the text. -/
theorem first_of_covers (h : kind.Covers before (c :: cs) after) :
    Lexeme.first c (cs ++ after) = ⟨kind, c :: cs, after⟩ := by
  have hspace : isWhiteSpace '"' = false := by decide
  cases kind with
  | whitespace =>
    obtain ⟨hc, htake, hdrop⟩ := IsMaximalRun.takeWhile_eq h
    rw [Lexeme.first, if_pos hc, htake, hdrop]
  | name =>
    obtain ⟨hrun, hdots⟩ := h
    obtain ⟨hcontra, -⟩ | ⟨-, hkind⟩ := @runKind_eq (c :: cs) after
    · exact absurd hcontra hdots
    · rw [first_of_run hrun, hkind]
  | ellipsis =>
    obtain ⟨hrun, hdots⟩ := h
    obtain ⟨-, hkind⟩ | ⟨hcontra, -⟩ := @runKind_eq (c :: cs) after
    · rw [first_of_run hrun, hkind]
    · exact absurd hdots hcontra
  | string =>
    obtain ⟨content, hcontent, heq⟩ := h
    obtain ⟨rfl, rfl⟩ := List.cons.inj heq
    have hsplit := splitAtQuote?_of_isContent hcontent after
    simp [Lexeme.first, hspace, hsplit]
  | unterminatedString =>
    obtain ⟨rfl, hhead, hnone⟩ := h
    obtain rfl : c = '"' := by simpa using hhead
    have hsplit : splitAtQuote? cs = none := by
      refine splitAtQuote?_eq_none_iff.mpr fun content rest hcontent heq ↦ ?_
      exact hnone content rest hcontent (congrArg ('"' :: ·) heq)
    simp [Lexeme.first, hspace, hsplit]
  | invalid => cases h
  | _ =>
    obtain ⟨d, heq, hkind⟩ := h
    obtain ⟨rfl, rfl⟩ := List.cons.inj heq
    obtain ⟨hplain, hquote, -⟩ := plain_of_ofPunctuation? hkind
    simp [Lexeme.first, hplain, hquote, hkind]

end First

end Ebnf.Token
