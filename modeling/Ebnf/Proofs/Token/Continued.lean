import Ebnf.Proofs.Token.Neighbours

/-!
Texts that begin with the same tokens. What follows a token counts only by its first character,
and for a token that is neither white space nor a run of name characters it does not count at
all. So a text can be cut behind any of the tokens that reading takes and be continued in another
way, and the tokens in front of the cut stay as they are; and so do all tokens of a text that has
something behind it that the last of them does not take in.
-/

set_option autoImplicit false
set_option relaxedAutoImplicit false

namespace Ebnf.Token

open Unicode

section Covers

variable {kind : Kind} {before text after after' : List Char} {ts : List Token}

theorem IsMaximalRun.of_after {p : Char → Bool} (h : IsMaximalRun p before text after)
    (hafter : ∀ c ∈ after'.head?, p c = false) : IsMaximalRun p before text after' :=
  ⟨h.ne_nil, h.inside, h.before, hafter⟩

/-- A token does not depend on more of what follows than its first character. -/
theorem Kind.Covers.of_head (h : kind.Covers before text after)
    (hhead : after'.head? = after.head?) : kind.Covers before text after' := by
  cases kind with
  | whitespace => exact IsMaximalRun.of_after h (hhead ▸ h.after)
  | name | ellipsis =>
    refine ⟨h.1.of_after (hhead ▸ h.1.after), ?_⟩
    rw [AreDots, hhead]
    exact h.2
  | unterminatedString =>
    rw [Kind.Covers, ← List.head?_eq_none_iff, hhead, List.head?_eq_none_iff]
    exact h
  | _ => exact h

theorem AreTokens.of_head (h : AreTokens before ts after) (hhead : after'.head? = after.head?) :
    AreTokens before ts after' := by
  induction ts generalizing before with
  | nil => trivial
  | cons t ts ih =>
    obtain ⟨hoffset, hcovers, hrest⟩ := h
    refine ⟨hoffset, hcovers.of_head ?_, ih hrest⟩
    rw [List.head?_append, List.head?_append, hhead]

/-- Only white space begins with white space. -/
theorem Kind.Covers.head_not_space (h : kind.Covers before text after)
    (hkind : kind ≠ .whitespace) : ∀ c ∈ text.head?, isWhiteSpace c = false := by
  intro c hc
  cases kind with
  | whitespace => exact absurd rfl hkind
  | name | ellipsis => exact (isNameChar_iff.mp (h.1.inside c (List.mem_of_head? hc))).1
  | string =>
    obtain ⟨content, -, rfl⟩ := h
    cases hc
    decide
  | unterminatedString =>
    rw [Option.mem_def, h.2.1] at hc
    cases hc
    decide
  | invalid => cases h
  | _ =>
    obtain ⟨d, rfl, hd⟩ := h
    cases hc
    exact (plain_of_ofPunctuation? hd).1

/-- What may stand behind a token instead of what does. -/
theorem Kind.Covers.continued (h : kind.Covers before text after) (hdots : kind ≠ .ellipsis)
    (hended : kind ≠ .unterminatedString)
    (hspace : kind ≠ .whitespace → ∀ c ∈ after.head?, isWhiteSpace c = false)
    (hspace' : ∀ c ∈ after'.head?, isWhiteSpace c = false)
    (hname : kind = .name → ∀ c ∈ after'.head?, isNameChar c = false) :
    kind.Covers before text after' := by
  cases kind with
  | whitespace => exact IsMaximalRun.of_after h hspace'
  | name =>
    refine ⟨h.1.of_after (hname rfl), fun hafter ↦ h.2 ⟨hafter.1, fun c hc hc' ↦ ?_⟩⟩
    rw [hspace nofun c hc] at hc'
    cases hc'
  | ellipsis => exact absurd rfl hdots
  | unterminatedString => exact absurd rfl hended
  | _ => exact h

end Covers

section Cut

variable {text : String} {xs ys : List Token}

/-- A text cut in front of a token that reading takes, or at its end. -/
theorem exists_cut (h : significant text = xs ++ ys) : ∃ front back, scan text = front ++ back ∧
    (front.filter fun t ↦ !t.isTrivia) = xs ∧ ∀ t ∈ back.head?, t.kind ≠ .whitespace := by
  obtain ⟨front, back, hscan, hfront, hback⟩ := List.filter_eq_append_iff.mp h
  cases ys with
  | nil =>
    refine ⟨scan text, [], (List.append_nil _).symm, ?_, by simp⟩
    rw [hscan, List.filter_append, hfront, hback, List.append_nil]
  | cons t ys =>
    obtain ⟨spaces, rest, rfl, hspaces, ht, -⟩ := List.filter_eq_cons_iff.mp hback
    refine ⟨front ++ spaces, t :: rest, by rw [hscan, List.append_assoc], ?_, ?_⟩
    · have hnone : (spaces.filter fun t ↦ !t.isTrivia) = [] := List.filter_eq_nil_iff.mpr hspaces
      rw [List.filter_append, hfront, hnone, List.append_nil]
    · intro u hu hkind
      cases hu
      rw [isTrivia_eq_true_iff.mpr hkind] at ht
      cases ht

theorem head_joined_not_space {front back : List Token} (h : scan text = front ++ back)
    (hback : ∀ t ∈ back.head?, t.kind ≠ .whitespace) :
    ∀ c ∈ (joined back).head?, isWhiteSpace c = false := by
  cases back with
  | nil => simp
  | cons t back =>
    have hcovers := (isTiling_scan text).covers front t back h
    rw [joined_cons, List.head?_append_of_ne_nil _ hcovers.ne_nil]
    exact hcovers.head_not_space (hback t rfl)

/-- What follows may make the last token one of another kind. -/
theorem areTokens_continued {front back : List Token} {t : Token} {kind : Kind}
    {ending : List Char} (h : scan text = front ++ t :: back)
    (hcovers : kind.Covers (joined front) t.text.toList ending) :
    AreTokens [] (front ++ [{ t with kind := kind }]) ending := by
  have hall := areTokens_scan text
  rw [h, areTokens_append_iff] at hall
  refine areTokens_append_iff.mpr ⟨hall.1.of_head ?_, (isTiling_scan text).offset front t back h,
    hcovers, trivial⟩
  simp [List.head?_append_of_ne_nil _ hcovers.ne_nil]

theorem getLast?_significant {t : Token} (h : t.kind ≠ .whitespace) (front : List Token) :
    ((front ++ [t]).filter fun t ↦ !t.isTrivia).getLast? = some t := by
  have ht : t.isTrivia = false := Bool.eq_false_iff.mpr fun htrivia ↦
    h (isTrivia_eq_true_iff.mp htrivia)
  simp [ht]

/-- Behind tokens that reading takes the text may go on as it likes, but not with white space, nor
with a name behind a name, and not behind three dots. -/
theorem exists_continued (h : significant text = xs ++ ys) {ending : List Char}
    (hspace : ∀ c ∈ ending.head?, isWhiteSpace c = false)
    (hlast : ∀ t ∈ xs.getLast?, t.kind ≠ .ellipsis ∧ t.kind ≠ .unterminatedString ∧
      (t.kind = .name → ∀ c ∈ ending.head?, isNameChar c = false)) :
    ∃ other offset, significant other = xs ++ significantFrom offset ending := by
  obtain ⟨front, back, hscan, rfl, hback⟩ := exists_cut h
  have htokens : AreTokens [] front ending := by
    rcases List.eq_nil_or_concat' front with rfl | ⟨before, t, rfl⟩
    · trivial
    have hscan' : scan text = before ++ t :: back := by simp [hscan]
    have hcovers := (isTiling_scan text).covers before t back hscan'
    have ht (hkind : t.kind ≠ .whitespace) := hlast t (getLast?_significant hkind before)
    refine areTokens_continued hscan' (hcovers.continued (fun hkind ↦ ?_) (fun hkind ↦ ?_)
      (fun _ ↦ head_joined_not_space hscan hback) hspace fun hkind ↦ ?_)
    · exact (ht (by simp [hkind])).1 hkind
    · exact (ht (by simp [hkind])).2.1 hkind
    · exact (ht (by simp [hkind])).2.2 hkind
  have heq := htokens.scanFrom_eq
  rw [byteLength_nil, List.nil_append] at heq
  refine ⟨String.ofList (joined front ++ ending), byteLength (joined front), ?_⟩
  rw [significant, scan, String.toList_ofList, heq, List.filter_append]
  rfl

end Cut

/-- What may stand directly behind the last token of a text, so that the token stays as it is:
behind white space no more of it; behind a name or three dots nothing, white space, a quote or
punctuation, but behind three dots no white space outside ASCII; nothing behind a string that does
not end; and anything behind all else. -/
def Kind.EndsBefore : Kind → (ending : List Char) → Prop
  | .whitespace, ending => ∀ c ∈ ending.head?, isWhiteSpace c = false
  | .name, ending => ∀ c ∈ ending.head?, isNameChar c = false
  | .ellipsis, ending =>
    ∀ c ∈ ending.head?, isNameChar c = false ∧ (isWhiteSpace c = true → c.toNat < 0x80)
  | .unterminatedString, ending => ending = []
  | _, _ => True

section Followed

variable {kind : Kind} {before text ending : List Char} {ts : List Token}

theorem Kind.Covers.followed (h : kind.Covers before text []) (hends : kind.EndsBefore ending) :
    kind.Covers before text ending := by
  cases kind with
  | whitespace => exact IsMaximalRun.of_after h hends
  | name => exact ⟨h.1.of_after hends, fun hdots ↦ h.2 ⟨hdots.1, nofun⟩⟩
  | ellipsis =>
    exact ⟨h.1.of_after fun c hc ↦ (hends c hc).1, h.2.1, fun c hc ↦ (hends c hc).2⟩
  | unterminatedString =>
    rw [Kind.EndsBefore] at hends
    rwa [hends]
  | _ => exact h

theorem areTokens_followed {text : String}
    (h : ∀ t ∈ (scan text).getLast?, t.kind.EndsBefore ending) :
    AreTokens [] (scan text) ending := by
  rcases List.eq_nil_or_concat' (scan text) with hscan | ⟨front, t, hscan⟩
  · rw [hscan]
    trivial
  · have hcovers := (isTiling_scan text).covers front t [] hscan
    rw [hscan]
    exact areTokens_continued hscan (hcovers.followed (h t (by simp [hscan])))

theorem AreTokens.scanFrom_append {text : String} (h : AreTokens [] ts ending)
    (htext : joined ts = text.toList) :
    scanFrom 0 (text.toList ++ ending) = ts ++ scanFrom text.utf8ByteSize ending := by
  have heq := h.scanFrom_eq
  rwa [byteLength_nil, List.nil_append, htext, byteLength_toList] at heq

/-- A text with something behind it that its last token does not take in is scanned as it is
alone. -/
theorem scanFrom_append {text : String}
    (h : ∀ t ∈ (scan text).getLast?, t.kind.EndsBefore ending) :
    scanFrom 0 (text.toList ++ ending) = scan text ++ scanFrom text.utf8ByteSize ending :=
  (areTokens_followed h).scanFrom_append (isTiling_scan text).text_eq

theorem splitAtQuote?_append_of_not_mem {cs : List Char} (h : splitAtQuote? cs = none)
    (hending : '"' ∉ ending) : splitAtQuote? (cs ++ ending) = none := by
  rw [splitAtQuote?_eq_none_iff] at h ⊢
  intro content rest hcontent heq
  obtain ⟨others, -, hothers⟩ | ⟨others, rfl, hothers⟩ := List.append_eq_append_iff.mp heq
  · exact hending (hothers ▸ List.mem_append_right others List.mem_cons_self)
  · cases others with
    | nil =>
      rw [List.nil_append] at hothers
      exact hending (hothers ▸ List.mem_cons_self)
    | cons c others =>
      obtain ⟨rfl, -⟩ := List.cons.inj hothers
      exact h content others hcontent rfl

variable {text : String} {front back : List Token} {t : Token}

/-- Tokens stay as they are if what stands behind them begins with the same character. -/
theorem scanFrom_front (h : scan text = front ++ t :: back)
    (hhead : ending.head? = t.text.toList.head?) :
    scanFrom 0 (joined front ++ ending) =
      front ++ scanFrom (byteLength (joined front)) ending := by
  have hne := ((isTiling_scan text).covers front t back h).ne_nil
  have htokens := areTokens_scan text
  rw [h, areTokens_append_iff] at htokens
  refine (htokens.1.of_head ?_).scanFrom_eq
  rw [joined_cons, List.append_assoc, List.head?_append_of_ne_nil _ hne, hhead]

theorem exists_of_unterminated (h : scan text = front ++ t :: back)
    (hkind : t.kind = .unterminatedString) :
    ∃ cs, t.text.toList = '"' :: cs ∧ text.toList = joined front ++ '"' :: cs ∧
      splitAtQuote? cs = none := by
  have hcovers := (isTiling_scan text).covers front t back h
  rw [hkind] at hcovers
  obtain ⟨hback, hhead, hopen⟩ := hcovers
  obtain ⟨cs, hcs⟩ := List.head?_eq_some_iff.mp hhead
  refine ⟨cs, hcs, ?_, splitAtQuote?_eq_none_iff.mpr fun content rest hcontent heq ↦ ?_⟩
  · rw [← (isTiling_scan text).text_eq, h, joined_append, joined_cons, hback, hcs,
      List.append_nil]
  · exact hopen content rest hcontent (by rw [hcs, heq, List.cons_append])

/-- A string that does not end takes in all that stands behind it, up to a quote. -/
theorem exists_unterminated_append (h : t ∈ significant text)
    (hkind : t.kind = .unterminatedString) (hending : '"' ∉ ending) :
    ∃ t ∈ significantFrom 0 (text.toList ++ ending), t.kind = .unterminatedString := by
  obtain ⟨front, back, hscan⟩ := List.append_of_mem (List.mem_filter.mp h).1
  obtain ⟨cs, hcs, htext, hopen⟩ := exists_of_unterminated hscan hkind
  have hfront : scanFrom 0 (joined front ++ '"' :: (cs ++ ending)) =
      front ++ scanFrom (byteLength (joined front)) ('"' :: (cs ++ ending)) :=
    scanFrom_front hscan (by rw [hcs]; rfl)
  have hlast : significantFrom (byteLength (joined front)) ('"' :: (cs ++ ending)) = [_] :=
    significantFrom_unterminated (splitAtQuote?_append_of_not_mem hopen hending)
  rw [significantFrom] at hlast
  rw [htext, List.append_assoc, List.cons_append, significantFrom, hfront, List.filter_append,
    hlast]
  exact ⟨_, List.mem_append_right _ (List.mem_singleton_self _), rfl⟩

end Followed

end Ebnf.Token
