import Ebnf.Proofs.Token.Lexemes
import Mathlib

/-!
The tokens of a text as a whole. They stand behind each other with nothing between them, each
covers what it must between the texts in front and behind, and no other tokens do. What comes
behind a token counts for the token only, so a text can be cut behind any of its tokens and be
continued in another way that the token allows.
-/

set_option autoImplicit false
set_option relaxedAutoImplicit false

namespace Ebnf.Token

open Unicode

/-- The texts of the tokens behind each other. -/
def joined (ts : List Token) : List Char :=
  ts.flatMap fun t ↦ t.text.toList

@[simp] theorem joined_nil : joined [] = [] := rfl

@[simp] theorem joined_cons (t : Token) (ts : List Token) :
    joined (t :: ts) = t.text.toList ++ joined ts := rfl

@[simp] theorem joined_append (ts us : List Token) :
    joined (ts ++ us) = joined ts ++ joined us :=
  List.flatMap_append

/-- The tokens cover what stands between two texts. -/
def AreTokens : (before : List Char) → List Token → (after : List Char) → Prop
  | _, [], _ => True
  | before, t :: ts, after => t.offset = byteLength before ∧
    t.kind.Covers before t.text.toList (joined ts ++ after) ∧
      AreTokens (before ++ t.text.toList) ts after

section Covers

variable {kind : Kind} {before text after : List Char}

theorem Kind.Covers.ne_nil (h : kind.Covers before text after) : text ≠ [] := by
  rintro rfl
  cases kind with
  | whitespace => exact h.ne_nil rfl
  | name | ellipsis => exact h.1.ne_nil rfl
  | string =>
    obtain ⟨_, _, heq⟩ := h
    cases heq
  | unterminatedString => cases h.2.1
  | invalid => cases h
  | _ =>
    obtain ⟨_, heq, _⟩ := h
    cases heq

/-- No token of a text cuts a run in two. -/
theorem Kind.Covers.isCut (h : kind.Covers before text after) : IsCut text after := by
  intro c hc d hd
  have hmem : c ∈ text := List.mem_of_getLast? hc
  cases kind with
  | whitespace =>
    have hspace : isWhiteSpace c = true := h.inside c hmem
    refine ⟨fun hd' ↦ ?_, fun _ ↦ by simp [isNameChar, hspace]⟩
    rw [h.after d hd] at hd'
    cases hd'
  | name | ellipsis =>
    have hname : isNameChar c = true := h.1.inside c hmem
    refine ⟨fun _ ↦ (isNameChar_iff.mp hname).1, fun hd' ↦ ?_⟩
    rw [h.1.after d hd] at hd'
    cases hd'
  | string =>
    obtain ⟨_, _, rfl⟩ := h
    rw [List.getLast?_concat, Option.mem_def, Option.some.injEq] at hc
    subst hc
    exact ⟨fun _ ↦ by decide, fun _ ↦ by decide⟩
  | unterminatedString =>
    rw [h.1] at hd
    cases hd
  | invalid => cases h
  | _ =>
    obtain ⟨e, rfl, hkind⟩ := h
    obtain rfl := List.mem_singleton.mp hmem
    obtain ⟨hspace, -, -⟩ := plain_of_ofPunctuation? hkind
    exact ⟨fun _ ↦ hspace, fun _ ↦ by simp [isNameChar, hkind]⟩

end Covers

section Tokens

variable {before after cs : List Char} {t : Token} {ts us : List Token}

theorem joined_scanFrom (offset : Nat) (cs : List Char) : joined (scanFrom offset cs) = cs := by
  fun_induction scanFrom offset cs with
  | case1 => rfl
  | case2 offset c cs lexeme token ih =>
    rw [joined_cons, ih, String.toList_ofList, Lexeme.text_append_rest]

theorem areTokens_scanFrom (offset : Nat) (cs : List Char) : ∀ before : List Char,
    IsCut before cs → offset = byteLength before → AreTokens before (scanFrom offset cs) [] := by
  fun_induction scanFrom offset cs with
  | case1 => exact fun _ _ _ ↦ trivial
  | case2 offset c cs lexeme token ih =>
    intro before h hoffset
    have hcovers := covers_first h
    have hjoined : joined (scanFrom token.stop lexeme.rest) ++ [] = lexeme.rest := by
      rw [joined_scanFrom, List.append_nil]
    have htext : token.text.toList = lexeme.text := String.toList_ofList
    refine ⟨hoffset, ?_, ih _ ?_ ?_⟩
    · rw [hjoined, htext]
      exact hcovers
    · rw [htext]
      intro d hd
      rw [List.getLast?_append_of_ne_nil _ hcovers.ne_nil] at hd
      exact hcovers.isCut d hd
    · rw [byteLength_append, byteLength_toList, ← hoffset]
      rfl

theorem areTokens_scan (text : String) : AreTokens [] (scan text) [] :=
  areTokens_scanFrom 0 text.toList [] (isCut_nil _) rfl

/-- Tokens that cover the front of a text are those that it is scanned to. -/
theorem AreTokens.scanFrom_eq (h : AreTokens before ts after) :
    scanFrom (byteLength before) (joined ts ++ after) =
      ts ++ scanFrom (byteLength (before ++ joined ts)) after := by
  induction ts generalizing before with
  | nil => simp
  | cons t ts ih =>
    obtain ⟨hoffset, hcovers, hrest⟩ := h
    have hnext := ih hrest
    obtain ⟨c, cs, htext⟩ := List.exists_cons_of_ne_nil hcovers.ne_nil
    have hsize : byteLength (before ++ t.text.toList) = t.stop := by
      rw [byteLength_append, byteLength_toList, ← hoffset]
      rfl
    have hlexeme : (⟨t.kind, String.ofList (c :: cs), byteLength before⟩ : Token) = t := by
      rw [← htext, String.ofList_toList, ← hoffset]
    rw [htext] at hcovers
    rw [hsize] at hnext
    rw [joined_cons, List.append_assoc, htext, List.cons_append, scanFrom, first_of_covers hcovers]
    dsimp only
    rw [hlexeme, hnext, List.append_assoc, htext]
    rfl

theorem areTokens_append_iff : AreTokens before (ts ++ us) after ↔
    AreTokens before ts (joined us ++ after) ∧ AreTokens (before ++ joined ts) us after := by
  induction ts generalizing before with
  | nil => simp [AreTokens]
  | cons t ts ih =>
    rw [List.cons_append, AreTokens, ih, AreTokens, joined_append, joined_cons, List.append_assoc,
      List.append_assoc, and_assoc, and_assoc]

theorem areTokens_iff : AreTokens before ts after ↔ ∀ us t vs, ts = us ++ t :: vs →
    t.offset = byteLength (before ++ joined us) ∧
      t.kind.Covers (before ++ joined us) t.text.toList (joined vs ++ after) := by
  constructor
  · rintro h us t vs rfl
    obtain ⟨hoffset, hcovers, -⟩ := (areTokens_append_iff.mp h).2
    exact ⟨hoffset, hcovers⟩
  · intro h
    induction ts generalizing before with
    | nil => trivial
    | cons t ts ih =>
      have hfirst := h [] t ts rfl
      rw [joined_nil, List.append_nil] at hfirst
      refine ⟨hfirst.1, hfirst.2, ih fun us u vs heq ↦ ?_⟩
      have hnext := h (t :: us) u vs (by rw [heq, List.cons_append])
      rwa [joined_cons, ← List.append_assoc] at hnext

end Tokens

/-- The tokens are behind each other, make up the text together, and each covers what it must. -/
structure IsTiling (text : String) (ts : List Token) : Prop where
  text_eq : joined ts = text.toList
  offset : ∀ before t after, ts = before ++ t :: after → t.offset = byteLength (joined before)
  covers : ∀ before t after, ts = before ++ t :: after →
    t.kind.Covers (joined before) t.text.toList (joined after)

section Scan

variable {text : String} {before after : List Token} {t : Token}

theorem isTiling_scan (text : String) : IsTiling text (scan text) where
  text_eq := joined_scanFrom 0 text.toList
  offset before t after h := (areTokens_iff.mp (areTokens_scan text) before t after h).1
  covers before t after h := by
    have hcovers := (areTokens_iff.mp (areTokens_scan text) before t after h).2
    rwa [List.nil_append, List.append_nil] at hcovers

theorem IsTiling.scan_eq {ts : List Token} (h : IsTiling text ts) : scan text = ts := by
  have htokens : AreTokens [] ts [] := by
    refine areTokens_iff.mpr fun us t vs heq ↦ ?_
    rw [List.nil_append, List.append_nil]
    exact ⟨h.offset us t vs heq, h.covers us t vs heq⟩
  have hscan := htokens.scanFrom_eq
  rw [List.append_nil, h.text_eq, scanFrom, List.append_nil] at hscan
  exact hscan

theorem text_ne_empty (h : scan text = before ++ t :: after) : t.text ≠ "" := by
  intro hempty
  exact ((isTiling_scan text).covers before t after h).ne_nil (by rw [hempty]; rfl)

theorem joined_eq_nil_iff (hts : ∀ t ∈ after, t.text ≠ "") : joined after = [] ↔ after = [] := by
  cases after with
  | nil => simp
  | cons u us => simpa using fun h ↦ absurd h (hts u List.mem_cons_self)

theorem mem_scan_ne_empty (h : t ∈ scan text) : t.text ≠ "" := by
  obtain ⟨us, vs, heq⟩ := List.append_of_mem h
  exact text_ne_empty heq

/-- Punctuation is a token of its own unless a string has taken it in. -/
theorem Kind.Covers.punctuation {kind kind' : Kind} {before text after : List Char} {c : Char}
    (h : kind.Covers before text after) (hmem : c ∈ text)
    (hkind : Kind.ofPunctuation? c = some kind') :
    kind = kind' ∧ text = [c] ∨ kind = .string ∨ kind = .unterminatedString := by
  have hplain := plain_of_ofPunctuation? hkind
  cases kind with
  | whitespace =>
    have hspace := h.inside c hmem
    rw [hplain.1] at hspace
    cases hspace
  | name | ellipsis =>
    have hname := isNameChar_iff.mp (h.1.inside c hmem)
    rw [hkind] at hname
    cases hname.2.2
  | string => exact .inr (.inl rfl)
  | unterminatedString => exact .inr (.inr rfl)
  | invalid => cases h
  | _ =>
    obtain ⟨d, rfl, hd⟩ := h
    obtain rfl := List.mem_singleton.mp hmem
    rw [hkind, Option.some.injEq] at hd
    exact .inl ⟨hd.symm, rfl⟩

end Scan

/-- Scanning finds the only tokens that tile the text and cover what they must. None of them is
empty or invalid, only the last can be a string that does not end, and punctuation outside
strings is a token of its own. -/
theorem scan_eq_iff_isTiling (text : String) :
    (∀ ts, scan text = ts ↔ IsTiling text ts) ∧
    ∀ before t after, scan text = before ++ t :: after →
      t.text ≠ "" ∧ t.kind ≠ .invalid ∧ (t.kind = .unterminatedString → after = []) ∧
      ∀ c ∈ t.text.toList, ∀ kind, Kind.ofPunctuation? c = some kind →
        t.kind = kind ∧ t.text.toList = [c] ∨ t.kind = .string ∨ t.kind = .unterminatedString := by
  refine ⟨fun ts ↦ ⟨fun h ↦ h ▸ isTiling_scan text, IsTiling.scan_eq⟩, ?_⟩
  intro before t after h
  have hcovers := (isTiling_scan text).covers before t after h
  refine ⟨text_ne_empty h, fun hkind ↦ ?_, fun hkind ↦ ?_, fun c hc kind hkind ↦ ?_⟩
  · rw [hkind] at hcovers
    exact hcovers
  · rw [hkind] at hcovers
    have hmem : ∀ u ∈ after, u ∈ scan text := fun u hu ↦ by
      rw [h]
      exact List.mem_append_right before (List.mem_cons_of_mem t hu)
    exact (joined_eq_nil_iff fun u hu ↦ mem_scan_ne_empty (hmem u hu)).mp hcovers.1
  · exact hcovers.punctuation hc hkind

theorem scan_eq_iff_isTiling_dots :
    let text := "...\u2028\"=\\\"\"= \"\\"
    let before : List Token := [⟨.name, "...", 0⟩, ⟨.whitespace, "\u2028", 3⟩]
    let string : Token := ⟨.string, "\"=\\\"\"", 6⟩
    let after : List Token :=
      [⟨.equals, "=", 11⟩, ⟨.whitespace, " ", 12⟩, ⟨.unterminatedString, "\"\\", 13⟩]
    scan text = before ++ string :: after ∧ IsTiling text (before ++ string :: after) ∧
      string.text ≠ "" ∧ string.kind ≠ .invalid ∧
      (string.kind = .unterminatedString → after = []) ∧
      ∀ c ∈ string.text.toList, ∀ kind, Kind.ofPunctuation? c = some kind →
        string.kind = kind ∧ string.text.toList = [c] ∨ string.kind = .string ∨
          string.kind = .unterminatedString := by
  intro text before string after
  have hscan : scan text = before ++ string :: after := by cbv
  obtain ⟨htiling, htoken⟩ := scan_eq_iff_isTiling text
  exact ⟨hscan, (htiling _).mp hscan, htoken before string after hscan⟩

end Ebnf.Token
