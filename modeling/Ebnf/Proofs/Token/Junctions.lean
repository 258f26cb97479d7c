import Ebnf.Expr.Render
import Ebnf.Proofs.Token.Continued
import Ebnf.Proofs.Written.Cuts

/-!
Where a text may be cut so that its parts are scanned on their own: exactly where the last token in
front of the cut may stand before what is behind it. Three dots are the one token that turns into
another without taking anything in: they are a name in front of white space outside ASCII. Quoted
content is one token whatever stands behind it, since nothing in it can end it.
-/

set_option autoImplicit false
set_option relaxedAutoImplicit false

namespace Ebnf

namespace Token

open Unicode

section Shift

variable {text ending : String} {ts : List Token}

theorem joined_map_shift (n : Nat) (ts : List Token) : joined (ts.map (shift n)) = joined ts := by
  induction ts with
  | nil => rfl
  | cons t ts ih => rw [List.map_cons, joined_cons, joined_cons, ih, shift]

/-- Behind tokens that cover a text in front of another, the other is scanned as it is alone. -/
theorem AreTokens.scan_append (h : AreTokens [] ts ending.toList)
    (htext : joined ts = text.toList) :
    scan (text ++ ending) = ts ++ (scan ending).map (shift text.utf8ByteSize) := by
  rw [scan, String.toList_append, h.scanFrom_append htext, ← Nat.add_zero text.utf8ByteSize,
    scanFrom_shift]
  rfl

end Shift

section Junction

variable {kind : Kind} {before covered ending : List Char} {text behind : String}
  {front : List Token} {t : Token}

theorem Kind.Covers.endsBefore (h : kind.Covers before covered ending) :
    kind.EndsBefore ending := by
  cases kind with
  | whitespace => exact h.after
  | name => exact h.1.after
  | ellipsis => exact fun c hc ↦ ⟨h.1.after c hc, h.2.2 c hc⟩
  | unterminatedString => exact h.1
  | _ => trivial

/-- White space outside ASCII behind three dots makes them a name. -/
theorem Kind.Covers.name_of_dots (h : Kind.ellipsis.Covers before covered [])
    (hwide : wideSpaceFollows ending = true) : Kind.name.Covers before covered ending := by
  cases ending with
  | nil => cases hwide
  | cons c cs =>
    obtain ⟨hspace, hsize⟩ : isWhiteSpace c = true ∧ 0x80 ≤ c.toNat := by
      simpa [wideSpaceFollows] using hwide
    refine ⟨h.1.of_after fun d hd ↦ ?_, fun hdots ↦ ?_⟩
    · cases hd
      simp [isNameChar, hspace]
    · exact Nat.not_lt.mpr hsize (hdots.2 c rfl hspace)

theorem scan_append_eq_iff :
    scan (text ++ behind) = scan text ++ (scan behind).map (shift text.utf8ByteSize) ↔
      ∀ t ∈ (scan text).getLast?, t.kind.EndsBefore behind.toList := by
  constructor
  · intro heq t ht
    obtain ⟨front, hfront⟩ := List.getLast?_eq_some_iff.mp ht
    rw [hfront, List.append_assoc, List.singleton_append] at heq
    have hcovers := (isTiling_scan _).covers front t _ heq
    rw [joined_map_shift, (isTiling_scan behind).text_eq] at hcovers
    exact hcovers.endsBefore
  · intro hends
    exact (areTokens_followed hends).scan_append (isTiling_scan text).text_eq

theorem scan_append_of_wideSpace (h : scan text = front ++ [t]) (hkind : t.kind = .ellipsis)
    (hwide : wideSpaceFollows behind.toList = true) : scan (text ++ behind) =
      front ++ { t with kind := .name } :: (scan behind).map (shift text.utf8ByteSize) := by
  have hcovers := (isTiling_scan text).covers front t [] h
  have htext := (isTiling_scan text).text_eq
  rw [hkind] at hcovers
  rw [h, joined_append] at htext
  have htokens := areTokens_continued h (hcovers.name_of_dots hwide)
  rw [htokens.scan_append (by rw [joined_append, ← htext]; rfl), List.append_assoc]
  rfl

end Junction

/-- Two texts behind each other are scanned as they are alone, the second one further on, exactly
if what stands behind the first leaves its last token as it is. Three dots that end the first text
become a name if the second begins with white space outside ASCII; nothing else changes then. -/
theorem scan_append_iff (text behind : String) :
    (scan (text ++ behind) = scan text ++ (scan behind).map (shift text.utf8ByteSize) ↔
      ∀ t ∈ (scan text).getLast?, t.kind.EndsBefore behind.toList) ∧
    ∀ front t, scan text = front ++ [t] → t.kind = .ellipsis →
      wideSpaceFollows behind.toList = true → scan (text ++ behind) =
        front ++ { t with kind := .name } :: (scan behind).map (shift text.utf8ByteSize) :=
  ⟨scan_append_eq_iff, fun _ _ ↦ scan_append_of_wideSpace⟩

theorem scan_append_iff_wide_space :
    let text := "\"\\\"=\" ..."
    let behind := "\u2003\"z\";"
    let front : List Token := [⟨.string, "\"\\\"=\"", 0⟩, ⟨.whitespace, " ", 5⟩]
    let dots : Token := ⟨.ellipsis, "...", 6⟩
    scan text = front ++ [dots] ∧ dots.kind = .ellipsis ∧
      wideSpaceFollows behind.toList = true ∧ scan (text ++ behind) =
        front ++ { dots with kind := .name } :: (scan behind).map (shift text.utf8ByteSize) ∧
      scan behind = [⟨.whitespace, "\u2003", 0⟩, ⟨.string, "\"z\"", 3⟩, ⟨.semicolon, ";", 6⟩] := by
  intro text behind front dots
  have hscan : scan text = front ++ [dots] := by cbv
  have hwide : wideSpaceFollows behind.toList = true := by decide
  exact ⟨hscan, rfl, hwide, (scan_append_iff text behind).2 front dots hscan rfl hwide, by cbv⟩

section Quoted

theorem isContent_escape (content : List Char) : IsContent (content.flatMap Quoted.escapeChar) := by
  induction content with
  | nil => exact .nil
  | cons c cs ih =>
    rw [List.flatMap_cons, Quoted.escapeChar]
    split
    · exact .taken ih
    · next h =>
      rw [not_or] at h
      exact .char h.2 h.1 ih

/-- Quoted content is one token, whatever stands behind it. -/
theorem areTokens_encode (content : String) (ending : List Char) :
    AreTokens [] [⟨.string, Quoted.encode content, 0⟩] ending :=
  ⟨rfl, ⟨_, isContent_escape content.toList, Quoted.toList_encode content⟩, trivial⟩

end Quoted

end Token

open Token

/-- A written terminal is one string, and what stands behind it is scanned as it is alone. The
string stands for the content, so no two terminals are written alike. -/
theorem Expr.scan_render_terminal (content behind : String) :
    let text := (Expr.terminal content).render
    scan (text ++ behind) = ⟨.string, text, 0⟩ :: (scan behind).map (shift text.utf8ByteSize) ∧
      Quoted.decode text = content ∧
      ∀ other, (Expr.terminal other).render = text → other = content := by
  simp only [Expr.render]
  refine ⟨?_, Quoted.decode_encode content, fun other hother ↦ ?_⟩
  · exact (areTokens_encode content behind.toList).scan_append (by simp)
  · rw [← Quoted.decode_encode other, hother, Quoted.decode_encode]

end Ebnf
