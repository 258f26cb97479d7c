import Ebnf.Proofs.Written.Scan

/-!
Texts behind each other. A token takes in no more text than it does alone if something of its own
text is left behind it, or if it is of a kind that ends by itself; so a text whose last token ends
by itself is scanned as if it were all there is, and so is the text behind it, further on.
-/

set_option autoImplicit false
set_option relaxedAutoImplicit false

namespace Ebnf.Token

open Unicode

/-- The same token, `n` bytes further on. -/
def shift (n : Nat) (t : Token) : Token :=
  { t with offset := n + t.offset }

theorem stop_shift (n : Nat) (t : Token) : (t.shift n).stop = n + t.stop :=
  Nat.add_assoc _ _ _

/-- Tokens of this kind end where they do whatever follows. -/
def Kind.endsItself : Kind → Bool
  | .whitespace | .name | .unterminatedString | .ellipsis => false
  | .string | .equals | .semicolon | .pipe | .comma | .opening _ | .closing _ | .invalid => true

section Lexemes

variable {c : Char} {cs inside rest : List Char}

theorem splitAtQuote?_append (h : splitAtQuote? cs = some (inside, rest)) (ds : List Char) :
    splitAtQuote? (cs ++ ds) = some (inside, rest ++ ds) := by
  fun_induction splitAtQuote? cs generalizing inside rest with
  | case1 => cases h
  | case2 cs =>
    cases h
    rfl
  | case3 c cs ih =>
    obtain ⟨⟨inside, rest⟩, hsplit, heq⟩ := Option.map_eq_some_iff.mp h
    cases heq
    rw [List.cons_append, List.cons_append, splitAtQuote?, ih hsplit]
    rfl
  | case4 c cs hquote hpair ih =>
    obtain ⟨⟨inside, rest⟩, hsplit, heq⟩ := Option.map_eq_some_iff.mp h
    cases heq
    rw [List.cons_append, splitAtQuote?, ih hsplit]
    · rfl
    · exact hquote
    · -- A backslash in front of `ds` would have ended the text without a quote.
      rintro d es rfl hcs
      cases cs with
      | nil => cases hsplit
      | cons e es => exact hpair e es rfl rfl

theorem wideSpaceFollows_append (h : rest ≠ []) (ds : List Char) :
    wideSpaceFollows (rest ++ ds) = wideSpaceFollows rest := by
  cases rest with
  | nil => exact absurd rfl h
  | cons d rest => rfl

theorem endsItself_runKind (run rest : List Char) : (runKind run rest).endsItself = false := by
  unfold runKind
  split <;> rfl

theorem takeWhile_append_of_rest {p : Char → Bool} (h : cs.dropWhile p ≠ []) (ds : List Char) :
    (cs ++ ds).takeWhile p = cs.takeWhile p := by
  rw [List.takeWhile_append, if_neg]
  intro hlength
  have hsum := congrArg List.length (List.takeWhile_append_dropWhile (p := p) (l := cs))
  rw [List.length_append, hlength] at hsum
  exact h (List.length_eq_zero_iff.mp (Nat.add_eq_left.mp hsum))

theorem dropWhile_append_of_rest {p : Char → Bool} (h : cs.dropWhile p ≠ []) (ds : List Char) :
    (cs ++ ds).dropWhile p = cs.dropWhile p ++ ds := by
  rw [List.dropWhile_append, if_neg (by simpa using h)]

/-- The first token does not change if it has its end in the text. -/
theorem Lexeme.first_append
    (h : (first c cs).rest ≠ [] ∨ (first c cs).kind.endsItself = true) (ds : List Char) :
    first c (cs ++ ds) = ⟨(first c cs).kind, (first c cs).text, (first c cs).rest ++ ds⟩ := by
  by_cases hspace : isWhiteSpace c = true
  · simp only [first, if_pos hspace] at h ⊢
    have hrest : cs.dropWhile isWhiteSpace ≠ [] := by simpa [Kind.endsItself] using h
    rw [takeWhile_append_of_rest hrest, dropWhile_append_of_rest hrest]
  by_cases hquote : c = '"'
  · simp only [first, if_neg hspace, if_pos hquote] at h ⊢
    cases hsplit : splitAtQuote? cs with
    | none => simp [hsplit, Kind.endsItself] at h
    | some split => rw [splitAtQuote?_append hsplit]
  · simp only [first, if_neg hspace, if_neg hquote] at h ⊢
    cases hkind : Kind.ofPunctuation? c with
    | some kind => rfl
    | none =>
      have hrest : cs.dropWhile isNameChar ≠ [] := by
        simpa [hkind, endsItself_runKind] using h
      dsimp only
      rw [takeWhile_append_of_rest hrest, dropWhile_append_of_rest hrest, runKind, runKind,
        wideSpaceFollows_append hrest]

theorem Lexeme.isTrivia_first (h : isWhiteSpace c = false) :
    (first c cs).kind.isTrivia = false := by
  unfold first
  rw [if_neg (by simp [h])]
  split
  · split <;> rfl
  · split
    · next kind hkind => exact (plain_of_ofPunctuation? hkind).2.2
    · exact isTrivia_runKind _ _

end Lexemes

theorem scanFrom_shift (n offset : Nat) (cs : List Char) :
    scanFrom (n + offset) cs = (scanFrom offset cs).map (shift n) := by
  fun_induction scanFrom offset cs with
  | case1 => simp [scanFrom]
  | case2 offset c cs lexeme token ih =>
    rw [scanFrom, List.map_cons, ← ih, ← stop_shift]
    rfl

/-- A text further on has its tokens further on. -/
theorem significantFrom_shift (n offset : Nat) (cs : List Char) :
    significantFrom (n + offset) cs = (significantFrom offset cs).map (shift n) := by
  rw [significantFrom, scanFrom_shift, List.filter_map]
  rfl

/-- The last token of the text, if it has any, ends by itself. -/
def EndsItself (ts : List Token) : Prop :=
  ∀ t ∈ ts.getLast?, t.kind.endsItself = true

theorem EndsItself.of_cons {t : Token} {ts : List Token} (h : EndsItself (t :: ts)) :
    EndsItself ts := by
  intro u hu
  exact h u (by rw [List.getLast?_cons, hu]; rfl)

theorem significantFrom_first {c : Char} (h : isWhiteSpace c = false) (offset : Nat)
    (cs : List Char) : significantFrom offset (c :: cs) =
      ⟨(Lexeme.first c cs).kind, String.ofList (Lexeme.first c cs).text, offset⟩ ::
        significantFrom (offset + byteLength (Lexeme.first c cs).text)
          (Lexeme.first c cs).rest := by
  rw [significantFrom_cons]
  simp [isTrivia, Lexeme.isTrivia_first h]

/-- If the last token of a text ends by itself, the text is scanned as it is alone. White space
at its end may go on in the text behind it. -/
theorem significantFrom_append {offset : Nat} {cs : List Char}
    (h : EndsItself (significantFrom offset cs)) (ds : List Char) :
    significantFrom offset (cs ++ ds) =
      significantFrom offset cs ++ significantFrom (offset + byteLength cs) ds := by
  -- On the length: white space goes off one character at a time, other tokens as a whole.
  induction hlength : cs.length using Nat.strongRecOn generalizing cs offset with
  | ind n ih =>
    cases cs with
    | nil => simp
    | cons c cs =>
      by_cases hspace : isWhiteSpace c = true
      · rw [significantFrom_whiteSpace hspace] at h
        rw [List.cons_append, significantFrom_whiteSpace hspace, significantFrom_whiteSpace hspace,
          ih cs.length (by simp [← hlength]) h rfl, byteLength_cons, Nat.add_assoc]
      · rw [Bool.not_eq_true] at hspace
        have hrest := Lexeme.length_rest_lt c cs
        have hbytes := congrArg byteLength (Lexeme.text_append_rest c cs)
        rw [hlength] at hrest
        rw [byteLength_append] at hbytes
        rw [significantFrom_first hspace] at h
        have hend : (Lexeme.first c cs).rest ≠ [] ∨
            (Lexeme.first c cs).kind.endsItself = true := by
          by_cases hnil : (Lexeme.first c cs).rest = []
          · rw [hnil, significantFrom_nil] at h
            exact .inr (h _ rfl)
          · exact .inl hnil
        rw [List.cons_append, significantFrom_first hspace, significantFrom_first hspace,
          Lexeme.first_append hend, ih _ hrest h.of_cons rfl, List.cons_append, Nat.add_assoc,
          hbytes]

end Ebnf.Token
