import Ebnf.Quoted
import Ebnf.Token.Scan

/-!
Scanning a text piece by piece. Each kind of piece has an equation that takes its token off the
front of the text, whatever follows; only a run of name characters needs something to follow it
that is none. `StaysInside` is what the same pieces do inside a string, where all that counts is
that they neither end it nor take the beginning of the text behind them with them.
-/

set_option autoImplicit false
set_option relaxedAutoImplicit false

namespace Ebnf.Token

open Unicode

def byteLength (cs : List Char) : Nat :=
  (String.ofList cs).utf8ByteSize

@[simp] theorem byteLength_nil : byteLength [] = 0 := rfl

@[simp] theorem byteLength_append (cs ds : List Char) :
    byteLength (cs ++ ds) = byteLength cs + byteLength ds := by
  rw [byteLength, String.ofList_append, String.utf8ByteSize_append]
  rfl

@[simp] theorem byteLength_cons (c : Char) (cs : List Char) :
    byteLength (c :: cs) = c.utf8Size + byteLength cs := by
  rw [← List.singleton_append, byteLength_append, byteLength, ← String.singleton_eq_ofList,
    String.utf8ByteSize_singleton]

theorem byteLength_toList (text : String) : byteLength text.toList = text.utf8ByteSize := by
  rw [byteLength, String.ofList_toList]

/-- The tokens that reading looks at, of a text whose first character stands at byte `offset`. -/
def significantFrom (offset : Nat) (cs : List Char) : List Token :=
  (scanFrom offset cs).filter fun token ↦ !token.isTrivia

@[simp] theorem significantFrom_nil (offset : Nat) : significantFrom offset [] = [] := by
  simp [significantFrom, scanFrom]

theorem significantFrom_cons (offset : Nat) (c : Char) (cs : List Char) :
    significantFrom offset (c :: cs) =
      ([⟨(Lexeme.first c cs).kind, String.ofList (Lexeme.first c cs).text, offset⟩].filter
        fun token ↦ !token.isTrivia) ++ significantFrom
          (offset + byteLength (Lexeme.first c cs).text) (Lexeme.first c cs).rest := by
  rw [significantFrom, scanFrom, ← List.singleton_append, List.filter_append]
  rfl

variable {offset : Nat} {c : Char} {cs rest : List Char}

/-- White space is passed over one character at a time. -/
theorem significantFrom_whiteSpace (h : isWhiteSpace c = true) :
    significantFrom offset (c :: cs) = significantFrom (offset + c.utf8Size) cs := by
  have hfirst (d : Char) (ds : List Char) (hd : isWhiteSpace d = true) : Lexeme.first d ds =
      ⟨.whitespace, d :: ds.takeWhile isWhiteSpace, ds.dropWhile isWhiteSpace⟩ := if_pos hd
  rw [significantFrom_cons, hfirst c cs h]
  cases cs with
  | nil => simp [isTrivia, Kind.isTrivia]
  | cons d ds =>
    by_cases hd : isWhiteSpace d = true
    · rw [significantFrom_cons _ d, hfirst d ds hd, List.takeWhile_cons_of_pos hd,
        List.dropWhile_cons_of_pos hd]
      simp [isTrivia, Kind.isTrivia, Nat.add_assoc]
    · rw [List.takeWhile_cons_of_neg hd, List.dropWhile_cons_of_neg hd]
      simp [isTrivia, Kind.isTrivia]

/-- Punctuation begins neither white space nor a string, and reading does not pass over it. -/
theorem plain_of_ofPunctuation? {kind : Kind} (h : Kind.ofPunctuation? c = some kind) :
    isWhiteSpace c = false ∧ c ≠ '"' ∧ kind.isTrivia = false := by
  unfold Kind.ofPunctuation? at h
  split at h <;> cases h <;> decide

theorem significantFrom_punctuation {kind : Kind} (h : Kind.ofPunctuation? c = some kind) :
    significantFrom offset (c :: cs) =
      ⟨kind, String.ofList [c], offset⟩ :: significantFrom (offset + c.utf8Size) cs := by
  obtain ⟨hspace, hquote, hkind⟩ := plain_of_ofPunctuation? h
  have hfirst : Lexeme.first c cs = ⟨kind, [c], cs⟩ := by
    simp [Lexeme.first, hspace, hquote, h]
  rw [significantFrom_cons, hfirst]
  simp [isTrivia, hkind]

theorem significantFrom_string {inside : List Char} (h : splitAtQuote? cs = some (inside, rest)) :
    significantFrom offset ('"' :: cs) = ⟨.string, String.ofList ('"' :: inside), offset⟩ ::
      significantFrom (offset + byteLength ('"' :: inside)) rest := by
  have hspace : isWhiteSpace '"' = false := by decide
  have hfirst : Lexeme.first '"' cs = ⟨.string, '"' :: inside, rest⟩ := by
    simp [Lexeme.first, hspace, h]
  rw [significantFrom_cons, hfirst]
  simp [isTrivia, Kind.isTrivia]

theorem significantFrom_unterminated (h : splitAtQuote? cs = none) :
    significantFrom offset ('"' :: cs) =
      [⟨.unterminatedString, String.ofList ('"' :: cs), offset⟩] := by
  have hspace : isWhiteSpace '"' = false := by decide
  have hfirst : Lexeme.first '"' cs = ⟨.unterminatedString, '"' :: cs, []⟩ := by
    simp [Lexeme.first, hspace, h]
  rw [significantFrom_cons, hfirst]
  simp [isTrivia, Kind.isTrivia]

/-- The text behind a piece does not go on with a name or with a string. -/
def Delimited (rest : List Char) : Prop :=
  ∀ c ∈ rest.head?, isNameChar c = false ∧ c ≠ '"'

theorem delimited_nil : Delimited [] := by
  simp [Delimited]

theorem delimited_cons (h : isNameChar c = false ∧ c ≠ '"') : Delimited (c :: rest) := by
  simpa [Delimited] using h

theorem isTrivia_runKind (run rest : List Char) : (runKind run rest).isTrivia = false := by
  unfold runKind
  split <;> rfl

theorem significantFrom_run {run : List Char} (hne : run ≠ [])
    (hrun : ∀ d ∈ run, isNameChar d = true) (hrest : ∀ d ∈ rest.head?, isNameChar d = false) :
    significantFrom offset (run ++ rest) = ⟨runKind run rest, String.ofList run, offset⟩ ::
      significantFrom (offset + byteLength run) rest := by
  obtain ⟨d, ds, rfl⟩ := List.exists_cons_of_ne_nil hne
  have hd : isNameChar d = true := hrun d List.mem_cons_self
  have htake : (ds ++ rest).takeWhile isNameChar = ds := by
    rw [List.takeWhile_append_of_pos fun x hx ↦ hrun x (List.mem_cons_of_mem d hx)]
    cases rest with
    | nil => simp
    | cons x xs => simp [hrest x rfl]
  have hdrop : (ds ++ rest).dropWhile isNameChar = rest := by
    rw [List.dropWhile_append_of_pos fun x hx ↦ hrun x (List.mem_cons_of_mem d hx)]
    cases rest with
    | nil => rfl
    | cons x xs => simp [hrest x rfl]
  simp only [isNameChar, Bool.and_eq_true, Bool.not_eq_true', bne_iff_ne,
    Option.isNone_iff_eq_none] at hd
  have hfirst : Lexeme.first d (ds ++ rest) = ⟨runKind (d :: ds) rest, d :: ds, rest⟩ := by
    simp [Lexeme.first, hd, htake, hdrop]
  rw [List.cons_append, significantFrom_cons, hfirst]
  simp [isTrivia, isTrivia_runKind]

/-- Inside a string, the text in front of `rest` neither ends the string nor takes the beginning
of `rest` with it. -/
def StaysInside (cs rest : List Char) : Prop :=
  splitAtQuote? (cs ++ rest) = (splitAtQuote? rest).map fun (inside, rest) ↦ (cs ++ inside, rest)

theorem staysInside_nil : StaysInside [] rest := by
  simp [StaysInside]

theorem StaysInside.append {ds : List Char} (hfirst : StaysInside cs (ds ++ rest))
    (hlast : StaysInside ds rest) : StaysInside (cs ++ ds) rest := by
  unfold StaysInside at *
  rw [List.append_assoc, hfirst, hlast, Option.map_map]
  simp [Function.comp_def]

/-- A backslash takes the next character with it. -/
theorem staysInside_backslash : StaysInside ['\\', c] rest := rfl

theorem staysInside_char (hquote : c ≠ '"') (hbackslash : c ≠ '\\') : StaysInside [c] rest := by
  unfold StaysInside
  rw [List.singleton_append, splitAtQuote?]
  · rfl
  · exact hquote
  · intro d ds h
    exact absurd h hbackslash

/-- The text has no characters that strings care about. -/
def IsPlain (cs : List Char) : Prop :=
  ∀ c ∈ cs, c ≠ '"' ∧ c ≠ '\\'

instance (cs : List Char) : Decidable (IsPlain cs) :=
  List.decidableBAll _ cs

theorem staysInside_of_plain (h : IsPlain cs) : StaysInside cs rest := by
  induction cs with
  | nil => exact staysInside_nil
  | cons d ds ih =>
    obtain ⟨hd, hds⟩ := List.forall_mem_cons.mp h
    exact StaysInside.append (staysInside_char hd.1 hd.2) (ih hds)

theorem staysInside_escape (content : List Char) :
    StaysInside (content.flatMap Quoted.escapeChar) rest := by
  induction content with
  | nil => exact staysInside_nil
  | cons d ds ih =>
    rw [List.flatMap_cons]
    refine StaysInside.append ?_ ih
    unfold Quoted.escapeChar
    split
    · exact staysInside_backslash
    · next h =>
      rw [not_or] at h
      exact staysInside_char h.2 h.1

/-- A backslash at the end of a name takes a delimiter with it, which is no quote. -/
theorem staysInside_last_backslash (hrest : Delimited rest) : StaysInside ['\\'] rest := by
  cases rest with
  | nil => rfl
  | cons d ds =>
    obtain ⟨hname, hquote⟩ := hrest d rfl
    have hbackslash : d ≠ '\\' := fun h ↦ by rw [h] at hname; exact absurd hname (by decide)
    have hsingle : splitAtQuote? (d :: ds) = _ := staysInside_char hquote hbackslash
    unfold StaysInside
    rw [hsingle, Option.map_map]
    rfl

/-- A text without quotes ends no string, and if its last character is a backslash it takes
nothing but a delimiter with it. -/
theorem staysInside_of_not_mem (hquote : '"' ∉ cs) (hrest : Delimited rest) :
    StaysInside cs rest := by
  fun_induction splitAtQuote? cs with
  | case1 => exact staysInside_nil
  | case2 cs => exact absurd List.mem_cons_self hquote
  | case3 c cs ih =>
    have htail : '"' ∉ cs := fun h ↦ hquote (List.mem_cons_of_mem _ (List.mem_cons_of_mem _ h))
    exact StaysInside.append staysInside_backslash (ih htail)
  | case4 c cs hc hpair ih =>
    have htail : '"' ∉ cs := fun h ↦ hquote (List.mem_cons_of_mem _ h)
    by_cases hb : c = '\\'
    · subst hb
      cases cs with
      | cons d ds => exact absurd rfl (hpair d ds rfl)
      | nil => exact staysInside_last_backslash hrest
    · exact StaysInside.append (staysInside_char hc hb) (ih htail)

theorem splitAtQuote?_of_staysInside (h : StaysInside cs ('"' :: rest)) :
    splitAtQuote? (cs ++ '"' :: rest) = some (cs ++ ['"'], rest) :=
  h

end Ebnf.Token
