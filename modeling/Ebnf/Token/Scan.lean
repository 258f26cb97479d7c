import Ebnf.Token.Basic
import Ebnf.Unicode.WhiteSpace

/-!
Splitting text into tokens, each as long as it can be. A token is never empty, and a token and
what follows it make up the text again, so the tokens of a text concatenate to it.
-/

set_option autoImplicit false
set_option relaxedAutoImplicit false

namespace Ebnf.Token

open Unicode

/-- The characters of names: neither white space nor a quote nor punctuation. -/
def isNameChar (c : Char) : Bool :=
  !isWhiteSpace c && c != '"' && (Kind.ofPunctuation? c).isNone

/-- Splits behind the quote that ends a string. A backslash takes the next character with it,
whatever that is. -/
def splitAtQuote? : List Char → Option (List Char × List Char)
  | [] => none
  | '"' :: cs => some (['"'], cs)
  | '\\' :: c :: cs => (splitAtQuote? cs).map fun (inside, rest) ↦ ('\\' :: c :: inside, rest)
  | c :: cs => (splitAtQuote? cs).map fun (inside, rest) ↦ (c :: inside, rest)

/-- Whether the text goes on with white space outside ASCII. -/
def wideSpaceFollows : List Char → Bool
  | [] => false
  | c :: _ => isWhiteSpace c && 0x80 ≤ c.toNat

/-- The kind of a run of name characters. Three dots are a token of their own, but not directly
in front of white space outside ASCII. -/
def runKind (run rest : List Char) : Kind :=
  if run = ['.', '.', '.'] && !wideSpaceFollows rest then .ellipsis else .name

/-- The first token of a text, and the text behind it. -/
structure Lexeme where
  kind : Kind
  text : List Char
  rest : List Char
deriving DecidableEq

/-- The first token of a text that begins with `c`. -/
def Lexeme.first (c : Char) (cs : List Char) : Lexeme :=
  if isWhiteSpace c then
    ⟨.whitespace, c :: cs.takeWhile isWhiteSpace, cs.dropWhile isWhiteSpace⟩
  else if c = '"' then
    match splitAtQuote? cs with
    | some (inside, rest) => ⟨.string, c :: inside, rest⟩
    | none => ⟨.unterminatedString, c :: cs, []⟩
  else
    match Kind.ofPunctuation? c with
    | some kind => ⟨kind, [c], cs⟩
    | none =>
      let run := c :: cs.takeWhile isNameChar
      let rest := cs.dropWhile isNameChar
      ⟨runKind run rest, run, rest⟩

theorem append_of_splitAtQuote? {cs inside rest : List Char}
    (h : splitAtQuote? cs = some (inside, rest)) : inside ++ rest = cs := by
  fun_induction splitAtQuote? cs generalizing inside rest with
  | case1 => simp at h
  | case2 cs =>
    simp only [Option.some.injEq, Prod.mk.injEq] at h
    rw [← h.1, ← h.2, List.singleton_append]
  | case3 c cs ih =>
    obtain ⟨⟨i, r⟩, hs, he⟩ := Option.map_eq_some_iff.mp h
    simp only [Prod.mk.injEq] at he
    rw [← he.1, ← he.2, List.cons_append, List.cons_append, ih hs]
  | case4 c cs _ _ ih =>
    obtain ⟨⟨i, r⟩, hs, he⟩ := Option.map_eq_some_iff.mp h
    simp only [Prod.mk.injEq] at he
    rw [← he.1, ← he.2, List.cons_append, ih hs]

namespace Lexeme

theorem text_append_rest (c : Char) (cs : List Char) :
    (first c cs).text ++ (first c cs).rest = c :: cs := by
  unfold first
  split
  · simp
  split
  · split
    · next h => simp [append_of_splitAtQuote? h]
    · simp
  · split <;> simp

theorem text_ne_nil (c : Char) (cs : List Char) : (first c cs).text ≠ [] := by
  unfold first
  split
  · simp
  split
  · split <;> simp
  · split <;> simp

theorem length_rest_lt (c : Char) (cs : List Char) :
    (first c cs).rest.length < (c :: cs).length := by
  have hl := congrArg List.length (text_append_rest c cs)
  have hp := List.length_pos_iff.mpr (text_ne_nil c cs)
  rw [List.length_append] at hl
  omega

end Lexeme

/-- The tokens of a text whose first character stands at byte `offset`. -/
def scanFrom (offset : Nat) : List Char → List Token
  | [] => []
  | c :: cs =>
    let lexeme := Lexeme.first c cs
    let token : Token := ⟨lexeme.kind, String.ofList lexeme.text, offset⟩
    token :: scanFrom token.stop lexeme.rest
termination_by cs => cs.length
decreasing_by exact Lexeme.length_rest_lt c cs

/-- The tokens of a text, white space included. -/
def scan (text : String) : List Token :=
  scanFrom 0 text.toList

/-- The tokens that reading looks at. -/
def significant (text : String) : List Token :=
  (scan text).filter fun token ↦ !token.isTrivia

theorem significant_eq_filter (text : String) :
    significant text = (scan text).filter fun t ↦ t.kind ≠ .whitespace := by
  refine List.filter_congr fun t _ ↦ ?_
  simp [← isTrivia_eq_true_iff]

end Ebnf.Token
