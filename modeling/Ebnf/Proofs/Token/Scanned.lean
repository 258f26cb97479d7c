import Ebnf.Expr.Readable
import Ebnf.Proofs.Token.Lexemes

/-!
What scanning makes of names and strings. A name is a run of name characters. A string is content
between two quotes, and content of one character is neither a quote nor a backslash, which would
need another character with it. Reading relies on no more than this.
-/

set_option autoImplicit false
set_option relaxedAutoImplicit false

namespace Ebnf

/-- One or more name characters and nothing else. -/
def IsRun (name : String) : Prop :=
  name.toList ≠ [] ∧ ∀ c ∈ name.toList, Token.isNameChar c = true

theorem isReadableName_iff {name : String} :
    isReadableName name = true ↔ IsRun name ∧ name ≠ "..." := by
  simp [isReadableName, IsRun]

namespace Token

/-- The token is as scanning makes tokens of its kind. -/
structure IsScanned (t : Token) : Prop where
  isRun : t.kind = .name → IsRun t.text
  content : t.kind = .string → ∃ cs, IsContent cs ∧ Quoted.Encloses t.text cs

variable {t u : Token} {c : Char} {cs : List Char}

theorem IsScanned.congr (h : t.IsScanned) (hkind : u.kind = t.kind) (htext : u.text = t.text) :
    u.IsScanned := by
  refine ⟨fun hname ↦ ?_, fun hstring ↦ ?_⟩
  · rw [htext]
    exact h.isRun (hkind.symm.trans hname)
  · rw [htext]
    exact h.content (hkind.symm.trans hstring)

/-- What reading takes to stand between the quotes of a string stands there. -/
theorem IsScanned.encloses_of_body (h : t.IsScanned) (hstring : t.kind = .string)
    (hbody : Quoted.body t.text = cs) : Quoted.Encloses t.text cs := by
  obtain ⟨inside, -, hinside⟩ := h.content hstring
  rw [← hbody, hinside.body_eq]
  exact hinside

/-- What stands alone between two quotes is neither a quote nor a backslash. -/
theorem IsScanned.boundary (h : t.IsScanned) (hstring : t.kind = .string)
    (hc : Quoted.Encloses t.text [c]) : c ≠ '"' ∧ c ≠ '\\' := by
  obtain ⟨cs, hcontent, hcs⟩ := h.content hstring
  obtain rfl : cs = [c] := hcs.body_eq.symm.trans hc.body_eq
  cases hcontent with
  | char hquote hbackslash _ => exact ⟨hquote, hbackslash⟩

theorem isScanned_first (c : Char) (cs : List Char) (offset : Nat) : IsScanned
    ⟨(Lexeme.first c cs).kind, String.ofList (Lexeme.first c cs).text, offset⟩ := by
  have hcovers := covers_first (isCut_nil (c :: cs))
  generalize Lexeme.first c cs = lexeme at hcovers
  obtain ⟨kind, text, rest⟩ := lexeme
  constructor
  · rintro rfl
    rw [IsRun, String.toList_ofList]
    exact ⟨hcovers.1.ne_nil, hcovers.1.inside⟩
  · rintro rfl
    obtain ⟨inside, hcontent, htext⟩ := hcovers
    exact ⟨inside, hcontent, String.toList_ofList.trans htext⟩

theorem isScanned_of_mem_scanFrom {offset : Nat} (h : t ∈ scanFrom offset cs) : t.IsScanned := by
  fun_induction scanFrom offset cs with
  | case1 => cases h
  | case2 offset c cs lexeme token ih =>
    rcases List.mem_cons.mp h with rfl | hrest
    · exact isScanned_first c cs offset
    · exact ih hrest

theorem isScanned_significant (text : String) : ∀ t ∈ significant text, t.IsScanned :=
  fun _ ht ↦ isScanned_of_mem_scanFrom ((List.mem_filter.mp ht).1)

end Token

end Ebnf
