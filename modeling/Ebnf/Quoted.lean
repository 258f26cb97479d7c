/-!
Text in double quotes. A quote or a backslash of the content is written with a backslash in
front of it, all else as it is. Reading undoes these two spellings and leaves every other
backslash alone, so `decode` undoes `encode` but not the other way round. What a quoted text
stands for is said a second time by the relation `Denotes`, spelling by spelling, and `decode` is
what the relation says wherever there are quotes.
-/

set_option autoImplicit false
set_option relaxedAutoImplicit false

namespace Ebnf.Quoted

def escapeChar (c : Char) : List Char :=
  if c = '\\' ∨ c = '"' then ['\\', c] else [c]

/-- The content as it stands between the quotes. -/
def escape (text : String) : String :=
  String.ofList (text.toList.flatMap escapeChar)

/-- The content in its quotes. -/
def encode (text : String) : String :=
  "\"" ++ escape text ++ "\""

def unescape : List Char → List Char
  | [] => []
  | '\\' :: '\\' :: cs => '\\' :: unescape cs
  | '\\' :: '"' :: cs => '"' :: unescape cs
  | c :: cs => c :: unescape cs

/-- What stands between the first and the last character of a quoted text. -/
def body (text : String) : List Char :=
  text.toList.tail.dropLast

/-- The content that a quoted text stands for. -/
def decode (text : String) : String :=
  String.ofList (unescape (body text))

/-- The text is the characters in quotes. -/
def Encloses (text : String) (cs : List Char) : Prop :=
  text.toList = '"' :: (cs ++ ['"'])

/-- The characters are a spelling of the content. A backslash that stands in front of a quote or
of another backslash only says that this one belongs to the content; any other character stands
for itself. -/
inductive Spells : List Char → List Char → Prop
  | nil : Spells [] []
  | escaped {c : Char} {cs content : List Char} :
    c = '\\' ∨ c = '"' → Spells cs content → Spells ('\\' :: c :: cs) (c :: content)
  | plain {c : Char} {cs content : List Char} :
    (c = '\\' → ∀ d ∈ cs.head?, d ≠ '\\' ∧ d ≠ '"') → Spells cs content →
      Spells (c :: cs) (c :: content)

/-- The text is a spelling of the content in quotes. -/
def Denotes (text content : String) : Prop :=
  ∃ cs, Encloses text cs ∧ Spells cs content.toList

@[simp] theorem toList_escape (text : String) :
    (escape text).toList = text.toList.flatMap escapeChar := by
  simp [escape]

@[simp] theorem toList_encode (text : String) :
    (encode text).toList = '"' :: (text.toList.flatMap escapeChar ++ ['"']) := by
  simp [encode]

@[simp] theorem body_encode (text : String) :
    body (encode text) = text.toList.flatMap escapeChar := by
  simp [body]

theorem unescape_escapeChar_append (c : Char) (cs : List Char) :
    unescape (escapeChar c ++ cs) = c :: unescape cs := by
  by_cases hb : c = '\\'
  · subst hb; rfl
  by_cases hq : c = '"'
  · subst hq; rfl
  simp only [escapeChar, hb, hq, or_self, if_false, List.cons_append, List.nil_append]
  rw [unescape]
  · intro _ h; exact absurd h hb
  · intro _ h; exact absurd h hb

theorem unescape_flatMap_escapeChar (cs : List Char) :
    unescape (cs.flatMap escapeChar) = cs := by
  induction cs with
  | nil => rfl
  | cons c cs ih => rw [List.flatMap_cons, unescape_escapeChar_append, ih]

theorem decode_encode (text : String) : decode (encode text) = text := by
  simp [decode, unescape_flatMap_escapeChar]

section Denotes

variable {cs content : List Char} {text : String}

theorem Encloses.body_eq (h : Encloses text cs) : body text = cs := by
  rw [body, h, List.tail_cons, List.dropLast_concat]

theorem encloses_encode (text : String) :
    Encloses (encode text) (text.toList.flatMap escapeChar) :=
  toList_encode text

theorem spells_unescape (cs : List Char) : Spells cs (unescape cs) := by
  fun_induction unescape cs with
  | case1 => exact .nil
  | case2 cs ih => exact .escaped (.inl rfl) ih
  | case3 cs ih => exact .escaped (.inr rfl) ih
  | case4 c cs hbackslash hquote ih =>
    refine .plain (fun hc d hd ↦ ?_) ih
    obtain ⟨ds, rfl⟩ := List.head?_eq_some_iff.mp hd
    exact ⟨fun h ↦ hbackslash ds hc (by rw [h]), fun h ↦ hquote ds hc (by rw [h])⟩

/-- No characters are a spelling of two contents. -/
theorem Spells.unescape_eq (h : Spells cs content) : unescape cs = content := by
  induction h with
  | nil => rfl
  | escaped hc _ ih => rcases hc with rfl | rfl <;> rw [unescape, ih]
  | plain hc _ ih =>
    rw [unescape, ih]
    · rintro ds rfl rfl
      exact (hc rfl _ rfl).1 rfl
    · rintro ds rfl rfl
      exact (hc rfl _ rfl).2 rfl

/-- What a text in quotes denotes is what it is decoded to. -/
theorem Encloses.denotes_iff (h : Encloses text cs) {content : String} :
    Denotes text content ↔ decode text = content := by
  have hdecode : decode text = String.ofList (unescape cs) := by rw [decode, h.body_eq]
  rw [hdecode]
  constructor
  · rintro ⟨ds, hds, hspells⟩
    obtain rfl : cs = ds := h.body_eq.symm.trans hds.body_eq
    rw [hspells.unescape_eq, String.ofList_toList]
  · rintro rfl
    refine ⟨cs, h, ?_⟩
    rw [String.toList_ofList]
    exact spells_unescape cs

theorem Denotes.decode_eq {content : String} (h : Denotes text content) :
    decode text = content := by
  obtain ⟨cs, hcs, hspells⟩ := h
  exact hcs.denotes_iff.mp ⟨cs, hcs, hspells⟩

theorem denotes_encode (text : String) : Denotes (encode text) text :=
  (encloses_encode text).denotes_iff.mpr (decode_encode text)

end Denotes

end Ebnf.Quoted
