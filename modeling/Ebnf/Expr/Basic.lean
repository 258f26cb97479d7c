import Ebnf.CharRange

/-!
Right-hand sides of grammar rules. A sequence has at least two items because its constructor
takes two; a choice may have any number of alternatives, none included, and stands as written:
no constructor flattens or simplifies what it is given. Equality is structural and decidable.
-/

set_option autoImplicit false
set_option relaxedAutoImplicit false

namespace Ebnf

inductive Expr where
  | symbol (name : String)
  | terminal (text : String)
  | range (chars : CharRange)
  | seq (first second : Expr) (rest : List Expr)
  | choice (alternatives : List Expr)
  | optional (body : Expr)
  | star (body : Expr)
  | plus (body : Expr)

namespace Expr

instance : Inhabited Expr := ⟨.choice []⟩

/-- The terminal that matches nothing but the empty string. -/
def epsilon : Expr :=
  .terminal ""

/-- The terminal of one character. -/
def char (c : Char) : Expr :=
  .terminal (String.singleton c)

/-- The choice between fixed strings, in the order given. -/
def oneOf (texts : List String) : Expr :=
  .choice (texts.map .terminal)

/-- The sequence of two expressions; neither side is taken apart. -/
def andThen (left right : Expr) : Expr :=
  .seq left right []

/-- The expressions one after another, a single one standing for itself. -/
def inOrder (first : Expr) : List Expr → Expr
  | [] => first
  | second :: rest => .seq first second rest

/-- The sequence of the given items, if there are two of them. -/
def seq? : List Expr → Option Expr
  | first :: second :: rest => some (.seq first second rest)
  | _ => none

/-- The alternatives of a choice; anything else is its own only alternative. -/
def alternatives : Expr → List Expr
  | .choice es => es
  | e => [e]

/-- The alternatives, of a choice only. -/
def choices? : Expr → Option (List Expr)
  | .choice es => some es
  | _ => none

/-- The items of a sequence. -/
def items? : Expr → Option (List Expr)
  | .seq first second rest => some (first :: second :: rest)
  | _ => none

/-- What an optional or repeated group encloses. -/
def body? : Expr → Option Expr
  | .optional e | .star e | .plus e => some e
  | _ => none

def symbol? : Expr → Option String
  | .symbol name => some name
  | _ => none

def terminal? : Expr → Option String
  | .terminal text => some text
  | _ => none

mutual

/-- Structural equality, as a test. -/
def same : Expr → Expr → Bool
  | .symbol a, .symbol b => a == b
  | .terminal a, .terminal b => a == b
  | .range a, .range b => decide (a = b)
  | .seq a b es, .seq c d fs => a.same c && b.same d && sameAll es fs
  | .choice es, .choice fs => sameAll es fs
  | .optional a, .optional b => a.same b
  | .star a, .star b => a.same b
  | .plus a, .plus b => a.same b
  | _, _ => false

/-- Structural equality of lists, as a test. -/
def sameAll : List Expr → List Expr → Bool
  | [], [] => true
  | e :: es, f :: fs => e.same f && sameAll es fs
  | _, _ => false

end

mutual

theorem same_self : (e : Expr) → e.same e = true
  | .symbol _ | .terminal _ | .range _ => by simp [same]
  | .seq a b es => by simp [same, same_self a, same_self b, sameAll_self es]
  | .choice es => by simp [same, sameAll_self es]
  | .optional a | .star a | .plus a => by simp [same, same_self a]

theorem sameAll_self : (es : List Expr) → sameAll es es = true
  | [] => rfl
  | e :: es => by simp [sameAll, same_self e, sameAll_self es]

end

mutual

theorem eq_of_same : (e f : Expr) → e.same f = true → e = f
  | .symbol a, f, h => by cases f <;> simp_all [same]
  | .terminal a, f, h => by cases f <;> simp_all [same]
  | .range a, f, h => by cases f <;> simp_all [same]
  | .seq a b es, f, h => by
    cases f with
    | seq c d fs =>
      simp only [same, Bool.and_eq_true] at h
      rw [eq_of_same a c h.1.1, eq_of_same b d h.1.2, eq_of_sameAll es fs h.2]
    | _ => simp [same] at h
  | .choice es, f, h => by
    cases f with
    | choice fs => rw [eq_of_sameAll es fs h]
    | _ => simp [same] at h
  | .optional a, f, h => by
    cases f with
    | optional b => rw [eq_of_same a b h]
    | _ => simp [same] at h
  | .star a, f, h => by
    cases f with
    | star b => rw [eq_of_same a b h]
    | _ => simp [same] at h
  | .plus a, f, h => by
    cases f with
    | plus b => rw [eq_of_same a b h]
    | _ => simp [same] at h

theorem eq_of_sameAll : (es fs : List Expr) → sameAll es fs = true → es = fs
  | [], fs, h => by cases fs <;> simp_all [sameAll]
  | e :: es, fs, h => by
    cases fs with
    | nil => simp [sameAll] at h
    | cons f fs =>
      simp only [sameAll, Bool.and_eq_true] at h
      rw [eq_of_same e f h.1, eq_of_sameAll es fs h.2]

end

theorem same_iff (e f : Expr) : e.same f = true ↔ e = f :=
  ⟨eq_of_same e f, fun h ↦ h ▸ same_self e⟩

instance : DecidableEq Expr :=
  fun e f ↦ decidable_of_iff (e.same f = true) (same_iff e f)

end Expr

end Ebnf
