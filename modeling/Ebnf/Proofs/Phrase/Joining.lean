import Ebnf.Reading.Phrase
import Ebnf.Reading.State

/-!
Phrases made from phrases. The rules for a sequence and for a choice put one phrase in front of
the others; here one is put behind them, and two sequences are joined. What reading makes of the
operands and alternatives of a level is what the rules make of them.
-/

set_option autoImplicit false
set_option relaxedAutoImplicit false

namespace Ebnf.Reading

theorem AreItems.append {us : List Token} {comma : Token} {f : Expr} {fs : List Expr} :
    {n : Nat} → {ts : List Token} → {e : Expr} → {es : List Expr} → AreItems n ts e es →
      comma.kind = .comma → AreItems n us f fs →
        AreItems n (ts ++ comma :: us) e (es ++ f :: fs)
  | _, _, _, _, .one hop, hcomma, hrest => .cons hop hcomma hrest
  | _, _, _, _, .cons hop hkind hitems, hcomma, hrest => by
    rw [List.append_assoc, List.cons_append, List.cons_append]
    exact .cons hop hkind (hitems.append hcomma hrest)

theorem AreAlternatives.snoc {us : List Token} {bar : Token} {f : Expr} :
    {n : Nat} → {ts : List Token} → {e : Expr} → {es : List Expr} → AreAlternatives n ts e es →
      bar.kind = .pipe → IsSequence n us f → AreAlternatives n (ts ++ bar :: us) e (es ++ [f])
  | _, _, _, _, .one hseq, hbar, hlast => .cons hseq hbar (.one hlast)
  | _, _, _, _, .cons hseq hkind hrest, hbar, hlast => by
    rw [List.append_assoc, List.cons_append, List.cons_append]
    exact .cons hseq hkind (hrest.snoc hbar hlast)

theorem IsOperand.ne_nil {n : Nat} {ts : List Token} {e : Expr} (h : IsOperand n ts e) :
    ts ≠ [] := by
  cases h <;> simp

/-- The tokens begin at a byte. -/
def StartsAt (ts : List Token) (start : Nat) : Prop :=
  ts.head?.map Token.offset = some start

/-- The tokens end in front of a byte. -/
def EndsAt (ts : List Token) (stop : Nat) : Prop :=
  ts.getLast?.map Token.stop = some stop

@[simp] theorem startsAt_cons (t : Token) (ts : List Token) (start : Nat) :
    StartsAt (t :: ts) start ↔ t.offset = start := by
  simp [StartsAt]

@[simp] theorem endsAt_append_singleton (ts : List Token) (t : Token) (stop : Nat) :
    EndsAt (ts ++ [t]) stop ↔ t.stop = stop := by
  simp [EndsAt]

theorem touchesBoth_iff {left right : Token} {ts : List Token} (hne : ts ≠ []) :
    TouchesBoth left right ts ↔ StartsAt ts left.stop ∧ EndsAt ts right.offset := by
  have hhead : ts.head? = some (ts.head hne) := List.head?_eq_some_head hne
  have hlast : ts.getLast? = some (ts.getLast hne) := List.getLast?_eq_some_getLast hne
  simp [TouchesBoth, Touches, StartsAt, EndsAt, hhead, hlast, eq_comm]

namespace Level

variable {level : Level} {last e f : Expr} {es : List Expr}

theorem sequence_of_item (h : level.items.reverse ++ [last] = [e]) : level.sequence last = e := by
  have happend : level.items.reverse ++ [last] = [] ++ [e] := h
  obtain ⟨hnone, rfl⟩ := List.append_singleton_inj.mp happend
  rw [sequence, hnone]

theorem sequence_of_items (h : level.items.reverse ++ [last] = e :: f :: es) :
    level.sequence last = .seq e f es := by
  unfold sequence
  cases hi : level.items.reverse with
  | nil => simp [hi] at h
  | cons first rest =>
    rw [hi, List.cons_append, List.cons.injEq] at h
    rw [h.1]
    dsimp only
    rw [h.2]
    rfl

theorem expr_of_choice (h : level.choices last = [e]) : level.expr last = e := by
  have happend : level.alternatives.reverse ++ [level.sequence last] = [] ++ [e] := h
  obtain ⟨hnone, hsequence⟩ := List.append_singleton_inj.mp happend
  rw [expr, List.reverse_eq_nil_iff.mp hnone]
  exact hsequence

theorem expr_of_choices (h : level.choices last = e :: f :: es) :
    level.expr last = .choice (e :: f :: es) := by
  unfold expr
  cases ha : level.alternatives with
  | nil => simp [choices, ha] at h
  | cons a as => rw [← h]

/-- An operand is the value of its level only where nothing stands in front of it. -/
theorem eq_empty_of_expr (h : level.expr last = .plus e) : level = {} ∧ last = .plus e := by
  obtain ⟨alternatives, items⟩ := level
  cases alternatives with
  | cons a as => cases h
  | nil =>
    cases items with
    | nil => exact ⟨rfl, h⟩
    | cons i is =>
      obtain ⟨f, fs, hf⟩ := List.exists_cons_of_ne_nil
        (List.append_ne_nil_of_right_ne_nil is.reverse (List.cons_ne_nil i []))
      obtain ⟨g, gs, hg⟩ := List.exists_cons_of_ne_nil (List.append_ne_nil_of_right_ne_nil fs
        (List.cons_ne_nil last []))
      simp [expr, sequence, hf, hg, Expr.inOrder] at h

end Level

section Values

variable {n : Nat} {ts : List Token} {level : Level} {last e : Expr} {es : List Expr}

/-- The items that have been read are the sequence that reading makes of them. -/
theorem AreItems.isSequence (h : AreItems n ts e es)
    (hitems : level.items.reverse ++ [last] = e :: es) : IsSequence n ts (level.sequence last) := by
  cases es with
  | nil =>
    rw [Level.sequence_of_item hitems]
    exact .item h
  | cons f es =>
    rw [Level.sequence_of_items hitems]
    exact .items h

/-- The alternatives that have been read are the expression that reading makes of them. -/
theorem AreAlternatives.isExpr (h : AreAlternatives n ts e es)
    (hchoices : level.choices last = e :: es) : IsExpr n ts (level.expr last) := by
  cases es with
  | nil =>
    rw [Level.expr_of_choice hchoices]
    exact .alternative h
  | cons f es =>
    rw [Level.expr_of_choices hchoices]
    exact .alternatives h

end Values

end Ebnf.Reading
