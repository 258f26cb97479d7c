import Ebnf.Proofs.Phrase.Rules
import Mathlib.Data.List.Chain

/-!
What can be seen of phrases without knowing what they stand for. A `Skeleton` is a phrase whose
expression is forgotten. Its brackets are balanced, so the `peak` of brackets open at once is
that of its parts and no more than the groups allowed, and neither names nor strings are followed
by a string, which makes the tokens `WellSpaced`. Three dots are `DotsAnchored` behind a string.
The same holds of rules.
-/

set_option autoImplicit false
set_option relaxedAutoImplicit false

namespace Ebnf.Reading

/-- The tokens of phrases with so many groups inside each other. -/
inductive Skeleton : Nat → List Token → Prop
  | operand {n : Nat} {t : Token} : t.kind = .name ∨ t.kind = .string → Skeleton n [t]
  | range {n : Nat} {t dots u : Token} : t.kind = .string → dots.kind = .ellipsis →
    u.kind = .string → Skeleton n [t, dots, u]
  | empty {n : Nat} {bracket : Bracket} {left right : Token} :
    ArePair bracket left right → Skeleton (n + 1) [left, right]
  | group {n : Nat} {bracket : Bracket} {left right : Token} {body : List Token} :
    ArePair bracket left right → Skeleton n body → Skeleton (n + 1) (left :: body ++ [right])
  | separated {n : Nat} {separator : Token} {ts us : List Token} : Skeleton n ts →
    separator.kind = .comma ∨ separator.kind = .pipe → Skeleton n us →
      Skeleton n (ts ++ separator :: us)

mutual

theorem IsOperand.skeleton : {n : Nat} → {ts : List Token} → {e : Expr} → IsOperand n ts e →
    Skeleton n ts
  | _, _, _, .symbol ht => .operand (.inl ht)
  | _, _, _, .terminal ht _ => .operand (.inr ht)
  | _, _, _, .range ht hdots hu _ _ => .range ht hdots hu
  | _, _, _, .empty hpair => .empty hpair
  | _, _, _, .round hpair hbody => .group hpair hbody.skeleton
  | _, _, _, .curly hpair hbody => .group hpair hbody.skeleton
  | _, _, _, .square hpair hbody _ => .group hpair hbody.skeleton
  | _, _, _, .braced hpair hbody _ => .group hpair hbody.skeleton

theorem AreItems.skeleton : {n : Nat} → {ts : List Token} → {e : Expr} → {es : List Expr} →
    AreItems n ts e es → Skeleton n ts
  | _, _, _, _, .one hfirst => hfirst.skeleton
  | _, _, _, _, .cons hfirst hcomma hrest => .separated hfirst.skeleton (.inl hcomma) hrest.skeleton

theorem IsSequence.skeleton : {n : Nat} → {ts : List Token} → {e : Expr} → IsSequence n ts e →
    Skeleton n ts
  | _, _, _, .item hitems | _, _, _, .items hitems => hitems.skeleton

theorem AreAlternatives.skeleton : {n : Nat} → {ts : List Token} → {e : Expr} →
    {es : List Expr} → AreAlternatives n ts e es → Skeleton n ts
  | _, _, _, _, .one hfirst => hfirst.skeleton
  | _, _, _, _, .cons hfirst hbar hrest => .separated hfirst.skeleton (.inr hbar) hrest.skeleton

theorem IsExpr.skeleton : {n : Nat} → {ts : List Token} → {e : Expr} → IsExpr n ts e →
    Skeleton n ts
  | _, _, _, .alternative hall | _, _, _, .alternatives hall => hall.skeleton

end

/-- How many more brackets are open at once than in front of the tokens, at most. -/
def peak : List Token → Nat
  | [] => 0
  | t :: ts =>
    match t.kind with
    | .opening _ => peak ts + 1
    | .closing _ => peak ts - 1
    | _ => peak ts

section Peak

variable {n : Nat} {t left right : Token} {ts us body : List Token} {bracket : Bracket}

theorem peak_separator (h : t.kind = .comma ∨ t.kind = .pipe) : peak (t :: ts) = peak ts := by
  rcases h with h | h <;> rw [peak, h]

theorem peak_opening (h : left.kind = .opening bracket) : peak (left :: ts) = peak ts + 1 := by
  rw [peak, h]

theorem peak_closing (h : right.kind = .closing bracket) : peak (right :: ts) = peak ts - 1 := by
  rw [peak, h]

theorem peak_group (hpair : ArePair bracket left right)
    (hbody : ∀ us, peak (body ++ us) = max (peak body) (peak us)) (us : List Token) :
    peak (left :: body ++ [right] ++ us) = max (peak body + 1) (peak us) := by
  rw [List.append_assoc, List.cons_append, peak_opening hpair.1, hbody, List.singleton_append,
    peak_closing hpair.2]
  omega

theorem peak_group_self (hpair : ArePair bracket left right)
    (hbody : ∀ us, peak (body ++ us) = max (peak body) (peak us)) :
    peak (left :: body ++ [right]) = peak body + 1 := by
  have h := peak_group hpair hbody []
  rw [List.append_nil] at h
  simpa [peak] using h

/-- The brackets of a phrase are balanced. -/
theorem Skeleton.peak_append (h : Skeleton n ts) (us : List Token) :
    peak (ts ++ us) = max (peak ts) (peak us) := by
  induction h generalizing us with
  | operand hk => rcases hk with hk | hk <;> simp [peak, hk]
  | range ht hdots hu => simp [peak, ht, hdots, hu]
  | @empty n bracket left right hpair =>
    have hnil (us : List Token) : peak ([] ++ us) = max (peak []) (peak us) := by simp [peak]
    have hself : peak ([left] ++ [right]) = 1 := peak_group_self hpair hnil
    have happend : peak ([left] ++ [right] ++ us) = max 1 (peak us) := peak_group hpair hnil us
    rw [List.singleton_append] at hself happend
    rw [hself, happend]
  | group hpair _ ih => rw [peak_group hpair ih, peak_group_self hpair ih]
  | separated _ hseparator _ ihfirst ihrest =>
    rw [List.append_assoc, ihfirst, List.cons_append, peak_separator hseparator, ihrest, ihfirst,
      peak_separator hseparator, Nat.max_assoc]

theorem Skeleton.peak_le (h : Skeleton n ts) : peak ts ≤ n := by
  induction h with
  | operand hk => rcases hk with hk | hk <;> simp [peak, hk]
  | range ht hdots hu => simp [peak, ht, hdots, hu]
  | empty hpair => simp [peak, hpair.1, hpair.2]
  | group hpair hbody ih =>
    rw [peak_group_self hpair hbody.peak_append]
    omega
  | separated hfirst hseparator _ ihfirst ihrest =>
    rw [hfirst.peak_append, peak_separator hseparator]
    exact Nat.max_le.mpr ⟨ihfirst, ihrest⟩

end Peak

/-- A name or a string is not followed by a string. -/
def MayFollow (t u : Token) : Prop :=
  t.kind = .name ∨ t.kind = .string → u.kind ≠ .string

/-- All strings have ended, and none stands behind a name or another string. -/
def WellSpaced (ts : List Token) : Prop :=
  (∀ t ∈ ts, t.kind ≠ .unterminatedString) ∧ ts.IsChain MayFollow

section WellSpaced

variable {n : Nat} {t : Token} {ts us : List Token}

theorem WellSpaced.right_of_append (h : WellSpaced (ts ++ us)) : WellSpaced us :=
  ⟨fun t ht ↦ h.1 t (List.mem_append_right ts ht), h.2.right_of_append⟩

theorem wellSpaced_singleton (h : t.kind ≠ .unterminatedString) : WellSpaced [t] :=
  ⟨fun _ hu ↦ (List.mem_singleton.mp hu) ▸ h, .singleton t⟩

theorem WellSpaced.append (hts : WellSpaced ts) (hus : WellSpaced us)
    (h : ∀ t ∈ ts.getLast?, ∀ u ∈ us.head?, MayFollow t u) : WellSpaced (ts ++ us) := by
  refine ⟨fun t ht ↦ ?_, hts.2.append hus.2 h⟩
  rcases List.mem_append.mp ht with ht | ht
  · exact hts.1 t ht
  · exact hus.1 t ht

/-- The kinds of tokens that may have any neighbours. -/
def IsNeutral (t : Token) : Prop :=
  t.kind ≠ .name ∧ t.kind ≠ .string ∧ t.kind ≠ .unterminatedString

theorem WellSpaced.append_cons (ht : IsNeutral t) (hts : WellSpaced ts) (hus : WellSpaced us) :
    WellSpaced (ts ++ t :: us) := by
  obtain ⟨hname, hstring, hended⟩ := ht
  have htail : WellSpaced (t :: us) :=
    (wellSpaced_singleton hended).append hus fun u hu v _ hk ↦ by
      obtain rfl : t = u := by simpa using hu
      exact absurd hk (by simp [hname, hstring])
  refine hts.append htail fun u _ v hv _ ↦ ?_
  obtain rfl : t = v := by simpa using hv
  exact hstring

theorem wellSpaced_nil : WellSpaced [] :=
  ⟨by simp, .nil⟩

theorem Skeleton.wellSpaced (h : Skeleton n ts) : WellSpaced ts := by
  induction h with
  | operand hk => exact wellSpaced_singleton (by rcases hk with hk | hk <;> simp [hk])
  | @range n t dots u ht hdots hu =>
    have hneutral : IsNeutral dots := by simp [IsNeutral, hdots]
    exact (wellSpaced_singleton (by simp [ht])).append_cons hneutral
      (wellSpaced_singleton (by simp [hu]))
  | @empty n bracket left right hpair =>
    have hleft : IsNeutral left := by simp [IsNeutral, hpair.1]
    have hright : IsNeutral right := by simp [IsNeutral, hpair.2]
    exact (wellSpaced_nil.append_cons hleft wellSpaced_nil).append_cons hright wellSpaced_nil
  | @group n bracket left right body hpair _ ih =>
    have hleft : IsNeutral left := by simp [IsNeutral, hpair.1]
    have hright : IsNeutral right := by simp [IsNeutral, hpair.2]
    exact (wellSpaced_nil.append_cons hleft ih).append_cons hright wellSpaced_nil
  | separated _ hseparator _ ihfirst ihrest =>
    refine ihfirst.append_cons ?_ ihrest
    rcases hseparator with h | h <;> simp [IsNeutral, h]

end WellSpaced

/-- Three dots stand behind a string. -/
def DotsFollow (t u : Token) : Prop :=
  u.kind = .ellipsis → t.kind = .string

/-- Whatever is in front of the tokens, three dots among them stand behind a string. -/
def DotsAnchored (ts : List Token) : Prop :=
  ∀ t, (t :: ts).IsChain DotsFollow

section Dots

variable {n : Nat} {t : Token} {ts us : List Token}

theorem dotsAnchored_nil : DotsAnchored [] :=
  fun t ↦ .singleton t

theorem DotsAnchored.cons (ht : t.kind ≠ .ellipsis) (h : DotsAnchored ts) :
    DotsAnchored (t :: ts) :=
  fun _ ↦ List.isChain_cons_cons.mpr ⟨fun hdots ↦ absurd hdots ht, h t⟩

theorem DotsAnchored.append (hts : DotsAnchored ts) (hus : DotsAnchored us) :
    DotsAnchored (ts ++ us) := by
  intro t
  rw [← List.cons_append]
  refine (hts t).append (hus t).tail ?_
  intro last _ first hfirst
  exact (List.isChain_cons.mp (hus last)).1 first hfirst

theorem Skeleton.dotsAnchored (h : Skeleton n ts) : DotsAnchored ts := by
  induction h with
  | operand hk =>
    refine dotsAnchored_nil.cons ?_
    rcases hk with hk | hk <;> simp [hk]
  | range ht hdots hu =>
    intro v
    simp [DotsFollow, ht, hu]
  | @empty n bracket left right hpair =>
    have hright : DotsAnchored [right] := dotsAnchored_nil.cons (by simp [hpair.2])
    exact hright.cons (by simp [hpair.1])
  | @group n bracket left right body hpair _ ih =>
    have hright : DotsAnchored [right] := dotsAnchored_nil.cons (by simp [hpair.2])
    exact (ih.append hright).cons (by simp [hpair.1])
  | separated _ hseparator _ ihfirst ihrest =>
    refine ihfirst.append (ihrest.cons ?_)
    rcases hseparator with h | h <;> simp [h]

end Dots

section Rules

variable {n : Nat} {ts : List Token} {rule : Rule} {rules : List Rule}

theorem IsRule.peak_append (h : IsRule n ts rule) (us : List Token) :
    peak (ts ++ us) = max (peak ts) (peak us) := by
  cases h with
  | mk hname hequals hbody hsemicolon =>
    simp only [List.cons_append, List.append_assoc, List.nil_append]
    simp [peak, hname, hequals, hsemicolon, hbody.skeleton.peak_append]

theorem IsRule.peak_le (h : IsRule n ts rule) : peak ts ≤ n := by
  cases h with
  | mk hname hequals hbody hsemicolon =>
    have hle := hbody.skeleton.peak_le
    simpa [peak, hname, hequals, hsemicolon, hbody.skeleton.peak_append] using hle

theorem AreRules.peak_le (h : AreRules n ts rules) : peak ts ≤ n := by
  induction h with
  | nil => exact Nat.zero_le n
  | cons hrule _ ih =>
    rw [hrule.peak_append]
    exact Nat.max_le.mpr ⟨hrule.peak_le, ih⟩

theorem IsRule.wellSpaced (h : IsRule n ts rule) : WellSpaced ts := by
  cases h with
  | @mk name equals semicolon body e hname hequals hbody hsemicolon =>
    have hleft : IsNeutral equals := by simp [IsNeutral, hequals]
    have hright : IsNeutral semicolon := by simp [IsNeutral, hsemicolon]
    exact ((wellSpaced_singleton (by simp [hname])).append_cons hleft
      hbody.skeleton.wellSpaced).append_cons hright wellSpaced_nil

theorem AreRules.wellSpaced (h : AreRules n ts rules) : WellSpaced ts := by
  induction h with
  | nil => exact wellSpaced_nil
  | cons hrule _ ih =>
    refine hrule.wellSpaced.append ih fun t ht u _ hk ↦ ?_
    cases hrule with
    | mk _ _ _ hsemicolon =>
      rw [List.getLast?_concat, Option.mem_def, Option.some.injEq] at ht
      rw [← ht, hsemicolon] at hk
      simp at hk

theorem IsRule.dotsAnchored (h : IsRule n ts rule) : DotsAnchored ts := by
  cases h with
  | @mk name equals semicolon body e hname hequals hbody hsemicolon =>
    have hright : DotsAnchored [semicolon] := dotsAnchored_nil.cons (by simp [hsemicolon])
    have htail : DotsAnchored (equals :: (body ++ [semicolon])) :=
      (hbody.skeleton.dotsAnchored.append hright).cons (by simp [hequals])
    exact htail.cons (by simp [hname])

theorem AreRules.dotsAnchored (h : AreRules n ts rules) : DotsAnchored ts := by
  induction h with
  | nil => exact dotsAnchored_nil
  | cons hrule _ ih => exact hrule.dotsAnchored.append ih

end Rules

end Ebnf.Reading
