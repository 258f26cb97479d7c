import Ebnf.Proofs.Grammar.Stages
import Ebnf.Proofs.Phrase.Segments
import Ebnf.Proofs.Phrase.Spacing
import Ebnf.Proofs.Written.Cuts

/-!
Grammar texts behind each other. A text that is read without a fault ends with a semicolon, which
ends its last token and its last segment too. So a text behind it is read as it is read alone:
its rules are added to those in front of them, and if it has faults they are the same faults,
further on.
-/

set_option autoImplicit false
set_option relaxedAutoImplicit false

namespace Ebnf

namespace Reading

section Tokens

variable {ts : List Token} {rs : List Rule}

theorem EndsWithSemicolon.endsItself (h : EndsWithSemicolon ts) : Token.EndsItself ts := by
  intro t ht
  rw [h t ht]
  rfl

theorem AreRules.endsWithSemicolon {n : Nat} (h : AreRules n ts rs) : EndsWithSemicolon ts := by
  induction h with
  | nil => nofun
  | cons hrule _ ih =>
    intro t ht
    rw [List.getLast?_append, Option.mem_def, Option.or_eq_some_iff] at ht
    rcases ht with hlast | ⟨-, hlast⟩
    · exact ih t hlast
    · cases hrule with
      | mk _ _ _ hsemicolon =>
        rw [List.getLast?_concat, Option.some.injEq] at hlast
        rwa [← hlast]

/-- Behind rules, tokens are read as they are read alone. -/
theorem rules_append (hlast : EndsWithSemicolon ts) (h : rules ts = .ok rs) (us : List Token) :
    rules (ts ++ us) = (rules us).map (rs ++ ·) := by
  have hsegments := segments_append hlast us
  rw [rules_eq_of_segments] at h
  split_ifs at h with hnone
  rw [Except.ok.injEq] at h
  rw [rules_eq_of_segments, rules_eq_of_segments, hsegments, List.map_append,
    List.filterMap_append, List.filterMap_append, hnone, List.nil_append, h]
  split_ifs <;> rfl

end Tokens

/-- The second token is the first, `n` bytes further on. -/
def IsShifted (n : Nat) (t u : Token) : Prop :=
  u = t.shift n

theorem isPairing_isShifted (n : Nat) : IsPairing (IsShifted n) := by
  rintro t u rfl
  exact ⟨rfl, rfl⟩

theorem touches_shift {n : Nat} {t u : Token} : Touches (t.shift n) (u.shift n) ↔ Touches t u := by
  simp only [Touches, Token.stop_shift]
  exact Nat.add_left_cancel_iff

/-- Each token with the one that it is further on. -/
def shiftedPairs (n : Nat) (ts : List Token) : List (Token × Token) :=
  ts.map fun t ↦ (t, t.shift n)

section Shifted

variable (n : Nat) (ts : List Token)

theorem map_fst_shiftedPairs : (shiftedPairs n ts).map Prod.fst = ts := by
  simp [shiftedPairs, Function.comp_def]

theorem map_snd_shiftedPairs : (shiftedPairs n ts).map Prod.snd = ts.map (Token.shift n) := by
  simp [shiftedPairs]

theorem isShifted_of_mem : ∀ p ∈ shiftedPairs n ts, IsShifted n p.1 p.2 := by
  simp [shiftedPairs, IsShifted]

theorem isChain_shiftedPairs : (shiftedPairs n ts).IsChain JoinAlike := by
  rw [shiftedPairs, List.isChain_map]
  exact (List.pairwise_of_forall fun _ _ _ ↦ touches_shift.symm).isChain

/-- Further on, tokens are read as the same expression or to the same fault. -/
theorem expr_shift :
    Agree (Problem.Alike (IsShifted n)) Eq (expr ts) (expr (ts.map (Token.shift n))) := by
  have halike := expr_alike (isPairing_isShifted n) (isShifted_of_mem n ts)
    (isChain_shiftedPairs n ts)
  rwa [map_fst_shiftedPairs, map_snd_shiftedPairs] at halike

/-- Further on, tokens are read as the same rules or to the same faults. -/
theorem rules_shift :
    Agree (List.Forall₂ (Problem.Alike (IsShifted n))) Eq (rules ts)
      (rules (ts.map (Token.shift n))) := by
  have halike := rules_alike (isPairing_isShifted n) (isShifted_of_mem n ts)
    (isChain_shiftedPairs n ts)
  rwa [map_fst_shiftedPairs, map_snd_shiftedPairs] at halike

end Shifted

end Reading

open Reading Token

/-- The same diagnostic, `n` bytes further on: its bytes are, and so is the opening bracket that
the hint at an open group names. -/
structure Diagnostic.IsShifted (n : Nat) (d d' : Diagnostic) : Prop where
  code : d'.code = d.code
  message : d'.message = d.message
  span : d'.span = ⟨n + d.span.start, n + d.span.stop⟩
  hint : (∃ bracket offset, d.code = Problem.unclosedCode bracket ∧
      d.hint = some (openedAt bracket offset) ∧
      d'.hint = some (openedAt bracket (n + offset))) ∨
    (∀ bracket, d.code ≠ Problem.unclosedCode bracket) ∧ d'.hint = d.hint

theorem locate_shift (n size : Nat) {found found' : Option Token}
    (h : Option.Rel (Reading.IsShifted n) found found') :
    Problem.locate (n + size) found' =
      ⟨n + (Problem.locate size found).start, n + (Problem.locate size found).stop⟩ := by
  cases h with
  | none => rfl
  | some hshift =>
    rw [hshift, Problem.locate, stop_shift]
    rfl

theorem Diagnostic.Alike.isShifted {n size : Nat} {d d' : Diagnostic}
    (h : Diagnostic.Alike (Reading.IsShifted n) size (n + size) d d') :
    Diagnostic.IsShifted n d d' where
  code := h.code
  message := h.message
  span := by
    obtain ⟨found, found', hfound, hspan, hspan'⟩ := h.span
    rw [hspan', hspan, locate_shift n size hfound]
  hint := by
    rcases h.hint with ⟨bracket, t, u, hcode, rfl, -, hhint, hhint'⟩ | hsame
    · exact .inl ⟨bracket, t.offset, hcode, hhint, hhint'⟩
    · exact .inr hsame

theorem significant_eq_significantFrom (text : String) :
    significant text = significantFrom 0 text.toList := rfl

theorem significant_append {first : String} (h : EndsItself (significant first))
    (second : String) : significant (first ++ second) =
      significant first ++ (significant second).map (shift first.utf8ByteSize) := by
  rw [significant_eq_significantFrom, String.toList_append, significantFrom_append h,
    byteLength_toList, Nat.add_comm, significantFrom_shift]
  rfl

/-- Behind a text that is read without a fault, a text is read as it is read alone. -/
theorem Rule.readAll_append {first : String} {rs : List Rule} (h : Rule.readAll first = .ok rs)
    (second : String) :
    Agree (Failure.Alike (Diagnostic.IsShifted first.utf8ByteSize))
      (fun rs₂ joined ↦ joined = rs ++ rs₂) (Rule.readAll second)
      (Rule.readAll (first ++ second)) := by
  have hfirst := Rule.readAll_eq_ok_iff.mp h
  have hlast := hfirst.endsWithSemicolon
  have htokens := significant_append hlast.endsItself second
  have hfirst' := (rules_eq_ok_iff (isScanned_significant first)).mpr hfirst
  have hrules := rules_shift first.utf8ByteSize (significant second)
  unfold Rule.readAll
  rw [htokens, rules_append hlast hfirst', String.utf8ByteSize_append]
  generalize rules (significant second) = result,
    rules ((significant second).map (shift first.utf8ByteSize)) = result' at hrules
  cases hrules with
  | ok heq => exact .ok (congrArg (rs ++ ·) heq.symm)
  | error hproblems =>
    refine .error (.malformed ?_)
    rw [List.forall₂_map_left_iff, List.forall₂_map_right_iff]
    exact hproblems.imp fun _ _ halike ↦
      (halike.diagnostic (isPairing_isShifted _) _ _).isShifted

/-- Texts behind each other are read as the union of their grammars. If only the text behind has
faults, these are the faults of the whole: the same ones in the same order, as many bytes further
on as there are in front. -/
theorem Grammar.read_append (first second : String) (g : Grammar)
    (h : Grammar.read first = .ok g) :
    Agree (Failure.Alike (Diagnostic.IsShifted first.utf8ByteSize))
      (fun g₂ joined ↦ joined = g.union g₂) (Grammar.read second)
      (Grammar.read (first ++ second)) := by
  cases hfirst : Rule.readAll first with
  | error failure =>
    rw [Grammar.read, hfirst] at h
    cases h
  | ok rs =>
    rw [Grammar.read, hfirst] at h
    cases h
    refine (Rule.readAll_append hfirst second).bind ?_
    rintro rs₂ _ rfl
    exact .ok (Grammar.union_ofRules rs rs₂).symm

theorem Grammar.read_append_left_open :
    let first := "A = b; \n"
    let second := " A = c; B = (d"
    let g := Grammar.ofRules [⟨"A", .symbol "b"⟩]
    let d : Diagnostic :=
      ⟨.unclosedRound, "expected ')', found end of input", ⟨14, 14⟩, some "'(' opened at byte 12"⟩
    let d' : Diagnostic :=
      ⟨.unclosedRound, "expected ')', found end of input", ⟨22, 22⟩, some "'(' opened at byte 20"⟩
    Grammar.read first = .ok g ∧ Grammar.read second = .error (.malformed [d]) ∧
      Grammar.read (first ++ second) = .error (.malformed [d']) ∧
      Agree (Failure.Alike (Diagnostic.IsShifted first.utf8ByteSize))
        (fun g₂ joined ↦ joined = g.union g₂) (Grammar.read second)
        (Grammar.read (first ++ second)) := by
  intro first second g d d'
  have hfirst : Reading.rules (significant first) = .ok [⟨"A", .symbol "b"⟩] := by cbv
  have hsecond : Reading.rules (significant second) = .error [.unclosed .round 12 none] := by cbv
  have hjoined : Reading.rules (significant (first ++ second)) =
      .error [.unclosed .round 20 none] := by cbv
  have hread : Grammar.read first = .ok g := by
    rw [Grammar.read, Rule.readAll, hfirst]
    rfl
  refine ⟨hread, ?_, ?_, Grammar.read_append first second g hread⟩
  · rw [Grammar.read, Rule.readAll, hsecond]
    rfl
  · rw [Grammar.read, Rule.readAll, hjoined]
    rfl

end Ebnf
