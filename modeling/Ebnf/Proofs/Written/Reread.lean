import Ebnf.Proofs.Phrase.Leaves
import Ebnf.Proofs.Written.Unreadable
import Mathlib

/-!
Reading again what has been read and written. A name that has been read is a run of name
characters, which is read again unless it is three dots: white space outside ASCII makes these a
name, and they are written without it. Elsewhere three dots are read between strings only, and no
name is written behind a string. The nesting decides about the rest: every choice is written in
parentheses, which the text that it was read from need not have had.
-/

set_option autoImplicit false
set_option relaxedAutoImplicit false

namespace Ebnf

open Reading Token

/-- Behind anything but a string, three dots in the text stand where they are not read. -/
def Loose (cs : List Char) : Prop :=
  ∀ offset (t : Token), t.kind ≠ .string → ¬(t :: significantFrom offset cs).IsChain DotsFollow

/-- The text goes on with a delimiter from ASCII, in front of which three dots are a token. -/
def Closes (rest : List Char) : Prop :=
  ∀ c ∈ rest.head?, (isNameChar c = false ∧ c ≠ '"') ∧ c.toNat < 0x80

/-- Three dots in the text stand where they are not read. -/
def Loosens (cs : List Char) : Prop :=
  ∀ rest, Closes rest → Loose (cs ++ rest)

section Pieces

variable {c : Char} {cs rest : List Char}

theorem closes_cons (h : (isNameChar c = false ∧ c ≠ '"') ∧ c.toNat < 0x80) :
    Closes (c :: rest) := by
  simpa [Closes] using h

theorem Closes.delimited (h : Closes rest) : Delimited rest :=
  fun c hc ↦ (h c hc).1

theorem Closes.wideSpaceFollows (h : Closes rest) : wideSpaceFollows rest = false := by
  cases rest with
  | nil => rfl
  | cons c rest =>
    have hsize := (h c rfl).2
    simp only [Token.wideSpaceFollows, Bool.and_eq_false_iff, decide_eq_false_iff_not]
    exact .inr (by omega)

theorem Loose.of_suffix (h : Loose rest)
    (hsuffix : ∀ offset, ∃ before u stop, u.kind ≠ .string ∧
      significantFrom offset cs = before ++ u :: significantFrom stop rest) : Loose cs := by
  intro offset t _ hchain
  obtain ⟨before, u, stop, hu, heq⟩ := hsuffix offset
  rw [heq, ← List.cons_append] at hchain
  exact h stop u hu hchain.right_of_append

theorem loosens_dots : Loosens "...".toList := by
  intro rest hrest offset t ht hchain
  have hdots : ∀ d ∈ "...".toList, isNameChar d = true := List.all_eq_true.mp (by decide)
  have hkind : runKind "...".toList rest = .ellipsis := by
    simp [runKind, hrest.wideSpaceFollows]
  rw [significantFrom_run (by decide) hdots fun d hd ↦ (hrest.delimited d hd).1, hkind] at hchain
  exact ht ((List.isChain_cons_cons.mp hchain).1 rfl)

theorem closes_closer (bracket : Bracket) : Closes ([bracket.closer] ++ rest) :=
  closes_cons (by cases bracket <;> decide)

theorem Loosens.group (h : Loosens cs) (bracket : Bracket) :
    Loosens (bracket.opener :: cs ++ [bracket.closer]) := by
  intro rest _
  have hopen : Kind.ofPunctuation? bracket.opener = some (.opening bracket) := by
    cases bracket <;> rfl
  have hbody : Loose (cs ++ ([bracket.closer] ++ rest)) := h _ (closes_closer bracket)
  rw [List.cons_append, List.cons_append, List.append_assoc]
  exact hbody.of_suffix fun offset ↦
    ⟨[], ⟨.opening bracket, String.ofList [bracket.opener], offset⟩,
      offset + bracket.opener.utf8Size, nofun, significantFrom_punctuation hopen⟩

/-- Behind a text that is scanned by itself and a separator, what is loose stays it. -/
theorem Scans.loose {separator : List Char} {t : Nat → Token}
    (hscans : ∀ offset, ∃ ts, Scans offset cs ts) (h : Separates separator t)
    (hkind : ∀ offset, (t offset).kind ≠ .string) (hrest : Loose rest) :
    Loose (cs ++ (separator ++ rest)) := by
  refine hrest.of_suffix fun offset ↦ ?_
  obtain ⟨ts, hts⟩ := hscans offset
  exact ⟨ts, t _, _, hkind _, by rw [hts.tokens _ (h.delimited rest), h.tokens]⟩

end Pieces

section Expr

variable {e : Expr} {es : List Expr}

theorem Expr.HasScannedLeaves.hasReadableRanges (h : e.HasScannedLeaves) :
    e.hasReadableRanges = true := by
  refine (iff_forall_mem_leaves hasReadableRanges_seq hasReadableRanges_choice (fun _ ↦ rfl)
    (fun _ ↦ rfl) (fun _ ↦ rfl) e).mpr fun leaf hleaf ↦ ?_
  have hscanned := h leaf hleaf
  cases leaf with
  | symbol | terminal => rfl
  | range chars => exact hscanned
  | _ => cases hscanned

theorem Expr.HasScannedLeaves.hasReadableNames (h : e.HasScannedLeaves)
    (hdots : .symbol "..." ∉ e.leaves) : e.hasReadableNames = true := by
  refine (iff_forall_mem_leaves hasReadableNames_seq hasReadableNames_choice (fun _ ↦ rfl)
    (fun _ ↦ rfl) (fun _ ↦ rfl) e).mpr fun leaf hleaf ↦ ?_
  have hscanned := h leaf hleaf
  cases leaf with
  | symbol name => exact isReadableName_iff.mpr ⟨hscanned, fun hname ↦ hdots (hname ▸ hleaf)⟩
  | terminal | range => rfl
  | _ => cases hscanned

theorem isWritten_of_hasScannedLeaves (h : e.HasScannedLeaves)
    (hdots : .symbol "..." ∉ e.leaves) : IsWritten e :=
  isWritten_of_readable (h.hasReadableNames hdots) h.hasReadableRanges

/-- In a list of expressions those in front of the first one with three dots are scanned by
themselves. -/
theorem loosens_intercalate {separator : String} {t : Nat → Token}
    (h : Separates separator.toList t) (hkind : ∀ offset, (t offset).kind ≠ .string)
    (hcloses : ∀ rest, Closes (separator.toList ++ rest))
    (hscanned : ∀ f ∈ es, f.HasScannedLeaves)
    (hloosens : ∀ f ∈ es, .symbol "..." ∈ f.leaves → Loosens f.render.toList)
    (hdots : .symbol "..." ∈ es.flatMap Expr.leaves) :
    Loosens (separator.intercalate (es.map Expr.render)).toList := by
  induction es with
  | nil => cases hdots
  | cons e es ih =>
    obtain ⟨he, hscanned⟩ := List.forall_mem_cons.mp hscanned
    obtain ⟨hfirst, hloosens⟩ := List.forall_mem_cons.mp hloosens
    rw [List.flatMap_cons, List.mem_append] at hdots
    cases es with
    | nil => simpa using hfirst (hdots.resolve_right (by simp))
    | cons g es =>
      intro rest hrest
      have htext : (separator.intercalate ((e :: g :: es).map Expr.render)).toList ++ rest =
          e.render.toList ++ (separator.toList ++
            ((separator.intercalate ((g :: es).map Expr.render)).toList ++ rest)) := by
        simp
      rw [htext]
      by_cases hhere : .symbol "..." ∈ e.leaves
      · exact hfirst hhere _ (hcloses _)
      · have htail := ih hscanned hloosens (hdots.resolve_left hhere) rest hrest
        refine Scans.loose (fun offset ↦ ?_) h hkind htail
        obtain ⟨ts, hscans, _⟩ := isWritten_of_hasScannedLeaves he hhere offset
        exact ⟨ts, hscans⟩

theorem loosens_of_mem_leaves (h : e.HasScannedLeaves) (hdots : .symbol "..." ∈ e.leaves) :
    Loosens e.render.toList := by
  induction e with
  | symbol name =>
    obtain rfl : "..." = name := by simpa [Expr.leaves] using hdots
    exact loosens_dots
  | terminal | range => simp [Expr.leaves] at hdots
  | seq first second rest ih =>
    rw [Expr.HasScannedLeaves, Expr.leaves_seq, List.forall_mem_flatMap] at h
    rw [Expr.leaves_seq] at hdots
    rw [Expr.toList_render_seq]
    exact loosens_intercalate separates_comma nofun (fun _ ↦ closes_cons (by decide)) h
      (fun f hf ↦ ih f hf (h f hf)) hdots
  | choice es ih =>
    rw [Expr.HasScannedLeaves, Expr.leaves_choice, List.forall_mem_flatMap] at h
    rw [Expr.leaves_choice] at hdots
    rw [Expr.toList_render_choice]
    have hbody := loosens_intercalate separates_pipe nofun (fun _ ↦ closes_cons (by decide)) h
      (fun f hf ↦ ih f hf (h f hf)) hdots
    exact hbody.group .round
  | optional e ih =>
    rw [Expr.toList_render_optional]
    exact (ih h hdots).group .square
  | star e ih =>
    rw [← Expr.render_optional_plus, Expr.toList_render_optional, Expr.toList_render_plus]
    exact ((ih h hdots).group .curly).group .square
  | plus e ih =>
    rw [Expr.toList_render_plus]
    exact (ih h hdots).group .curly

end Expr

/-- Three dots are the name of the rule or a name in it. -/
def Rule.HasDots (rule : Rule) : Prop :=
  rule.name = "..." ∨ .symbol "..." ∈ rule.body.leaves

instance (rule : Rule) : Decidable rule.HasDots :=
  inferInstanceAs (Decidable (_ ∨ _))

section Rules

variable {rule : Rule} {rules : List Rule} {cs rest : List Char}

theorem Reading.IsRule.exists_concat {n : Nat} {ts : List Token} (h : IsRule n ts rule) :
    ∃ before semicolon, ts = before ++ [semicolon] ∧ semicolon.kind = .semicolon := by
  cases h with
  | mk _ _ _ hsemicolon => exact ⟨_, _, rfl, hsemicolon⟩

theorem Rule.IsScanned.isWritten (h : rule.IsScanned) (hdots : ¬rule.HasDots) :
    isReadableName rule.name = true ∧ IsWritten rule.body := by
  obtain ⟨hname, hbody⟩ := not_or.mp hdots
  exact ⟨isReadableName_iff.mpr ⟨h.1, hname⟩, isWritten_of_hasScannedLeaves h.2 hbody⟩

theorem loose_rule (h : rule.IsScanned) (hdots : rule.HasDots) :
    Loose (rule.render.toList ++ rest) := by
  rw [toList_render_rule]
  by_cases hname : rule.name = "..."
  · rw [hname]
    exact loosens_dots _ (closes_cons (by decide))
  · have hbody := loosens_of_mem_leaves h.2 (hdots.resolve_left hname) ([';'] ++ rest)
      (closes_cons (by decide))
    have hreadable : isReadableName rule.name = true := isReadableName_iff.mpr ⟨h.1, hname⟩
    exact Scans.loose (fun offset ↦ ⟨_, scans_name hreadable⟩) separates_equals nofun hbody

/-- The rules in front of the first one with three dots end with their semicolons. -/
theorem AreLines.loose (h : AreLines rules cs) (hscanned : ∀ rule ∈ rules, rule.IsScanned)
    (hdots : ∃ rule ∈ rules, rule.HasDots) : Loose cs := by
  induction h with
  | nil =>
    obtain ⟨rule, hrule, _⟩ := hdots
    cases hrule
  | @cons rule rules blank cs hblank _ ih =>
    obtain ⟨hrule, hscanned⟩ := List.forall_mem_cons.mp hscanned
    rw [List.exists_mem_cons_iff] at hdots
    by_cases hhere : rule.HasDots
    · exact loose_rule hrule hhere
    · obtain ⟨hname, hbody⟩ := hrule.isWritten hhere
      refine (ih hscanned (hdots.resolve_left hhere)).of_suffix fun offset ↦ ?_
      obtain ⟨ts, htokens, -, hphrase⟩ := exists_of_rule hname hbody offset
      obtain ⟨before, semicolon, rfl, hkind⟩ := (hphrase _ (Nat.le_refl _)).exists_concat
      refine ⟨before, semicolon, offset + byteLength rule.render.toList + byteLength blank,
        by simp [hkind], ?_⟩
      rw [htokens, significantFrom_blank hblank, List.append_assoc, List.singleton_append]

theorem AreLines.not_areRules_of_hasDots {text : String} (h : AreLines rules text.toList)
    (hscanned : ∀ rule ∈ rules, rule.IsScanned) (hdots : ∃ rule ∈ rules, rule.HasDots)
    (rs : List Rule) : ¬AreRules maxNesting (significant text) rs :=
  fun hrules ↦ h.loose hscanned hdots 0 default nofun (hrules.dotsAnchored default)

end Rules

/-- A rule that has been read is read again where it is written if three dots are no name of it
and parentheses bring it no more groups inside each other than reading takes. -/
def Rule.IsRereadable (rule : Rule) : Prop :=
  ¬rule.HasDots ∧ rule.body.nesting ≤ maxNesting

instance (rule : Rule) : Decidable rule.IsRereadable :=
  inferInstanceAs (Decidable (_ ∧ _))

theorem Grammar.read_render_eq_error {text : String} {g : Grammar}
    (h : Grammar.read text = .ok g) (hbad : ∃ rule ∈ g.rules, ¬rule.IsRereadable) :
    ∃ ds, ds ≠ [] ∧ Grammar.read g.render = .error (.malformed ds) := by
  have hscanned := isScanned_of_read h
  have hlines : AreLines g.rules g.render.toList := areLines_renderWith {} g
  apply Grammar.read_eq_error
  by_cases hdots : ∃ rule ∈ g.rules, rule.HasDots
  · exact hlines.not_areRules_of_hasDots hscanned hdots
  · have hclean : ∀ rule ∈ g.rules, ¬rule.HasDots :=
      fun rule hmem hrule ↦ hdots ⟨rule, hmem, hrule⟩
    have hnames : HaveReadableNames g.rules := by
      intro rule hmem
      obtain ⟨hname, hbody⟩ := not_or.mp (hclean rule hmem)
      obtain ⟨hrun, hleaves⟩ := hscanned rule hmem
      exact ⟨isReadableName_iff.mpr ⟨hrun, hname⟩, hleaves.hasReadableNames hbody⟩
    obtain ⟨rule, hmem, hrule⟩ := hbad
    have hdepth : maxNesting < rule.body.nesting :=
      Nat.lt_of_not_le fun hle ↦ hrule ⟨hclean rule hmem, hle⟩
    exact hlines.not_areRules hnames ⟨rule, hmem, .inr hdepth⟩

/-- The canonical text of a grammar that has been read is read as the normal form of the grammar,
which has the same canonical text, exactly if every rule of the grammar is rereadable. Otherwise
the text is malformed. -/
theorem Grammar.read_render_of_read {text : String} {g : Grammar}
    (h : Grammar.read text = .ok g) :
    ((∀ rule ∈ g.rules, rule.IsRereadable) →
      Grammar.read g.render = .ok g.normalize ∧ g.normalize.render = g.render) ∧
    ((∃ rule ∈ g.rules, ¬rule.IsRereadable) →
      ∃ ds, ds ≠ [] ∧ Grammar.read g.render = .error (.malformed ds)) := by
  refine ⟨fun hrereadable ↦ ?_, read_render_eq_error h⟩
  have hlines : AreLines g.rules g.render.toList := areLines_renderWith {} g
  have hrules : AreRules maxNesting (significant g.render) (g.rules.map Rule.normalize) := by
    refine hlines.areRules (fun rule hmem ↦ ?_) 0
    obtain ⟨hdots, hdepth⟩ := hrereadable rule hmem
    obtain ⟨hname, hbody⟩ := (isScanned_of_read h rule hmem).isWritten hdots
    exact ⟨hname, hbody, hdepth⟩
  refine ⟨?_, renderWith_normalize {} g⟩
  rw [Grammar.read, Rule.readAll_eq_ok_iff.mpr hrules, ← g.normalize.ofRules_rules]
  rfl

theorem Grammar.read_render_of_read_folded :
    let text := "s = [ \x7b x | \"a\" ... \"c\" \x7d ];\n\ns = ( ) , y;"
    let g := ofRules [⟨"s", .optional (.plus (.choice [.symbol "x", .range ⟨'a', 'c'⟩]))⟩,
      ⟨"s", .seq (.choice []) (.symbol "y") []⟩]
    let dots := ofRules [⟨"...", .symbol "x"⟩]
    Grammar.read text = .ok g ∧ (∀ rule ∈ g.rules, rule.IsRereadable) ∧
      (Grammar.read g.render = .ok g.normalize ∧ g.normalize.render = g.render) ∧
      Grammar.read "...\u2028= x;" = .ok dots ∧ (∃ rule ∈ dots.rules, ¬rule.IsRereadable) ∧
      ∃ ds, ds ≠ [] ∧ Grammar.read dots.render = .error (.malformed ds) := by
  intro text g dots
  have hread : Grammar.read text = .ok g := by cbv
  have hrereadable : ∀ rule ∈ g.rules, rule.IsRereadable := by decide
  have hdots : Grammar.read "...\u2028= x;" = .ok dots := by cbv
  have hbad : ∃ rule ∈ dots.rules, ¬rule.IsRereadable := by decide
  exact ⟨hread, hrereadable, (read_render_of_read hread).1 hrereadable, hdots, hbad,
    (read_render_of_read hdots).2 hbad⟩

theorem isWritten_repeat_plus {e : Expr} (h : IsWritten e) (n : Nat) :
    IsWritten (Nat.repeat .plus n e) := by
  induction n with
  | zero => exact h
  | succ n ih => exact isWritten_plus ih

/-- White space outside ASCII makes three dots a name, and the parentheses around a choice can be
one group too many. -/
theorem Grammar.malformed_render_of_read :
    (let g := ofRules [⟨"S", .symbol "..."⟩]
    Grammar.read "S = ...\u00a0;" = .ok g ∧ g.render = "S = ...;" ∧ Grammar.read g.render =
      .error (.malformed [⟨.missingOperand, "expected operand, found '...'", ⟨4, 7⟩, none⟩])) ∧
    let deep := Nat.repeat Expr.plus maxNesting (.symbol "a")
    let rules : List Rule := [⟨"S", deep⟩, ⟨"S", .symbol "b"⟩]
    let g := ofRules rules
    Grammar.read ("\n".intercalate (rules.map Rule.render)) = .ok g ∧
      g.rules = [⟨"S", .choice [.symbol "b", deep]⟩] ∧
      ∃ ds, ds ≠ [] ∧ Grammar.read g.render = .error (.malformed ds) := by
  constructor
  · intro g
    have hread : Grammar.read "S = ...\u00a0;" = .ok g := by cbv
    have hrender : g.render = "S = ...;" := by rfl
    have hrules : Reading.rules (significant "S = ...;") =
        .error [.noOperand (some ⟨.ellipsis, "...", 4⟩)] := by cbv
    refine ⟨hread, hrender, ?_⟩
    rw [hrender, Grammar.read, Rule.readAll, hrules]
    rfl
  · intro deep rules g
    have hlines : AreLines rules ("\n".intercalate (rules.map Rule.render)).toList := by
      have hblank : IsBlank [] := by decide
      have h := areLines_intercalate .lf hblank [⟨"S", .symbol "b"⟩] ⟨"S", deep⟩
      rwa [List.append_nil] at h
    have hnesting : deep.nesting = maxNesting := by rfl
    have hwritten : ∀ rule ∈ rules, isReadableName rule.name = true ∧ IsWritten rule.body ∧
        rule.body.nesting ≤ maxNesting := by
      refine List.forall_mem_cons.mpr ⟨⟨by decide, ?_, Nat.le_of_eq hnesting⟩,
        List.forall_mem_singleton.mpr ⟨by decide, isWritten_symbol (by decide), Nat.zero_le _⟩⟩
      exact isWritten_repeat_plus (isWritten_symbol (by decide)) maxNesting
    have hnormal : rules.map Rule.normalize = rules := by decide
    have hrules := hlines.areRules hwritten 0
    rw [hnormal] at hrules
    have hread : Grammar.read ("\n".intercalate (rules.map Rule.render)) = .ok g := by
      rw [Grammar.read, Rule.readAll_eq_ok_iff.mpr hrules]
      rfl
    have hfolded : g.rules = [⟨"S", .choice [.symbol "b", deep]⟩] := by decide
    have hbad : ∃ rule ∈ g.rules, ¬rule.IsRereadable := by
      have hdepth : (Expr.choice [.symbol "b", deep]).nesting = maxNesting + 1 := by
        simp [Expr.nesting, Expr.nestingAll, hnesting]
      rw [hfolded]
      refine ⟨_, List.mem_singleton_self _, fun hrule ↦ ?_⟩
      have hle : (Expr.choice [.symbol "b", deep]).nesting ≤ maxNesting := hrule.2
      omega
    exact ⟨hread, hfolded, read_render_eq_error hread hbad⟩

end Ebnf
