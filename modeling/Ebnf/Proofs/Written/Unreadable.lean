import Ebnf.Proofs.Written.Fault
import Ebnf.Proofs.Written.Grammar

/-!
Texts of expressions and grammars that cannot be read back are not read as something else. The
end of a range that is a quote or a backslash leaves the quotes behind it on the wrong side, and
nothing that is written behind it sets them right again. Too many groups inside each other are
too many brackets open at once, whatever the text were read as.
-/

set_option autoImplicit false
set_option relaxedAutoImplicit false

namespace Ebnf

open Reading Token

/-- The text does not set the quotes behind it right where they are on the wrong side. -/
def KeepsFailing (cs : List Char) : Prop :=
  ∀ rest, Delimited rest → FailsInside rest → FailsInside (cs ++ rest)

/-- The text brings the quotes behind it on the wrong side, or fails itself. -/
def Breaks (cs : List Char) : Prop :=
  ∀ rest, Delimited rest → FailsInside rest → Fails (cs ++ rest)

section Pieces

variable {cs ds : List Char}

theorem KeepsFailing.plain_append (hcs : IsPlain cs) (hds : KeepsFailing ds) :
    KeepsFailing (cs ++ ds) := by
  intro rest hrest hfails
  rw [List.append_assoc]
  exact (hds rest hrest hfails).append (staysInside_of_plain hcs)

theorem KeepsFailing.append (hcs : KeepsFailing cs) (hds : KeepsFailing ds)
    (hdelimited : ∀ rest, Delimited (ds ++ rest)) : KeepsFailing (cs ++ ds) := by
  intro rest hrest hfails
  rw [List.append_assoc]
  exact hcs _ (hdelimited rest) (hds rest hrest hfails)

theorem keepsFailing_plain (hcs : IsPlain cs) : KeepsFailing cs := by
  intro rest _ hfails
  exact hfails.append (staysInside_of_plain hcs)

theorem not_mem_of_isReadableName {name : String} (h : isReadableName name = true) :
    '"' ∉ name.toList := by
  simp only [isReadableName, Bool.and_eq_true, List.all_eq_true] at h
  exact fun hmem ↦ absurd (h.1.2 _ hmem) (by decide)

theorem keepsFailing_name {name : String} (h : isReadableName name = true) :
    KeepsFailing name.toList := by
  intro rest hrest hfails
  exact hfails.append (staysInside_of_not_mem (not_mem_of_isReadableName h) hrest)

theorem isPlain_opener (bracket : Bracket) : IsPlain [bracket.opener] := by
  cases bracket <;> decide

theorem isPlain_closer (bracket : Bracket) : IsPlain [bracket.closer] := by
  cases bracket <;> decide

theorem delimited_closer (bracket : Bracket) (rest : List Char) :
    Delimited ([bracket.closer] ++ rest) :=
  delimited_cons (by cases bracket <;> decide)

theorem KeepsFailing.group (h : KeepsFailing cs) (bracket : Bracket) :
    KeepsFailing (bracket.opener :: cs ++ [bracket.closer]) := by
  show KeepsFailing ([bracket.opener] ++ (cs ++ [bracket.closer]))
  have hcloser := keepsFailing_plain (isPlain_closer bracket)
  exact (h.append hcloser (delimited_closer bracket)).plain_append (isPlain_opener bracket)

theorem Breaks.group (h : Breaks cs) (bracket : Bracket) :
    Breaks (bracket.opener :: cs ++ [bracket.closer]) := by
  intro rest hrest hfails
  have hopen : Kind.ofPunctuation? bracket.opener = some (.opening bracket) := by
    cases bracket <;> rfl
  have hbody : Fails (cs ++ ([bracket.closer] ++ rest)) := h _ (delimited_closer bracket rest)
    (keepsFailing_plain (isPlain_closer bracket) rest hrest hfails)
  rw [List.cons_append, List.cons_append, List.append_assoc]
  exact hbody.punctuation hopen

/-- A text that is scanned by itself leaves a failure behind it to be met. -/
theorem Scans.fails {rest : List Char} (h : ∀ offset, ∃ ts, Scans offset cs ts)
    (hrest : Delimited rest) (hfails : Fails rest) : Fails (cs ++ rest) := by
  refine hfails.of_suffix fun offset ↦ ?_
  obtain ⟨ts, hscans⟩ := h offset
  exact ⟨ts, _, hscans.tokens rest hrest⟩

theorem Separates.fails {separator rest : List Char} {t : Nat → Token}
    (h : Separates separator t) (hfails : Fails rest) : Fails (separator ++ rest) :=
  hfails.of_suffix fun offset ↦ ⟨[t offset], _, h.tokens offset rest⟩

end Pieces

section Expr

variable {e : Expr} {es : List Expr} {separator : String} {t : Nat → Token}

theorem keepsFailing_terminal (text : String) : KeepsFailing (Quoted.encode text).toList := by
  intro rest _ hfails
  have htext : (Quoted.encode text).toList ++ rest =
      '"' :: (text.toList.flatMap Quoted.escapeChar ++ '"' :: rest) := by
    simp [Quoted.toList_encode]
  rw [htext]
  exact hfails.terminal text.toList

theorem toList_render_range (chars : CharRange) (rest : List Char) :
    chars.render.toList ++ rest =
      '"' :: chars.first :: '"' :: (" ... ".toList ++ '"' :: chars.last :: '"' :: rest) := by
  simp [CharRange.render]

theorem keepsFailing_range (chars : CharRange) : KeepsFailing chars.render.toList := by
  intro rest _ hfails
  rw [toList_render_range]
  have hlast := hfails.boundary chars.last
  exact (hlast.append (staysInside_of_plain separates_dots.isPlain)).boundary chars.first

theorem keepsFailing_intercalate (h : Separates separator.toList t)
    (hes : ∀ f ∈ es, KeepsFailing f.render.toList) :
    KeepsFailing (separator.intercalate (es.map Expr.render)).toList := by
  induction es with
  | nil => exact keepsFailing_plain (by simp [IsPlain])
  | cons e es ih =>
    obtain ⟨he, hes⟩ := List.forall_mem_cons.mp hes
    cases es with
    | nil => simpa using he
    | cons g es =>
      have hall := he.append ((ih hes).plain_append h.isPlain) fun rest ↦ by
        rw [List.append_assoc]
        exact h.delimited _
      simpa using hall

theorem keepsFailing_of_readableNames (h : e.hasReadableNames = true) :
    KeepsFailing e.render.toList := by
  induction e with
  | symbol name => exact keepsFailing_name h
  | terminal text => exact keepsFailing_terminal text
  | range chars => exact keepsFailing_range chars
  | seq first second rest ih =>
    rw [Expr.hasReadableNames_seq, List.all_eq_true] at h
    rw [Expr.toList_render_seq]
    exact keepsFailing_intercalate separates_comma fun f hf ↦ ih f hf (h f hf)
  | choice es ih =>
    rw [Expr.hasReadableNames_choice, List.all_eq_true] at h
    rw [Expr.toList_render_choice]
    exact (keepsFailing_intercalate separates_pipe fun f hf ↦ ih f hf (h f hf)).group .round
  | optional e ih =>
    rw [Expr.toList_render_optional]
    exact (ih h).group .square
  | star e ih =>
    rw [← Expr.render_optional_plus, Expr.toList_render_optional, Expr.toList_render_plus]
    exact ((ih h).group .curly).group .square
  | plus e ih =>
    rw [Expr.toList_render_plus]
    exact (ih h).group .curly

theorem breaks_range {chars : CharRange} (h : chars.isReadable = false) :
    Breaks chars.render.toList := by
  intro rest _ hfails
  rw [toList_render_range]
  by_cases hfirst : chars.first = '"' ∨ chars.first = '\\'
  · have htail := (hfails.boundary chars.last).append (staysInside_of_plain separates_dots.isPlain)
    exact htail.fails_boundary hfirst
  · obtain ⟨hquote, hbackslash⟩ := not_or.mp hfirst
    have hlast : chars.last = '"' ∨ chars.last = '\\' := by
      by_contra hlast
      obtain ⟨hquote', hbackslash'⟩ := not_or.mp hlast
      simp [CharRange.isReadable, hquote, hbackslash, hquote', hbackslash'] at h
    have hscans (offset : Nat) := @scans_string offset [chars.first]
      fun rest ↦ staysInside_char hquote hbackslash
    exact Scans.fails (fun offset ↦ ⟨_, hscans offset⟩) (separates_dots.delimited _)
      (separates_dots.fails (hfails.fails_boundary hlast))

/-- In a list of expressions the first one that breaks is met by scanning those in front of it. -/
theorem breaks_intercalate (h : Separates separator.toList t)
    (hnames : ∀ f ∈ es, f.hasReadableNames = true)
    (hbreaks : ∀ f ∈ es, f.hasReadableRanges = false → Breaks f.render.toList)
    (hbad : es.all Expr.hasReadableRanges = false) :
    Breaks (separator.intercalate (es.map Expr.render)).toList := by
  induction es with
  | nil => cases hbad
  | cons e es ih =>
    obtain ⟨hname, hnames⟩ := List.forall_mem_cons.mp hnames
    obtain ⟨hbreak, hbreaks⟩ := List.forall_mem_cons.mp hbreaks
    rw [List.all_cons, Bool.and_eq_false_iff] at hbad
    cases es with
    | nil => simpa using hbreak (hbad.resolve_right (by simp))
    | cons g es =>
      intro rest hrest hfails
      have htext : (separator.intercalate ((e :: g :: es).map Expr.render)).toList ++ rest =
          e.render.toList ++ (separator.toList ++
            ((separator.intercalate ((g :: es).map Expr.render)).toList ++ rest)) := by
        simp
      rw [htext]
      cases he : e.hasReadableRanges with
      | true =>
        have hscans (offset : Nat) : ∃ ts, Scans offset e.render.toList ts := by
          obtain ⟨ts, hscans, _⟩ := isWritten_of_readable hname he offset
          exact ⟨ts, hscans⟩
        have htail := ih hnames hbreaks (hbad.resolve_left (by simp [he])) rest hrest hfails
        exact Scans.fails hscans (h.delimited _) (h.fails htail)
      | false =>
        have hkeeps := keepsFailing_intercalate h fun f hf ↦
          keepsFailing_of_readableNames (hnames f hf)
        have htail := (hkeeps rest hrest hfails).append (staysInside_of_plain h.isPlain)
        exact hbreak he _ (h.delimited _) htail

theorem breaks_of_unreadableRange (hnames : e.hasReadableNames = true)
    (hranges : e.hasReadableRanges = false) : Breaks e.render.toList := by
  induction e with
  | symbol | terminal => cases hranges
  | range chars => exact breaks_range hranges
  | seq first second rest ih =>
    rw [Expr.hasReadableNames_seq, List.all_eq_true] at hnames
    rw [Expr.hasReadableRanges_seq] at hranges
    rw [Expr.toList_render_seq]
    have hbreaks := fun f hf ↦ ih f hf (hnames f hf)
    exact breaks_intercalate separates_comma hnames hbreaks hranges
  | choice es ih =>
    rw [Expr.hasReadableNames_choice, List.all_eq_true] at hnames
    rw [Expr.hasReadableRanges_choice] at hranges
    rw [Expr.toList_render_choice]
    have hbreaks := fun f hf ↦ ih f hf (hnames f hf)
    exact (breaks_intercalate separates_pipe hnames hbreaks hranges).group .round
  | optional e ih =>
    rw [Expr.toList_render_optional]
    exact (ih hnames hranges).group .square
  | star e ih =>
    rw [← Expr.render_optional_plus, Expr.toList_render_optional, Expr.toList_render_plus]
    exact ((ih hnames hranges).group .curly).group .square
  | plus e ih =>
    rw [Expr.toList_render_plus]
    exact (ih hnames hranges).group .curly

end Expr

section Rules

variable {rule : Rule} {rules : List Rule} {cs rest : List Char}

theorem isPlain_blank {blank : List Char} (h : IsBlank blank) : IsPlain blank := by
  intro c hc
  have hspace := h c hc
  constructor <;> rintro rfl <;> exact absurd hspace (by decide)

theorem isPlain_semicolon : IsPlain [';'] := by decide

theorem delimited_semicolon (rest : List Char) : Delimited ([';'] ++ rest) :=
  delimited_cons (by decide)

theorem toList_render_rule (rule : Rule) (rest : List Char) : rule.render.toList ++ rest =
    rule.name.toList ++ (" = ".toList ++ (rule.body.render.toList ++ ([';'] ++ rest))) := by
  simp [Rule.render]

theorem failsInside_rule (hname : isReadableName rule.name = true)
    (hbody : rule.body.hasReadableNames = true) (hfails : FailsInside rest) :
    FailsInside (rule.render.toList ++ rest) := by
  have hsemicolon := hfails.append (staysInside_of_plain isPlain_semicolon)
  have hend := keepsFailing_of_readableNames hbody _ (delimited_semicolon rest) hsemicolon
  rw [toList_render_rule]
  exact keepsFailing_name hname _ (separates_equals.delimited _)
    (hend.append (staysInside_of_plain separates_equals.isPlain))

theorem fails_rule (hname : isReadableName rule.name = true)
    (hbody : rule.body.hasReadableNames = true) (hranges : rule.body.hasReadableRanges = false)
    (hfails : FailsInside rest) : Fails (rule.render.toList ++ rest) := by
  have hsemicolon := hfails.append (staysInside_of_plain isPlain_semicolon)
  have hend := breaks_of_unreadableRange hbody hranges _ (delimited_semicolon rest) hsemicolon
  rw [toList_render_rule]
  exact Scans.fails (fun offset ↦ ⟨_, scans_name hname⟩) (separates_equals.delimited _)
    (separates_equals.fails hend)

/-- The names of the rules and in them can be read. -/
def HaveReadableNames (rules : List Rule) : Prop :=
  ∀ rule ∈ rules, isReadableName rule.name = true ∧ rule.body.hasReadableNames = true

theorem AreLines.failsInside (h : AreLines rules cs) (hnames : HaveReadableNames rules) :
    FailsInside cs := by
  induction h with
  | nil => exact failsInside_nil
  | cons hblank _ ih =>
    obtain ⟨⟨hname, hbody⟩, hnames⟩ := List.forall_mem_cons.mp hnames
    have htail := (ih hnames).append (staysInside_of_plain (isPlain_blank hblank))
    exact failsInside_rule hname hbody htail

/-- The rules in front of the first one with an unreadable range are scanned as they should be. -/
theorem AreLines.fails (h : AreLines rules cs) (hnames : HaveReadableNames rules)
    (hbad : ∃ rule ∈ rules, rule.body.hasReadableRanges = false) : Fails cs := by
  induction h with
  | nil =>
    obtain ⟨rule, hrule, _⟩ := hbad
    cases hrule
  | @cons rule rules blank cs hblank hlines ih =>
    obtain ⟨⟨hname, hbody⟩, hnames⟩ := List.forall_mem_cons.mp hnames
    rw [List.exists_mem_cons_iff] at hbad
    by_cases hranges : rule.body.hasReadableRanges = true
    · have hrest : Fails cs := ih hnames (hbad.resolve_left (by simp [hranges]))
      have hwritten := isWritten_of_readable hbody hranges
      refine hrest.of_suffix fun offset ↦ ?_
      obtain ⟨ts, hscans, _⟩ := exists_of_rule hname hwritten offset
      exact ⟨ts, _, by rw [hscans, significantFrom_blank hblank]⟩
    · have htail := (hlines.failsInside hnames).append (staysInside_of_plain (isPlain_blank hblank))
      exact fails_rule hname hbody (Bool.not_eq_true _ ▸ hranges) htail

/-- Each rule brings as many open brackets at once as its expression is nested. -/
theorem AreLines.nesting_le_peak (h : AreLines rules cs)
    (hrules : ∀ rule ∈ rules, isReadableName rule.name = true ∧ IsWritten rule.body)
    (offset : Nat) : ∀ rule ∈ rules, rule.body.nesting ≤ peak (significantFrom offset cs) := by
  induction h generalizing offset with
  | nil =>
    intro rule hrule
    cases hrule
  | cons hblank _ ih =>
    obtain ⟨⟨hname, hbody⟩, hrest⟩ := List.forall_mem_cons.mp hrules
    obtain ⟨ts, hscans, hpeak, hrule⟩ := exists_of_rule hname hbody offset
    rw [hscans, significantFrom_blank hblank, (hrule _ (Nat.le_refl _)).peak_append, hpeak,
      List.forall_mem_cons]
    exact ⟨Nat.le_max_left _ _, fun rule hmem ↦
      Nat.le_trans (ih hrest _ rule hmem) (Nat.le_max_right _ _)⟩

end Rules

/-- Some end of a range is a quote or a backslash, or more groups are inside each other than
reading takes. -/
def Expr.IsUnreadable (e : Expr) : Prop :=
  e.hasReadableRanges = false ∨ maxNesting < e.nesting

theorem Expr.not_isExpr_of_isUnreadable {e : Expr} (hnames : e.hasReadableNames = true)
    (h : e.IsUnreadable) (f : Expr) : ¬IsExpr maxNesting (significant e.render) f := by
  intro hexpr
  have htext : significant e.render = significantFrom 0 (e.render.toList ++ []) := by
    rw [List.append_nil]
    rfl
  rw [htext] at hexpr
  by_cases hranges : e.hasReadableRanges = true
  · have hdepth : maxNesting < e.nesting := h.resolve_left (by simp [hranges])
    obtain ⟨ts, hscans, hpeak, -⟩ := isWritten_of_readable hnames hranges 0
    rw [hscans.tokens [] delimited_nil, significantFrom_nil, List.append_nil] at hexpr
    have hle := hexpr.skeleton.peak_le
    omega
  · have hfails := breaks_of_unreadableRange hnames (Bool.not_eq_true _ ▸ hranges) []
      delimited_nil failsInside_nil
    exact hfails 0 hexpr.skeleton.wellSpaced

theorem AreLines.not_areRules {rules : List Rule} {text : String}
    (h : AreLines rules text.toList) (hnames : HaveReadableNames rules)
    (hbad : ∃ rule ∈ rules, rule.body.IsUnreadable) (rs : List Rule) :
    ¬AreRules maxNesting (significant text) rs := by
  intro hrules
  by_cases hranges : ∃ rule ∈ rules, rule.body.hasReadableRanges = false
  · exact h.fails hnames hranges 0 hrules.wellSpaced
  · have hreadable : ∀ rule ∈ rules, rule.body.hasReadableRanges = true := by
      simpa using hranges
    obtain ⟨rule, hmem, hrule⟩ := hbad
    have hdepth : maxNesting < rule.body.nesting :=
      hrule.resolve_left (by simp [hreadable rule hmem])
    have hwritten : ∀ rule ∈ rules, isReadableName rule.name = true ∧ IsWritten rule.body :=
      fun rule hmem ↦ ⟨(hnames rule hmem).1,
        isWritten_of_readable (hnames rule hmem).2 (hreadable rule hmem)⟩
    have hpeak := h.nesting_le_peak hwritten 0 rule hmem
    have hle : peak (significantFrom 0 text.toList) ≤ maxNesting := hrules.peak_le
    omega

theorem Grammar.read_eq_error_of_isUnreadable {g : Grammar} (hnames : g.hasReadableNames = true)
    (hbad : ∃ rule ∈ g.rules, rule.body.IsUnreadable) (layout : Layout) :
    ∃ ds, ds ≠ [] ∧ Grammar.read (g.renderWith layout) = .error (.malformed ds) := by
  have hall : HaveReadableNames g.rules := by
    intro rule hmem
    rw [hasReadableNames, List.all_eq_true] at hnames
    exact Bool.and_eq_true_iff.mp (hnames rule hmem)
  exact Grammar.read_eq_error ((areLines_renderWith layout g).not_areRules hall hbad)

/-- What cannot be read is reported, and never read as something else. -/
theorem malformed_of_isUnreadable :
    (∀ e : Expr, e.hasReadableNames = true → e.IsUnreadable →
      ∃ d, Expr.read e.render = .error (.malformed [d])) ∧
    ∀ g : Grammar, g.hasReadableNames = true → (∃ rule ∈ g.rules, rule.body.IsUnreadable) →
      (∀ layout, ∃ ds, ds ≠ [] ∧ Grammar.read (g.renderWith layout) = .error (.malformed ds)) ∧
      ∃ ds, ds ≠ [] ∧ Grammar.read g.render = .error (.malformed ds) ∧
        ∀ start, g.compileWith .backtracking start = .error (.malformed ds) := by
  refine ⟨fun e hnames h ↦ ?_, fun g hnames h ↦
    ⟨fun layout ↦ Grammar.read_eq_error_of_isUnreadable hnames h layout, ?_⟩⟩
  · cases hread : Expr.read e.render with
    | ok f =>
      have hphrase := Expr.read_ok_iff_isExpr.mp hread
      exact absurd hphrase (e.not_isExpr_of_isUnreadable hnames h f)
    | error failure =>
      obtain ⟨problem, -, rfl⟩ := Expr.read_error_iff_expr.mp hread
      exact ⟨_, rfl⟩
  · obtain ⟨ds, hne, hread⟩ := Grammar.read_eq_error_of_isUnreadable hnames h {}
    refine ⟨ds, hne, hread, fun start ↦ ?_⟩
    show Backtracking.compile (g.renderWith {}) start = _
    rw [Backtracking.compile, hread]
    rfl

theorem malformed_of_isUnreadable_swallowed_quote :
    let e : Expr := .seq (.range ⟨'\\', '|'⟩) (.terminal "\"; = ") [.symbol "x"]
    let g : Grammar := ⟨[⟨"x", .terminal "\"; y = "⟩, ⟨"z", Nat.repeat .star 65 e⟩], by decide⟩
    e.hasReadableNames = true ∧ e.IsUnreadable ∧ g.hasReadableNames = true ∧
      (∃ rule ∈ g.rules, rule.body.IsUnreadable) ∧
      (∃ d, Expr.read e.render = .error (.malformed [d])) ∧
      (∀ layout, ∃ ds, ds ≠ [] ∧ Grammar.read (g.renderWith layout) = .error (.malformed ds)) ∧
      ∃ ds, ds ≠ [] ∧ Grammar.read g.render = .error (.malformed ds) ∧
        ∀ start, g.compileWith .backtracking start = .error (.malformed ds) := by
  intro e g
  have hname : e.hasReadableNames = true := by decide
  have hrange : e.IsUnreadable := .inl (by decide)
  have hnames : g.hasReadableNames = true := by decide
  have hdepth : ∃ rule ∈ g.rules, rule.body.IsUnreadable :=
    ⟨⟨"z", Nat.repeat .star 65 e⟩, by simp [g], .inr (by decide)⟩
  exact ⟨hname, hrange, hnames, hdepth, malformed_of_isUnreadable.1 e hname hrange,
    malformed_of_isUnreadable.2 g hnames hdepth⟩

end Ebnf
