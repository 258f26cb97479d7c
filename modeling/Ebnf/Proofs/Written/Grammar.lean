import Ebnf.Backtracking
import Ebnf.Proofs.Grammar.Folding
import Ebnf.Proofs.Phrase.Rules
import Ebnf.Proofs.Written.Expr

/-!
Written grammars are read back. In whatever layout, the text of a grammar is the texts of its
rules with nothing but white space behind each, and the text of a rule ends with a token that
nothing behind it can change. So the rules are read one by one and in order, and since their
names are distinct none is folded into another. An engine that is handed the text compiles the
normal form of the grammar.
-/

set_option autoImplicit false
set_option relaxedAutoImplicit false

namespace Ebnf

open Reading Token

def Rule.normalize (rule : Rule) : Rule :=
  ⟨rule.name, rule.body.normalize⟩

/-- The grammar with the normal form of every rule. -/
def Grammar.normalize (g : Grammar) : Grammar where
  rules := g.rules.map Rule.normalize
  nodup_names := by
    rw [List.map_map]
    exact g.nodup_names

theorem Rule.render_normalize (rule : Rule) : rule.normalize.render = rule.render := by
  rw [render, render, normalize, Expr.render_normalize]

namespace Grammar

theorem renderWith_normalize (layout : Layout) (g : Grammar) :
    g.normalize.renderWith layout = g.renderWith layout := by
  have hlines : g.normalize.rules.map Rule.render = g.rules.map Rule.render := by
    rw [normalize, List.map_map]
    exact List.map_congr_left fun rule _ ↦ rule.render_normalize
  have hempty : g.normalize.isEmpty = g.isEmpty := List.isEmpty_map
  rw [renderWith, renderWith, hlines, hempty]

theorem contains_normalize (g : Grammar) (name : String) :
    g.normalize.contains name = g.contains name := by
  rw [contains, contains, find?, find?, normalize, List.find?_map, Option.isSome_map,
    Option.isSome_map, Option.isSome_map]
  rfl

end Grammar

/-- Nothing but white space. -/
def IsBlank (cs : List Char) : Prop :=
  ∀ c ∈ cs, Unicode.isWhiteSpace c = true

instance (cs : List Char) : Decidable (IsBlank cs) :=
  List.decidableBAll _ cs

theorem significantFrom_blank {blank : List Char} (h : IsBlank blank) (offset : Nat)
    (cs : List Char) :
    significantFrom offset (blank ++ cs) = significantFrom (offset + byteLength blank) cs := by
  induction blank generalizing offset with
  | nil => rfl
  | cons c blank ih =>
    obtain ⟨hc, hblank⟩ := List.forall_mem_cons.mp h
    rw [List.cons_append, significantFrom_whiteSpace hc, ih hblank, byteLength_cons, Nat.add_assoc]

/-- The texts of rules, one behind the other, each with white space behind it. -/
inductive AreLines : List Rule → List Char → Prop
  | nil : AreLines [] []
  | cons {rule : Rule} {rules : List Rule} {blank cs : List Char} : IsBlank blank →
    AreLines rules cs → AreLines (rule :: rules) (rule.render.toList ++ (blank ++ cs))

theorem isBlank_lineEnding (ending : LineEnding) : IsBlank ending.text.toList := by
  cases ending <;> decide

theorem areLines_intercalate (ending : LineEnding) {blank : List Char} (hblank : IsBlank blank)
    (rules : List Rule) (rule : Rule) : AreLines (rule :: rules)
      ((ending.text.intercalate ((rule :: rules).map Rule.render)).toList ++ blank) := by
  induction rules generalizing rule with
  | nil => simpa using @AreLines.cons rule _ _ _ hblank .nil
  | cons next rules ih =>
    have h := @AreLines.cons rule _ _ _ (isBlank_lineEnding ending) (ih next)
    simpa using h

/-- The layout decides only about the white space. -/
theorem areLines_renderWith (layout : Layout) (g : Grammar) :
    AreLines g.rules (g.renderWith layout).toList := by
  unfold Grammar.renderWith Grammar.isEmpty
  cases g.rules with
  | nil => simpa using AreLines.nil
  | cons rule rules =>
    have hnil : IsBlank [] := fun c hc ↦ absurd hc List.not_mem_nil
    dsimp only
    split
    · rw [String.toList_append]
      exact areLines_intercalate _ (isBlank_lineEnding _) rules rule
    · have h := areLines_intercalate layout.lineEnding hnil rules rule
      rwa [List.append_nil] at h

theorem separates_equals : Separates " = ".toList fun offset ↦ ⟨.equals, "=", offset + 1⟩ :=
  separates_spaced rfl

/-- The semicolon makes the tokens of a rule the same whatever comes behind it. -/
theorem exists_of_rule {rule : Rule} (hname : isReadableName rule.name = true)
    (hbody : IsWritten rule.body) (offset : Nat) :
    ∃ ts, (∀ rest, significantFrom offset (rule.render.toList ++ rest) =
      ts ++ significantFrom (offset + byteLength rule.render.toList) rest) ∧
        peak ts = rule.body.nesting ∧
          ∀ n, rule.body.nesting ≤ n → IsRule n ts rule.normalize := by
  obtain ⟨body, hscans, hpeak, hitems⟩ := hbody
    (offset + byteLength rule.name.toList + byteLength " = ".toList)
  have hself := (hitems _ (Nat.le_refl _)).skeleton
  have hequation := Scans.separated separates_equals (scans_name hname) hscans
  have hrender : rule.render.toList =
      rule.name.toList ++ " = ".toList ++ rule.body.render.toList ++ [';'] := by
    simp [Rule.render]
  generalize rule.name.toList ++ " = ".toList ++ rule.body.render.toList = equation
    at hequation hrender
  have hdelimited (rest : List Char) : Delimited (';' :: rest) := delimited_cons (by decide)
  have hsemicolon : Kind.ofPunctuation? ';' = some .semicolon := rfl
  refine ⟨⟨.name, rule.name, offset⟩ :: ⟨.equals, "=", offset + byteLength rule.name.toList + 1⟩ ::
    body ++ [⟨.semicolon, ";", offset + byteLength equation⟩], fun rest ↦ ?_, ?_, fun n hn ↦ ?_⟩
  · rw [hrender, List.append_assoc, List.singleton_append, hequation.tokens _ (hdelimited rest),
      significantFrom_punctuation hsemicolon]
    simp [Nat.add_assoc]
  · rw [← hpeak]
    simp [peak, hself.peak_append]
  · exact .mk rfl rfl (.of_items (hitems n hn)) rfl

/-- Each line is read as the rule that it is the text of. -/
theorem AreLines.areRules {n : Nat} {rules : List Rule} {cs : List Char} (h : AreLines rules cs)
    (hrules : ∀ rule ∈ rules,
      isReadableName rule.name = true ∧ IsWritten rule.body ∧ rule.body.nesting ≤ n)
    (offset : Nat) : AreRules n (significantFrom offset cs) (rules.map Rule.normalize) := by
  induction h generalizing offset with
  | nil =>
    rw [significantFrom_nil]
    exact .nil
  | cons hblank _ ih =>
    obtain ⟨⟨hname, hbody, hnesting⟩, hrest⟩ := List.forall_mem_cons.mp hrules
    obtain ⟨ts, hscans, -, hrule⟩ := exists_of_rule hname hbody offset
    rw [hscans, significantFrom_blank hblank]
    exact .cons (hrule n hnesting) (ih hrest _)

theorem Grammar.readable_rule {g : Grammar} (hnames : g.hasReadableNames = true)
    (hranges : g.hasReadableRanges = true) {rule : Rule} (h : rule ∈ g.rules) :
    isReadableName rule.name = true ∧ IsWritten rule.body := by
  rw [hasReadableNames, List.all_eq_true] at hnames
  rw [hasReadableRanges, List.all_eq_true] at hranges
  obtain ⟨hname, hbody⟩ := Bool.and_eq_true_iff.mp (hnames rule h)
  exact ⟨hname, isWritten_of_readable hbody (hranges rule h)⟩

theorem Rule.readAll_renderWith {g : Grammar} (hnames : g.hasReadableNames = true)
    (hranges : g.hasReadableRanges = true)
    (hdepth : ∀ rule ∈ g.rules, rule.body.nesting ≤ maxNesting) (layout : Layout) :
    Rule.readAll (g.renderWith layout) = .ok (g.rules.map Rule.normalize) := by
  refine Rule.readAll_eq_ok_iff.mpr ((areLines_renderWith layout g).areRules ?_ 0)
  intro rule h
  obtain ⟨hname, hbody⟩ := Grammar.readable_rule hnames hranges h
  exact ⟨hname, hbody, hdepth rule h⟩

theorem Grammar.read_renderWith_of_readable {g : Grammar} (hnames : g.hasReadableNames = true)
    (hranges : g.hasReadableRanges = true)
    (hdepth : ∀ rule ∈ g.rules, rule.body.nesting ≤ maxNesting) (layout : Layout) :
    Grammar.read (g.renderWith layout) = .ok g.normalize := by
  rw [Grammar.read, Rule.readAll_renderWith hnames hranges hdepth, ← g.normalize.ofRules_rules]
  rfl

/-- The rules of a readable grammar are read in order, none merged or lost, and make its normal
form, which has the same text; an engine compiles it for the start symbols that it defines. -/
theorem Grammar.read_renderWith (g : Grammar) (layout : Layout)
    (hnames : g.hasReadableNames = true) (hranges : g.hasReadableRanges = true)
    (hdepth : ∀ rule ∈ g.rules, rule.body.nesting ≤ maxNesting) :
    Rule.readAll (g.renderWith layout) = .ok (g.rules.map Rule.normalize) ∧
      Grammar.read (g.renderWith layout) = .ok g.normalize ∧
      g.normalize.render = g.render ∧
      ∀ start, g.compileWith .backtracking start =
        if g.contains start then .ok ⟨g.normalize, start⟩ else .error (.unknownStart start) := by
  refine ⟨Rule.readAll_renderWith hnames hranges hdepth layout,
    read_renderWith_of_readable hnames hranges hdepth layout, renderWith_normalize {} g,
    fun start ↦ ?_⟩
  show Backtracking.compile (g.renderWith {}) start = _
  rw [Backtracking.compile, read_renderWith_of_readable hnames hranges hdepth]
  show (if g.normalize.contains start then _ else _) = _
  rw [contains_normalize]
  split <;> rfl

theorem Grammar.read_renderWith_crlf :
    let g : Grammar := ⟨[⟨"text", .optional (.plus (.symbol "line"))⟩,
      ⟨"line", .seq (.seq (.terminal "end = \";\n") (.range ⟨'a', ';'⟩) []) (.choice []) []⟩],
      by decide⟩
    let layout : Layout := ⟨.crlf, true⟩
    g.hasReadableNames = true ∧ g.hasReadableRanges = true ∧
      (∀ rule ∈ g.rules, rule.body.nesting ≤ maxNesting) ∧
      Rule.readAll (g.renderWith layout) = .ok (g.rules.map Rule.normalize) ∧
      Grammar.read (g.renderWith layout) = .ok g.normalize ∧
      g.normalize.render = g.render ∧
      ∀ start, g.compileWith .backtracking start =
        if g.contains start then .ok ⟨g.normalize, start⟩ else .error (.unknownStart start) := by
  intro g layout
  have hnames : g.hasReadableNames = true := by decide
  have hranges : g.hasReadableRanges = true := by decide
  have hdepth : ∀ rule ∈ g.rules, rule.body.nesting ≤ maxNesting := by decide
  exact ⟨hnames, hranges, hdepth, g.read_renderWith layout hnames hranges hdepth⟩

end Ebnf
