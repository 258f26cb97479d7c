import Ebnf.Proofs.Language.Normal
import Ebnf.Proofs.Parsing.Depth

/-!
Parsing with a grammar that has been written and read again. The engine is handed the text of the
grammar and parses with its normal form, which derives what the grammar derives on no more levels.
-/

set_option autoImplicit false
set_option relaxedAutoImplicit false

namespace Ebnf

open Reading Token

theorem Grammar.compileWith_of_readable {g : Grammar} {start : String}
    (hnames : g.hasReadableNames = true) (hranges : g.hasReadableRanges = true)
    (hdepth : ∀ rule ∈ g.rules, rule.body.nesting ≤ maxNesting)
    (hstart : g.contains start = true) :
    g.compileWith .backtracking start = .ok ⟨g.normalize, start⟩ := by
  have hread : Grammar.read g.render = .ok g.normalize :=
    read_renderWith_of_readable hnames hranges hdepth {}
  show Backtracking.compile g.render start = _
  rw [Backtracking.compile, hread]
  show (if g.normalize.contains start then _ else _) = _
  rw [contains_normalize, hstart]
  rfl

/-- The engine that compiles a readable grammar parses only inputs that the grammar derives from
the start symbol, and all that it derives on the levels that are looked at. -/
theorem Grammar.parse_compileWith (g : Grammar) (start : String)
    (hnames : g.hasReadableNames = true) (hranges : g.hasReadableRanges = true)
    (hdepth : ∀ rule ∈ g.rules, rule.body.nesting ≤ maxNesting)
    (hstart : g.contains start = true) :
    ∃ compiled, g.compileWith .backtracking start = .ok compiled ∧ ∀ input : String,
      ((∃ t, Engine.backtracking.parse compiled input = .ok t) →
        Derives g.definitions (.symbol start) input.toList) ∧
      (DerivesWithin g.definitions (Backtracking.maxDepth + 1) (.symbol start) input.toList →
        ∃ t, Engine.backtracking.parse compiled input = .ok t) := by
  refine ⟨⟨g.normalize, start⟩, compileWith_of_readable hnames hranges hdepth hstart,
    fun input ↦ ⟨fun hparse ↦ ?_, fun hderives ↦ ?_⟩⟩
  · exact g.sameBodies_normalize.derives_iff.mp ⟨_, Backtracking.parse_isOk_iff.mp hparse⟩
  · exact Backtracking.parse_isOk_iff.mpr
      (hderives.normalize fun _ _ hdef ↦ g.definitions_normalize hdef)

theorem Grammar.parse_compileWith_regrouped :
    let g : Grammar := ⟨[⟨"list", .optional (.plus (.symbol "item"))⟩, ⟨"item",
      .seq (.seq (.terminal "\"") (.symbol "list") []) (.range ⟨']', '}'⟩) []⟩], by decide⟩
    let input := "\"]"
    g.hasReadableNames = true ∧ g.hasReadableRanges = true ∧
      (∀ rule ∈ g.rules, rule.body.nesting ≤ maxNesting) ∧ g.contains "list" = true ∧
      DerivesWithin g.definitions (Backtracking.maxDepth + 1) (.symbol "list") input.toList ∧
      ∃ compiled, g.compileWith .backtracking "list" = .ok compiled ∧
        (∃ t, Engine.backtracking.parse compiled input = .ok t) ∧
        Derives g.definitions (.symbol "list") input.toList := by
  intro g input
  have hnames : g.hasReadableNames = true := by decide
  have hranges : g.hasReadableRanges = true := by decide
  have hdepth : ∀ rule ∈ g.rules, rule.body.nesting ≤ maxNesting := by decide
  have hstart : g.contains "list" = true := by decide
  have hlist : DerivesWithin g.definitions 2 (.symbol "list") [] :=
    .symbol List.mem_cons_self .omitted
  have hopening : DerivesWithin g.definitions 3 (.seq (.terminal "\"") (.symbol "list") []) ['"'] :=
    .seq (.cons .terminal (.cons hlist .nil))
  have hclosing : DerivesWithin g.definitions 3 (.range ⟨']', '}'⟩) [']'] := .range (by decide)
  have hitem : DerivesWithin g.definitions 5 (.symbol "item") ['"', ']'] :=
    .symbol (List.mem_cons_of_mem _ List.mem_cons_self)
      (.seq (.cons hopening (.cons hclosing .nil)))
  have hbody : DerivesWithin g.definitions 7 (.optional (.plus (.symbol "item"))) ['"', ']'] :=
    .optional (.plus 0 (deriveWithin_singleton hitem))
  have hderives : DerivesWithin g.definitions (Backtracking.maxDepth + 1) (.symbol "list")
      input.toList := by
    have hinput : input.toList = ['"', ']'] := by decide
    rw [hinput]
    exact DerivesWithin.mono (.symbol List.mem_cons_self hbody) (by decide)
  obtain ⟨compiled, hcompile, hparses⟩ :=
    g.parse_compileWith "list" hnames hranges hdepth hstart
  have hparse := (hparses input).2 hderives
  exact ⟨hnames, hranges, hdepth, hstart, hderives, compiled, hcompile, hparse,
    (hparses input).1 hparse⟩

end Ebnf
