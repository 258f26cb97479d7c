import Ebnf.Proofs.Token.Continued
import Ebnf.Proofs.Written.Append
import Ebnf.Proofs.Written.Grammar

/-!
An expression that is read alone and as the body of a rule. What stands around the body, a name, an
equals sign and a semicolon, changes nothing about its tokens but where they stand, unless there is
a string in it that does not end; and such a string takes the semicolon in, so that there is no
rule either. So the text of a rule is read as one rule exactly if its body is read as an
expression.
-/

set_option autoImplicit false
set_option relaxedAutoImplicit false

namespace Ebnf

namespace Token

/-- A semicolon ends whatever token it stands behind, but for a string. -/
theorem Kind.endsBefore_semicolon {kind : Kind} (h : kind ≠ .unterminatedString) :
    kind.EndsBefore [';'] := by
  have hplain : Unicode.isWhiteSpace ';' = false ∧ isNameChar ';' = false := by decide
  cases kind with
  | unterminatedString => exact absurd rfl h
  | whitespace => simpa [EndsBefore] using hplain.1
  | name => simpa [EndsBefore] using hplain.2
  | ellipsis => simp [EndsBefore, hplain]
  | _ => trivial

theorem significantFrom_semicolon {text : String}
    (h : ∀ t ∈ significant text, t.kind ≠ .unterminatedString) (offset : Nat) :
    significantFrom offset (text.toList ++ [';']) = (significant text).map (shift offset) ++
      [⟨.semicolon, ";", offset + text.utf8ByteSize⟩] := by
  have hlast : ∀ t ∈ (scan text).getLast?, t.kind.EndsBefore [';'] := by
    intro t ht
    refine Kind.endsBefore_semicolon fun hkind ↦ h t ?_ hkind
    exact List.mem_filter.mpr ⟨List.mem_of_getLast? ht, by simp [isTrivia, hkind, Kind.isTrivia]⟩
  have hscan : significantFrom 0 (text.toList ++ [';']) = significant text ++
      significantFrom text.utf8ByteSize [';'] := by
    rw [significantFrom, scanFrom_append hlast, List.filter_append]
    rfl
  have hsemicolon : Kind.ofPunctuation? ';' = some .semicolon := rfl
  rw [← Nat.add_zero offset, significantFrom_shift, hscan,
    significantFrom_punctuation hsemicolon, significantFrom_nil, List.map_append]
  rfl

end Token

open Reading Token

namespace Reading

theorem isExpr_shift {n : Nat} {ts : List Token} (hts : ∀ t ∈ ts, t.IsScanned) {e : Expr} :
    IsExpr maxNesting (ts.map (Token.shift n)) e ↔ IsExpr maxNesting ts e := by
  have hexpr := expr_shift n ts
  have hshift : ∀ t ∈ ts.map (Token.shift n), t.IsScanned :=
    List.forall_mem_map.mpr fun t ht ↦ (hts t ht).congr rfl rfl
  rw [← expr_eq_ok_iff hts, ← expr_eq_ok_iff hshift]
  generalize expr ts = result, expr (ts.map (Token.shift n)) = result' at hexpr
  cases hexpr with
  | ok heq => rw [heq]
  | error => exact ⟨nofun, nofun⟩

theorem isRule_iff {n : Nat} {name equals semicolon : Token} {body : List Token} {rule : Rule} :
    IsRule n (name :: equals :: (body ++ [semicolon])) rule ↔ name.kind = .name ∧
      equals.kind = .equals ∧ semicolon.kind = .semicolon ∧ rule.name = name.text ∧
        IsExpr n body rule.body := by
  constructor
  · intro h
    generalize hts : name :: equals :: (body ++ [semicolon]) = ts at h
    cases h with
    | mk hname hequals hbody hsemicolon =>
      simp only [List.cons_append, List.cons.injEq, List.append_singleton_inj] at hts
      obtain ⟨rfl, rfl, rfl, rfl⟩ := hts
      exact ⟨hname, hequals, hsemicolon, rfl, hbody⟩
  · rintro ⟨hname, hequals, hsemicolon, hrule, hbody⟩
    obtain ⟨_, e⟩ := rule
    dsimp only at hrule
    subst hrule
    exact .mk hname hequals hbody hsemicolon

end Reading

/-- The text of a rule with the text of its body. -/
def ruleText (name body : String) : String :=
  name ++ " = " ++ body ++ ";"

/-- The byte at which the body begins in the text of a rule of this name. -/
def bodyOffset (name : String) : Nat :=
  byteLength (name ++ " = ").toList

section RuleText

variable {name body : String} {rule : Rule}

theorem significant_ruleText (hname : isReadableName name = true) (body : String) :
    significant (ruleText name body) = ⟨.name, name, 0⟩ ::
      ⟨.equals, "=", byteLength name.toList + 1⟩ ::
        significantFrom (bodyOffset name) (body.toList ++ [';']) := by
  have htext : (ruleText name body).toList =
      name.toList ++ (" = ".toList ++ (body.toList ++ [';'])) := by
    simp [ruleText]
  rw [significant_eq_significantFrom, htext, (scans_name hname).tokens _
    (separates_equals.delimited _), separates_equals.tokens]
  simp [bodyOffset]

/-- The tokens of the text are a rule exactly if those of its body are an expression. -/
theorem isRule_ruleText_iff (hname : isReadableName name = true) :
    IsRule maxNesting (significant (ruleText name body)) rule ↔
      rule.name = name ∧ IsExpr maxNesting (significant body) rule.body := by
  rw [significant_ruleText hname]
  by_cases hended : ∀ t ∈ significant body, t.kind ≠ .unterminatedString
  · rw [significantFrom_semicolon hended, isRule_iff, isExpr_shift (isScanned_significant body)]
    simp
  · -- The string that does not end takes the semicolon in, and no phrase has such a string.
    simp only [not_forall, not_not] at hended
    obtain ⟨t, ht, hkind⟩ := hended
    refine iff_of_false (fun hrule ↦ ?_) fun ⟨_, hbody⟩ ↦ hbody.skeleton.wellSpaced.1 t ht hkind
    have hquote : '"' ∉ [';'] := by decide
    obtain ⟨u, hu, hopen⟩ := exists_unterminated_append ht hkind hquote
    have hshift : u.shift (bodyOffset name) ∈
        significantFrom (bodyOffset name) (body.toList ++ [';']) := by
      rw [← Nat.add_zero (bodyOffset name), significantFrom_shift]
      exact List.mem_map_of_mem hu
    exact hrule.wellSpaced.1 _ (List.mem_cons_of_mem _ (List.mem_cons_of_mem _ hshift)) hopen

end RuleText

/-- A text is read as an expression exactly if the text of the rule with it as the body is read as
that one rule. If the text of the rule is read as one rule at all, it is the rule of that name. -/
theorem Rule.readAll_ruleText_iff (name body : String) (hname : isReadableName name = true) :
    (∀ e, Expr.read body = .ok e ↔ Rule.readAll (ruleText name body) = .ok [⟨name, e⟩]) ∧
      ∀ rule, Rule.readAll (ruleText name body) = .ok [rule] →
        rule.name = name ∧ Expr.read body = .ok rule.body := by
  have hone (rule : Rule) : Rule.readAll (ruleText name body) = .ok [rule] ↔
      rule.name = name ∧ Expr.read body = .ok rule.body := by
    rw [readAll_eq_ok_iff, areRules_singleton_iff, isRule_ruleText_iff hname,
      Expr.read_ok_iff_isExpr]
  exact ⟨fun e ↦ ((hone ⟨name, e⟩).trans (and_iff_right rfl)).symm, fun rule ↦ (hone rule).mp⟩

theorem Rule.readAll_ruleText_iff_apart :
    let name := "list"
    let body := "[\x7bitem, \";\" | \".\" ... \"z\"\x7d ]"
    let e : Expr := .optional (.plus (.choice
      [.seq (.symbol "item") (.terminal ";") [], .range ⟨'.', 'z'⟩]))
    isReadableName name = true ∧ Expr.read body = .ok e ∧
      Rule.readAll (ruleText name body) = .ok [⟨name, e⟩] := by
  intro name body e
  have hname : isReadableName name = true := by decide
  have hexpr : Reading.expr (significant body) = .ok e := by cbv
  have hread : Expr.read body = .ok e := Expr.read_ok_iff_expr.mpr hexpr
  exact ⟨hname, hread, ((Rule.readAll_ruleText_iff name body hname).1 e).mp hread⟩

end Ebnf
