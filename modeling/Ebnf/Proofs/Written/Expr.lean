import Ebnf.Expr.Readable
import Ebnf.Proofs.Expr.NormalForm
import Ebnf.Proofs.Phrase.Shape
import Ebnf.Proofs.Written.Scan

/-!
Written expressions are read back. The text of an expression whose names and range ends can be
read is scanned to a phrase for its normal form, with as many brackets open at once as the
expression has groups inside each other; so reading it succeeds where that is not too many, and
gives the normal form.
-/

set_option autoImplicit false
set_option relaxedAutoImplicit false

namespace Ebnf

open Reading Token

/-- The text is scanned to the tokens, whatever comes behind it as long as that is a delimiter,
and the tokens begin and end where the text does. -/
structure Scans (offset : Nat) (cs : List Char) (ts : List Token) : Prop where
  tokens : ∀ rest, Delimited rest →
    significantFrom offset (cs ++ rest) = ts ++ significantFrom (offset + byteLength cs) rest
  startsAt : StartsAt ts offset
  endsAt : EndsAt ts (offset + byteLength cs)

section Scans

variable {offset : Nat} {cs ds : List Char} {ts us : List Token}

theorem endsAt_append_of_endsAt {stop : Nat} (h : EndsAt us stop) : EndsAt (ts ++ us) stop := by
  unfold EndsAt at *
  cases hl : us.getLast? with
  | none => rw [hl] at h; cases h
  | some t => rwa [List.getLast?_append, hl, Option.some_or, ← hl]

theorem startsAt_append_of_startsAt {start : Nat} (h : StartsAt ts start) :
    StartsAt (ts ++ us) start := by
  unfold StartsAt at *
  cases hs : ts.head? with
  | none => rw [hs] at h; cases h
  | some t => rwa [List.head?_append, hs, Option.some_or, ← hs]

theorem scans_name {name : String} (h : isReadableName name = true) :
    Scans offset name.toList [⟨.name, name, offset⟩] := by
  simp only [isReadableName, Bool.and_eq_true, Bool.not_eq_true', bne_iff_ne, List.all_eq_true] at h
  obtain ⟨⟨hempty, hchars⟩, hdots⟩ := h
  have hne : name.toList ≠ [] := by
    intro hnil
    rw [String.toList_eq_nil_iff] at hnil
    simp [hnil] at hempty
  have hkind (rest : List Char) : runKind name.toList rest = .name := by
    have hrun : name.toList ≠ ['.', '.', '.'] := fun heq ↦ hdots (String.toList_inj.mp heq)
    simp [runKind, hrun]
  refine ⟨fun rest hrest ↦ ?_, by simp, ?_⟩
  · rw [significantFrom_run hne hchars fun d hd ↦ (hrest d hd).1, hkind, String.ofList_toList]
    rfl
  · simp [EndsAt, Token.stop, byteLength_toList]

theorem scans_string {inside : List Char} (h : ∀ rest, StaysInside inside rest) :
    Scans offset ('"' :: inside ++ ['"'])
      [⟨.string, String.ofList ('"' :: inside ++ ['"']), offset⟩] := by
  refine ⟨fun rest _ ↦ ?_, by simp, by simp [EndsAt, Token.stop, byteLength]⟩
  have hsplit := splitAtQuote?_of_staysInside (h ('"' :: rest))
  have htext : '"' :: inside ++ ['"'] ++ rest = '"' :: (inside ++ '"' :: rest) := by simp
  rw [htext, significantFrom_string hsplit]
  rfl

theorem scans_brackets (bracket : Bracket) (h : ∀ rest, Delimited rest →
    significantFrom (offset + 1) (cs ++ rest) =
      ts ++ significantFrom (offset + 1 + byteLength cs) rest) :
    ∃ left right, ArePair bracket left right ∧ left.stop = offset + 1 ∧
      right.offset = offset + 1 + byteLength cs ∧
        Scans offset (bracket.opener :: cs ++ [bracket.closer]) (left :: ts ++ [right]) := by
  have hopen : Kind.ofPunctuation? bracket.opener = some (.opening bracket) := by
    cases bracket <;> rfl
  have hclose : Kind.ofPunctuation? bracket.closer = some (.closing bracket) := by
    cases bracket <;> rfl
  have hopenSize : bracket.opener.utf8Size = 1 := by cases bracket <;> rfl
  have hcloseSize : bracket.closer.utf8Size = 1 := by cases bracket <;> rfl
  have hdelimiter : isNameChar bracket.closer = false ∧ bracket.closer ≠ '"' := by
    cases bracket <;> decide
  have hsize (c : Char) : (String.ofList [c]).utf8ByteSize = c.utf8Size := byteLength_cons c []
  refine ⟨⟨.opening bracket, String.ofList [bracket.opener], offset⟩,
    ⟨.closing bracket, String.ofList [bracket.closer], offset + 1 + byteLength cs⟩,
    ⟨rfl, rfl⟩, ?_, rfl, fun rest _ ↦ ?_, by simp, ?_⟩
  · rw [Token.stop, hsize, hopenSize]
  · rw [List.cons_append, List.cons_append, significantFrom_punctuation hopen, hopenSize,
      List.append_assoc, List.singleton_append, h _ (delimited_cons hdelimiter),
      significantFrom_punctuation hclose]
    simp [hopenSize, hcloseSize, Nat.add_assoc]
  · rw [endsAt_append_singleton, Token.stop, hsize]
    simp [hopenSize, hcloseSize, Nat.add_assoc]

/-- Brackets are written so that they touch what is in them. -/
theorem Scans.group (bracket : Bracket) (h : Scans (offset + 1) cs ts) :
    ∃ left right, ArePair bracket left right ∧ TouchesBoth left right ts ∧
      Scans offset (bracket.opener :: cs ++ [bracket.closer]) (left :: ts ++ [right]) := by
  obtain ⟨left, right, hpair, hleft, hright, hscans⟩ := scans_brackets bracket h.tokens
  refine ⟨left, right, hpair, ?_, hscans⟩
  have hne : ts ≠ [] := by
    rintro rfl
    cases h.startsAt
  rw [touchesBoth_iff hne, hleft, hright]
  exact ⟨h.startsAt, h.endsAt⟩

/-- The text is a delimiter that strings do not care about, and is scanned to one token, which
depends on where it begins. -/
structure Separates (separator : List Char) (t : Nat → Token) : Prop where
  delimited : ∀ rest, Delimited (separator ++ rest)
  isPlain : IsPlain separator
  tokens : ∀ offset rest, significantFrom offset (separator ++ rest) =
    t offset :: significantFrom (offset + byteLength separator) rest

/-- Two pieces with a separator between them. -/
theorem Scans.separated {separator : List Char} {t : Nat → Token} (h : Separates separator t)
    (hfirst : Scans offset cs ts)
    (hrest : Scans (offset + byteLength cs + byteLength separator) ds us) :
    Scans offset (cs ++ separator ++ ds) (ts ++ t (offset + byteLength cs) :: us) := by
  refine ⟨fun rest hr ↦ ?_, startsAt_append_of_startsAt hfirst.startsAt, ?_⟩
  · rw [List.append_assoc, List.append_assoc, hfirst.tokens _ (h.delimited _), h.tokens,
      hrest.tokens rest hr]
    simp [Nat.add_assoc]
  · have hend := hrest.endsAt
    rw [Nat.add_assoc, Nat.add_assoc, ← byteLength_append, ← byteLength_append,
      ← List.append_assoc] at hend
    rw [← List.singleton_append]
    exact endsAt_append_of_endsAt (endsAt_append_of_endsAt hend)

end Scans

theorem separates_comma : Separates ", ".toList fun offset ↦ ⟨.comma, ",", offset⟩ := by
  have htoList : ", ".toList = [',', ' '] := rfl
  have hcomma : Kind.ofPunctuation? ',' = some .comma := rfl
  have hspace : Unicode.isWhiteSpace ' ' = true := by decide
  rw [htoList]
  refine ⟨fun rest ↦ delimited_cons (by decide), by decide, fun offset rest ↦ ?_⟩
  rw [List.cons_append, significantFrom_punctuation hcomma, List.singleton_append,
    significantFrom_whiteSpace hspace]
  simp [Nat.add_assoc]

theorem separates_spaced {c : Char} {kind : Kind} (h : Kind.ofPunctuation? c = some kind) :
    Separates [' ', c, ' '] fun offset ↦ ⟨kind, String.ofList [c], offset + 1⟩ := by
  have hspace : Unicode.isWhiteSpace ' ' = true := by decide
  have hsize : ' '.utf8Size = 1 := rfl
  have hplain : c ≠ '"' ∧ c ≠ '\\' := by constructor <;> rintro rfl <;> cases h
  refine ⟨fun rest ↦ delimited_cons (by decide), by simp [IsPlain, hplain], fun offset rest ↦ ?_⟩
  rw [List.cons_append, significantFrom_whiteSpace hspace, List.cons_append,
    significantFrom_punctuation h, List.singleton_append, significantFrom_whiteSpace hspace]
  simp [hsize, Nat.add_assoc]

theorem separates_pipe : Separates " | ".toList fun offset ↦ ⟨.pipe, "|", offset + 1⟩ :=
  separates_spaced rfl

/-- The space behind the three dots makes them a token of their own. -/
theorem separates_dots : Separates " ... ".toList fun offset ↦ ⟨.ellipsis, "...", offset + 1⟩ := by
  have htoList : " ... ".toList = ' ' :: (['.', '.', '.'] ++ [' ']) := rfl
  have hspace : Unicode.isWhiteSpace ' ' = true := by decide
  have hsize : ' '.utf8Size = 1 := rfl
  have hdots : ∀ c ∈ ['.', '.', '.'], isNameChar c = true := List.all_eq_true.mp (by decide)
  have hend (rest : List Char) : ∀ c ∈ (' ' :: rest).head?, isNameChar c = false := by
    simp [isNameChar, hspace]
  have hkind (rest : List Char) : runKind ['.', '.', '.'] (' ' :: rest) = .ellipsis := by
    simp [runKind, wideSpaceFollows]
  rw [htoList]
  refine ⟨fun rest ↦ delimited_cons (by decide), by decide, fun offset rest ↦ ?_⟩
  rw [List.cons_append, significantFrom_whiteSpace hspace, List.append_assoc, List.singleton_append,
    significantFrom_run (List.cons_ne_nil _ _) hdots (hend rest), hkind,
    significantFrom_whiteSpace hspace]
  simp [hsize, Nat.add_assoc]

namespace Expr

section Render

variable (e first second : Expr) (es rest : List Expr)

theorem toList_render_seq : (seq first second rest).render.toList =
    (", ".intercalate ((first :: second :: rest).map render)).toList := by
  rw [render, renderAll_eq_map]
  rfl

theorem toList_render_choice : (choice es).render.toList = Bracket.round.opener ::
    (" | ".intercalate (es.map render)).toList ++ [Bracket.round.closer] := by
  rw [render, renderAll_eq_map, String.toList_append, String.toList_append]
  rfl

theorem toList_render_optional : (optional e).render.toList =
    Bracket.square.opener :: e.render.toList ++ [Bracket.square.closer] := by
  rw [render, String.toList_append, String.toList_append]
  rfl

theorem toList_render_plus : (plus e).render.toList =
    Bracket.curly.opener :: e.render.toList ++ [Bracket.curly.closer] := by
  rw [render, String.toList_append, String.toList_append]
  rfl

theorem render_optional_plus : (optional (plus e)).render = (star e).render := by
  apply String.toList_inj.mp
  simp [render]

theorem hasReadableNames_seq : (seq first second rest).hasReadableNames =
    (first :: second :: rest).all hasReadableNames := by
  rw [hasReadableNames, haveReadableNames_eq_all, Bool.and_assoc]
  rfl

theorem hasReadableNames_choice :
    (choice es).hasReadableNames = es.all hasReadableNames := by
  rw [hasReadableNames, haveReadableNames_eq_all]

theorem hasReadableRanges_seq : (seq first second rest).hasReadableRanges =
    (first :: second :: rest).all hasReadableRanges := by
  rw [hasReadableRanges, haveReadableRanges_eq_all, Bool.and_assoc]
  rfl

theorem hasReadableRanges_choice :
    (choice es).hasReadableRanges = es.all hasReadableRanges := by
  rw [hasReadableRanges, haveReadableRanges_eq_all]

theorem nesting_seq : (seq first second rest).nesting = nestingAll (first :: second :: rest) := by
  rw [nesting, nestingAll, nestingAll, Nat.max_assoc]

end Render

end Expr

/-- Wherever the text stands, it is scanned to a phrase for which as many groups inside each other
are enough as there are brackets open at once. -/
def ScansTo (cs : List Char) (depth : Nat) (IsPhrase : Nat → List Token → Prop) : Prop :=
  ∀ offset, ∃ ts, Scans offset cs ts ∧ peak ts = depth ∧ ∀ n, depth ≤ n → IsPhrase n ts

/-- The text of the expression is scanned to a phrase for its normal form. -/
def IsWritten (e : Expr) : Prop :=
  ScansTo e.render.toList e.nesting fun n ts ↦
    AreItems n ts e.normalize.headItem e.normalize.tailItems

theorem Reading.IsSequence.of_items {n : Nat} {ts : List Token} {e : Expr}
    (h : AreItems n ts e.headItem e.tailItems) : IsSequence n ts e := by
  cases e with
  | seq first second rest => exact .items h
  | _ => exact .item h

theorem Reading.IsExpr.of_items {n : Nat} {ts : List Token} {e : Expr}
    (h : AreItems n ts e.headItem e.tailItems) : IsExpr n ts e :=
  .alternative (.one (.of_items h))

section ScansTo

variable {cs : List Char} {depth : Nat} {IsPhrase : Nat → List Token → Prop} {e : Expr}

theorem ScansTo.group (bracket : Bracket) (h : ScansTo cs depth IsPhrase)
    (hskeleton : ∀ n ts, IsPhrase n ts → Skeleton n ts)
    (hoperand : ∀ n left right ts, ArePair bracket left right → TouchesBoth left right ts →
      IsPhrase n ts → IsOperand (n + 1) (left :: ts ++ [right]) e) :
    ScansTo (bracket.opener :: cs ++ [bracket.closer]) (depth + 1)
      fun n ts ↦ AreItems n ts e [] := by
  intro offset
  obtain ⟨ts, hscans, hpeak, hphrase⟩ := h (offset + 1)
  obtain ⟨left, right, hpair, htouches, hgroup⟩ := hscans.group bracket
  have hself := hskeleton _ _ (hphrase depth (Nat.le_refl _))
  refine ⟨left :: ts ++ [right], hgroup, ?_, fun n hn ↦ ?_⟩
  · rw [peak_group_self hpair hself.peak_append, hpeak]
  · obtain ⟨m, rfl⟩ : ∃ m, n = m + 1 := Nat.exists_eq_add_one.mpr (Nat.zero_lt_of_lt hn)
    have hbody := hphrase m (Nat.le_of_succ_le_succ hn)
    exact .one (hoperand m left right ts hpair htouches hbody)

/-- Expressions with separators between them are whatever comes of putting one phrase in front of
others. -/
theorem scansTo_intercalate {separator : String} {t : Nat → Token}
    {IsJoined : Nat → List Token → List Expr → Prop} (h : Separates separator.toList t)
    (hkind : ∀ offset, (t offset).kind = .comma ∨ (t offset).kind = .pipe)
    (one : ∀ n ts e, AreItems n ts e.normalize.headItem e.normalize.tailItems → IsJoined n ts [e])
    (cons : ∀ n ts offset us e es, AreItems n ts e.normalize.headItem e.normalize.tailItems →
      IsJoined n us es → IsJoined n (ts ++ t offset :: us) (e :: es))
    (es : List Expr) (e : Expr) (hall : ∀ f ∈ e :: es, IsWritten f) :
    ScansTo (separator.intercalate ((e :: es).map Expr.render)).toList (Expr.nestingAll (e :: es))
      fun n ts ↦ IsJoined n ts (e :: es) := by
  induction es generalizing e with
  | nil =>
    intro offset
    obtain ⟨ts, hscans, hpeak, hitems⟩ := hall e List.mem_cons_self offset
    have hnesting : Expr.nestingAll [e] = e.nesting := Nat.max_zero _
    rw [hnesting]
    exact ⟨ts, by simpa using hscans, hpeak, fun n hn ↦ one n ts e (hitems n hn)⟩
  | cons g es ih =>
    intro offset
    obtain ⟨he, hrest⟩ := List.forall_mem_cons.mp hall
    obtain ⟨ts, hscans, hpeak, hitems⟩ := he offset
    obtain ⟨us, hscans', hpeak', hjoined⟩ := ih g hrest
      (offset + byteLength e.render.toList + byteLength separator.toList)
    have htext : e.render.toList ++ separator.toList ++
        (separator.intercalate ((g :: es).map Expr.render)).toList =
          (separator.intercalate ((e :: g :: es).map Expr.render)).toList := by
      simp
    have hnesting : Expr.nestingAll (e :: g :: es) =
      max e.nesting (Expr.nestingAll (g :: es)) := rfl
    refine ⟨_, htext ▸ hscans.separated h hscans', ?_, fun n hn ↦ ?_⟩
    · rw [(hitems e.nesting (Nat.le_refl _)).skeleton.peak_append, peak_separator (hkind _), hpeak,
        hpeak', hnesting]
    · rw [hnesting, Nat.max_le] at hn
      exact cons n ts _ us e (g :: es) (hitems n hn.1) (hjoined n hn.2)

end ScansTo

section IsWritten

variable {e : Expr} {es : List Expr}

theorem isWritten_symbol {name : String} (h : isReadableName name = true) :
    IsWritten (.symbol name) :=
  fun offset ↦ ⟨[⟨.name, name, offset⟩], scans_name h, rfl, fun _ _ ↦ .one (.symbol rfl)⟩

theorem isWritten_terminal (text : String) : IsWritten (.terminal text) := by
  intro offset
  have hscans := @scans_string offset _ fun rest ↦ staysInside_escape text.toList
  have htext : '"' :: text.toList.flatMap Quoted.escapeChar ++ ['"'] =
      (Quoted.encode text).toList := (Quoted.toList_encode text).symm
  rw [htext, String.ofList_toList] at hscans
  exact ⟨_, hscans, rfl, fun n _ ↦ .one (.terminal rfl (Quoted.denotes_encode text))⟩

theorem isWritten_range {chars : CharRange} (h : chars.isReadable = true) :
    IsWritten (.range chars) := by
  intro offset
  simp only [CharRange.isReadable, Bool.and_eq_true, bne_iff_ne] at h
  obtain ⟨⟨⟨hfirst, hfirst'⟩, hlast⟩, hlast'⟩ := h
  have hlower := @scans_string offset _ fun rest ↦ staysInside_char hfirst hfirst'
  have hupper (offset : Nat) :=
    @scans_string offset _ fun rest ↦ staysInside_char hlast hlast'
  have hscans := Scans.separated separates_dots hlower (hupper _)
  have htext : '"' :: [chars.first] ++ ['"'] ++ " ... ".toList ++ ('"' :: [chars.last] ++ ['"']) =
      (Expr.range chars).render.toList := by
    simp [Expr.render, CharRange.render]
  rw [htext] at hscans
  exact ⟨_, hscans, rfl, fun n _ ↦
    .one (.range rfl rfl rfl String.toList_ofList String.toList_ofList)⟩

/-- The tokens of all items of the normal forms of several expressions. -/
def AreItemsOf (n : Nat) (ts : List Token) (es : List Expr) : Prop :=
  ∃ first rest, (es.flatMap fun e ↦ e.normalize.itemsOf) = first :: rest ∧
    AreItems n ts first rest

theorem isWritten_seq {first second : Expr} {rest : List Expr}
    (h : ∀ e ∈ first :: second :: rest, IsWritten e) : IsWritten (.seq first second rest) := by
  intro offset
  obtain ⟨ts, hscans, hpeak, hitems⟩ := @scansTo_intercalate ", " _ AreItemsOf separates_comma
    (fun _ ↦ .inl rfl) (fun n ts e he ↦ ⟨_, _, by simp [Expr.itemsOf], he⟩)
    (fun n ts offset us e es he ⟨f, fs, hitems, hfs⟩ ↦
      ⟨_, _, by rw [List.flatMap_cons, hitems]; rfl, he.append rfl hfs⟩)
    (second :: rest) first h offset
  rw [Expr.toList_render_seq, Expr.nesting_seq]
  refine ⟨ts, hscans, hpeak, fun n hn ↦ ?_⟩
  obtain ⟨f, fs, heq, hall⟩ := hitems n hn
  rw [← Expr.itemsOf_normalize_seq, Expr.itemsOf, List.cons.injEq] at heq
  rwa [heq.1, heq.2]

theorem isWritten_empty : IsWritten (.choice []) := by
  intro offset
  obtain ⟨left, right, hpair, -, -, hscans⟩ := @scans_brackets offset [] [] .round (by simp)
  have hpeak : peak [left, right] = 1 := by simp [peak, hpair.1, hpair.2]
  refine ⟨[left, right], hscans, hpeak, fun n hn ↦ ?_⟩
  obtain ⟨m, rfl⟩ : ∃ m, n = m + 1 := Nat.exists_eq_add_one.mpr hn
  exact .one (.empty hpair)

/-- The tokens of the normal forms of several expressions as alternatives. -/
def AreAlternativesOf (n : Nat) (ts : List Token) (es : List Expr) : Prop :=
  ∃ first rest, es.map Expr.normalize = first :: rest ∧ AreAlternatives n ts first rest

theorem isWritten_choice (h : ∀ f ∈ e :: es, IsWritten f) : IsWritten (.choice (e :: es)) := by
  have hbody := @scansTo_intercalate " | " _ AreAlternativesOf
    separates_pipe (fun _ ↦ .inr rfl) (fun n ts e he ↦ ⟨_, _, rfl, .one (.of_items he)⟩)
    (fun n ts offset us e es he ⟨f, fs, halternatives, hfs⟩ ↦
      ⟨_, _, by rw [List.map_cons, halternatives], .cons (.of_items he) rfl hfs⟩) es e h
  have hgroup := hbody.group .round (fun n ts ⟨_, _, _, hall⟩ ↦ hall.skeleton)
    fun n left right ts hpair _ ⟨f, fs, heq, hall⟩ ↦ (heq ▸ .round hpair hall :
      IsOperand (n + 1) (left :: ts ++ [right]) (.choice ((e :: es).map Expr.normalize)))
  rw [IsWritten, Expr.toList_render_choice, Expr.nesting, Expr.normalize,
    Expr.normalizeAll_eq_map]
  exact hgroup

theorem isWritten_plus (h : IsWritten e) : IsWritten (.plus e) := by
  rw [IsWritten, Expr.toList_render_plus, Expr.nesting, Expr.normalize]
  exact h.group .curly (fun n ts hitems ↦ hitems.skeleton)
    fun n left right ts hpair _ hitems ↦ .curly hpair (.of_items hitems)

/-- An option of a repetition is written like the repetition from zero on that it amounts to. -/
theorem isWritten_optional (h : IsWritten e) : IsWritten (.optional e) := by
  have hoption : (Expr.optionOf e.normalize).headItem = Expr.optionOf e.normalize ∧
      (Expr.optionOf e.normalize).tailItems = [] := by
    cases e.normalize <;> exact ⟨rfl, rfl⟩
  rw [IsWritten, Expr.toList_render_optional, Expr.nesting, Expr.normalize, hoption.1, hoption.2]
  refine h.group .square (fun n ts hitems ↦ hitems.skeleton) ?_
  intro n left right ts hpair htouches hitems
  by_cases hplus : ∃ f, e.normalize = .plus f
  · obtain ⟨f, hf⟩ := hplus
    rw [hf] at hitems ⊢
    cases hitems with
    | one hop => exact .braced hpair hop htouches
  · have hnone : ∀ f, e.normalize ≠ .plus f := fun f hf ↦ hplus ⟨f, hf⟩
    have hplain : Expr.optionOf e.normalize = .optional e.normalize := by
      unfold Expr.optionOf
      split
      · next f hf => exact absurd hf (hnone f)
      · rfl
    rw [hplain]
    exact .square hpair (.of_items hitems) fun f hf ↦ absurd hf (hnone f)

theorem isWritten_star (h : IsWritten e) : IsWritten (.star e) := by
  have hoption := isWritten_optional (isWritten_plus h)
  rwa [IsWritten, Expr.render_optional_plus] at hoption

end IsWritten

theorem isWritten_of_readable {e : Expr} (hnames : e.hasReadableNames = true)
    (hranges : e.hasReadableRanges = true) : IsWritten e := by
  induction e with
  | symbol name => exact isWritten_symbol hnames
  | terminal text => exact isWritten_terminal text
  | range chars => exact isWritten_range hranges
  | seq first second rest ih =>
    rw [Expr.hasReadableNames_seq, List.all_eq_true] at hnames
    rw [Expr.hasReadableRanges_seq, List.all_eq_true] at hranges
    exact isWritten_seq fun e he ↦ ih e he (hnames e he) (hranges e he)
  | choice es ih =>
    rw [Expr.hasReadableNames_choice, List.all_eq_true] at hnames
    rw [Expr.hasReadableRanges_choice, List.all_eq_true] at hranges
    have hall : ∀ e ∈ es, IsWritten e := fun e he ↦ ih e he (hnames e he) (hranges e he)
    cases es with
    | nil => exact isWritten_empty
    | cons e es => exact isWritten_choice hall
  | optional e ih => exact isWritten_optional (ih hnames hranges)
  | star e ih => exact isWritten_star (ih hnames hranges)
  | plus e ih => exact isWritten_plus (ih hnames hranges)

/-- Reading undoes writing up to the normal form, which is written no differently. -/
theorem Expr.read_render (e : Expr) (hnames : e.hasReadableNames = true)
    (hranges : e.hasReadableRanges = true) (hdepth : e.nesting ≤ maxNesting) :
    Expr.read e.render = .ok e.normalize ∧ e.normalize.render = e.render := by
  obtain ⟨ts, hscans, -, hitems⟩ := isWritten_of_readable hnames hranges 0
  have htokens : significant e.render = ts := by
    have h := hscans.tokens [] delimited_nil
    rwa [significantFrom_nil, List.append_nil, List.append_nil] at h
  have hexpr : IsExpr maxNesting (significant e.render) e.normalize :=
    .of_items (htokens ▸ hitems maxNesting hdepth)
  exact ⟨Expr.read_ok_iff_isExpr.mpr hexpr, e.render_normalize⟩

theorem Expr.read_render_option_of_repetition :
    let e : Expr := .optional (.plus (.seq (.seq (.symbol "item") (.terminal "\\") [])
      (.choice [.choice [], .range ⟨'z', 'a'⟩]) []))
    let f : Expr := .star (.seq (.symbol "item") (.terminal "\\")
      [.choice [.choice [], .range ⟨'z', 'a'⟩]])
    e.hasReadableNames = true ∧ e.hasReadableRanges = true ∧ e.nesting ≤ maxNesting ∧
      Expr.read e.render = .ok f ∧ f.render = e.render := by
  intro e f
  have hnames : e.hasReadableNames = true := by decide
  have hranges : e.hasReadableRanges = true := by decide
  have hdepth : e.nesting ≤ maxNesting := by decide
  exact ⟨hnames, hranges, hdepth, e.read_render hnames hranges hdepth⟩

end Ebnf
