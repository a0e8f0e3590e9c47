import FreeIam.Ldap.Filter.Injection
import FreeIam.Ldap.Filter.Unescape
import FreeIam.Ldap.Filter.Whitespace

/-!
# Format strings

`Filter.from_format` substitutes escaped values into a format string and parses
the result. The substitution always escapes special characters only, so white
space at the ends of a value is left for the parser, which strips it, while
`Comparison.escaped` hides it behind the restricted escaping.
-/

namespace FreeIam.Ldap

open FreeIam.Py FreeIam.Scan

/-! ## Substitution -/

/-- What `from_format` raises: the `TypeError` of the `%` operator, or the error
of the parser. -/
inductive FormatError where
  | typeError
  | filterError (e : FilterError)
  deriving DecidableEq, Repr

/-- A format string falls into literal text and conversions `%s`. -/
inductive FormatPart where
  | literal (text : PyStr)
  | value (v : PyStr)

/-- How the part is written in the format string. -/
def FormatPart.pattern : FormatPart → PyStr
  | .literal text => text
  | .value _ => py "%s"

/-- The value that the part takes from the list of values. -/
def FormatPart.values : FormatPart → List PyStr
  | .literal _ => []
  | .value v => [v]

/-- What is substituted for the part: its value in escape mode 0. -/
def FormatPart.text : FormatPart → PyStr
  | .literal text => text
  | .value v => escape v .special

/-- `ldap.filter.filter_format`, which is not part of the repository: the
conversions `%s` are replaced by the escaped values. -/
structure FilterFormat where
  filterFormat : PyStr → List PyStr → Except FormatError PyStr
  substitutes : ∀ parts : List FormatPart,
    (∀ text, .literal text ∈ parts → '%'.toNat ∉ text) →
    filterFormat (parts.flatMap FormatPart.pattern) (parts.flatMap FormatPart.values)
      = .ok (parts.flatMap FormatPart.text)

/-- `Filter.escape_formatted`. -/
def escapeFormatted (ldapFilter : FilterFormat) (formatString : PyStr) (values : List PyStr) :
    Except FormatError PyStr :=
  ldapFilter.filterFormat formatString values

/-- `Filter.from_format`. -/
def Filter.fromFormat (lark : LarkParser) (ldapFilter : FilterFormat) (formatString : PyStr)
    (values : List PyStr) : Except FormatError Filter :=
  match escapeFormatted ldapFilter formatString values with
  | .error e => .error e
  | .ok s => match Filter.init lark (some s) with
    | .error e => .error (.filterError e)
    | .ok f => .ok f

theorem Filter.fromFormat_eq_ok {lark : LarkParser} {ldapFilter : FilterFormat}
    {formatString : PyStr} {values : List PyStr} {s : PyStr}
    (hs : escapeFormatted ldapFilter formatString values = .ok s) {f : Filter} :
    Filter.fromFormat lark ldapFilter formatString values = .ok f ↔
      Filter.init lark (some s) = .ok f := by
  rw [Filter.fromFormat, hs]
  show (match Filter.init lark (some s) with
    | .error e => Except.error (FormatError.filterError e)
    | .ok f => .ok f) = .ok f ↔ _
  cases hf : Filter.init lark (some s) with
  | error e => exact ⟨fun h => (by cases h), fun h => (by cases h)⟩
  | ok f' => exact ⟨fun h => congrArg _ (Except.ok.inj h), fun h => congrArg _ (Except.ok.inj h)⟩

/-- The `%` operator on a format string with the conversions `%s` and `%%`. -/
def percent : PyStr → List PyStr → Except FormatError PyStr
  | [], [] => .ok []
  | [], _ :: _ => .error .typeError
  | c :: s, values =>
    if c = '%'.toNat then
      match s, values with
      | d :: s, values =>
        if d = '%'.toNat then (percent s values).map (c :: ·)
        else match values with
          | [] => .error .typeError
          | v :: values =>
            if d = 's'.toNat then (percent s values).map (v ++ ·) else .error .typeError
      | [], _ => .error .typeError
    else (percent s values).map (c :: ·)

theorem percent_literal (text s : PyStr) (values : List PyStr) (h : '%'.toNat ∉ text) :
    percent (text ++ s) values = (percent s values).map (text ++ ·) := by
  induction text with
  | nil => cases hp : percent s values <;> simp [hp, Except.map]
  | cons c text ih =>
    simp only [List.mem_cons, not_or] at h
    have hstep : percent (c :: (text ++ s)) values
        = (percent (text ++ s) values).map (c :: ·) := by
      rw [percent.eq_def]
      simp only [if_neg (Ne.symm h.1)]
    rw [List.cons_append, hstep, ih h.2]
    cases percent s values <;> rfl

theorem percent_value (s v : PyStr) (values : List PyStr) :
    percent (py "%s" ++ s) (v :: values) = (percent s values).map (v ++ ·) := by
  show percent ('%'.toNat :: 's'.toNat :: s) (v :: values) = _
  rw [percent.eq_def]
  rfl

/-- Escaping and `%`, as `filter_format` is documented. -/
def percentFormat : FilterFormat where
  filterFormat formatString values := percent formatString (values.map (escape · .special))
  substitutes parts h := by
    induction parts with
    | nil => rfl
    | cons part parts ih =>
      have ih := ih fun text ht => h text (List.mem_cons_of_mem _ ht)
      cases part with
      | literal text =>
        have htext := h text List.mem_cons_self
        show percent (text ++ parts.flatMap FormatPart.pattern)
          ((parts.flatMap FormatPart.values).map (escape · .special))
            = .ok (text ++ parts.flatMap FormatPart.text)
        rw [percent_literal text _ _ htext, ih]
        rfl
      | value v =>
        show percent (py "%s" ++ parts.flatMap FormatPart.pattern)
          (escape v .special :: (parts.flatMap FormatPart.values).map (escape · .special))
            = .ok (escape v .special ++ parts.flatMap FormatPart.text)
        rw [percent_value, ih]
        rfl

/-! ## Escaping and reading back -/

/-- White space is not escaped in escape mode 0. -/
theorem escape_special_space {s : PyStr} (hs : All isSpace s) : escape s .special = s := by
  induction s with
  | nil => rfl
  | cons c s ih =>
    obtain ⟨hc, hs⟩ := all_cons.mp hs
    have hplain : escapeChar .special c = [c] := by
      rw [escapeChar, if_neg]
      have hcases := isSpace_cases hc
      simp [isSpecial]
      omega
    rw [escape, List.flatMap_cons, hplain]
    exact congrArg (c :: ·) (ih hs)

/-- Escaping in escape mode 0 commutes with stripping. -/
theorem strip_escape (value : PyStr) :
    strip (escape value .special) = escape (strip value) .special := by
  obtain ⟨a, b, hval, ha, hb⟩ := strip_decompose isSpace value
  have hescape : escape value .special = a ++ escape (strip value) .special ++ b := by
    conv_lhs => rw [hval]
    simp only [escape, List.flatMap_append]
    rw [show a.flatMap (escapeChar .special) = a from escape_special_space ha,
      show b.flatMap (escapeChar .special) = b from escape_special_space hb]
  rw [hescape]
  show Scan.strip isSpace _ = _
  rw [strip_append ha hb]
  exact strip_escape_special (strip_strip value)

/-! ## The conjunction of equalities -/

/-- `(&(a1=%s)...(an=%s))`. -/
def equalitiesFormat (attrs : List PyStr) : PyStr :=
  py "(&" ++ attrs.flatMap (fun attr => py "(" ++ attr ++ py "=%s)") ++ py ")"

/-- The substituted format string. -/
def equalitiesText (pairs : List (PyStr × PyStr)) : PyStr :=
  py "(&" ++ pairs.flatMap (fun p => py "(" ++ p.1 ++ py "=" ++ escape p.2 .special ++ py ")")
    ++ py ")"

/-- `Filter.get_and` over `Filter.get_eq(ai, vi)`. -/
def equalities (pairs : List (PyStr × PyStr)) : Expression :=
  getAnd (pairs.map fun p => getEq p.1 p.2)

theorem isAttr_noPercent {attr : PyStr} (h : Grammar.isAttr attr = true) : '%'.toNat ∉ attr := by
  intro hmem
  have hchar := (Grammar.isAttr_spec h).2 _ hmem
  revert hchar
  decide

theorem escapeFormatted_equalities (ldapFilter : FilterFormat) {pairs : List (PyStr × PyStr)}
    (hattr : ∀ p ∈ pairs, Grammar.isAttr p.1 = true) :
    escapeFormatted ldapFilter (equalitiesFormat (pairs.map Prod.fst)) (pairs.map Prod.snd)
      = .ok (equalitiesText pairs) := by
  let parts : List FormatPart := .literal (py "(&") :: pairs.flatMap (fun p =>
    [.literal (py "("), .literal p.1, .literal (py "="), .value p.2, .literal (py ")")])
    ++ [.literal (py ")")]
  have hliteral : ∀ text, .literal text ∈ parts → '%'.toNat ∉ text := by
    intro text htext
    simp only [parts, List.cons_append, List.mem_cons, List.mem_append, List.mem_flatMap,
      List.not_mem_nil, or_false, FormatPart.literal.injEq, reduceCtorEq, false_or] at htext
    rcases htext with rfl | ⟨p, hp, rfl | rfl | rfl | rfl⟩ | rfl
    · decide
    · decide
    · exact isAttr_noPercent (hattr p hp)
    · decide
    · decide
    · decide
  have hpattern : parts.flatMap FormatPart.pattern = equalitiesFormat (pairs.map Prod.fst) := by
    simp [parts, equalitiesFormat, FormatPart.pattern, List.flatMap_assoc, List.flatMap_map, py]
  have hvalues : parts.flatMap FormatPart.values = pairs.map Prod.snd := by
    simp [parts, FormatPart.values, List.flatMap_assoc, List.map_eq_flatMap]
  have htext : parts.flatMap FormatPart.text = equalitiesText pairs := by
    simp [parts, equalitiesText, FormatPart.text, List.flatMap_assoc]
  have h := ldapFilter.substitutes parts hliteral
  rw [hpattern, hvalues, htext] at h
  exact h

/-- The tree over some values: an `AND` of equality matches. -/
def equalitiesOutline (pairs : List (PyStr × PyStr)) :
    Outline (ComparisonClass × PyStr × PyStr) :=
  .operator .and (pairs.map fun p => .leaf (.equalityMatch, p.1, p.2))

/-- The builders store the values they are given. -/
theorem outline_equalities (pairs : List (PyStr × PyStr)) :
    (equalities pairs).outline leafMeaning = [equalitiesOutline pairs] := by
  have hmembers : ∀ pairs : List (PyStr × PyStr),
      (Expressions.ofList (pairs.map fun p => getEq p.1 p.2)).outline leafMeaning
        = pairs.map fun p => .leaf (.equalityMatch, p.1, p.2) := by
    intro pairs
    induction pairs with
    | nil => rfl
    | cons p pairs ih =>
      rw [List.map_cons, Expressions.ofList, Expressions.outline, ih]
      rfl
  rw [equalities, getAnd, Expression.outline, hmembers, equalitiesOutline]

/-! ## Reading the substituted text -/

/-- One equality with a substituted value. -/
def substitutedEquality (attr value : PyStr) (h : Grammar.isAttr attr = true) :
    Grammar.Comparison :=
  .equality ⟨attr, h⟩ (.ofText (escape value .special) (isValueText_escape value .special))

theorem substitutedEquality_text (attr value : PyStr) (h : Grammar.isAttr attr = true) :
    (substitutedEquality attr value h).text = attr ++ py "=" ++ escape value .special := by
  simp [substitutedEquality, Grammar.Comparison.text]

/-- The value is read without the white space at its ends. -/
theorem substitutedEquality_reading (attr value : PyStr) (h : Grammar.isAttr attr = true) :
    readingMeaning (substitutedEquality attr value h).reading
      = (.equalityMatch, attr, strip value) := by
  have hcls : (substitutedEquality attr value h).reading.cls = .equalityMatch :=
    Grammar.Comparison.reading_cls rfl (by intro _ _ _ he; cases he)
  have hvalue : (substitutedEquality attr value h).reading.value
      = escape (strip value) .special := by
    show strip (substitutedEquality attr value h).rest = _
    rw [Grammar.Comparison.valued_rest rfl, Grammar.Value.text_ofText,
      strip_escape]
  have hpres : (substitutedEquality attr value h).reading.isPresence = false := by
    simpa [Reading.isPresence, Grammar.Comparison.reading] using
      fun _ => Grammar.Comparison.valued_notMem (c := substitutedEquality attr value h) rfl
  rw [readingMeaning, hcls, Reading.rawValue, hpres, hvalue]
  show (ComparisonClass.equalityMatch, attr, unescape (escape (Py.strip value) .special)) = _
  rw [unescape_escape]

/-- Nothing but white space is refused, whatever else the value is. -/
theorem substitutedEquality_acceptable (attr value : PyStr) (h : Grammar.isAttr attr = true)
    (hvalue : strip value = value) :
    LeafAcceptable (substitutedEquality attr value h).text := by
  have hvalued : (substitutedEquality attr value h).valued = some (.equalityMatch, _) := rfl
  refine Grammar.Comparison.leafAcceptable_text
    ⟨Grammar.Comparison.valued_stars hvalued, by rw [Grammar.Comparison.dnAsRule_reading]; rfl⟩ ?_
  show strip (substitutedEquality attr value h).rest ≠ [] ∨ _
  rw [Grammar.Comparison.valued_rest hvalued, Grammar.Value.text_ofText, strip_escape, hvalue]
  exact (em (escape value .special = [])).symm

/-- The members of the substituted text: every value is read stripped, and none
is refused when stripping changes none of them. -/
theorem exists_substituted : ∀ {pairs : List (PyStr × PyStr)},
    (∀ p ∈ pairs, Grammar.isAttr p.1 = true) → ∃ gs : Grammar.Groups,
      gs.text = pairs.flatMap
        (fun p => py "(" ++ p.1 ++ py "=" ++ escape p.2 .special ++ py ")") ∧
      gs.outline readingMeaning
        = pairs.map (fun p => .leaf (.equalityMatch, p.1, strip p.2)) ∧
      ((∀ p ∈ pairs, strip p.2 = p.2) →
        Grammar.DerivesGroups LeafAcceptable readingMeaning gs.text (gs.outline readingMeaning) gs)
  | [], _ => ⟨.nil, rfl, rfl, fun _ => .nil⟩
  | p :: pairs, hattr => by
    obtain ⟨gs, htext, houtline, hderives⟩ :=
      exists_substituted fun q hq => hattr q (List.mem_cons_of_mem _ hq)
    let c := substitutedEquality p.1 p.2 (hattr p List.mem_cons_self)
    have hc : c.text = p.1 ++ py "=" ++ escape p.2 .special := substitutedEquality_text _ _ _
    have hreading := substitutedEquality_reading p.1 p.2 (hattr p List.mem_cons_self)
    refine ⟨.cons none (.expression none c none) none gs, ?_, ?_, fun hstrip => ?_⟩
    · simp [Grammar.Groups.text, Grammar.Node.text, htext, hc]
    · rw [Grammar.Groups.outline, houtline, Grammar.Node.outline, hreading]
      rfl
    · have hleaf := Grammar.Derives.leaf (g := readingMeaning)
        (substitutedEquality_acceptable p.1 p.2 (hattr p List.mem_cons_self)
          (hstrip p List.mem_cons_self))
      have hcons := Grammar.DerivesGroups.cons hleaf
        (hderives fun q hq => hstrip q (List.mem_cons_of_mem _ hq))
      have hstr : (Grammar.Groups.cons none (.expression none c none) none gs).text
          = py "(" ++ c.text ++ py ")" ++ gs.text := by
        simp [Grammar.Groups.text, Grammar.Node.text]
      rw [hstr]
      exact hcons

/-- The derivation of the substituted text. -/
def substitutedStart (gs : Grammar.Groups) : Grammar.Start :=
  .group none (.listOperator .and none none gs none) none

theorem substitutedStart_text {pairs : List (PyStr × PyStr)} {gs : Grammar.Groups}
    (htext : gs.text = pairs.flatMap
      (fun p => py "(" ++ p.1 ++ py "=" ++ escape p.2 .special ++ py ")")) :
    (substitutedStart gs).text = equalitiesText pairs := by
  simp [substitutedStart, Grammar.Start.text, Grammar.Node.text, htext, equalitiesText,
    Grammar.ListOp.symbol, py]

/-- However it is parsed, the substituted text means the equalities with
stripped values. -/
theorem Filter.outline_equalitiesText {lark : LarkParser} (hfirst : lark.FirstListed)
    {pairs : List (PyStr × PyStr)} (hattr : ∀ p ∈ pairs, Grammar.isAttr p.1 = true) {f : Filter}
    (h : Filter.init lark (some (equalitiesText pairs)) = .ok f) :
    f.outline leafMeaning = [equalitiesOutline (pairs.map fun (p : PyStr × PyStr) => (p.1, Py.strip p.2))] := by
  obtain ⟨gs, htext, houtline, -⟩ := exists_substituted hattr
  have hobs : ∀ d, lark.parse (equalitiesText pairs) = some d → ∀ c ∈ d.comparisons,
      Observes leafMeaning readingMeaning c := by
    intro d hparse c hc
    exact observes_meaning (hfirst _ d hparse c hc)
  rw [Filter.outline_eq h hobs (substitutedStart_text htext), substitutedStart,
    Grammar.Start.outline, Grammar.Node.outline, houtline, equalitiesOutline, List.map_map]
  rfl

/-- Without white space at the ends of the values the text is accepted. -/
theorem accepted_equalitiesText (lark : LarkParser) {pairs : List (PyStr × PyStr)}
    (hattr : ∀ p ∈ pairs, Grammar.isAttr p.1 = true) (hstrip : ∀ p ∈ pairs, strip p.2 = p.2) :
    Accepted lark (equalitiesText pairs) := by
  obtain ⟨gs, htext, -, hderives⟩ := exists_substituted hattr
  have hnode := (hderives hstrip).operator .and
  have hd := substitutedStart_text htext
  rw [← hd]
  refine Filter.accepted_of_parse lark _ fun d' _ hd' => hnode.transform_isOk ?_
  rw [hd', substitutedStart]
  simp [Grammar.Start.text, Grammar.Node.text]

/-! ## Templates and builders -/

/-- The template path gives the tree of the builder path, with every value as it
was given. -/
structure Agrees (f : Filter) (pairs : List (PyStr × PyStr)) : Prop where
  tree : f.outline leafMeaning = (equalities pairs).outline leafMeaning
  values : f.outline leafMeaning = [equalitiesOutline pairs]

theorem equalitiesOutline_inj {pairs pairs' : List (PyStr × PyStr)}
    (h : equalitiesOutline pairs = equalitiesOutline pairs') : pairs = pairs' := by
  have hleaves := (Outline.operator.inj h).2
  refine List.map_injective_iff.mpr (fun p q hpq => ?_) hleaves
  have hmeaning := Outline.leaf.inj hpq
  simp only [Prod.mk.injEq, true_and] at hmeaning
  exact Prod.ext hmeaning.1 hmeaning.2

/-- The two paths agree exactly when no value begins or ends with white space. -/
theorem from_format_agrees_iff {lark : LarkParser} (hfirst : lark.FirstListed)
    (ldapFilter : FilterFormat) (pairs : List (PyStr × PyStr))
    (hattr : ∀ p ∈ pairs, Grammar.isAttr p.1 = true) :
    (∃ f, Filter.fromFormat lark ldapFilter (equalitiesFormat (pairs.map Prod.fst))
        (pairs.map Prod.snd) = .ok f ∧ Agrees f pairs) ↔
      ∀ p ∈ pairs, strip p.2 = p.2 := by
  have hformat := escapeFormatted_equalities ldapFilter hattr
  constructor
  · rintro ⟨f, hf, hagrees⟩ p hp
    have hread := Filter.outline_equalitiesText hfirst hattr
      ((Filter.fromFormat_eq_ok hformat).mp hf)
    have hsame : pairs.map (fun (p : PyStr × PyStr) => (p.1, Py.strip p.2)) = pairs :=
      equalitiesOutline_inj (List.singleton_inj.mp (hread.symm.trans hagrees.values))
    have hid : pairs.map (fun (p : PyStr × PyStr) => (p.1, Py.strip p.2)) = pairs.map id := by
      rw [hsame, List.map_id]
    exact congrArg Prod.snd (List.map_inj_left.mp hid p hp)
  · intro hstrip
    obtain ⟨f, hf⟩ := accepted_equalitiesText lark hattr hstrip
    have hsame : pairs.map (fun (p : PyStr × PyStr) => (p.1, Py.strip p.2)) = pairs :=
      (List.map_congr_left fun p hp => by rw [hstrip p hp]; rfl).trans (List.map_id pairs)
    have hread := Filter.outline_equalitiesText hfirst hattr hf
    rw [hsame] at hread
    exact ⟨f, (Filter.fromFormat_eq_ok hformat).mpr hf,
      hread.trans (outline_equalities pairs).symm, hread⟩

/-- Two values full of metacharacters, one of them empty. -/
theorem from_format_agrees_bar :
    ∃ f, Filter.fromFormat resolver percentFormat (py "(&(cn=%s)(sn=%s))") [py "*bar*\\2a", []]
        = .ok f ∧ Agrees f [(py "cn", py "*bar*\\2a"), (py "sn", [])] :=
  (from_format_agrees_iff resolver_firstListed percentFormat
    [(py "cn", py "*bar*\\2a"), (py "sn", [])] (by decide)).mpr (by decide)

/-- A value that begins with a space loses it on the way through the template. -/
theorem from_format_strips_space :
    ¬ ∃ f, Filter.fromFormat resolver percentFormat (py "(&(cn=%s))") [py " bar"] = .ok f ∧
      Agrees f [(py "cn", py " bar")] := by
  rintro ⟨f, hf, hagrees⟩
  have hattr : ∀ p ∈ [(py "cn", py " bar")], Grammar.isAttr p.1 = true := by decide
  have hinit := (Filter.fromFormat_eq_ok (escapeFormatted_equalities percentFormat hattr)).mp hf
  have hread := Filter.outline_equalitiesText resolver_firstListed hattr hinit
  have hsame := equalitiesOutline_inj (List.singleton_inj.mp (hread.symm.trans hagrees.values))
  revert hsame
  decide

end FreeIam.Ldap
