import FreeIam.Ldap.Filter.Acceptance
import FreeIam.Ldap.Filter.Resolver

/-!
# RFC 4515

The filter grammar of the RFC, with one constructor for each of its
alternatives, against `LDAP_FILTER_GRAMMAR`. The repository's grammar has no
options on numeric object identifiers, and the transformer refuses the matching
rule `dn` without an attribute and values of white space only, but for that of an
equality, and reads a lone asterisk with white space around it as a presence match;
every other filter is accepted with the operators, kinds and attributes that the RFC
assigns.
-/

namespace FreeIam.Ldap

open FreeIam.Py FreeIam.Scan FreeIam.Bracket

namespace Rfc4515

/-! ## The grammar of the RFC -/

/-- `keychar`. -/
def isKeyChar (c : Nat) : Bool := isAsciiLetter c || isAsciiDigit c || c == '-'.toNat

/-- `descr`. -/
def isDescr : PyStr → Bool
  | [] => false
  | c :: s => isAsciiLetter c && s.all isKeyChar

/-- `number`: no leading zero. -/
def isNumber : PyStr → Bool
  | [] => false
  | [c] => isAsciiDigit c
  | c :: s => isAsciiDigit c && c != '0'.toNat && s.all isAsciiDigit

/-- `option`. -/
def isOption (s : PyStr) : Bool := s != [] && s.all isKeyChar

/-- `valueencoding`: characters and escapes `\hh`. -/
def isAssertionValue : PyStr → Bool
  | [] => true
  | c :: s =>
    if c = '\\'.toNat then
      match s with
      | h₁ :: h₂ :: s' => isHexDigit h₁ && isHexDigit h₂ && isAssertionValue s'
      | _ => false
    else Grammar.isPlainChar c && isAssertionValue s

/-- A `number`. -/
structure Number where
  text : PyStr
  valid : isNumber text = true

/-- `oid`: a short name, or at least two numbers. -/
inductive Oid where
  | descr (text : PyStr) (valid : isDescr text = true)
  | numericoid (first second : Number) (rest : List Number)

/-- An `option`. -/
structure Opt where
  text : PyStr
  valid : isOption text = true

/-- `attributedescription`. -/
structure AttributeDescription where
  type : Oid
  options : List Opt

/-- `assertionvalue`. -/
structure AssertionValue where
  text : PyStr
  valid : isAssertionValue text = true

/-- A value between two asterisks, which are not adjacent. -/
structure AnyValue extends AssertionValue where
  nonempty : text ≠ []

/-- `filtertype`. -/
inductive FilterType where
  | equal
  | approx
  | greaterorequal
  | lessorequal

/-- `item`. -/
inductive Item where
  | simple (attr : AttributeDescription) (type : FilterType) (value : AssertionValue)
  | present (attr : AttributeDescription)
  | substring (attr : AttributeDescription) (initial : AssertionValue) (any : List AnyValue)
      (final : AssertionValue)
  | extensible (attr : AttributeDescription) (dnattrs : Option Grammar.Dn)
      (matchingrule : Option Oid) (value : AssertionValue)
  | extensibleRule (dnattrs : Option Grammar.Dn) (matchingrule : Oid) (value : AssertionValue)

mutual

/-- `filter`. -/
inductive Filter where
  | and (filters : Filters)
  | or (filters : Filters)
  | not (filter : Filter)
  | item (item : Item)

/-- `filterlist`. -/
inductive Filters where
  | nil
  | cons (filter : Filter) (filters : Filters)

end

/-! ## The derived text -/

def Oid.text : Oid → PyStr
  | .descr text _ => text
  | .numericoid first second rest =>
    first.text ++ (second :: rest).flatMap fun n => py "." ++ n.text

def AttributeDescription.text (a : AttributeDescription) : PyStr :=
  a.type.text ++ a.options.flatMap fun o => py ";" ++ o.text

def FilterType.text : FilterType → PyStr
  | .equal => py "="
  | .approx => py "~="
  | .greaterorequal => py ">="
  | .lessorequal => py "<="

/-- The pattern of a substring. -/
def pattern (initial : AssertionValue) (any : List AnyValue) (final : AssertionValue) : PyStr :=
  initial.text ++ (py "*" ++ (any.flatMap (fun a => a.text ++ py "*") ++ final.text))

/-- `:part`, if there is one. -/
def colon : Option PyStr → PyStr
  | none => []
  | some s => py ":" ++ s

def Item.text : Item → PyStr
  | .simple attr type value => attr.text ++ type.text ++ value.text
  | .present attr => attr.text ++ py "=*"
  | .substring attr initial any final => attr.text ++ py "=" ++ pattern initial any final
  | .extensible attr dn rule value =>
    attr.text ++ colon (dn.map Grammar.Dn.text) ++ colon (rule.map Oid.text) ++ py ":=" ++ value.text
  | .extensibleRule dn rule value =>
    colon (dn.map Grammar.Dn.text) ++ colon (some rule.text) ++ py ":=" ++ value.text

mutual

def Filter.text : Filter → PyStr
  | .and filters => py "(" ++ [Grammar.ListOp.and.symbol] ++ filters.text ++ py ")"
  | .or filters => py "(" ++ [Grammar.ListOp.or.symbol] ++ filters.text ++ py ")"
  | .not filter => py "(!" ++ filter.text ++ py ")"
  | .item item => py "(" ++ item.text ++ py ")"

def Filters.text : Filters → PyStr
  | .nil => []
  | .cons filter filters => filter.text ++ filters.text

end

/-! ## The meaning the RFC assigns -/

def FilterType.cls : FilterType → ComparisonClass
  | .equal => .equalityMatch
  | .approx => .approximateMatch
  | .greaterorequal => .greaterOrEqual
  | .lessorequal => .lessOrEqual

/-- The kind of a leaf and its attribute, with the dn flag and the matching rule
of an extensible match. A pattern that is a single asterisk is a presence match,
also with white space around the asterisk. -/
def Item.kind : Item → ComparisonClass × PyStr
  | .simple attr type _ => (type.cls, attr.text)
  | .present attr => (.presenceMatch, attr.text)
  | .substring attr initial any final =>
    (if strip (pattern initial any final) = py "*" then .presenceMatch else .substringMatch,
      attr.text)
  | .extensible attr dn rule _ =>
    (.extensibleMatch (some (dn.elim [] Grammar.Dn.text)) (some (rule.elim [] Oid.text)), attr.text)
  | .extensibleRule dn rule _ =>
    (.extensibleMatch (some (dn.elim [] Grammar.Dn.text)) (some rule.text), [])

mutual

def Filter.outline : Filter → Outline (ComparisonClass × PyStr)
  | .and filters => .operator .and filters.outline
  | .or filters => .operator .or filters.outline
  | .not filter => .operator .not [filter.outline]
  | .item item => .leaf item.kind

def Filters.outline : Filters → List (Outline (ComparisonClass × PyStr))
  | .nil => []
  | .cons filter filters => filter.outline :: filters.outline

end

/-! ## What the repository supports of it -/

mutual

/-- All items of a filter meet a condition. -/
def Filter.Every (p : Item → Prop) : Filter → Prop
  | .and filters => filters.Every p
  | .or filters => filters.Every p
  | .not filter => filter.Every p
  | .item item => p item

def Filters.Every (p : Item → Prop) : Filters → Prop
  | .nil => True
  | .cons filter filters => filter.Every p ∧ filters.Every p

end

section

variable {p q : Item → Prop}

mutual

theorem Filter.Every.mono (hpq : ∀ i, p i → q i) : ∀ {r : Filter}, r.Every p → r.Every q
  | .and filters, h => Filters.Every.mono hpq (t := filters) h
  | .or filters, h => Filters.Every.mono hpq (t := filters) h
  | .not filter, h => Filter.Every.mono hpq (r := filter) h
  | .item item, h => hpq item h

theorem Filters.Every.mono (hpq : ∀ i, p i → q i) : ∀ {t : Filters}, t.Every p → t.Every q
  | .nil, _ => trivial
  | .cons _ _, h => ⟨Filter.Every.mono hpq h.1, Filters.Every.mono hpq h.2⟩

end

mutual

theorem Filter.Every.and : ∀ {r : Filter}, r.Every p → r.Every q → r.Every fun i => p i ∧ q i
  | .and filters, hp, hq => Filters.Every.and (t := filters) hp hq
  | .or filters, hp, hq => Filters.Every.and (t := filters) hp hq
  | .not filter, hp, hq => Filter.Every.and (r := filter) hp hq
  | .item _, hp, hq => ⟨hp, hq⟩

theorem Filters.Every.and : ∀ {t : Filters}, t.Every p → t.Every q → t.Every fun i => p i ∧ q i
  | .nil, _, _ => trivial
  | .cons _ _, hp, hq => ⟨Filter.Every.and hp.1 hq.1, Filters.Every.and hp.2 hq.2⟩

end

end

/-- Options stand on short names only. -/
def AttributeDescription.Supported (a : AttributeDescription) : Prop :=
  a.options = [] ∨ isDescr a.type.text = true

/-- A lone part of an extensible match that says `dn` is the dn flag, and not a
matching rule. -/
def Item.Supported : Item → Prop
  | .simple attr _ _ => attr.Supported
  | .present attr => attr.Supported
  | .substring attr _ _ _ => attr.Supported
  | .extensible attr dn rule _ =>
    attr.Supported ∧ (dn = none → ∀ r, rule = some r → Grammar.isDn r.text = false)
  | .extensibleRule dn rule _ => dn = none → Grammar.isDn rule.text = false

/-- The text behind the first `=`. -/
def Item.value : Item → PyStr
  | .simple _ _ value => value.text
  | .present _ => py "*"
  | .substring _ initial any final => pattern initial any final
  | .extensible _ _ _ value => value.text
  | .extensibleRule _ _ value => value.text

/-- The value is empty, or more than white space; that of an equality may be white space of
the grammar. -/
def Item.Valued (i : Item) : Prop :=
  i.value = [] ∨ strip i.value ≠ [] ∨ (i.kind.1 = .equalityMatch ∧ All Grammar.isWS i.value)

/-! ## Tokens of the RFC are tokens of the grammar -/

theorem isNameChar_of_isKeyChar {c : Nat} (h : isKeyChar c = true) :
    Grammar.isNameChar c = true := by
  simp only [isKeyChar, Bool.or_eq_true] at h
  simp only [Grammar.isNameChar, Bool.or_eq_true]
  exact .inl h

/-- A short name with options is an attribute name. -/
theorem isName_descr {s : PyStr} (h : isDescr s = true) (os : List Opt) :
    Grammar.isName (s ++ os.flatMap fun o => py ";" ++ o.text) = true := by
  cases s with
  | nil => cases h
  | cons c s =>
    simp only [isDescr, Bool.and_eq_true, List.all_eq_true] at h
    rw [List.cons_append, Grammar.isName, h.1, Bool.true_and, List.all_eq_true]
    intro d hd
    rcases List.mem_append.mp hd with hd | hd
    · exact isNameChar_of_isKeyChar (h.2 d hd)
    · obtain ⟨o, -, hd⟩ := List.mem_flatMap.mp hd
      rcases List.mem_cons.mp hd with rfl | hd
      · decide
      · have hvalid := o.valid
        simp only [isOption, Bool.and_eq_true, List.all_eq_true] at hvalid
        exact isNameChar_of_isKeyChar (hvalid.2 d hd)

theorem Number.digits (n : Number) : n.text ≠ [] ∧ All isAsciiDigit n.text := by
  obtain ⟨text, valid⟩ := n
  match text, valid with
  | [c], h => exact ⟨by simp, by simpa [isNumber] using h⟩
  | c :: d :: s, h =>
    simp only [isNumber, Bool.and_eq_true, List.all_eq_true] at h
    exact ⟨by simp, all_cons.mpr ⟨h.1.1, h.2⟩⟩

/-- Numbers with dots between them are an object identifier. -/
theorem isOid_numericoid (first second : Number) (rest : List Number) :
    Grammar.isOid (Oid.numericoid first second rest).text = true := by
  obtain ⟨hne, hdigits⟩ := first.digits
  have hchars : ∀ d ∈ (second :: rest).flatMap (fun n => py "." ++ n.text),
      isDecimal d = true ∨ d = '.'.toNat := by
    intro d hd
    obtain ⟨n, -, hd⟩ := List.mem_flatMap.mp hd
    rcases List.mem_cons.mp hd with rfl | hd
    · exact .inr rfl
    · exact .inl (isDecimal_of_isAsciiDigit (n.digits.2 d hd))
  obtain ⟨c, s, hs⟩ := List.exists_cons_of_ne_nil hne
  rw [hs] at hdigits
  obtain ⟨hc, hdigits⟩ := all_cons.mp hdigits
  rw [Oid.text, hs, List.cons_append, Grammar.isOid, isDecimal_of_isAsciiDigit hc, Bool.true_and,
    List.all_eq_true]
  intro d hd
  rcases List.mem_append.mp hd with hd | hd
  · rw [isDecimal_of_isAsciiDigit (hdigits d hd)]
    rfl
  · rcases hchars d hd with h | h
    · rw [h]
      rfl
    · rw [h]
      decide

theorem Oid.isAttr_text (o : Oid) : Grammar.isAttr o.text = true := by
  cases o with
  | descr text valid =>
    have := isName_descr valid []
    simp only [List.flatMap_nil, List.append_nil] at this
    simp [Oid.text, Grammar.isAttr, this]
  | numericoid first second rest => simp [Grammar.isAttr, isOid_numericoid]

theorem AttributeDescription.isAttr_text {a : AttributeDescription} (h : a.Supported) :
    Grammar.isAttr a.text = true := by
  rcases h with h | h
  · rw [text, h, List.flatMap_nil, List.append_nil]
    exact a.type.isAttr_text
  · simp [Grammar.isAttr, text, isName_descr h]

theorem isValueText_of_isAssertionValue {s : PyStr} (h : isAssertionValue s = true) :
    Grammar.isValueText s = true := by
  fun_induction isAssertionValue s with
  | case1 => rfl
  | case2 h₁ h₂ s ih =>
    simp only [Bool.and_eq_true] at h
    rw [Grammar.isValueText_escape _ _ (Grammar.isHexDigit_ne_backslash h.1.1), h.1.1, h.1.2,
      ih h.2]
    rfl
  | case3 => cases h
  | case4 c s hc ih =>
    rw [Bool.and_eq_true] at h
    rw [Grammar.isValueText_plain _ hc, h.1, ih h.2]
    rfl

theorem AssertionValue.isValueText (v : AssertionValue) : Grammar.isValueText v.text = true :=
  isValueText_of_isAssertionValue v.valid

theorem AssertionValue.asterisk_notMem (v : AssertionValue) : '*'.toNat ∉ v.text :=
  Grammar.asterisk_notMem (Grammar.isValueText_chars _ v.isValueText)

/-! ## Patterns -/

/-- Two adjacent asterisks around or behind an asterisk lie behind it, when none
stands in front. -/
theorem stars_append {x y : PyStr} (hx : '*'.toNat ∉ x)
    (h : py "**" <:+: x ++ '*'.toNat :: y) : [ '*'.toNat ] <+: y ∨ py "**" <:+: y := by
  induction x with
  | nil =>
    rcases List.infix_cons_iff.mp h with hpre | hin
    · exact .inl (List.cons_prefix_cons.mp hpre).2
    · exact .inr hin
  | cons c x ih =>
    simp only [List.mem_cons, not_or] at hx
    rcases List.infix_cons_iff.mp h with hpre | hin
    · exact absurd (List.cons_prefix_cons.mp hpre).1 hx.1
    · exact ih hx.2 hin

/-- What stands behind the first asterisk of a pattern neither begins with an
asterisk nor has two adjacent ones. -/
theorem pattern_tail (any : List AnyValue) (final : AssertionValue) :
    ¬ [ '*'.toNat ] <+: any.flatMap (fun a => a.text ++ py "*") ++ final.text ∧
      ¬ py "**" <:+: any.flatMap (fun a => a.text ++ py "*") ++ final.text := by
  induction any with
  | nil =>
    refine ⟨fun h => final.asterisk_notMem (h.subset List.mem_cons_self), fun h => ?_⟩
    exact final.asterisk_notMem (h.subset List.mem_cons_self)
  | cons a any ih =>
    have hnot : '*'.toNat ∉ a.text := a.toAssertionValue.asterisk_notMem
    have hshape : (a :: any).flatMap (fun a => a.text ++ py "*") ++ final.text
        = a.text ++ '*'.toNat :: (any.flatMap (fun a => a.text ++ py "*") ++ final.text) := by
      simp [py]
    rw [hshape]
    constructor
    · intro h
      obtain ⟨c, s, hs⟩ := List.exists_cons_of_ne_nil a.nonempty
      rw [hs] at h hnot
      exact hnot ((List.cons_prefix_cons.mp h).1 ▸ List.mem_cons_self)
    · intro h
      rcases stars_append hnot h with h | h
      · exact ih.1 h
      · exact ih.2 h

theorem contains_pattern (initial : AssertionValue) (any : List AnyValue)
    (final : AssertionValue) : contains (py "**") (pattern initial any final) = false := by
  simp only [contains, decide_eq_false_iff_not]
  intro h
  rcases stars_append initial.asterisk_notMem h with h | h
  · exact (pattern_tail any final).1 h
  · exact (pattern_tail any final).2 h

open Grammar (SubstrPart Substrings)

/-- The parts of a value. -/
def AssertionValue.parts (v : AssertionValue) : List SubstrPart :=
  if h : v.text = [] then [] else [.value ⟨v.text, h, v.isValueText⟩]

@[simp] theorem AssertionValue.text_parts (v : AssertionValue) :
    v.parts.flatMap SubstrPart.text = v.text := by
  rw [parts]
  split
  · rename_i h
    rw [h]
    rfl
  · simp [SubstrPart.text]

/-- The parts of a pattern behind its first asterisk. -/
def patternParts (any : List AnyValue) (final : AssertionValue) : List SubstrPart :=
  any.flatMap (fun a => a.toAssertionValue.parts ++ [.asterisk]) ++ final.parts

theorem text_patternParts (any : List AnyValue) (final : AssertionValue) :
    (patternParts any final).flatMap SubstrPart.text
      = any.flatMap (fun a => a.text ++ py "*") ++ final.text := by
  induction any with
  | nil => simp [patternParts]
  | cons a any ih =>
    rw [patternParts, List.flatMap_append] at ih
    have ih := List.append_cancel_right (ih.trans (by rw [final.text_parts]))
    simp [patternParts, SubstrPart.text, ih]

/-- Every pattern is derived as substring parts. -/
theorem exists_substrings (initial : AssertionValue) (any : List AnyValue)
    (final : AssertionValue) : ∃ v : Substrings, v.text = pattern initial any final := by
  have htail := text_patternParts any final
  by_cases h : initial.text = []
  · refine ⟨⟨.asterisk, patternParts any final⟩, ?_⟩
    rw [Substrings.text, htail, pattern, h]
    rfl
  · refine ⟨⟨.value ⟨initial.text, h, initial.isValueText⟩, .asterisk :: patternParts any final⟩, ?_⟩
    rw [Substrings.text, List.flatMap_cons, htail, pattern]
    rfl

/-! ## Leaves -/

/-- The class and the attribute of a reading. -/
def readingKind (r : Reading) : ComparisonClass × PyStr := (r.cls, r.attr)

/-- A derived comparison of an item, with its text, its kind and its value, which passes the
explicit checks of the transformer. -/
structure DerivesItem (i : Item) (gc : Grammar.Comparison) : Prop where
  text : gc.text = i.text
  kind : readingKind gc.reading = i.kind
  value : gc.rest = i.value
  acceptable : gc.reading.Acceptable

/-- The derivation of an item with one assertion value. -/
theorem derivesItem_valued {i : Item} {gc : Grammar.Comparison} {cls : ComparisonClass}
    {v : AssertionValue} (hvalued : gc.valued = some (cls, .ofText v.text v.isValueText))
    (htext : gc.text = i.text) (hvalue : v.text = i.value) (hkind : (cls, gc.attrText) = i.kind)
    (hdn : gc.dnAsRule = false)
    (hrule : ∀ attr rule w, gc = .extmatchAttrNodnMatch attr rule w →
      Grammar.isDn rule.text = false) : DerivesItem i gc where
  text := htext
  kind := by
    rw [← hkind, readingKind, Grammar.Comparison.reading_cls hvalued hrule]
    rfl
  value := (Grammar.Comparison.valued_rest hvalued).trans ((Grammar.Value.text_ofText _ _).trans hvalue)
  acceptable := ⟨Grammar.Comparison.valued_stars hvalued, by rw [gc.dnAsRule_reading, hdn]⟩

theorem exists_substring {attr : AttributeDescription} (h : attr.Supported)
    (initial : AssertionValue) (any : List AnyValue) (final : AssertionValue) :
    ∃ gc, DerivesItem (.substring attr initial any final) gc := by
  obtain ⟨v, hv⟩ := exists_substrings initial any final
  have hmem : '*'.toNat ∈ strip v.text := by
    rw [mem_strip_iff (by decide), hv, pattern]
    simp [py]
  refine ⟨.substring ⟨attr.text, attr.isAttr_text h⟩ v, ?_, ?_, hv, ?_⟩
  · rw [Grammar.Comparison.text, hv]
    rfl
  · have hcls : (Grammar.Comparison.substring ⟨attr.text, attr.isAttr_text h⟩ v).reading.cls
        = if strip v.text = py "*" then .presenceMatch
          else if '*'.toNat ∈ strip v.text then .substringMatch else .equalityMatch :=
      Reading.cls_of_eq rfl
    rw [if_pos hmem, hv] at hcls
    rw [readingKind, hcls]
    rfl
  · refine ⟨?_, ?_⟩
    · show contains (py "**") (strip v.text) = false
      rw [Grammar.contains_strip, hv]
      exact contains_pattern initial any final
    · rw [Grammar.Comparison.dnAsRule_reading]
      rfl

/-- Every supported item is derived with its kind. -/
theorem Item.exists_comparison : ∀ i : Item, i.Supported → ∃ gc, DerivesItem i gc
  | .simple attr type value, h => by
    have hname := attr.isAttr_text h
    cases type with
    | equal => exact ⟨.equality ⟨attr.text, hname⟩ _, derivesItem_valued rfl
        (by simp [Grammar.Comparison.text, Item.text, FilterType.text]) rfl rfl rfl (by simp)⟩
    | approx => exact ⟨.approx ⟨attr.text, hname⟩ _, derivesItem_valued rfl
        (by simp [Grammar.Comparison.text, Item.text, FilterType.text]) rfl rfl rfl (by simp)⟩
    | greaterorequal => exact ⟨.ge ⟨attr.text, hname⟩ _, derivesItem_valued rfl
        (by simp [Grammar.Comparison.text, Item.text, FilterType.text]) rfl rfl rfl (by simp)⟩
    | lessorequal => exact ⟨.le ⟨attr.text, hname⟩ _, derivesItem_valued rfl
        (by simp [Grammar.Comparison.text, Item.text, FilterType.text]) rfl rfl rfl (by simp)⟩
  | .present attr, h => by
    refine ⟨.presence ⟨attr.text, attr.isAttr_text h⟩, rfl, rfl, rfl, ?_, ?_⟩
    · exact (by decide : contains (py "**") (strip (py "*")) = false)
    · rw [Grammar.Comparison.dnAsRule_reading]
      rfl
  | .substring attr initial any final, h => exists_substring h initial any final
  | .extensible attr none none value, h =>
    ⟨.extmatchAttrNodnNomatch ⟨attr.text, attr.isAttr_text h.1⟩ _, derivesItem_valued rfl
      (by simp [Grammar.Comparison.text, Item.text, colon]) rfl rfl rfl (by simp)⟩
  | .extensible attr none (some rule) value, h => by
    have hrule := h.2 rfl rule rfl
    refine ⟨.extmatchAttrNodnMatch ⟨attr.text, attr.isAttr_text h.1⟩ ⟨rule.text, rule.isAttr_text⟩ _,
      derivesItem_valued rfl (by simp [Grammar.Comparison.text, Item.text, colon]) rfl rfl rfl ?_⟩
    intro attr' rule' w he
    cases he
    exact hrule
  | .extensible attr (some dn) none value, h =>
    ⟨.extmatchAttrDnNomatch ⟨attr.text, attr.isAttr_text h.1⟩ dn _, derivesItem_valued rfl
      (by simp [Grammar.Comparison.text, Item.text, colon]) rfl rfl rfl (by simp)⟩
  | .extensible attr (some dn) (some rule) value, h =>
    ⟨.extmatchAttrDnMatch ⟨attr.text, attr.isAttr_text h.1⟩ dn ⟨rule.text, rule.isAttr_text⟩ _,
      derivesItem_valued rfl
        (by simp [Grammar.Comparison.text, Item.text, colon]) rfl rfl rfl (by simp)⟩
  | .extensibleRule none rule value, h =>
    ⟨.extmatchNoattrNodnMatch ⟨rule.text, rule.isAttr_text⟩ _, derivesItem_valued rfl
      (by simp [Grammar.Comparison.text, Item.text, colon]) rfl rfl (h rfl) (by simp)⟩
  | .extensibleRule (some dn) rule value, h =>
    ⟨.extmatchNoattrDnMatch dn ⟨rule.text, rule.isAttr_text⟩ _, derivesItem_valued rfl
      (by simp [Grammar.Comparison.text, Item.text, colon]) rfl rfl rfl (by simp)⟩

theorem DerivesItem.readComparison {i : Item} {gc : Grammar.Comparison} (h : DerivesItem i gc) :
    readComparison i.text = gc.reading := by
  rw [← h.text]
  simpa using gc.readComparison_text none none

theorem DerivesItem.readRest {i : Item} {gc : Grammar.Comparison} (h : DerivesItem i gc) :
    readRest i.text = i.value := by
  have hrest := gc.readRest_text none none
  rw [← h.text, ← h.value]
  simpa using hrest

/-- The operator of an equality, and of a pattern, is a lone `=`. -/
theorem Item.op_eq_of_kind {i : Item} (h : i.kind.1 = .equalityMatch) {gc : Grammar.Comparison}
    (hgc : DerivesItem i gc) : (Ldap.readComparison i.text).op = py "=" := by
  have hcls : gc.reading.cls = .equalityMatch := (congrArg Prod.fst hgc.kind).trans h
  rw [hgc.readComparison]
  by_contra hop
  revert hcls
  unfold Reading.cls
  rw [if_neg hop]
  split_ifs <;> simp

/-- Whatever Lark chooses, an item is accepted that has more than white space for its value, or
nothing. -/
theorem Item.leafAcceptable {i : Item} (h : i.Supported) (hvalue : i.value = [] ∨ strip i.value ≠ []) :
    LeafAcceptable i.text := by
  obtain ⟨gc, hgc⟩ := i.exists_comparison h
  refine ⟨by rw [hgc.readComparison]; exact hgc.acceptable, ?_⟩
  rw [hgc.readComparison, hgc.readRest]
  show strip gc.rest ≠ [] ∨ _
  rw [hgc.value]
  exact hvalue.symm

/-- A supported item is accepted if its value is. -/
theorem Item.leafAccepted_iff {i : Item} (h : i.Supported) : LeafAccepted i.text ↔ i.Valued := by
  obtain ⟨gc, hgc⟩ := i.exists_comparison h
  have hvalue : (Ldap.readComparison i.text).value = strip i.value := by
    rw [hgc.readComparison, ← hgc.value]
    rfl
  constructor
  · rintro ⟨-, hne | hnil | ⟨hop, hblank⟩⟩
    · rw [hvalue] at hne
      exact .inr (.inl hne)
    · rw [hgc.readRest] at hnil
      exact .inl hnil
    · by_cases hstrip : strip i.value = []
      -- white space behind a lone `=` is the value of an equality
      · refine .inr (.inr ⟨?_, by rwa [hgc.readRest] at hblank⟩)
        have hcls := congrArg Prod.fst hgc.kind
        rw [← hcls]
        rw [hgc.readComparison] at hop hvalue
        show gc.reading.cls = _
        rw [Reading.cls_of_eq hop, hvalue, hstrip]
        decide
      · exact .inr (.inl hstrip)
  · intro hvalued
    refine ⟨by rw [hgc.readComparison]; exact hgc.acceptable, ?_⟩
    rw [hvalue]
    rcases hvalued with hnil | hne | ⟨hkind, hblank⟩
    · exact .inr (.inl (hgc.readRest.trans hnil))
    · exact .inl hne
    · exact .inr (.inr ⟨op_eq_of_kind hkind hgc, by rwa [hgc.readRest]⟩)

/-! ## Filters -/

section

variable {P : PyStr → Prop}

mutual

/-- Every supported filter is derived with its operators and kinds. -/
theorem Filter.exists_node : ∀ r : Filter, r.Every (fun i => i.Supported ∧ P i.text) →
    ∃ n, Grammar.Derives P readingKind r.text r.outline n
  | .and filters, h => by
    obtain ⟨gs, hgs⟩ := filters.exists_groups h
    exact ⟨_, hgs.operator .and⟩
  | .or filters, h => by
    obtain ⟨gs, hgs⟩ := filters.exists_groups h
    exact ⟨_, hgs.operator .or⟩
  | .not filter, h => by
    obtain ⟨n, hn⟩ := filter.exists_node h
    exact ⟨_, hn.not⟩
  | .item item, ⟨hsupported, hleaf⟩ => by
    obtain ⟨gc, hgc⟩ := item.exists_comparison hsupported
    rw [← hgc.text] at hleaf
    have hderives := Grammar.Derives.leaf (g := readingKind) hleaf
    rw [hgc.text, hgc.kind] at hderives
    exact ⟨_, hderives⟩

theorem Filters.exists_groups : ∀ rs : Filters, rs.Every (fun i => i.Supported ∧ P i.text) →
    ∃ gs, Grammar.DerivesGroups P readingKind rs.text rs.outline gs
  | .nil, _ => ⟨_, .nil⟩
  | .cons filter filters, h => by
    obtain ⟨n, hn⟩ := filter.exists_node h.1
    obtain ⟨gs, hgs⟩ := filters.exists_groups h.2
    exact ⟨_, .cons hn hgs⟩

end

end

/-- The class and the attribute of a leaf. -/
def leafKind (c : Comparison) : ComparisonClass × PyStr := (c.cls, c.attr)

theorem observes_kind {c : Grammar.Comparison} (hfirst : c.FirstListed) :
    Observes leafKind readingKind c := by
  intro cmp lead trail h
  have hmeaning := observes_meaning hfirst cmp lead trail h
  simp only [Prod.mk.injEq] at hmeaning
  show (_, _) = (_, _)
  rw [hmeaning.1, hmeaning.2.1]

/-- A supported filter is accepted if its values are. -/
theorem Filter.exists_accepted {lark : LarkParser} (hfirst : lark.FirstListed)
    (hblank : lark.BlankResolved) {r : Filter} (h : r.Every Item.Supported)
    (hvalued : r.Every Item.Valued) :
    ∃ n : Grammar.Node, (Grammar.Start.group none n none).text = r.text ∧
      n.outline readingKind = r.outline ∧ Accepted lark r.text := by
  have hitems : r.Every fun i => i.Supported ∧ LeafAccepted i.text :=
    (h.and hvalued).mono fun i hi => ⟨hi.1, (Item.leafAccepted_iff hi.1).mpr hi.2⟩
  obtain ⟨n, hn⟩ := r.exists_node hitems
  have htext : (Grammar.Start.group none n none).text = r.text := by
    simp [Grammar.Start.text, hn.text]
  refine ⟨n, htext, hn.outline, ?_⟩
  rw [← htext]
  exact Filter.accepted_of_parse lark _ fun d hparse hd =>
    hn.transform_isOk_of_parse hfirst hblank (htext ▸ hparse) (hd.trans htext)

/-- Every supported filter of the RFC is accepted, with the operators, the kinds,
the attributes, the dn flags and the matching rules that the RFC assigns. -/
theorem accepts_rfc4515 {lark : LarkParser} (hfirst : lark.FirstListed) (hblank : lark.BlankResolved)
    (r : Filter) (h : r.Every Item.Supported) (hvalued : r.Every Item.Valued) :
    ∃ f, Ldap.Filter.init lark (some r.text) = .ok f ∧ f.outline leafKind = [r.outline] := by
  obtain ⟨n, htext, houtline, f, hf⟩ := Filter.exists_accepted hfirst hblank h hvalued
  refine ⟨f, hf, ?_⟩
  rw [Filter.outline_eq hf (fun d hparse c hc => observes_kind (hfirst _ d hparse c hc)) htext,
    ← houtline]
  rfl

/-- The short name `cn`. -/
def cn : AttributeDescription := ⟨.descr (py "cn") (by decide), []⟩

/-- An equality with a blank for its value, in a negation. -/
theorem accepts_rfc4515_equality :
    ∃ f, Ldap.Filter.init resolver (some (py "(&(!(cn=John))(cn= ))")) = .ok f ∧
      f.outline leafKind = [.operator .and
        [.operator .not [.leaf (.equalityMatch, py "cn")], .leaf (.equalityMatch, py "cn")]] :=
  accepts_rfc4515 resolver_firstListed resolver_blankResolved
    (.and (.cons (.not (.item (.simple cn .equal ⟨py "John", by decide⟩)))
      (.cons (.item (.simple cn .equal ⟨py " ", by decide⟩)) .nil)))
    ⟨.inl rfl, .inl rfl, trivial⟩
    ⟨.inr (.inl (by decide)), .inr (.inr ⟨rfl, by decide⟩), trivial⟩

/-! ## What is not accepted -/

/-- A text between brackets that is no operator is derived as one expression. -/
theorem exists_leaf {body : PyStr} (hplain : All filterAlphabet.isPlain body)
    (hstop : Stops isOpSymbol (body.dropWhile Grammar.isWS)) {d : Grammar.Start}
    (h : d.text = py "(" ++ body ++ py ")") :
    ∃ (l : Grammar.Leaf) (pre post : Grammar.Ows),
      d = .group pre (.expression l.lead l.comparison l.trail) post ∧ l.text = body := by
  have hwf : (Bracket.Tree.leaf body).WF filterAlphabet := ⟨hplain, hstop⟩
  have htext : (Bracket.Tree.leaf body).text filterAlphabet = d.text := by
    rw [h]
    simp [Bracket.Tree.text, py]
  cases d with
  | bare c =>
    have hmem : '('.toNat ∈ c.text := by
      show _ ∈ (Grammar.Start.bare c).text
      rw [← htext]
      exact List.mem_cons_self
    exact absurd (c.isPlain_text _ hmem) (by decide)
  | group pre n post =>
    have hsplit : [] ++ (Bracket.Tree.leaf body).text filterAlphabet
        = Grammar.Ows.text pre ++ (n.text ++ Grammar.Ows.text post) := by
      rw [List.nil_append, htext, ← List.append_assoc]
      rfl
    have hopen : Stops Grammar.isWS ((Bracket.Tree.leaf body).text filterAlphabet) := by
      rw [Bracket.Tree.text, stops_cons]
      decide
    obtain ⟨-, htree⟩ := append_unique .nil (Grammar.Ows.chars pre) hopen (n.stops_text _) hsplit
    rw [← n.text_layout, ← List.append_nil ((Bracket.Tree.leaf body).text filterAlphabet)] at htree
    obtain ⟨hlayout, -⟩ := Bracket.Tree.text_inj hwf n.layout_wf htree
    obtain ⟨lead, c, trail, rfl, hbody⟩ := Grammar.Node.layout_eq_leaf hlayout.symm
    exact ⟨⟨lead, c, trail⟩, pre, post, rfl, hbody⟩

/-- A leaf that no derivation reads, or that none is accepted of, is refused. -/
theorem not_accepted {body : PyStr} (hplain : All filterAlphabet.isPlain body)
    (hstop : Stops isOpSymbol (body.dropWhile Grammar.isWS)) {lark : LarkParser}
    (hleaf : ∀ s d, lark.parse s = some d → ∀ l ∈ d.expressions, l.text = body →
      ¬ ∃ cmp, l.comparison.transform = .ok cmp) : ¬ Accepted lark (py "(" ++ body ++ py ")") := by
  rintro ⟨f, hf⟩
  rcases Ldap.Filter.init_cases hf with ⟨hblank, -⟩ | ⟨-, d, root, hparse, hd, hroot, -⟩
  · rcases hblank with h | h
    · simp [py] at h
    · have := (List.cons.inj h).1
      revert this
      decide
  · obtain ⟨l, pre, post, rfl, hbody⟩ := exists_leaf hplain hstop hd
    obtain ⟨e, he, -, -, -⟩ := Grammar.Start.transform_group hroot
    obtain ⟨cmp, hcmp, -⟩ := Grammar.Node.transform_expression he
    exact hleaf _ _ hparse l (List.mem_singleton_self _) hbody ⟨cmp, hcmp⟩

/-- `(2.5.4.3;lang-de=x)`. -/
def oidWithOption : Filter :=
  .item (.simple ⟨.numericoid ⟨py "2", by decide⟩ ⟨py "5", by decide⟩
    [⟨py "4", by decide⟩, ⟨py "3", by decide⟩], [⟨py "lang-de", by decide⟩]⟩ .equal
    ⟨py "x", by decide⟩)

/-- `(:dn:=v)`. -/
def ruleDn : Filter :=
  .item (.extensibleRule none (.descr (py "dn") (by decide)) ⟨py "v", by decide⟩)

/-- `(cn= *)`. -/
def blankInitial : Filter :=
  .item (.substring cn ⟨py " ", by decide⟩ [] ⟨py "", by decide⟩)

/-- `(cn>= )`. -/
def blankBound : Filter := .item (.simple cn .greaterorequal ⟨py " ", by decide⟩)

/-- `(cn=)` with a no-break space for its value. -/
def noBreakSpace : Filter := .item (.simple cn .equal ⟨[0xa0], by decide⟩)

/-- Not every filter of the RFC is accepted as the RFC reads it: an option on an
object identifier, the matching rule `dn` without an attribute and values of white space
only are refused, and a blank in front of an asterisk is no part of a substring. -/
theorem not_accepts_rfc4515 :
    (oidWithOption.text = py "(2.5.4.3;lang-de=x)" ∧
      ∀ lark, ¬ Accepted lark oidWithOption.text) ∧
    (ruleDn.text = py "(:dn:=v)" ∧ ∀ lark, ¬ Accepted lark ruleDn.text) ∧
    (blankInitial.text = py "(cn= *)" ∧
      ∀ lark f, Ldap.Filter.init lark (some blankInitial.text) = .ok f →
        f.outline leafKind = [.leaf (.presenceMatch, py "cn")]) ∧
    (blankBound.text = py "(cn>= )" ∧
      ∀ lark : LarkParser, lark.FirstListed → lark.BlankResolved → ¬ Accepted lark blankBound.text) ∧
    (noBreakSpace.text = py "(cn=" ++ [0xa0] ++ py ")" ∧ ∀ lark, ¬ Accepted lark noBreakSpace.text) := by
  refine ⟨⟨by decide, fun lark => ?_⟩, ⟨by decide, fun lark => ?_⟩, ⟨by decide, ?_⟩,
    ⟨by decide, fun lark hfirst hblank => ?_⟩, ⟨by decide, fun lark => ?_⟩⟩
  -- no attribute has an option behind an object identifier
  · refine not_accepted (by decide) (by decide) fun _ _ _ l _ hl _ => ?_
    have hattr := congrArg Reading.attr l.reading_text
    rw [hl] at hattr
    have hname : l.comparison.attrText = py "2.5.4.3;lang-de" := hattr.symm.trans (by decide)
    rcases l.comparison.attrText_valid with h | h
    · rw [hname] at h
      revert h
      decide
    · rw [hname] at h
      revert h
      decide
  -- the guard against the rule `dn` raises
  · refine not_accepted (by decide) (by decide) fun _ _ _ l _ hl hok => ?_
    have hrule := (l.comparison.transform_isOk_iff.mp hok).1.rule
    rw [← l.reading_text, hl] at hrule
    revert hrule
    decide
  -- the value is stripped before it is compared with the asterisk
  · intro lark f hf
    have htext : blankInitial.text = py "(" ++ py "cn= *" ++ py ")" := by decide
    have hpres : ∀ l : Grammar.Leaf, l.text = py "cn= *" →
        l.comparison.reading = ⟨py "cn", py "=", py "*"⟩ := by
      intro l hl
      rw [← l.reading_text, hl]
      decide
    rcases Ldap.Filter.init_cases hf with ⟨hblank, -⟩ | ⟨-, d, root, -, hd, hroot, rfl⟩
    · exact absurd hblank (by decide)
    · have hstop : Stops isOpSymbol ((py "cn= *").dropWhile Grammar.isWS) := by decide
      obtain ⟨l, pre, post, rfl, hbody⟩ := exists_leaf (by decide) hstop (hd.trans htext)
      have hobs : Observes leafKind (fun _ => (.presenceMatch, py "cn")) l.comparison := by
        intro cmp lead trail hcmp
        have hattr := (Grammar.Comparison.transform_reading hcmp).1
        have hcls := Grammar.Comparison.transform_presence hcmp (by rw [hpres l hbody]; decide)
        show (cmp.cls, cmp.attr) = _
        rw [hcls, hattr, hpres l hbody]
      have houtline := Grammar.Start.outline_transform (fun c hc => by
        rw [List.mem_singleton.mp hc]
        exact hobs) hroot
      show (Expressions.cons root .nil).outline leafKind = _
      rw [Expressions.outline, houtline]
      rfl
  -- the token is stripped to nothing, at which `partition` raises
  · refine not_accepted (by decide) (by decide) fun _ _ hparse l hl htext hok => ?_
    have haccepted := (l.transform_isOk_iff hfirst hblank hparse hl).mp hok
    rw [htext] at haccepted
    rcases haccepted.value with hne | hnil | hequality
    · exact hne (by decide)
    · revert hnil
      decide
    · exact absurd hequality.1 (by decide)
  · have hplain : All filterAlphabet.isPlain (py "cn=" ++ [0xa0]) := by decide
    refine not_accepted hplain (by decide) fun _ _ _ l _ htext hok => ?_
    have hvalue := (l.comparison.transform_isOk_iff.mp hok).2
    rw [← l.reading_text, htext] at hvalue
    have hvalueless := hvalue.resolve_left fun hne => hne (by decide)
    -- but the white space is not the grammar's
    have hspace := l.blank_of_valueless hvalueless
    rw [htext] at hspace
    exact absurd (hspace 0xa0 (by decide)) (by decide)

end Rfc4515

end FreeIam.Ldap
