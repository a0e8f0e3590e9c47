import Mathlib.Algebra.Order.BigOperators.Group.List
import Mathlib.Algebra.Order.Ring.Nat
import FreeIam.Ldap.Filter.Assertion
import FreeIam.Ldap.Filter.Injection
import FreeIam.Ldap.Filter.Reprint

/-!
# What the builders ask for

The builders are a translation into filter strings of the RFC. A string asks for
what was built, with the octets of the values that were given, except where a value
is escaped character by character though it is not ASCII: `escape_filter_chars`
writes the code point and not the octets of its encoding.
-/

namespace FreeIam.Ldap

open FreeIam.Py FreeIam.Scan

/-! ## The octets of an escaped value -/

theorem octets_digits {r : PyStr} (hr : All isHexDigit r) (s : PyStr) :
    octets (r ++ s) = r ++ octets s := by
  induction r with
  | nil => rfl
  | cons c r ih =>
    obtain ⟨hc, hr⟩ := all_cons.mp hr
    have hascii : utf8 c = [c] := by
      simp only [isHexDigit, isAsciiDigit, Bool.or_eq_true, Bool.and_eq_true, decide_eq_true_eq] at hc
      exact if_pos (by omega)
    rw [List.cons_append, octets_cons (Grammar.isHexDigit_ne_backslash hc), ih hr, hascii]
    rfl

/-- The octets that an escaped character stands for. -/
def hexOctets (c : Nat) : List Nat :=
  match format02x c with
  | h₁ :: h₂ :: r => (16 * hexValue h₁ + hexValue h₂) :: r
  | r => r

theorem octets_hexEscape (c : Nat) (s : PyStr) : octets (hexEscape c ++ s) = hexOctets c ++ octets s := by
  obtain ⟨h₁, h₂, r, hform, hhex⟩ := format02x_spec c
  rw [hform] at hhex
  obtain ⟨hh₁, hhex⟩ := all_cons.mp hhex
  obtain ⟨hh₂, hr⟩ := all_cons.mp hhex
  have hoctets : hexOctets c = (16 * hexValue h₁ + hexValue h₂) :: r := by
    rw [hexOctets, hform]
  rw [hoctets, hexEscape, hform]
  show octets ('\\'.toNat :: h₁ :: h₂ :: (r ++ s)) = _
  rw [octets, if_pos ⟨rfl, hh₁, hh₂⟩, octets_digits hr]
  rfl

/-- The code of a byte stands for the byte. -/
theorem hexOctets_byte {c : Nat} (hc : c < 256) : hexOctets c = [c] := by
  rw [hexOctets, format02x_byte c hc]
  show [16 * hexValue (hexChar (c / 16)) + hexValue (hexChar (c % 16))] = _
  rw [hexValue_hexChar _ (by omega), hexValue_hexChar _ (by omega), Nat.div_add_mod]

/-- The code of any other character goes on with digits. -/
theorem exists_digit_hexOctets {c : Nat} (hc : 256 ≤ c) : ∃ d ∈ hexOctets c, d < 128 := by
  obtain ⟨h₁, h₂, r, hform, hhex⟩ := format02x_spec c
  have hlength := format02x_length hc
  rw [hform] at hlength hhex
  cases r with
  | nil => exact absurd hlength (Nat.lt_irrefl 2)
  | cons d r =>
    have hd := hhex d (by simp)
    simp only [isHexDigit, isAsciiDigit, Bool.or_eq_true, Bool.and_eq_true, decide_eq_true_eq] at hd
    refine ⟨d, ?_, by omega⟩
    rw [hexOctets, hform]
    simp

/-- What an escaped character is on the wire. -/
def sentOctets (mode : EscapeMode) (c : Nat) : List Nat :=
  if isCoded mode c then hexOctets c else utf8 c

theorem octets_escapeChar_append (mode : EscapeMode) (c : Nat) (s : PyStr) :
    octets (escapeChar mode c ++ s) = sentOctets mode c ++ octets s := by
  rw [escapeChar_eq, sentOctets]
  cases hcoded : isCoded mode c with
  | true => exact octets_hexEscape c s
  | false => exact octets_cons (not_isCoded_backslash mode hcoded) s

theorem octets_escape (value : PyStr) (mode : EscapeMode) :
    octets (escape value mode) = value.flatMap (sentOctets mode) := by
  induction value with
  | nil => rfl
  | cons c value ih =>
    show octets (escapeChar mode c ++ escape value mode) = _
    rw [octets_escapeChar_append, ih]
    rfl

/-- ASCII is sent as it is. -/
theorem sentOctets_ascii (mode : EscapeMode) {c : Nat} (hc : c < 128) : sentOctets mode c = utf8 c := by
  have hascii : utf8 c = [c] := if_pos hc
  rw [sentOctets, hexOctets_byte (by omega), hascii, ite_self]

theorem isCoded_of_not_ascii {mode : EscapeMode} (hmode : mode ≠ .special) {c : Nat} (hc : 128 ≤ c) :
    isCoded mode c = true := by
  cases mode with
  | special => exact absurd rfl hmode
  | restricted =>
    have hz : 122 < c := by omega
    simp [isCoded, hz]
  | all => rfl

/-- Escape mode 0 codes metacharacters only. -/
theorem sentOctets_special (c : Nat) : sentOctets .special c = utf8 c := by
  by_cases hc : c < 128
  · exact sentOctets_ascii .special hc
  · rw [sentOctets, if_neg]
    simp [isCoded, isSpecial]
    omega

/-- An octet of ASCII. -/
abbrev isLow (d : Nat) : Bool := d < 128

/-- A coded character beyond the bytes brings digits with it, which are ASCII. -/
theorem countP_sentOctets {mode : EscapeMode} (hmode : mode ≠ .special) (c : Nat) :
    (utf8 c).countP isLow ≤ (sentOctets mode c).countP isLow ∧
      (256 ≤ c → (utf8 c).countP isLow < (sentOctets mode c).countP isLow) := by
  by_cases hc : c < 128
  · rw [sentOctets_ascii mode hc]
    exact ⟨Nat.le_refl _, fun h => by omega⟩
  · have hcount : (utf8 c).countP isLow = 0 := by
      rw [List.countP_eq_zero]
      intro d hd
      simpa using (utf8_not_ascii (Nat.le_of_not_lt hc)).1 d hd
    rw [hcount]
    refine ⟨Nat.zero_le _, fun hlarge => ?_⟩
    obtain ⟨d, hd, hlow⟩ := exists_digit_hexOctets hlarge
    rw [sentOctets, if_pos (isCoded_of_not_ascii hmode (Nat.le_of_not_lt hc)), List.countP_pos_iff]
    exact ⟨d, hd, by simpa using hlow⟩

/-- The code of a byte is one octet, where UTF-8 has two beyond ASCII. -/
theorem length_sentOctets {mode : EscapeMode} (hmode : mode ≠ .special) {c : Nat} (hc : c < 256) :
    (sentOctets mode c).length ≤ (utf8 c).length ∧
      (128 ≤ c → (sentOctets mode c).length < (utf8 c).length) := by
  by_cases hascii : c < 128
  · rw [sentOctets_ascii mode hascii]
    exact ⟨Nat.le_refl _, fun h => by omega⟩
  · have hlength := (utf8_not_ascii (Nat.le_of_not_lt hascii)).2
    rw [sentOctets, if_pos (isCoded_of_not_ascii hmode (Nat.le_of_not_lt hascii)), hexOctets_byte hc]
    exact ⟨Nat.le_of_lt hlength, fun _ => hlength⟩

/-- An escaped value is sent with its UTF-8 octets if and only if it was escaped in
mode 0 or is ASCII. -/
theorem octets_escape_iff (value : PyStr) (mode : EscapeMode) :
    octets (escape value mode) = textOctets value ↔ mode = .special ∨ ∀ c ∈ value, c < 128 := by
  rw [octets_escape]
  constructor
  · intro h
    by_contra hnot
    rw [not_or] at hnot
    obtain ⟨hmode, hascii⟩ := hnot
    have hbytes : ∀ c ∈ value, c < 256 := by
      by_contra hlarge
      simp only [not_forall, Nat.not_lt] at hlarge
      obtain ⟨c, hmem, hc⟩ := hlarge
      -- the digits of the code are ASCII octets too many
      have hlt := List.sum_lt_sum (fun c => (utf8 c).countP isLow)
        (fun c => (sentOctets mode c).countP isLow)
        (fun c _ => (countP_sentOctets hmode c).1) ⟨c, hmem, (countP_sentOctets hmode c).2 hc⟩
      have hcount := congrArg (List.countP isLow) h
      rw [textOctets, List.countP_flatMap, List.countP_flatMap] at hcount
      exact absurd hcount.symm (Nat.ne_of_lt hlt)
    simp only [not_forall, Nat.not_lt] at hascii
    obtain ⟨c, hmem, hc⟩ := hascii
    have hlt := List.sum_lt_sum (fun c => (sentOctets mode c).length) (fun c => (utf8 c).length)
      (fun c hc => (length_sentOctets hmode (hbytes c hc)).1)
      ⟨c, hmem, (length_sentOctets hmode (hbytes c hmem)).2 hc⟩
    have hlength := congrArg List.length h
    rw [textOctets, List.length_flatMap, List.length_flatMap] at hlength
    exact absurd hlength (Nat.ne_of_lt hlt)
  · rintro (rfl | hascii)
    · exact congrArg (value.flatMap ·) (funext sentOctets_special)
    · unfold textOctets
      refine List.flatMap_congr fun c hc => sentOctets_ascii mode (hascii c hc)

/-! ## The translation of the builders -/

/-- The octets that a leaf of a builder stands for. -/
def sentValue (value : PyStr) : List Nat := octets (Comparison.init .equalityMatch [] value false).escaped

/-- A value is sent as it is if and only if it has no white space at its ends or is
ASCII. -/
theorem sentValue_iff (value : PyStr) :
    sentValue value = textOctets value ↔ strip value = value ∨ ∀ c ∈ value, c < 128 := by
  show octets (if value ≠ strip value then escape value .restricted else escape value .special) = _ ↔ _
  by_cases hstrip : value = strip value
  · rw [if_neg (not_not.mpr hstrip), octets_escape_iff]
    exact iff_of_true (.inl rfl) (.inl hstrip.symm)
  · rw [if_pos hstrip, octets_escape_iff]
    simp [Ne.symm hstrip]

section Assertions

variable (enc : PyStr → List Nat) (σ : Nat → PyStr)

mutual

/-- The operators of a template over what its leaves ask for, with the octets of the
values. -/
def Template.assertions : Template → Outline Asserted
  | .eq attr hole => .leaf (.value .equal attr (enc (σ hole)))
  | .approx attr hole => .leaf (.value .approx attr (enc (σ hole)))
  | .gtEq attr hole => .leaf (.value .greaterorequal attr (enc (σ hole)))
  | .ltEq attr hole => .leaf (.value .lessorequal attr (enc (σ hole)))
  | .pres attr => .leaf (.present attr)
  | .extensible attr dn rule hole =>
    .leaf (.extensible attr (truthy dn) (ruleName (orStr rule [])) (enc (σ hole)))
  | .not t => .operator .not [t.assertions]
  | .and ts => .operator .and ts.assertions
  | .or ts => .operator .or ts.assertions

def Templates.assertions : Templates → List (Outline Asserted)
  | .nil => []
  | .cons t ts => t.assertions :: ts.assertions

end

end Assertions

mutual

/-- The holes of a template. -/
def Template.holes : Template → List Nat
  | .eq _ hole => [hole]
  | .approx _ hole => [hole]
  | .gtEq _ hole => [hole]
  | .ltEq _ hole => [hole]
  | .pres _ => []
  | .extensible _ _ _ hole => [hole]
  | .not t => t.holes
  | .and ts => ts.holes
  | .or ts => ts.holes

def Templates.holes : Templates → List Nat
  | .nil => []
  | .cons t ts => t.holes ++ ts.holes

end

section Holes

variable {enc enc' : PyStr → List Nat} (σ : Nat → PyStr)

mutual

/-- Two encodings of the values make the same assertions if and only if they agree on
the values. -/
theorem Template.assertions_eq_iff : ∀ t : Template,
    t.assertions enc σ = t.assertions enc' σ ↔ ∀ hole ∈ t.holes, enc (σ hole) = enc' (σ hole)
  | .eq attr hole => by simp [Template.assertions, Template.holes]
  | .approx attr hole => by simp [Template.assertions, Template.holes]
  | .gtEq attr hole => by simp [Template.assertions, Template.holes]
  | .ltEq attr hole => by simp [Template.assertions, Template.holes]
  | .pres attr => by simp [Template.assertions, Template.holes]
  | .extensible attr dn rule hole => by simp [Template.assertions, Template.holes]
  | .not t => by simp [Template.assertions, Template.holes, t.assertions_eq_iff]
  | .and ts => by simp [Template.assertions, Template.holes, ts.assertions_eq_iff]
  | .or ts => by simp [Template.assertions, Template.holes, ts.assertions_eq_iff]

theorem Templates.assertions_eq_iff : ∀ ts : Templates,
    ts.assertions enc σ = ts.assertions enc' σ ↔ ∀ hole ∈ ts.holes, enc (σ hole) = enc' (σ hole)
  | .nil => by simp [Templates.assertions, Templates.holes]
  | .cons t ts => by
    simp only [Templates.assertions, Templates.holes, List.cons.injEq, t.assertions_eq_iff,
      ts.assertions_eq_iff, List.mem_append]
    exact ⟨fun h hole hmem => hmem.elim (h.1 hole) (h.2 hole),
      fun h => ⟨fun hole hmem => h hole (.inl hmem), fun hole hmem => h hole (.inr hmem)⟩⟩

end

end Holes

/-! ### Builders print filters of the RFC -/

namespace Rfc4515

theorem isAssertionValue_plain {c : Nat} (hc : Grammar.isPlainChar c = true) (s : PyStr) :
    isAssertionValue (c :: s) = isAssertionValue s := by
  have hne : c ≠ '\\'.toNat := by
    rintro rfl
    exact absurd hc (by decide)
  rw [isAssertionValue.eq_def]
  simp only
  rw [if_neg hne, hc, Bool.true_and]

theorem isAssertionValue_escapeChar_append (mode : EscapeMode) (c : Nat) (s : PyStr) :
    isAssertionValue (escapeChar mode c ++ s) = isAssertionValue s := by
  have hdigits : ∀ r : PyStr, All isHexDigit r → isAssertionValue (r ++ s) = isAssertionValue s := by
    intro r hr
    induction r with
    | nil => rfl
    | cons d r ih =>
      obtain ⟨hd, hr⟩ := all_cons.mp hr
      rw [List.cons_append, isAssertionValue_plain (Grammar.isHexDigit_plain hd), ih hr]
  rw [escapeChar_eq]
  cases hcoded : isCoded mode c with
  | true =>
    obtain ⟨h₁, h₂, r, hform, hhex⟩ := format02x_spec c
    rw [hform] at hhex
    obtain ⟨hh₁, hhex⟩ := all_cons.mp hhex
    obtain ⟨hh₂, hr⟩ := all_cons.mp hhex
    rw [if_pos rfl, hexEscape, hform]
    show isAssertionValue ('\\'.toNat :: h₁ :: h₂ :: (r ++ s)) = _
    rw [isAssertionValue, if_pos rfl, hh₁, hh₂, hdigits r hr]
    rfl
  | false =>
    refine isAssertionValue_plain ?_ s
    cases mode with
    | special =>
      simp only [isCoded, Bool.or_eq_false_iff, beq_eq_false_iff_ne] at hcoded
      exact isPlainChar_of_not_special hcoded.1 hcoded.2
    | restricted =>
      simp only [isCoded, Bool.or_eq_false_iff, decide_eq_false_iff_not] at hcoded
      refine isPlainChar_of_not_special hcoded.2 ?_
      rintro rfl
      exact hcoded.1.1 (by decide)
    | all => cases hcoded

/-- An escaped value is an assertion value of the RFC. -/
theorem isAssertionValue_escape (value : PyStr) (mode : EscapeMode) :
    isAssertionValue (escape value mode) = true := by
  induction value with
  | nil => rfl
  | cons c value ih =>
    show isAssertionValue (escapeChar mode c ++ escape value mode) = true
    rw [isAssertionValue_escapeChar_append, ih]

theorem isAssertionValue_escaped (cls : ComparisonClass) (attr value : PyStr) :
    isAssertionValue (Comparison.init cls attr value false).escaped = true := by
  show isAssertionValue (if value ≠ strip value then escape value .restricted
    else escape value .special) = true
  split
  · exact isAssertionValue_escape value .restricted
  · exact isAssertionValue_escape value .special

/-- A name is an attribute description of the RFC. -/
def Describes (attr : PyStr) : Prop := ∃ a : AttributeDescription, a.text = attr

/-- A matching rule is absent, or an object identifier other than `dn`. -/
def NamesRule (rule : Option PyStr) : Prop :=
  truthy rule = false ∨ ∃ o : Oid, o.text = orStr rule [] ∧ Grammar.isDn o.text = false

/-- An escaped value of a builder. -/
def escapedValue (cls : ComparisonClass) (attr value : PyStr) : AssertionValue :=
  ⟨(Comparison.init cls attr value false).escaped, isAssertionValue_escaped cls attr value⟩

end Rfc4515

open Rfc4515 (Describes NamesRule)

mutual

/-- The names of a template are those of the RFC. -/
def Template.Standard : Template → Prop
  | .eq attr _ => Describes attr
  | .approx attr _ => Describes attr
  | .gtEq attr _ => Describes attr
  | .ltEq attr _ => Describes attr
  | .pres attr => Describes attr
  | .extensible attr dn rule _ => Describes attr ∧ DnFlag dn ∧ NamesRule rule
  | .not t => t.Standard
  | .and ts => ts.Standard
  | .or ts => ts.Standard

def Templates.Standard : Templates → Prop
  | .nil => True
  | .cons t ts => t.Standard ∧ ts.Standard

end

/-- A filter of the RFC with the text of a member, and what it asserts. -/
structure Translates (text : PyStr) (asked : Outline Asserted) (r : Rfc4515.Filter) : Prop where
  text : r.text = text
  definite : r.Definite
  assertions : r.assertions = asked

/-- A leaf is printed as an item. -/
theorem translates_item {c : Comparison} {a : Asserted} {i : Rfc4515.Item} (htext : i.text = c.str)
    (hdefinite : i.Definite) (ha : i.assertion = a) :
    Translates (Expression.comparison c).memberStr (.leaf a) (.item i) where
  text := by
    show py "(" ++ i.text ++ py ")" = py "(" ++ c.str ++ py ")" ++ []
    rw [htext, List.append_nil]
  definite := hdefinite
  assertions := congrArg Outline.leaf ha

/-- A flag that is given is the dn flag. -/
theorem exists_flag {dn : Option PyStr} (h : DnFlag dn) : ∃ d : Option Grammar.Dn,
    d.isSome = truthy dn ∧
      Rfc4515.colon (d.map Grammar.Dn.text) = if truthy dn then py ":" ++ orStr dn [] else [] := by
  cases hdn : truthy dn with
  | false => exact ⟨none, rfl, rfl⟩
  | true => exact ⟨some ⟨orStr dn [], h.resolve_left (by simp [hdn])⟩, rfl, rfl⟩

/-- A matching rule that is given is an object identifier. -/
theorem exists_rule {rule : Option PyStr} (h : NamesRule rule) : ∃ o : Option Rfc4515.Oid,
    o.map Rfc4515.Oid.text = ruleName (orStr rule []) ∧
      (Rfc4515.colon (o.map Rfc4515.Oid.text) = if truthy rule then py ":" ++ orStr rule [] else []) ∧
      ∀ r, o = some r → Grammar.isDn r.text = false := by
  cases hrule : truthy rule with
  | false =>
    have hnil : orStr rule [] = [] := by
      cases rule with
      | none => rfl
      | some s => simpa [truthy, orStr] using hrule
    exact ⟨none, by rw [hnil]; rfl, rfl, by simp⟩
  | true =>
    obtain ⟨o, ho, hdn⟩ := h.resolve_left (by simp [hrule])
    rw [← ho, ruleName_of_ne_nil o.ne_nil]
    exact ⟨some o, rfl, rfl, fun r hr => by cases hr; exact hdn⟩

section Printed

variable (σ : Nat → PyStr)

/-- A leaf of a template is printed as an item with the octets that are sent. -/
theorem Template.exists_translates_leaf {t : Template} (ht : t.Standard) {c : Comparison}
    (hc : t.build σ = .comparison c) :
    ∃ r, Translates (t.build σ).memberStr (t.assertions sentValue σ) r := by
  have hprint : ∀ (cls : ComparisonClass) (attr value : PyStr),
      (Comparison.init cls attr value false).str = attr ++
        (Comparison.init cls attr value false).prefixText ++ (Rfc4515.escapedValue cls attr value).text :=
    Comparison.init_str
  cases t with
  | eq attr hole =>
    obtain ⟨a, rfl⟩ := ht
    exact ⟨_, translates_item (i := .simple a .equal (Rfc4515.escapedValue .equalityMatch a.text (σ hole)))
      (hprint .equalityMatch a.text (σ hole)).symm trivial rfl⟩
  | approx attr hole =>
    obtain ⟨a, rfl⟩ := ht
    exact ⟨_, translates_item (i := .simple a .approx (Rfc4515.escapedValue .approximateMatch a.text (σ hole)))
      (hprint .approximateMatch a.text (σ hole)).symm trivial rfl⟩
  | gtEq attr hole =>
    obtain ⟨a, rfl⟩ := ht
    exact ⟨_, translates_item
      (i := .simple a .greaterorequal (Rfc4515.escapedValue .greaterOrEqual a.text (σ hole)))
      (hprint .greaterOrEqual a.text (σ hole)).symm trivial rfl⟩
  | ltEq attr hole =>
    obtain ⟨a, rfl⟩ := ht
    exact ⟨_, translates_item
      (i := .simple a .lessorequal (Rfc4515.escapedValue .lessOrEqual a.text (σ hole)))
      (hprint .lessOrEqual a.text (σ hole)).symm trivial rfl⟩
  | pres attr =>
    obtain ⟨a, rfl⟩ := ht
    refine ⟨_, translates_item (i := .present a) ?_ trivial rfl⟩
    have hstr := Comparison.init_str .presenceMatch a.text []
    rw [hstr]
    simp [Rfc4515.Item.text, Comparison.prefixText, Comparison.init, Comparison.escaped, escape,
      ComparisonClass.expression]
  | extensible attr dn rule hole =>
    obtain ⟨⟨a, rfl⟩, hdn, hrule⟩ := ht
    obtain ⟨d, hsome, hflag⟩ := exists_flag hdn
    obtain ⟨o, hname, hpart, hdefinite⟩ := exists_rule hrule
    refine ⟨_, translates_item (i := .extensible a d o
      (Rfc4515.escapedValue (.extensibleMatch dn rule) a.text (σ hole))) ?_ ?_ ?_⟩
    · rw [hprint]
      simp [Rfc4515.Item.text, hflag, hpart, Comparison.prefixText, Comparison.init, extraOf,
        ComparisonClass.expression]
    · cases d with
      | some d => trivial
      | none =>
        cases o with
        | none => trivial
        | some o => exact hdefinite o rfl
    · rw [Rfc4515.Item.assertion, hsome, hname]
      rfl
  -- an operator is no leaf
  | not t => cases hc
  | and ts => cases hc
  | or ts => cases hc

mutual

/-- Every template is printed as a filter of the RFC. -/
theorem Template.exists_translates : ∀ t : Template, t.Standard →
    ∃ r, Translates (t.build σ).memberStr (t.assertions sentValue σ) r
  | .eq _ _, h => Template.exists_translates_leaf σ h rfl
  | .approx _ _, h => Template.exists_translates_leaf σ h rfl
  | .gtEq _ _, h => Template.exists_translates_leaf σ h rfl
  | .ltEq _ _, h => Template.exists_translates_leaf σ h rfl
  | .pres _, h => Template.exists_translates_leaf σ h rfl
  | .extensible _ _ _ _, h => Template.exists_translates_leaf σ h rfl
  | .not t, h => by
    obtain ⟨r, hr⟩ := t.exists_translates h
    refine ⟨.not r, ?_, hr.definite, ?_⟩
    · have hmember : (t.build σ).memberStr = (Expressions.ofList [t.build σ]).groupStr := rfl
      show py "(!" ++ r.text ++ py ")" = py "(" ++ py "!" ++ [] ++
        (Expressions.ofList [t.build σ]).groupStr ++ py ")" ++ []
      rw [hr.text, hmember]
      simp [py]
    · show Outline.operator .not [r.assertions] = _
      rw [hr.assertions]
      rfl
  | .and ts, h => by
    obtain ⟨rs, htext, hdefinite, hassertions⟩ := ts.exists_translates h
    refine ⟨.and rs, ?_, hdefinite, congrArg (Outline.operator .and) hassertions⟩
    show py "(" ++ py "&" ++ rs.text ++ py ")" = py "(" ++ py "&" ++ [] ++ _ ++ py ")" ++ []
    rw [htext]
    simp
  | .or ts, h => by
    obtain ⟨rs, htext, hdefinite, hassertions⟩ := ts.exists_translates h
    refine ⟨.or rs, ?_, hdefinite, congrArg (Outline.operator .or) hassertions⟩
    show py "(" ++ py "|" ++ rs.text ++ py ")" = py "(" ++ py "|" ++ [] ++ _ ++ py ")" ++ []
    rw [htext]
    simp

theorem Templates.exists_translates : ∀ ts : Templates, ts.Standard →
    ∃ rs : Rfc4515.Filters, rs.text = (Expressions.ofList (ts.build σ)).groupStr ∧ rs.Definite ∧
      rs.assertions = ts.assertions sentValue σ
  | .nil, _ => ⟨.nil, rfl, trivial, rfl⟩
  | .cons t ts, h => by
    obtain ⟨r, hr⟩ := t.exists_translates h.1
    obtain ⟨rs, htext, hdefinite, hassertions⟩ := ts.exists_translates h.2
    refine ⟨.cons r rs, ?_, ⟨hr.definite, hdefinite⟩, ?_⟩
    · show r.text ++ rs.text = (Expressions.cons (t.build σ) (Expressions.ofList (ts.build σ))).groupStr
      rw [hr.text, htext]
      exact (Expressions.groupStr_append (.cons (t.build σ) .nil) _).symm
    · show r.assertions :: rs.assertions = _
      rw [hr.assertions, hassertions]
      rfl

end

end Printed

/-! ## Builders and servers -/

/-- The string of a template is a filter of the RFC with one meaning: the operators
of the template over the assertions of its leaves. It is the meaning of the template
if and only if every value has no white space at its ends or is ASCII. -/
theorem builder_meaning_iff (t : Template) (ht : t.Standard) (σ : Nat → PyStr) :
    ∃ r : Rfc4515.Filter, r.Definite ∧ r.text = (t.build σ).memberStr ∧
      (∀ r' : Rfc4515.Filter, r'.Definite → r'.text = r.text → r'.assertions = r.assertions) ∧
      (r.assertions = t.assertions textOctets σ ↔
        ∀ hole ∈ t.holes, strip (σ hole) = σ hole ∨ ∀ c ∈ σ hole, c < 128) := by
  obtain ⟨r, hr⟩ := t.exists_translates σ ht
  refine ⟨r, hr.definite, hr.text, fun r' h' htext => Rfc4515.Filter.assertions_unique h' hr.definite htext, ?_⟩
  rw [hr.assertions, t.assertions_eq_iff]
  constructor
  · intro h hole hmem
    exact (sentValue_iff (σ hole)).mp (h hole hmem)
  · intro h hole hmem
    exact (sentValue_iff (σ hole)).mpr (h hole hmem)

/-- The name `Lučić`, which has no white space at its ends. -/
theorem builder_meaning_name : ∃ r : Rfc4515.Filter, r.Definite ∧
    r.text = (cnTemplate.build fun _ => [76, 117, 0x10d, 105, 0x107]).memberStr ∧
    r.assertions = cnTemplate.assertions textOctets fun _ => [76, 117, 0x10d, 105, 0x107] := by
  obtain ⟨r, hr, htext, -, hmeaning⟩ := builder_meaning_iff cnTemplate
    ⟨⟨Rfc4515.cn, rfl⟩, ⟨⟨.descr (py "sn") (by decide), []⟩, rfl⟩, trivial⟩
    fun _ => [76, 117, 0x10d, 105, 0x107]
  exact ⟨r, hr, htext, hmeaning.mpr fun _ _ => .inl (by decide)⟩

end FreeIam.Ldap
