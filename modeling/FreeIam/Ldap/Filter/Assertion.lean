import FreeIam.Lib.Kleene
import FreeIam.Ldap.Filter.Rfc4515
import FreeIam.Ldap.Filter.Unescape

/-!
# What a filter asks

A server reads a filter as operators over assertions, and the value of an
assertion as octets: an escape `\hh` is the octet `hh`, any other character its
UTF-8 encoding. The text of a filter of the RFC has one such reading.
-/

namespace FreeIam.Ldap

open FreeIam.Py FreeIam.Scan FreeIam.Bracket FreeIam.Kleene

/-! ## Octets -/

/-- The octets of an assertion value. -/
def octets : PyStr → List Nat
  | c :: h₁ :: h₂ :: s =>
    if c = '\\'.toNat ∧ isHexDigit h₁ = true ∧ isHexDigit h₂ = true then
      (16 * hexValue h₁ + hexValue h₂) :: octets s
    else utf8 c ++ octets (h₁ :: h₂ :: s)
  | s => s.flatMap utf8

/-- The octets of a text that nobody has escaped. -/
def textOctets (s : PyStr) : List Nat := s.flatMap utf8

example : octets (py "Lu\\c4\\8di\\c4\\87") = textOctets [76, 117, 0x10d, 105, 0x107] := by decide

theorem octets_cons {c : Nat} (hc : c ≠ '\\'.toNat) (s : PyStr) :
    octets (c :: s) = utf8 c ++ octets s := by
  match s with
  | [] => rfl
  | [_] => rfl
  | h₁ :: h₂ :: s => rw [octets, if_neg fun h => hc h.1]

/-! ## Assertions -/

/-- An assertion of a filter. The pieces of a pattern are those around its
asterisks. -/
inductive Asserted where
  | value (type : Rfc4515.FilterType) (attr : PyStr) (value : List Nat)
  | present (attr : PyStr)
  | substring (attr : PyStr) (pieces : List (List Nat))
  | extensible (attr : PyStr) (dnattrs : Bool) (matchingrule : Option PyStr) (value : List Nat)

/-- The matching rule of a text, which is empty where there is none. -/
def ruleName (s : PyStr) : Option PyStr := if s = [] then none else some s

@[simp] theorem ruleName_nil : ruleName [] = none := rfl

theorem ruleName_of_ne_nil {s : PyStr} (h : s ≠ []) : ruleName s = some s := if_neg h

/-- What a leaf with this reading asserts. -/
def Reading.assertion (r : Reading) : Asserted :=
  match r.cls with
  | .equalityMatch => .value .equal r.attr (octets r.value)
  | .greaterOrEqual => .value .greaterorequal r.attr (octets r.value)
  | .lessOrEqual => .value .lessorequal r.attr (octets r.value)
  | .approximateMatch => .value .approx r.attr (octets r.value)
  | .substringMatch => .substring r.attr ((r.value.splitOn '*'.toNat).map octets)
  | .presenceMatch => .present r.attr
  | .extensibleMatch _ _ =>
    .extensible r.attr (r.extensible.1 ≠ []) (ruleName r.extensible.2) (octets r.value)

/-- Read the text of a leaf; white space in it belongs to the value. -/
def readItem (s : PyStr) : Reading where
  attr := s.takeWhile Grammar.isAttrChar
  op := (s.dropWhile Grammar.isAttrChar).takeWhile isOpChar ++ py "="
  value := readRest s

/-- An attribute, an operator and a value are read off the text that they make. -/
theorem readItem_text {attr head value : PyStr} (hattr : All Grammar.isAttrChar attr)
    (hhead : All isOpChar head) (hstops : Stops Grammar.isAttrChar (head ++ '='.toNat :: value)) :
    readItem (attr ++ (head ++ '='.toNat :: value)) = ⟨attr, head ++ py "=", value⟩ := by
  have hop : Stops isOpChar ('='.toNat :: value) := by
    rw [stops_cons]
    decide
  have hrest : readRest (attr ++ (head ++ '='.toNat :: value)) = value := by
    have hbefore : All isOpChar (attr ++ head) :=
      all_append.mpr ⟨hattr.mono fun _ => Grammar.isOpChar_of_isAttrChar, hhead⟩
    rw [readRest, ← List.append_assoc, dropWhile_append hbefore hop]
    rfl
  rw [readItem, hrest, takeWhile_append hattr hstops, dropWhile_append hattr hstops,
    takeWhile_append hhead hop]

/-! ## The answer of a server -/

section Eval

variable {β : Type}

mutual

/-- The truth value of a filter whose leaves have these. A `not` of the RFC has one
member. -/
def Outline.eval (m : β → Truth) : Outline β → Truth
  | .leaf b => m b
  | .operator .and members => Truth.all (evalMembers m members)
  | .operator .or members => Truth.any (evalMembers m members)
  | .operator .not members => (Truth.all (evalMembers m members)).not

def evalMembers (m : β → Truth) : List (Outline β) → List Truth
  | [] => []
  | o :: os => o.eval m :: evalMembers m os

end

end Eval

/-! ## The assertions of the RFC -/

namespace Rfc4515

/-- What an item asserts; a pattern of one asterisk asks for presence. -/
def Item.assertion : Item → Asserted
  | .simple attr type value => .value type attr.text (octets value.text)
  | .present attr => .present attr.text
  | .substring attr initial any final =>
    if pattern initial any final = py "*" then .present attr.text
    else .substring attr.text
      (octets initial.text :: (any.map fun value => octets value.text) ++ [octets final.text])
  | .extensible attr dn rule value =>
    .extensible attr.text dn.isSome (rule.map Oid.text) (octets value.text)
  | .extensibleRule dn rule value => .extensible [] dn.isSome (some rule.text) (octets value.text)

/-- The two grammars of the RFC for `attr:part:=` do not overlap: a part that says
`dn` is the flag. -/
def Item.Definite : Item → Prop
  | .extensible _ none (some rule) _ => Grammar.isDn rule.text = false
  | _ => True

def Filter.Definite (r : Filter) : Prop := r.Every Item.Definite

def Filters.Definite (rs : Filters) : Prop := rs.Every Item.Definite

mutual

/-- The operators of a filter over its assertions. -/
def Filter.assertions : Filter → Outline Asserted
  | .and filters => .operator .and filters.assertions
  | .or filters => .operator .or filters.assertions
  | .not filter => .operator .not [filter.assertions]
  | .item item => .leaf item.assertion

def Filters.assertions : Filters → List (Outline Asserted)
  | .nil => []
  | .cons filter filters => filter.assertions :: filters.assertions

end

/-! ### Items -/

theorem AttributeDescription.chars (a : AttributeDescription) : All Grammar.isAttrChar a.text := by
  refine all_append.mpr ⟨(Grammar.isAttr_spec a.type.isAttr_text).2, fun c hc => ?_⟩
  obtain ⟨o, -, hc⟩ := List.mem_flatMap.mp hc
  rcases List.mem_cons.mp hc with rfl | hc
  · decide
  · have hvalid := o.valid
    simp only [isOption, Bool.and_eq_true, List.all_eq_true] at hvalid
    exact Grammar.isNameChar_isAttrChar (isNameChar_of_isKeyChar (hvalid.2 c hc))

theorem AttributeDescription.ne_nil (a : AttributeDescription) : a.text ≠ [] := by
  intro h
  exact (Grammar.isAttr_spec a.type.isAttr_text).1 (List.append_eq_nil_iff.mp h).1

theorem Oid.chars (o : Oid) : All Grammar.isAttrChar o.text := (Grammar.isAttr_spec o.isAttr_text).2

theorem Oid.ne_nil (o : Oid) : o.text ≠ [] := (Grammar.isAttr_spec o.isAttr_text).1

/-- The pieces of a pattern. -/
theorem splitOn_pattern (initial : AssertionValue) (any : List AnyValue) (final : AssertionValue) :
    (pattern initial any final).splitOn '*'.toNat =
      initial.text :: (any.map fun value => value.text) ++ [final.text] := by
  have htail : (any.flatMap (fun a => a.text ++ py "*") ++ final.text).splitOn '*'.toNat =
      (any.map fun value => value.text) ++ [final.text] := by
    induction any with
    | nil => exact List.splitOn_eq_singleton final.asterisk_notMem
    | cons a any ih =>
      have ha := a.toAssertionValue.asterisk_notMem
      rw [List.flatMap_cons, List.append_assoc, List.append_assoc]
      show (a.text ++ '*'.toNat :: (any.flatMap (fun a => a.text ++ py "*") ++ final.text)).splitOn _ = _
      rw [List.splitOn_append_cons_self_of_not_mem ha, ih]
      rfl
  show (initial.text ++ '*'.toNat :: (any.flatMap (fun a => a.text ++ py "*") ++ final.text)).splitOn _ = _
  rw [List.splitOn_append_cons_self_of_not_mem initial.asterisk_notMem, htail]
  rfl

/-- A value has no asterisk, so the reading of an equality is one. -/
theorem assertion_of_notMem {attr value : PyStr} (h : '*'.toNat ∉ value) :
    (Reading.mk attr (py "=") value).assertion = .value .equal attr (octets value) := by
  have hcls : (Reading.mk attr (py "=") value).cls = .equalityMatch := by
    rw [Reading.cls_of_eq rfl]
    show (if value = py "*" then _ else if '*'.toNat ∈ value then _ else _) = _
    rw [if_neg h, if_neg]
    rintro rfl
    exact h (by decide)
  rw [Reading.assertion, hcls]

/-- The attribute of an item, the text up to its `=` and the text behind it. -/
def Item.frame : Item → PyStr × PyStr × PyStr
  | .simple attr type value => (attr.text, type.text.dropLast, value.text)
  | .present attr => (attr.text, [], py "*")
  | .substring attr initial any final => (attr.text, [], pattern initial any final)
  | .extensible attr dn rule value =>
    (attr.text, colon (dn.map Grammar.Dn.text) ++ colon (rule.map Oid.text) ++ py ":", value.text)
  | .extensibleRule dn rule value =>
    ([], colon (dn.map Grammar.Dn.text) ++ colon (some rule.text) ++ py ":", value.text)

theorem Item.frame_value (i : Item) : i.frame.2.2 = i.value := by cases i <;> rfl

theorem Item.text_eq (i : Item) :
    i.text = i.frame.1 ++ (i.frame.2.1 ++ '='.toNat :: i.frame.2.2) := by
  cases i with
  | simple attr type value => cases type <;> simp [Item.text, Item.frame, FilterType.text, py]
  | present attr => simp [Item.text, Item.frame, py]
  | substring attr initial any final => simp [Item.text, Item.frame, py]
  | extensible attr dn rule value => simp [Item.text, Item.frame, py]
  | extensibleRule dn rule value => simp [Item.text, Item.frame, py]

/-- The parts of an operator have no `=`. -/
theorem colon_opChars (part : Option PyStr) (h : ∀ s, part = some s → All Grammar.isAttrChar s) :
    All isOpChar (colon part) := by
  cases part with
  | none => exact .nil
  | some s =>
    have hs := (h s rfl).mono fun _ => Grammar.isOpChar_of_isAttrChar
    exact all_append.mpr ⟨by decide, hs⟩

/-- What follows the attribute. -/
theorem Item.frame_spec (i : Item) :
    All Grammar.isAttrChar i.frame.1 ∧ All isOpChar i.frame.2.1 ∧
      Stops Grammar.isAttrChar (i.frame.2.1 ++ '='.toNat :: i.frame.2.2) := by
  have hparts : ∀ (dn : Option Grammar.Dn) (rule : Option Oid) (value : PyStr),
      All isOpChar (colon (dn.map Grammar.Dn.text) ++ colon (rule.map Oid.text) ++ py ":") ∧
      Stops Grammar.isAttrChar
        (colon (dn.map Grammar.Dn.text) ++ colon (rule.map Oid.text) ++ py ":" ++ '='.toNat :: value) := by
    intro dn rule value
    have hdn := colon_opChars (dn.map Grammar.Dn.text) fun s hs => by
      obtain ⟨dn, -, rfl⟩ := Option.map_eq_some_iff.mp hs
      exact dn.chars
    have hrule := colon_opChars (rule.map Oid.text) fun s hs => by
      obtain ⟨rule, -, rfl⟩ := Option.map_eq_some_iff.mp hs
      exact rule.chars
    refine ⟨by simp [hdn, hrule]; decide, ?_⟩
    cases dn <;> cases rule <;> simp [colon, py, stops_cons] <;> decide
  cases i with
  | simple attr type value =>
    have hhead : All isOpChar type.text.dropLast := by cases type <;> decide
    refine ⟨attr.chars, hhead, ?_⟩
    cases type <;> simp [Item.frame, FilterType.text, py, stops_cons] <;> decide
  | present attr => exact ⟨attr.chars, .nil, by simp [Item.frame, stops_cons]; decide⟩
  | substring attr initial any final =>
    exact ⟨attr.chars, .nil, by simp [Item.frame, stops_cons]; decide⟩
  | extensible attr dn rule value => exact ⟨attr.chars, hparts dn rule value.text⟩
  | extensibleRule dn rule value => exact ⟨.nil, hparts dn (some rule) value.text⟩

theorem Item.readItem_text (i : Item) :
    readItem i.text = ⟨i.frame.1, i.frame.2.1 ++ py "=", i.frame.2.2⟩ := by
  obtain ⟨hattr, hhead, hstops⟩ := i.frame_spec
  rw [i.text_eq, Ldap.readItem_text hattr hhead hstops]

/-- The two parts of the operator of an extensible match. -/
theorem extensible_parts {attr : PyStr} (value : PyStr) (dn : Option Grammar.Dn) (rule : Option Oid)
    (h : attr ≠ [] → dn = none → ∀ r, rule = some r → Grammar.isDn r.text = false)
    (hattr : attr = [] → rule ≠ none) :
    (Reading.mk attr (colon (dn.map Grammar.Dn.text) ++ colon (rule.map Oid.text) ++ py ":" ++ py "=")
      value).extensible = (dn.elim [] Grammar.Dn.text, rule.elim [] Oid.text) := by
  cases dn with
  | none =>
    cases rule with
    | none => rfl
    | some rule =>
      show (Reading.mk attr (py ":" ++ rule.text ++ py ":" ++ py "=") value).extensible = _
      rw [Reading.extensible_one rule.chars, if_neg]
      · rfl
      · intro hdn
        simp only [Bool.and_eq_true, decide_eq_true_eq] at hdn
        rw [h hdn.2 rfl rule rfl] at hdn
        cases hdn.1
  | some dn =>
    cases rule with
    | none =>
      show (Reading.mk attr (py ":" ++ dn.text ++ [] ++ py ":" ++ py "=") value).extensible = _
      have hne : attr ≠ [] := fun hnil => hattr hnil rfl
      rw [List.append_nil, Reading.extensible_one dn.chars, if_pos (by simp [dn.valid, hne])]
      rfl
    | some rule =>
      have htext : py ":" ++ dn.text ++ (py ":" ++ rule.text) ++ py ":" ++ py "=" =
          py ":" ++ dn.text ++ py ":" ++ rule.text ++ py ":" ++ py "=" := by simp
      show (Reading.mk attr (py ":" ++ dn.text ++ (py ":" ++ rule.text) ++ py ":" ++ py "=") value).extensible = _
      rw [htext, Reading.extensible_two dn.chars rule.chars rule.ne_nil]
      rfl

theorem assertion_extensible {attr : PyStr} (dn : Option Grammar.Dn) (rule : Option Oid) (value : PyStr)
    (h : attr ≠ [] → dn = none → ∀ r, rule = some r → Grammar.isDn r.text = false)
    (hattr : attr = [] → rule ≠ none) :
    (Reading.mk attr (colon (dn.map Grammar.Dn.text) ++ colon (rule.map Oid.text) ++ py ":" ++ py "=")
      value).assertion = .extensible attr dn.isSome (rule.map Oid.text) (octets value) := by
  have hparts := extensible_parts value dn rule h hattr
  obtain ⟨t, ht⟩ : ∃ t, colon (dn.map Grammar.Dn.text) ++ colon (rule.map Oid.text) ++ py ":" ++ py "="
      = ':'.toNat :: t := by
    cases dn <;> cases rule <;> exact ⟨_, rfl⟩
  rw [Reading.assertion, Reading.cls_of_colon ht, hparts]
  cases dn with
  | none =>
    cases rule with
    | none => rfl
    | some rule => simp [ruleName_of_ne_nil rule.ne_nil]
  | some dn =>
    cases rule with
    | none => simp [dn.ne_nil]
    | some rule => simp [ruleName_of_ne_nil rule.ne_nil, dn.ne_nil]

/-- The assertion of an item is read off its text. -/
theorem Item.assertion_readItem (i : Item) (h : i.Definite) :
    (readItem i.text).assertion = i.assertion := by
  rw [i.readItem_text]
  cases i with
  | simple attr type value =>
    cases type with
    | equal => exact assertion_of_notMem value.asterisk_notMem
    | approx => rfl
    | greaterorequal => rfl
    | lessorequal => rfl
  | present attr => rfl
  | substring attr initial any final =>
    have hmem : '*'.toNat ∈ pattern initial any final := by simp [pattern, py]
    have hcls : (Reading.mk attr.text (py "=") (pattern initial any final)).cls =
        if pattern initial any final = py "*" then .presenceMatch else .substringMatch := by
      rw [Reading.cls_of_eq rfl]
      show (if _ then _ else if '*'.toNat ∈ pattern initial any final then _ else _) = _
      rw [if_pos hmem]
    show (Reading.mk attr.text (py "=") (pattern initial any final)).assertion = _
    by_cases hone : pattern initial any final = py "*"
    · rw [Reading.assertion, hcls, Item.assertion, if_pos hone, if_pos hone]
    · rw [Reading.assertion, hcls, Item.assertion, if_neg hone, if_neg hone]
      show Asserted.substring attr.text
        (((pattern initial any final).splitOn '*'.toNat).map octets) = _
      rw [splitOn_pattern]
      simp
  | extensible attr dn rule value =>
    refine assertion_extensible dn rule value.text (fun _ hdn r hr => ?_) fun hnil => absurd hnil attr.ne_nil
    subst hdn hr
    exact h
  | extensibleRule dn rule value =>
    exact assertion_extensible dn (some rule) value.text (fun hne => absurd rfl hne) fun _ => Option.some_ne_none rule

/-! ### Filters -/

mutual

/-- The bracketed text of a filter. -/
def Filter.layout : Filter → Bracket.Tree Nat
  | .and filters => .node [] Grammar.ListOp.and.symbol [] filters.layout
  | .or filters => .node [] Grammar.ListOp.or.symbol [] filters.layout
  | .not filter => .node [] '!'.toNat [] (.cons filter.layout [] .nil)
  | .item item => .leaf item.text

def Filters.layout : Filters → Members Nat
  | .nil => .nil
  | .cons filter filters => .cons filter.layout [] filters.layout

end

mutual

theorem Filter.text_layout : ∀ r : Filter, r.layout.text filterAlphabet = r.text
  | .and filters => by
    simp [Filter.layout, Bracket.Tree.text, filters.text_layout, Filter.text, py]
  | .or filters => by
    simp [Filter.layout, Bracket.Tree.text, filters.text_layout, Filter.text, py]
  | .not filter => by
    simp [Filter.layout, Bracket.Tree.text, Members.text, filter.text_layout, Filter.text, py]
  | .item item => by simp [Filter.layout, Bracket.Tree.text, Filter.text, py]

theorem Filters.text_layout : ∀ rs : Filters, rs.layout.text filterAlphabet = rs.text
  | .nil => rfl
  | .cons filter filters => by
    simp [Filters.layout, Members.text, filter.text_layout, filters.text_layout, Filters.text]

end

theorem isPlain_of_attrChars {s : PyStr} (h : All Grammar.isAttrChar s) : All filterAlphabet.isPlain s := by
  refine h.mono fun c hc => ?_
  have := Grammar.isAttrChar_cases hc
  simp [Alphabet.isPlain, filterAlphabet]
  omega

theorem isPlain_colon {part : Option PyStr} (h : ∀ s, part = some s → All Grammar.isAttrChar s) :
    All filterAlphabet.isPlain (colon part) := by
  cases part with
  | none => exact .nil
  | some s => exact all_append.mpr ⟨by decide, isPlain_of_attrChars (h s rfl)⟩

theorem AssertionValue.isPlain (v : AssertionValue) : All filterAlphabet.isPlain v.text := by
  refine (Grammar.isValueText_chars _ v.isValueText).mono fun c hc => ?_
  simp only [Grammar.isValueChar, Grammar.isPlainChar, Bool.or_eq_true, beq_iff_eq] at hc
  simp [Alphabet.isPlain, filterAlphabet]
  simp at hc
  omega

/-- Items contain no brackets. -/
theorem Item.isPlain_text (i : Item) : All filterAlphabet.isPlain i.text := by
  have hdn : ∀ dn : Option Grammar.Dn, All filterAlphabet.isPlain (colon (dn.map Grammar.Dn.text)) :=
    fun dn => isPlain_colon fun s hs => by
      obtain ⟨dn, -, rfl⟩ := Option.map_eq_some_iff.mp hs
      exact dn.chars
  have hrule : ∀ rule : Option Oid, All filterAlphabet.isPlain (colon (rule.map Oid.text)) :=
    fun rule => isPlain_colon fun s hs => by
      obtain ⟨rule, -, rfl⟩ := Option.map_eq_some_iff.mp hs
      exact rule.chars
  have hstar : All filterAlphabet.isPlain (py "*") := by decide
  cases i with
  | simple attr type value =>
    have htype : All filterAlphabet.isPlain type.text := by cases type <;> decide
    exact all_append.mpr ⟨all_append.mpr ⟨isPlain_of_attrChars attr.chars, htype⟩, value.isPlain⟩
  | present attr => exact all_append.mpr ⟨isPlain_of_attrChars attr.chars, by decide⟩
  | substring attr initial any final =>
    have hany : All filterAlphabet.isPlain (any.flatMap fun a => a.text ++ py "*") := by
      intro c hc
      obtain ⟨a, -, hc⟩ := List.mem_flatMap.mp hc
      exact all_append.mpr ⟨a.isPlain, hstar⟩ c hc
    refine all_append.mpr ⟨all_append.mpr ⟨isPlain_of_attrChars attr.chars, by decide⟩, ?_⟩
    exact all_append.mpr ⟨initial.isPlain, all_append.mpr ⟨hstar, all_append.mpr ⟨hany, final.isPlain⟩⟩⟩
  | extensible attr dn rule value =>
    exact all_append.mpr ⟨all_append.mpr ⟨all_append.mpr ⟨all_append.mpr
      ⟨isPlain_of_attrChars attr.chars, hdn dn⟩, hrule rule⟩, by decide⟩, value.isPlain⟩
  | extensibleRule dn rule value =>
    exact all_append.mpr ⟨all_append.mpr ⟨all_append.mpr ⟨hdn dn, hrule (some rule)⟩, by decide⟩,
      value.isPlain⟩

/-- An item begins with an attribute or a colon. -/
theorem Item.text_eq_cons (i : Item) :
    ∃ d s, i.text = d :: s ∧ (Grammar.isAttrChar d = true ∨ d = ':'.toNat) := by
  have hattr : ∀ (a : AttributeDescription) (t : PyStr), ∃ d s, a.text ++ t = d :: s ∧
      (Grammar.isAttrChar d = true ∨ d = ':'.toNat) := by
    intro a t
    obtain ⟨d, s, hs⟩ := List.exists_cons_of_ne_nil a.ne_nil
    exact ⟨d, s ++ t, by rw [hs]; rfl, .inl (a.chars d (by rw [hs]; exact List.mem_cons_self))⟩
  rw [i.text_eq]
  cases i with
  | extensibleRule dn rule value => cases dn <;> exact ⟨_, _, rfl, .inr rfl⟩
  | _ attr => exact hattr attr _

theorem Item.layout_wf (i : Item) : (Bracket.Tree.leaf i.text).WF filterAlphabet := by
  refine ⟨i.isPlain_text, ?_⟩
  obtain ⟨d, s, hs, hd⟩ := i.text_eq_cons
  obtain ⟨hws, h₁, h₂, h₃, -⟩ := Grammar.headChar_spec hd
  show Stops isOpSymbol (i.text.dropWhile Grammar.isWS)
  rw [hs, List.dropWhile_cons_of_neg (by rw [hws]; exact Bool.false_ne_true), stops_cons]
  simp [isOpSymbol] at h₁ h₂ h₃ ⊢
  exact ⟨⟨h₁, h₂⟩, h₃⟩

mutual

theorem Filter.layout_wf : ∀ r : Filter, r.layout.WF filterAlphabet
  | .and filters => ⟨.nil, by decide, .nil, filters.layout_wf⟩
  | .or filters => ⟨.nil, by decide, .nil, filters.layout_wf⟩
  | .not filter => ⟨.nil, by decide, .nil, filter.layout_wf, .nil, trivial⟩
  | .item item => item.layout_wf

theorem Filters.layout_wf : ∀ rs : Filters, rs.layout.WF filterAlphabet
  | .nil => trivial
  | .cons filter filters => ⟨filter.layout_wf, .nil, filters.layout_wf⟩

end

section

variable {P : PyStr → Prop}

mutual

/-- The leaves of the layout are the texts of the items. -/
theorem Filter.every_of_leaves : ∀ r : Filter, (∀ body ∈ r.layout.leaves, P body) →
    r.Every fun i => P i.text
  | .and filters, h => filters.every_of_leaves h
  | .or filters, h => filters.every_of_leaves h
  | .not filter, h => filter.every_of_leaves fun body hbody => h body (List.mem_append_left _ hbody)
  | .item item, h => h item.text (List.mem_singleton_self _)

theorem Filters.every_of_leaves : ∀ rs : Filters, (∀ body ∈ rs.layout.leaves, P body) →
    rs.Every fun i => P i.text
  | .nil, _ => trivial
  | .cons filter filters, h =>
    ⟨filter.every_of_leaves fun body hbody => h body (List.mem_append_left _ hbody),
      filters.every_of_leaves fun body hbody => h body (List.mem_append_right _ hbody)⟩

end

end

mutual

/-- The operators of a bracketed text over the assertions of its leaves. -/
def treeAssertions : Bracket.Tree Nat → Outline Asserted
  | .leaf body => .leaf (readItem body).assertion
  | .node _ op _ members => .operator (operatorOf op) (membersAssertions members)

def membersAssertions : Members Nat → List (Outline Asserted)
  | .nil => []
  | .cons head _ tail => treeAssertions head :: membersAssertions tail

end

mutual

theorem Filter.assertions_layout : ∀ r : Filter, r.Definite → treeAssertions r.layout = r.assertions
  | .and filters, h => by
    show Outline.operator .and (membersAssertions filters.layout) = _
    rw [filters.assertions_layout h]
    rfl
  | .or filters, h => by
    show Outline.operator .or (membersAssertions filters.layout) = _
    rw [filters.assertions_layout h]
    rfl
  | .not filter, h => by
    show Outline.operator .not [treeAssertions filter.layout] = _
    rw [filter.assertions_layout h]
    rfl
  | .item item, h => congrArg Outline.leaf (item.assertion_readItem h)

theorem Filters.assertions_layout : ∀ rs : Filters, rs.Definite →
    membersAssertions rs.layout = rs.assertions
  | .nil, _ => rfl
  | .cons filter filters, h => by
    show treeAssertions filter.layout :: membersAssertions filters.layout = _
    rw [filter.assertions_layout h.1, filters.assertions_layout h.2]
    rfl

end

/-- The text of a filter says what it asserts. -/
theorem Filter.assertions_unique {r r' : Filter} (h : r.Definite) (h' : r'.Definite)
    (htext : r.text = r'.text) : r.assertions = r'.assertions := by
  rw [← r.text_layout, ← r'.text_layout] at htext
  have hlayout := (Bracket.Tree.text_inj r.layout_wf r'.layout_wf (congrArg (· ++ []) htext)).1
  rw [← r.assertions_layout h, ← r'.assertions_layout h', hlayout]

end Rfc4515

end FreeIam.Ldap
