import FreeIam.Ldap.Filter.Reprint

/-!
# Attributes that are compared

`Attribute`, whose comparison operators build expressions. The constructor checks
a name by two sets of characters, the grammar by its `attr` rule: the two agree on
the names that are `Regular`, and a comparison of any other name does not parse
back.
-/

namespace FreeIam.Ldap

open FreeIam.Py FreeIam.Scan

/-! ## The constructor -/

/-- What the constructor raises: `ValueError` over the argument, or the
`IndexError` of `attribute[0]`. -/
inductive Attribute.Exc where
  | valueError (arg : PyStr)
  | indexError
  deriving DecidableEq, Repr

/-- The values of the slot `eq`. -/
inductive Attribute.Method where
  | getEq
  | getApprox
  | eqExt
  deriving DecidableEq, Repr

/-- An `Attribute` object; `attribute`, a keyword here, is `attr`. -/
structure Attribute where
  attr : PyStr
  dn : Option PyStr
  matchingrule : Option PyStr
  eq : Attribute.Method
  deriving DecidableEq, Repr

namespace Attribute

/-- `c in ALLOWED_CHARS`. -/
def isAllowedChar (c : Nat) : Bool :=
  isAsciiLetter c || isAsciiDigit c || c == ';'.toNat || c == '-'.toNat || c == '.'.toNat

/-- `c in ALLOWED_OID`. -/
def isAllowedOid (c : Nat) : Bool := isAsciiDigit c || c == '.'.toNat

/-- The check of `attribute` and of `matchingrule`. The first test lets only ASCII
reach `isdigit`. -/
def check (name : PyStr) : Except Exc Unit :=
  if Scan.strip isAllowedChar name ≠ [] then .error (.valueError name)
  else match name with
    | [] => .error .indexError
    | c :: _ =>
      if isAsciiDigit c = true ∧ Scan.strip isAllowedOid name ≠ [] then .error (.valueError name)
      else .ok ()

/-- `Attribute.__init__`. -/
def init (attr : PyStr) (dn matchingrule : Option PyStr) (equalityMethod : Option Method) :
    Except Exc Attribute :=
  let eq := equalityMethod.getD (if truthy dn || truthy matchingrule then .eqExt else .getEq)
  match check attr with
  | .error e => .error e
  | .ok () =>
    if truthy dn = true ∧ lower (orStr dn []) ≠ py "dn" then .error (.valueError (orStr dn []))
    else if truthy matchingrule = true then
      match check (orStr matchingrule []) with
      | .error e => .error e
      | .ok () => .ok ⟨attr, dn, matchingrule, eq⟩
    else .ok ⟨attr, dn, matchingrule, eq⟩

/-- `Attribute.approx`. -/
def approx (a : Attribute) : Except Exc Attribute :=
  init a.attr a.dn a.matchingrule (some .getApprox)

/-- `Attribute.extensible`. -/
def extensible (a : Attribute) (dn matchingrule : Option PyStr) : Except Exc Attribute :=
  init a.attr dn matchingrule none

end Attribute

/-! ## The comparison operators -/

/-- A `str | int` to compare with. -/
inductive Bound where
  | str (value : PyStr)
  | int (value : Int)
  deriving DecidableEq, Repr

/-- `str(value)`. -/
def Bound.text : Bound → PyStr
  | .str value => value
  | .int value => py (toString value)

/-- `Filter.get_gt`. -/
def getGt (attr : PyStr) : Bound → Expression
  | .str value => getNot (getLtEq attr value)
  | .int value => getGtEq attr (Bound.int (value + 1)).text

/-- `Filter.get_lt`. -/
def getLt (attr : PyStr) : Bound → Expression
  | .str value => getNot (getGtEq attr value)
  | .int value => getLtEq attr (Bound.int (value - 1)).text

/-- A string, or a list or tuple of strings. -/
inductive Operand where
  | str (value : PyStr)
  | list (values : List PyStr)
  deriving DecidableEq, Repr

namespace Attribute

/-- `self.eq(self.attribute, value)`; `eq_ext` is the third branch. -/
def callEq (a : Attribute) (value : PyStr) : Expression :=
  match a.eq with
  | .getEq => getEq a.attr value
  | .getApprox => getApprox a.attr value
  | .eqExt => getExtensible a.attr a.dn a.matchingrule value

/-- `Attribute.__eq__`. -/
def opEq (a : Attribute) : Operand → Expression
  | .list values => getSubstring a.attr values
  | .str value => a.callEq value

/-- `Attribute.__ne__`. -/
def opNe (a : Attribute) : Option Operand → Expression
  | none => getPres a.attr
  | some other => getNot (a.opEq other)

/-- `Attribute.__gt__`. -/
def opGt (a : Attribute) (other : Bound) : Expression := getGt a.attr other

/-- `Attribute.__ge__`. -/
def opGe (a : Attribute) (other : Bound) : Expression := getGtEq a.attr other.text

/-- `Attribute.__lt__`. -/
def opLt (a : Attribute) (other : Bound) : Expression := getLt a.attr other

/-- `Attribute.__le__`. -/
def opLe (a : Attribute) (other : Bound) : Expression := getLtEq a.attr other.text

/-- The comparisons made with an attribute. -/
inductive Makes (a : Attribute) : Expression → Prop
  | eq (other : Operand) : Makes a (a.opEq other)
  | ne (other : Option Operand) : Makes a (a.opNe other)
  | gt (other : Bound) : Makes a (a.opGt other)
  | ge (other : Bound) : Makes a (a.opGe other)
  | lt (other : Bound) : Makes a (a.opLt other)
  | le (other : Bound) : Makes a (a.opLe other)

/-! ## The check against the `attr` rule -/

/-- A name on which the check and the `attr` rule agree: it is not empty; if its
characters are allowed, it begins with a digit, or with a letter and has no dot; and
if it is an object identifier, its digits are ASCII. -/
def Regular : PyStr → Prop
  | [] => False
  | c :: s =>
    (All isAllowedChar (c :: s) →
      isAsciiDigit c = true ∨ (isAsciiLetter c = true ∧ '.'.toNat ∉ s)) ∧
    (Grammar.isOid (c :: s) = true → All isAllowedOid (c :: s))

instance (name : PyStr) : Decidable (Regular name) :=
  match name with
  | [] => inferInstanceAs (Decidable False)
  | c :: s => inferInstanceAs (Decidable
      ((All isAllowedChar (c :: s) →
        isAsciiDigit c = true ∨ (isAsciiLetter c = true ∧ '.'.toNat ∉ s)) ∧
      (Grammar.isOid (c :: s) = true → All isAllowedOid (c :: s))))

/-- A name is accepted exactly if the `attr` rule matches it in full, and otherwise
the outcome is a `ValueError` over it. -/
def Agrees (outcome : Except Exc Attribute) (name : PyStr) : Prop :=
  ((∃ a, outcome = .ok a) ↔ Grammar.isAttr name = true) ∧
  (Grammar.isAttr name = false → outcome = .error (.valueError name))

/-- A check that does not succeed on a name that is not empty is a `ValueError`. -/
theorem check_cons (c : Nat) (s : PyStr) :
    check (c :: s) = .ok () ∨ check (c :: s) = .error (.valueError (c :: s)) := by
  rw [check]
  split
  · exact .inr rfl
  · show (if _ then _ else _) = _ ∨ (if _ then _ else _) = _
    split
    · exact .inr rfl
    · exact .inl rfl

/-- What the check lets through. -/
theorem check_ok_iff (c : Nat) (s : PyStr) :
    check (c :: s) = .ok () ↔
      All isAllowedChar (c :: s) ∧ (isAsciiDigit c = true → All isAllowedOid (c :: s)) := by
  rw [check, ← strip_eq_nil (p := isAllowedChar), ← strip_eq_nil (p := isAllowedOid)]
  by_cases hchars : Scan.strip isAllowedChar (c :: s) = []
  · rw [if_neg (not_not.mpr hchars)]
    show (if _ then _ else _) = _ ↔ _
    by_cases hoid : isAsciiDigit c = true ∧ Scan.strip isAllowedOid (c :: s) ≠ []
    · rw [if_pos hoid]
      constructor
      · intro h
        cases h
      · rintro ⟨-, h⟩
        exact absurd (h hoid.1) hoid.2
    · rw [if_neg hoid]
      refine ⟨fun _ => ⟨hchars, fun hdigit => ?_⟩, fun _ => rfl⟩
      exact not_not.mp fun hne => hoid ⟨hdigit, hne⟩
  · rw [if_pos hchars]
    constructor
    · intro h
      cases h
    · rintro ⟨h, -⟩
      exact absurd h hchars

theorem isAllowedChar_of_isAllowedOid {c : Nat} (h : isAllowedOid c = true) :
    isAllowedChar c = true := by
  simp only [isAllowedOid, Bool.or_eq_true] at h
  simp only [isAllowedChar, Bool.or_eq_true]
  rcases h with h | h
  · exact .inl (.inl (.inl (.inr h)))
  · exact .inr h

/-- An allowed character is a character of a name, or a dot. -/
theorem isNameChar_iff {c : Nat} :
    Grammar.isNameChar c = true ↔ isAllowedChar c = true ∧ c ≠ '.'.toNat := by
  simp only [Grammar.isNameChar, isAllowedChar, isAsciiLetter, isAsciiDigit, Bool.or_eq_true,
    Bool.and_eq_true, decide_eq_true_eq, beq_iff_eq, show '-'.toNat = 45 from rfl,
    show ';'.toNat = 59 from rfl, show '.'.toNat = 46 from rfl]
  omega

/-- An allowed digit is an ASCII digit. -/
theorem isAsciiDigit_of_allowed {c : Nat} (hc : isAllowedChar c = true)
    (hdigit : isDecimal c = true) : isAsciiDigit c = true := by
  refine (isDecimal_cases hdigit).resolve_right fun hlarge => ?_
  simp only [isAllowedChar, isAsciiLetter, isAsciiDigit, Bool.or_eq_true, Bool.and_eq_true,
    decide_eq_true_eq, beq_iff_eq, show '-'.toNat = 45 from rfl, show ';'.toNat = 59 from rfl,
    show '.'.toNat = 46 from rfl] at hc
  omega

/-- The first alternative of `attr` in the words of the check. -/
theorem isName_iff (c : Nat) (s : PyStr) :
    Grammar.isName (c :: s) = true ↔
      isAsciiLetter c = true ∧ All isAllowedChar s ∧ '.'.toNat ∉ s := by
  simp only [Grammar.isName, Bool.and_eq_true, List.all_eq_true]
  refine and_congr_right fun _ => ⟨fun h => ⟨fun d hd => (isNameChar_iff.mp (h d hd)).1, ?_⟩, ?_⟩
  · intro hdot
    exact (isNameChar_iff.mp (h _ hdot)).2 rfl
  · rintro ⟨hall, hdot⟩ d hd
    exact isNameChar_iff.mpr ⟨hall d hd, fun heq => hdot (heq ▸ hd)⟩

/-- Digits and dots after a digit are an object identifier. -/
theorem isOid_of_allowed {c : Nat} {s : PyStr} (hc : isAsciiDigit c = true)
    (h : All isAllowedOid (c :: s)) : Grammar.isOid (c :: s) = true := by
  simp only [Grammar.isOid, Bool.and_eq_true, List.all_eq_true, Bool.or_eq_true]
  refine ⟨isDecimal_of_isAsciiDigit hc, fun d hd => ?_⟩
  have hd := h d (List.mem_cons_of_mem c hd)
  simp only [isAllowedOid, Bool.or_eq_true] at hd
  exact hd.imp_left isDecimal_of_isAsciiDigit

theorem isDecimal_of_isOid {c : Nat} {s : PyStr} (h : Grammar.isOid (c :: s) = true) :
    isDecimal c = true := by
  simp only [Grammar.isOid, Bool.and_eq_true] at h
  exact h.1

theorem not_letter_of_digit {c : Nat} (h : isAsciiDigit c = true) : isAsciiLetter c = false := by
  simp only [isAsciiDigit, Bool.and_eq_true, decide_eq_true_eq] at h
  simp only [isAsciiLetter, Bool.or_eq_false_iff, Bool.and_eq_false_iff, decide_eq_false_iff_not]
  omega

theorem isAllowedChar_of_letter {c : Nat} (h : isAsciiLetter c = true) :
    isAllowedChar c = true := by
  simp [isAllowedChar, h]

/-- On a name that is not empty the check and the rule agree exactly if it is
regular. -/
theorem check_iff_isAttr (c : Nat) (s : PyStr) :
    (check (c :: s) = .ok () ↔ Grammar.isAttr (c :: s) = true) ↔ Regular (c :: s) := by
  have hattr : Grammar.isAttr (c :: s) = true ↔
      Grammar.isName (c :: s) = true ∨ Grammar.isOid (c :: s) = true := by
    rw [Grammar.isAttr, Bool.or_eq_true]
  rw [check_ok_iff, hattr, isName_iff]
  constructor
  · intro hagree
    refine ⟨fun hall => ?_, fun hoid => ?_⟩
    · -- allowed characters that begin with no digit are let through
      by_cases hdigit : isAsciiDigit c = true
      · exact .inl hdigit
      · rcases hagree.mp ⟨hall, fun h => absurd h hdigit⟩ with ⟨hletter, -, hdot⟩ | hoid
        · exact .inr ⟨hletter, hdot⟩
        · exact .inl (isAsciiDigit_of_allowed (all_cons.mp hall).1 (isDecimal_of_isOid hoid))
    · obtain ⟨hall, hdigits⟩ := hagree.mpr (.inr hoid)
      exact hdigits (isAsciiDigit_of_allowed (all_cons.mp hall).1 (isDecimal_of_isOid hoid))
  · rintro ⟨hfirst, hascii⟩
    constructor
    · rintro ⟨hall, hdigits⟩
      rcases hfirst hall with hdigit | ⟨hletter, hdot⟩
      · exact .inr (isOid_of_allowed hdigit (hdigits hdigit))
      · exact .inl ⟨hletter, (all_cons.mp hall).2, hdot⟩
    · rintro (⟨hletter, hall, -⟩ | hoid)
      · refine ⟨all_cons.mpr ⟨isAllowedChar_of_letter hletter, hall⟩, fun hdigit => ?_⟩
        rw [not_letter_of_digit hdigit] at hletter
        cases hletter
      · have hall := hascii hoid
        exact ⟨hall.mono fun _ => isAllowedChar_of_isAllowedOid, fun _ => hall⟩

/-- What an accepted attribute is. -/
theorem init_ok {attr : PyStr} {dn rule : Option PyStr} {method : Option Method} {a : Attribute}
    (h : init attr dn rule method = .ok a) :
    check attr = .ok () ∧ DnFlag dn ∧ (truthy rule = true → check (orStr rule []) = .ok ()) ∧
      a = ⟨attr, dn, rule,
        method.getD (if truthy dn || truthy rule then .eqExt else .getEq)⟩ := by
  rw [init] at h
  cases hattr : check attr with
  | error e => rw [hattr] at h; cases h
  | ok u =>
    rw [hattr] at h
    simp only at h
    by_cases hdn : truthy dn = true ∧ lower (orStr dn []) ≠ py "dn"
    · rw [if_pos hdn] at h
      cases h
    · rw [if_neg hdn] at h
      have hflag : DnFlag dn := by
        by_cases hd : truthy dn = true
        · right
          simpa [Grammar.isDn] using fun hne => hdn ⟨hd, hne⟩
        · exact .inl (Bool.eq_false_iff.mpr hd)
      by_cases hr : truthy rule = true
      · rw [if_pos hr] at h
        cases hrule : check (orStr rule []) with
        | error e => rw [hrule] at h; cases h
        | ok u =>
          rw [hrule] at h
          cases h
          exact ⟨rfl, hflag, fun _ => rfl, rfl⟩
      · rw [if_neg hr] at h
        cases h
        exact ⟨rfl, hflag, fun h => absurd h hr, rfl⟩

/-- An attribute without flag and rule is checked by its name only. -/
theorem init_name (attr : PyStr) :
    init attr none none none = (check attr).map fun _ => ⟨attr, none, none, .getEq⟩ := by
  rw [init]
  cases check attr <;> rfl

/-- A matching rule is checked like a name, after what stands before it. -/
theorem init_rule {attr rule : PyStr} {dn : Option PyStr} {method : Option Method}
    (hne : rule ≠ []) (h : ∃ a, init attr dn none method = .ok a) :
    init attr dn (some rule) method
      = (check rule).map fun _ => ⟨attr, dn, some rule, method.getD .eqExt⟩ := by
  obtain ⟨a, ha⟩ := h
  obtain ⟨hattr, hflag, -, -⟩ := init_ok ha
  have htruthy : truthy (some rule) = true := by simp [truthy, hne]
  have horStr : orStr (some rule) [] = rule := by simp [orStr, hne]
  have hdn : ¬ (truthy dn = true ∧ lower (orStr dn []) ≠ py "dn") := by
    rintro ⟨hd, hlower⟩
    rcases hflag with hflag | hflag
    · rw [hd] at hflag
      cases hflag
    · exact hlower (by simpa [Grammar.isDn] using hflag)
  rw [init, hattr]
  simp only [if_neg hdn, horStr, htruthy, Bool.or_true, if_true]
  cases check rule <;> rfl

/-- A constructor that fails on a name where the check does agrees with the rule
exactly on the regular names. -/
theorem agrees_iff {name : PyStr} {made : Attribute} :
    Agrees ((check name).map fun _ => made) name ↔ Regular name := by
  cases name with
  | nil =>
    refine ⟨fun h => ?_, fun h => h.elim⟩
    -- the `IndexError` of the empty name
    have hnil := h.2 rfl
    cases hnil
  | cons c s =>
    rw [← check_iff_isAttr]
    rcases check_cons c s with hok | herror
    · rw [Agrees, hok]
      constructor
      · rintro ⟨hiff, -⟩
        exact ⟨fun _ => hiff.mp ⟨made, rfl⟩, fun _ => rfl⟩
      · intro hiff
        have hattr := hiff.mp rfl
        refine ⟨⟨fun _ => hattr, fun _ => ⟨made, rfl⟩⟩, fun hno => ?_⟩
        rw [hattr] at hno
        cases hno
    · rw [Agrees, herror]
      constructor
      · rintro ⟨hiff, -⟩
        refine ⟨fun h => (by cases h), fun hattr => ?_⟩
        obtain ⟨a, ha⟩ := hiff.mpr hattr
        cases ha
      · intro hiff
        refine ⟨⟨?_, fun hattr => ?_⟩, fun _ => rfl⟩
        · rintro ⟨a, ha⟩
          cases ha
        · have hok := hiff.mpr hattr
          cases hok

/-- A name that has passed the check is regular exactly if the rule matches it. -/
theorem regular_iff_of_check {name : PyStr} (h : check name = .ok ()) :
    Regular name ↔ Grammar.isAttr name = true := by
  cases name with
  | nil => cases h
  | cons c s =>
    rw [← check_iff_isAttr, h]
    exact ⟨fun hiff => hiff.mp rfl, fun hattr => ⟨fun _ => hattr, fun _ => rfl⟩⟩

theorem check_ne_nil {name : PyStr} (h : check name = .ok ()) : name ≠ [] := by
  rintro rfl
  cases h

/-- What the check lets through has characters of attribute names only. -/
theorem check_attrChars {name : PyStr} (h : check name = .ok ()) :
    All Grammar.isAttrChar name := by
  cases name with
  | nil => exact .nil
  | cons c s =>
    refine ((check_ok_iff c s).mp h).1.mono fun d hd => ?_
    by_cases hdot : d = '.'.toNat
    · rw [hdot]
      rfl
    · exact Grammar.isNameChar_isAttrChar (isNameChar_iff.mpr ⟨hd, hdot⟩)

end Attribute

/-! ## Parsing a comparison back -/

/-- `Filter` accepts the printed expression, as a filter with one leaf over the
attribute. -/
def ParsesBack (lark : LarkParser) (attr : PyStr) (e : Expression) : Prop :=
  ∃ f, Filter.init lark (some e.str) = .ok f ∧ f.ast.leaves.map Comparison.attr = [attr]

theorem observes_attr (c : Grammar.Comparison) : Observes Comparison.attr Reading.attr c := by
  intro cmp lead trail h
  exact (Grammar.Comparison.transform_reading h).1

/-- The leaves of an accepted filter have attributes that the `attr` rule matches. -/
theorem Filter.attr_valid {lark : LarkParser} {s : PyStr} {f : Filter}
    (h : Filter.init lark (some s) = .ok f) {c : Comparison} (hc : c ∈ f.ast.leaves) :
    c.attr = [] ∨ Grammar.isAttr c.attr = true := by
  rcases Filter.init_cases h with ⟨-, rfl⟩ | ⟨-, d, root, -, -, hroot, rfl⟩
  · cases hc
  · have hc : c ∈ root.leaves ++ [] := hc
    rw [List.append_nil] at hc
    obtain ⟨l, -, cmp, hcmp, rfl⟩ := Grammar.Start.mem_leaves hroot hc
    have hattr := (Grammar.Comparison.transform_reading hcmp).1
    show cmp.attr = [] ∨ Grammar.isAttr cmp.attr = true
    rw [hattr]
    exact l.comparison.attrText_valid

/-- A text whose every derivation is accepted parses to the attributes of one of them. -/
theorem parsesBack_of_derivation (lark : LarkParser) {attr : PyStr} {e : Expression}
    (d : Grammar.Start) (htext : d.text = e.str)
    (hok : ∀ d' : Grammar.Start, d'.text = d.text → ∃ e', d'.transform = .ok e')
    (hleaf : (d.outline Reading.attr).leaves = [attr]) : ParsesBack lark attr e := by
  obtain ⟨f, hf⟩ := Filter.accepted_of_parse lark d fun d' _ hd' => hok d' hd'
  have houtline : f.outline Comparison.attr = [d.outline Reading.attr] :=
    Filter.outline_eq hf (fun _ _ c _ => observes_attr c) rfl
  refine ⟨f, htext ▸ hf, ?_⟩
  rw [← Expression.leaves_outline]
  show Outline.leavesList (f.outline Comparison.attr) = _
  rw [houtline, Outline.leavesList, hleaf]
  rfl

/-- A printed leaf parses back, alone and negated. -/
theorem PrintedAs.parsesBack (lark : LarkParser) {c : Comparison} {gc : Grammar.Comparison}
    (h : PrintedAs c gc) :
    ParsesBack lark c.attr (.comparison c) ∧ ParsesBack lark c.attr (getNot (.comparison c)) := by
  have hacceptable : LeafAcceptable gc.text := h.text ▸ h.acceptable
  have hattr : gc.reading.attr = c.attr := congrArg Prod.fst h.shape
  constructor
  · refine parsesBack_of_derivation lark (.bare gc) h.text
      (fun d' hd' => bare_transform_isOk hacceptable hd') ?_
    rw [← hattr]
    rfl
  · have hnot := (Grammar.Derives.leaf (g := Reading.attr) hacceptable).not
    have hstr : (getNot (.comparison c)).str = py "(!" ++ (py "(" ++ gc.text ++ py ")") ++ py ")" := by
      rw [h.text]
      simp [getNot, Expressions.ofList, Expressions.groupStr, Expression.str, Operator.expression,
        orStr, py]
    refine parsesBack_of_derivation lark
      (.group none (.notOperator none none none (.expression none gc none) none none) none) ?_
      (fun d' hd' => hnot.transform_isOk (hd'.trans ?_)) ?_
    · rw [hstr, ← hnot.text]
      exact List.append_nil _
    · rw [← hnot.text]
      exact List.append_nil _
    · rw [← hattr]
      rfl

/-! ### The matching rule of a text that is accepted -/

namespace Grammar

/-- The matching rule that a derived comparison reads as is one of the grammar's. -/
theorem Comparison.rule_valid (c : Grammar.Comparison) :
    c.reading.extensible.2 = [] ∨ isAttr c.reading.extensible.2 = true := by
  have hone : ∀ (attr a v : PyStr), All isAttrChar a → isAttr a = true →
      (Reading.mk attr (py ":" ++ a ++ py ":" ++ py "=") v).extensible.2 = [] ∨
      isAttr (Reading.mk attr (py ":" ++ a ++ py ":" ++ py "=") v).extensible.2 = true := by
    intro attr a v hchars hvalid
    rw [Reading.extensible_one hchars]
    split
    · exact .inl rfl
    · exact .inr hvalid
  cases c with
  | presence attr => exact .inl rfl
  | equality attr value => exact .inl rfl
  | substring attr value => exact .inl rfl
  | ge attr value => exact .inl rfl
  | le attr value => exact .inl rfl
  | approx attr value => exact .inl rfl
  | extmatchNoattrDnMatch dn rule value =>
    right
    simp only [reading, opHead, Reading.extensible_two dn.chars rule.chars rule.ne_nil]
    exact rule.valid
  | extmatchAttrDnMatch attr dn rule value =>
    right
    simp only [reading, opHead, Reading.extensible_two dn.chars rule.chars rule.ne_nil]
    exact rule.valid
  | extmatchAttrDnNomatch attr dn value => exact hone _ _ _ dn.chars dn.toAttr.valid
  | extmatchNoattrNodnMatch rule value => exact hone _ _ _ rule.chars rule.valid
  | extmatchAttrNodnMatch attr rule value => exact hone _ _ _ rule.chars rule.valid
  | extmatchAttrNodnNomatch attr value => exact .inl rfl

end Grammar

theorem orStr_ne_nil {a : Option PyStr} (h : truthy a = true) : orStr a [] ≠ [] := by
  cases a with
  | none => cases h
  | some s => simpa [truthy, orStr] using h

/-- The operator of an extensible match with a matching rule: a colon begins it, and
it reads as the rule, or as the dn flag where the rule says `dn`. -/
theorem extraOf_spec {dn rule : Option PyStr} (hdn : DnFlag dn) (htruthy : truthy rule = true)
    (hrule : All Grammar.isAttrChar (orStr rule [])) :
    (∃ t, extraOf dn rule = ':'.toNat :: t) ∧ All isOpChar (extraOf dn rule) ∧
    ∀ attr v, (Reading.mk attr (extraOf dn rule ++ py ":" ++ py "=") v).extensible.2 = orStr rule [] ∨
      Grammar.isAttr (orStr rule []) = true := by
  have hop : ∀ {s}, All Grammar.isAttrChar s → All isOpChar s := fun h =>
    h.mono fun _ => Grammar.isOpChar_of_isAttrChar
  have hcolon : All isOpChar (py ":") := by decide
  have hne := orStr_ne_nil htruthy
  by_cases hd : truthy dn = true
  · have hflag := hdn.resolve_left (by simp [hd])
    have hchars := (Grammar.isAttr_spec (Grammar.isDn_spec hflag).2).2
    have heq : extraOf dn rule = py ":" ++ orStr dn [] ++ py ":" ++ orStr rule [] := by
      rw [extraOf, if_pos hd, if_pos htruthy, List.append_assoc (py ":" ++ orStr dn [])]
    rw [heq]
    refine ⟨⟨_, rfl⟩, by simp [hcolon, hop hchars, hop hrule], fun attr v => .inl ?_⟩
    rw [Reading.extensible_two hchars hrule hne]
  · have heq : extraOf dn rule = py ":" ++ orStr rule [] := by
      rw [extraOf, if_neg hd, if_pos htruthy, List.nil_append]
    rw [heq]
    refine ⟨⟨_, rfl⟩, by simp [hcolon, hop hrule], fun attr v => ?_⟩
    rw [Reading.extensible_one hrule]
    split
    · -- the rule is read as the flag, which is a name as well
      rename_i hflag
      exact .inr (Grammar.isDn_spec ((Bool.and_eq_true _ _).mp hflag).1).2
    · exact .inl rfl

/-- The matching rule of an extensible match that `Filter` accepts is matched by the
`attr` rule. -/
theorem isAttr_of_accepted {lark : LarkParser} {attr value : PyStr} {dn rule : Option PyStr}
    (hattr : Grammar.isAttr attr = true) (hdn : DnFlag dn) (htruthy : truthy rule = true)
    (hrule : All Grammar.isAttrChar (orStr rule [])) {f : Filter}
    (h : Filter.init lark (some (getExtensible attr dn rule value).str) = .ok f) :
    Grammar.isAttr (orStr rule []) = true := by
  obtain ⟨hne, hchars⟩ := Grammar.isAttr_spec hattr
  obtain ⟨⟨t, hcolon⟩, hopChars, hread⟩ := extraOf_spec hdn htruthy hrule
  let v := (Comparison.init (.extensibleMatch dn rule) attr value false).escaped
  have hstr : (getExtensible attr dn rule value).str
      = attr ++ ((extraOf dn rule ++ py ":") ++ ('='.toNat :: v)) := by
    show (Comparison.init (.extensibleMatch dn rule) attr value false).str = _
    rw [Comparison.init_str]
    simp [Comparison.prefixText, Comparison.init, ComparisonClass.expression, py, v]
  rw [hstr] at h
  rcases Filter.init_cases h with ⟨hblank, -⟩ | ⟨-, d, root, -, hd, hroot, -⟩
  · -- the text has an equals sign
    have hmem : '='.toNat ∈ attr ++ ((extraOf dn rule ++ py ":") ++ ('='.toNat :: v)) := by simp
    rcases hblank with hblank | hblank <;> rw [hblank] at hmem
    · cases hmem
    · exact absurd hmem (by decide)
  · cases d with
    | group pre n post =>
      -- the text begins with a character of the attribute
      obtain ⟨e, -, rfl, -, -⟩ := Grammar.Start.transform_group hroot
      obtain ⟨r, hr⟩ := n.layout.text_eq_cons (A := filterAlphabet)
      obtain ⟨c, s, rfl⟩ := List.exists_cons_of_ne_nil hne
      have hcons : '('.toNat :: (r ++ Grammar.Ows.text post)
          = c :: (s ++ ((extraOf dn rule ++ py ":") ++ ('='.toNat :: v))) := by
        rw [n.text_layout] at hr
        have hfirst : n.text ++ Grammar.Ows.text post = _ := hd
        rw [hr] at hfirst
        exact hfirst
      have hc := (all_cons.mp hchars).1
      rw [← (List.cons.inj hcons).1] at hc
      cases hc
    | bare c =>
      have htext : c.text = _ := hd
      rw [c.text_eq] at htext
      have hstops : Stops Grammar.isAttrChar ((extraOf dn rule ++ py ":") ++ ('='.toNat :: v)) := by
        rw [hcolon]
        exact stops_cons.mpr rfl
      have hequals : ∀ r, Stops isOpChar ('='.toNat :: r) := fun r => stops_cons.mpr rfl
      have hrest := (append_unique c.attrText_chars hchars (c.stops_opHead c.rest) hstops htext).2
      have hhead := (append_unique c.opHead_chars
        (all_append.mpr ⟨hopChars, by decide⟩) (hequals _) (hequals _) hrest).1
      rcases hread c.attrText (Py.strip c.rest) with hsecond | hvalid
      · have hreading : c.reading.extensible.2 = orStr rule [] := by
          rw [← hsecond, ← hhead]
          rfl
        rcases c.rule_valid with hnil | hvalid
        · exact absurd (hreading ▸ hnil) (orStr_ne_nil htruthy)
        · exact hreading ▸ hvalid
      · exact hvalid

namespace Attribute

/-- Every comparison with an attribute is a leaf over it or the negation of one, and
is printed as a comparison of the grammar when the names it prints are matched by the
`attr` rule. -/
theorem Makes.printed {a : Attribute} {e : Expression} (h : a.Makes e)
    (hattr : Grammar.isAttr a.attr = true) (hdn : DnFlag a.dn)
    (hrule : a.eq = .eqExt → truthy a.matchingrule = true →
      Grammar.isAttr (orStr a.matchingrule []) = true) :
    ∃ c, (e = .comparison c ∨ e = getNot (.comparison c)) ∧ c.attr = a.attr ∧
      ∃ gc, PrintedAs c gc := by
  have hge : ∀ v, ∃ gc, PrintedAs (.init .greaterOrEqual a.attr v false) gc := fun v =>
    Template.printedAs (fun _ => v) (t := .gtEq a.attr 0) hattr rfl
  have hle : ∀ v, ∃ gc, PrintedAs (.init .lessOrEqual a.attr v false) gc := fun v =>
    Template.printedAs (fun _ => v) (t := .ltEq a.attr 0) hattr rfl
  have heq : ∀ other, ∃ c, a.opEq other = .comparison c ∧ c.attr = a.attr ∧
      ∃ gc, PrintedAs c gc := by
    intro other
    cases other with
    | list values =>
      -- a substring match prints as an equality
      refine ⟨_, rfl, rfl, _, printedAs_valued (.equality ⟨a.attr, hattr⟩
        (escapedValue .substringMatch a.attr values.flatten)) rfl
        (Comparison.init_str .substringMatch a.attr values.flatten) rfl
        (Grammar.Value.text_ofText _ _) rfl rfl rfl⟩
    | str v =>
      rw [opEq, callEq]
      cases hm : a.eq with
      | getEq => exact ⟨_, rfl, rfl, Template.printedAs (fun _ => v) (t := .eq a.attr 0) hattr rfl⟩
      | getApprox =>
        exact ⟨_, rfl, rfl, Template.printedAs (fun _ => v) (t := .approx a.attr 0) hattr rfl⟩
      | eqExt => exact ⟨_, rfl, rfl, printedAs_extensible v hattr hdn (hrule hm)⟩
  cases h with
  | eq other =>
    obtain ⟨c, hc, hattr, hgc⟩ := heq other
    exact ⟨c, .inl hc, hattr, hgc⟩
  | ne other =>
    cases other with
    | none => exact ⟨_, .inl rfl, rfl, _, printedAs_presence hattr⟩
    | some other =>
      obtain ⟨c, hc, hattr, hgc⟩ := heq other
      exact ⟨c, .inr (congrArg getNot hc), hattr, hgc⟩
  | gt other =>
    cases other with
    | str v => exact ⟨_, .inr rfl, rfl, hle v⟩
    | int i => exact ⟨_, .inl rfl, rfl, hge _⟩
  | ge other => exact ⟨_, .inl rfl, rfl, hge _⟩
  | lt other =>
    cases other with
    | str v => exact ⟨_, .inr rfl, rfl, hge v⟩
    | int i => exact ⟨_, .inl rfl, rfl, hle _⟩
  | le other => exact ⟨_, .inl rfl, rfl, hle _⟩

/-- A name whose comparison parses back is matched by the `attr` rule. -/
theorem isAttr_of_parsesBack {lark : LarkParser} {attr : PyStr} {e : Expression} (hne : attr ≠ [])
    (h : ParsesBack lark attr e) : Grammar.isAttr attr = true := by
  obtain ⟨f, hf, hleaves⟩ := h
  have hmem : attr ∈ f.ast.leaves.map Comparison.attr := hleaves ▸ List.mem_singleton.mpr rfl
  obtain ⟨c, hc, rfl⟩ := List.mem_map.mp hmem
  exact (Filter.attr_valid hf hc).resolve_left hne

/-- The comparisons with an accepted attribute parse back exactly if its name is
regular, and its matching rule where `==` prints one. -/
theorem parsesBack_iff {lark : LarkParser} {attr : PyStr} {dn rule : Option PyStr}
    {method : Option Method} {a : Attribute} (h : init attr dn rule method = .ok a) :
    (∀ e, a.Makes e → ParsesBack lark a.attr e) ↔
      Regular a.attr ∧ (a.eq = .eqExt → truthy a.matchingrule = true →
        Regular (orStr a.matchingrule [])) := by
  obtain ⟨hname, hdn, hcheck, rfl⟩ := init_ok h
  rw [regular_iff_of_check hname]
  constructor
  · intro hall
    have hattr : Grammar.isAttr attr = true :=
      isAttr_of_parsesBack (check_ne_nil hname) (hall _ (.ge (.str [])))
    refine ⟨hattr, fun hmethod htruthy => ?_⟩
    -- the comparison that prints the matching rule
    have hchecked := hcheck htruthy
    obtain ⟨f, hf, -⟩ := hall _ (.eq (.str []))
    rw [opEq, callEq, hmethod] at hf
    exact (regular_iff_of_check hchecked).mpr
      (isAttr_of_accepted hattr hdn htruthy (check_attrChars hchecked) hf)
  · rintro ⟨hattr, hrule⟩ e he
    obtain ⟨c, hc, heq, gc, hgc⟩ := he.printed hattr hdn fun hmethod htruthy =>
      (regular_iff_of_check (hcheck htruthy)).mp (hrule hmethod htruthy)
    have hboth := hgc.parsesBack lark
    rw [heq] at hboth
    rcases hc with rfl | rfl
    · exact hboth.1
    · exact hboth.2

end Attribute

/-- The constructor agrees with the `attr` rule on a name, and on a matching rule
after what else it accepts, exactly if that is regular; and all comparisons with an
accepted attribute parse back to it exactly if the names they print are regular. -/
theorem attribute_agrees_iff (lark : LarkParser) :
    (∀ name, Attribute.Agrees (Attribute.init name none none none) name ↔ Attribute.Regular name) ∧
    (∀ attr dn rule method, rule ≠ [] → (∃ a, Attribute.init attr dn none method = .ok a) →
      (Attribute.Agrees (Attribute.init attr dn (some rule) method) rule ↔ Attribute.Regular rule)) ∧
    ∀ attr dn rule method a, Attribute.init attr dn rule method = .ok a →
      ((∀ e, a.Makes e → ParsesBack lark a.attr e) ↔
        Attribute.Regular a.attr ∧ (a.eq = .eqExt → truthy a.matchingrule = true →
          Attribute.Regular (orStr a.matchingrule []))) := by
  refine ⟨fun name => ?_, fun attr dn rule method hne haccepted => ?_, ?_⟩
  · rw [Attribute.init_name]
    exact Attribute.agrees_iff
  · rw [Attribute.init_rule hne haccepted]
    exact Attribute.agrees_iff
  · intro attr dn rule method a ha
    exact Attribute.parsesBack_iff ha

/-- `Attribute('cn')`, `Attribute('cn', None, '2.4.6')` and what the latter is compared with. -/
theorem attribute_agrees_cn :
    Attribute.Agrees (Attribute.init (py "cn") none none none) (py "cn") ∧
    Attribute.Agrees (Attribute.init (py "cn") none (some (py "2.4.6")) none) (py "2.4.6") ∧
    ∀ e, Attribute.Makes ⟨py "cn", none, some (py "2.4.6"), .eqExt⟩ e →
      ParsesBack resolver (py "cn") e :=
  ⟨((attribute_agrees_iff resolver).1 _).mpr (by decide),
    ((attribute_agrees_iff resolver).2.1 (py "cn") none (py "2.4.6") none (by decide)
      ⟨⟨py "cn", none, none, .getEq⟩, by decide⟩).mpr (by decide),
    ((attribute_agrees_iff resolver).2.2 (py "cn") none (some (py "2.4.6")) none _
      (by decide)).mpr ⟨by decide, fun _ _ => (by decide : Attribute.Regular (py "2.4.6"))⟩⟩

/-- `Attribute('a.b')` is accepted, and `Attribute('a.b') == 'c'` prints no filter. -/
theorem dotted_attribute_disagrees :
    ¬ Attribute.Agrees (Attribute.init (py "a.b") none none none) (py "a.b") ∧
    ¬ ∀ a, Attribute.init (py "a.b") none none none = .ok a → ∀ e, a.Makes e →
      ParsesBack resolver a.attr e := by
  have haccepted : Attribute.init (py "a.b") none none none
      = .ok ⟨py "a.b", none, none, .getEq⟩ := by decide
  constructor
  · rintro ⟨hiff, -⟩
    have hattr := hiff.mp ⟨_, haccepted⟩
    revert hattr
    decide
  · intro h
    obtain ⟨f, hf, -⟩ := h _ haccepted _ (.eq (.str (py "c")))
    have hstr : (Attribute.opEq ⟨py "a.b", none, none, .getEq⟩ (.str (py "c"))).str
        = py "a.b=c" := by decide
    rw [hstr] at hf
    have hrefused : (Filter.init resolver (some (py "a.b=c"))).isOk = false := by decide +kernel
    rw [hf] at hrefused
    cases hrefused

end FreeIam.Ldap
