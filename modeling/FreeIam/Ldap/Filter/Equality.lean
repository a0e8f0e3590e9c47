import FreeIam.Ldap.Filter.Reprint
import Mathlib.Data.List.Forall2
import Mathlib.Order.BoundedOrder.Lattice

/-!
# Equality of comparisons

`Comparison.__eq__` looks at the operator text, the attribute and the decoded value.
Against it stands the assertion that a comparison makes: the kind of match, the dn flag
and the matching rule, and the octets of the value with its wildcards.
-/

namespace FreeIam.Ldap

open FreeIam.Py FreeIam.Scan

/-! ## Values as octets -/

/-- A character of a raw value as it stands, or an escaped byte. -/
inductive ValueUnit where
  | char (c : Nat)
  | byte (b : Nat)
  deriving DecidableEq, Repr

/-- The units that `unescape` decodes one by one. -/
def units : PyStr → List ValueUnit
  | c :: h₁ :: h₂ :: s =>
    if c = '\\'.toNat ∧ isHexDigit h₁ = true ∧ isHexDigit h₂ = true then
      .byte (16 * hexValue h₁ + hexValue h₂) :: units s
    else .char c :: units (h₁ :: h₂ :: s)
  | s => s.map .char

/-- The character that `unescape` makes of a unit. -/
def ValueUnit.decode : ValueUnit → Nat
  | .char c => c
  | .byte b => decodeByte b

theorem unescape_eq_units (s : PyStr) : unescape s = (units s).map ValueUnit.decode := by
  fun_induction units s with
  | case1 c h₁ h₂ s hhex ih =>
    rw [unescape, if_pos hhex, List.map_cons, ih]
    rfl
  | case2 c h₁ h₂ s hhex ih =>
    rw [unescape, if_neg hhex, List.map_cons, ih]
    rfl
  | case3 s hs =>
    rw [unescape.eq_2 s hs, List.map_map]
    exact (List.map_id s).symm

/-- The octets of a unit; an asterisk that is not escaped is a wildcard, `none`. -/
def ValueUnit.octets : ValueUnit → List (Option Nat)
  | .char c => if c = '*'.toNat then [none] else (utf8 c).map some
  | .byte b => [some b]

/-- The octets of a raw value, with its wildcards. -/
def valueOctets (raw : PyStr) : List (Option Nat) := (units raw).flatMap ValueUnit.octets

example : valueOctets (py "a*\\2a\\e4") = [some 0x61, none, some 0x2a, some 0xe4] := by decide

/-- Two units that decode to the same character: the same character, an ASCII character
and its escape, or U+FFFD and whatever else does not decode. -/
def ValueUnit.Alike : ValueUnit → ValueUnit → Prop
  | .char c, .char d => c = d
  | .byte a, .byte b => a = b ∨ (128 ≤ a ∧ 128 ≤ b)
  | .char c, .byte b => (c = b ∧ b < 128) ∨ (c = 0xfffd ∧ 128 ≤ b)
  | .byte b, .char c => (c = b ∧ b < 128) ∨ (c = 0xfffd ∧ 128 ≤ b)

theorem ValueUnit.alike_iff (u w : ValueUnit) : u.Alike w ↔ u.decode = w.decode := by
  cases u <;> cases w <;> simp only [Alike, decode, decodeByte]
  all_goals split_ifs <;> omega

theorem forall₂_alike_iff (us ws : List ValueUnit) :
    List.Forall₂ ValueUnit.Alike us ws ↔
      us.map ValueUnit.decode = ws.map ValueUnit.decode := by
  rw [← List.forall₂_eq_eq_eq, List.forall₂_map_left_iff, List.forall₂_map_right_iff]
  have hiff : ValueUnit.Alike = fun u w => u.decode = w.decode := by
    funext u w
    exact propext (u.alike_iff w)
  rw [hiff]

/-! ## Octets that differ -/

/-- An octet outside ASCII; a wildcard is none. -/
def IsHigh : Option (Option Nat) → Prop
  | some (some b) => 128 ≤ b
  | _ => False

/-- What stands at one place of two values, where it differs although the values decode alike:
a wildcard against the octet of an asterisk, or an octet outside ASCII against something else. -/
def Differing (a b : Option (Option Nat)) : Prop :=
  (a = some none ∧ b = some (some '*'.toNat)) ∨ (a = some (some '*'.toNat) ∧ b = some none) ∨
    (a ≠ b ∧ (IsHigh a ∨ IsHigh b))

/-- The ASCII characters among octets; a wildcard is an asterisk. -/
def asciiOf (octets : List (Option Nat)) : List Nat :=
  (octets.map fun octet => octet.getD '*'.toNat).filter (· < 128)

theorem asciiOf_cons_high {octet : Option Nat} (h : ¬ octet.getD '*'.toNat < 128)
    (octets : List (Option Nat)) : asciiOf (octet :: octets) = asciiOf octets := by
  unfold asciiOf
  rw [List.map_cons, List.filter_cons_of_neg]
  simpa using h

theorem asciiOf_cons_low {octet : Option Nat} (h : octet.getD '*'.toNat < 128) (octets : List (Option Nat)) :
    asciiOf (octet :: octets) = octet.getD '*'.toNat :: asciiOf octets := by
  unfold asciiOf
  rw [List.map_cons, List.filter_cons_of_pos]
  simpa using h

theorem ValueUnit.asciiOf_octets (u : ValueUnit) :
    asciiOf u.octets = if u.decode < 128 then [u.decode] else [] := by
  cases u with
  | byte b =>
    rw [ValueUnit.octets, ValueUnit.decode, decodeByte]
    by_cases hb : b < 128
    · rw [if_pos hb, if_pos hb]
      exact asciiOf_cons_low (show (some b).getD '*'.toNat < 128 from hb) []
    · rw [if_neg hb, if_neg (by decide)]
      exact asciiOf_cons_high (show ¬ (some b).getD '*'.toNat < 128 from hb) []
  | char c =>
    rw [ValueUnit.octets, ValueUnit.decode]
    by_cases hstar : c = '*'.toNat
    · rw [if_pos hstar, hstar]
      rfl
    · rw [if_neg hstar]
      by_cases hc : c < 128
      · rw [if_pos hc, utf8, if_pos hc]
        exact asciiOf_cons_low (show (some c).getD '*'.toNat < 128 from hc) []
      · have hnone : ∀ d ∈ utf8 c, ¬ d < 128 := (utf8_not_ascii (by omega)).1
        rw [if_neg hc]
        unfold asciiOf
        rw [List.map_map, List.filter_eq_nil_iff]
        intro d hd
        obtain ⟨d', hd', rfl⟩ := List.mem_map.mp hd
        simpa using hnone d' hd'

/-- Values that decode alike have the same ASCII characters. -/
theorem asciiOf_congr {us ws : List ValueUnit}
    (h : us.map ValueUnit.decode = ws.map ValueUnit.decode) :
    asciiOf (us.flatMap ValueUnit.octets) = asciiOf (ws.flatMap ValueUnit.octets) := by
  have hascii (us : List ValueUnit) :
      asciiOf (us.flatMap ValueUnit.octets) = (us.map ValueUnit.decode).filter (· < 128) := by
    induction us with
    | nil => rfl
    | cons u us ih =>
      have happend : asciiOf (u.octets ++ us.flatMap ValueUnit.octets)
          = asciiOf u.octets ++ asciiOf (us.flatMap ValueUnit.octets) := by
        unfold asciiOf
        rw [List.map_append, List.filter_append]
      rw [List.flatMap_cons, happend, ih, u.asciiOf_octets, List.map_cons]
      by_cases hu : u.decode < 128
      · rw [if_pos hu, List.filter_cons_of_pos (by simpa using hu)]
        rfl
      · rw [if_neg hu, List.filter_cons_of_neg (by simpa using hu)]
        rfl
  rw [hascii, hascii, h]

theorem isHigh_iff (octet : Option Nat) : IsHigh (some octet) ↔ ¬ octet.getD '*'.toNat < 128 := by
  cases octet with
  | none => exact iff_of_false id (by decide)
  | some b => exact Nat.not_lt.symm

/-- Two ASCII octets that differ stand for the same character only where one is a wildcard. -/
theorem differing_of_low {a b : Option Nat} (hne : a ≠ b) (h : a.getD '*'.toNat = b.getD '*'.toNat) :
    Differing (some a) (some b) := by
  cases a with
  | none =>
    cases b with
    | none => exact absurd rfl hne
    | some b => exact .inl ⟨rfl, congrArg (fun b => some (some b)) (Eq.symm h)⟩
  | some a =>
    cases b with
    | none => exact .inr (.inl ⟨congrArg (fun a => some (some a)) h, rfl⟩)
    | some b => exact absurd (congrArg some h) hne

/-- Octets with the same ASCII characters are the same unless they differ at some place in one
of the two ways: by induction on the octets up to the first place. -/
theorem exists_differing {l l' : List (Option Nat)} (h : asciiOf l = asciiOf l') (hne : l ≠ l') :
    ∃ i : Nat, Differing l[i]? l'[i]? := by
  induction l generalizing l' with
  | nil =>
    cases l' with
    | nil => exact absurd rfl hne
    | cons b l' =>
      refine ⟨0, .inr (.inr ⟨by simp, .inr ((isHigh_iff b).mpr fun hlow => ?_)⟩)⟩
      rw [asciiOf_cons_low hlow] at h
      cases h
  | cons a l ih =>
    cases l' with
    | nil =>
      refine ⟨0, .inr (.inr ⟨by simp, .inl ((isHigh_iff a).mpr fun hlow => ?_)⟩)⟩
      rw [asciiOf_cons_low hlow] at h
      cases h
    | cons b l' =>
      by_cases hab : a = b
      · subst hab
        have htail : asciiOf l = asciiOf l' := by
          by_cases hlow : a.getD '*'.toNat < 128
          · rw [asciiOf_cons_low hlow, asciiOf_cons_low hlow] at h
            exact (List.cons.inj h).2
          · rwa [asciiOf_cons_high hlow, asciiOf_cons_high hlow] at h
        obtain ⟨i, hi⟩ := ih htail fun heq => hne (congrArg (a :: ·) heq)
        exact ⟨i + 1, hi⟩
      · refine ⟨0, ?_⟩
        by_cases hhigh : IsHigh (some a) ∨ IsHigh (some b)
        · exact .inr (.inr ⟨fun heq => hab (Option.some.inj heq), hhigh⟩)
        · rw [isHigh_iff, isHigh_iff, not_or, not_not, not_not] at hhigh
          rw [asciiOf_cons_low hhigh.1, asciiOf_cons_low hhigh.2] at h
          exact differing_of_low hab (List.cons.inj h).1

theorem Differing.ne {a b : Option (Option Nat)} (h : Differing a b) : a ≠ b := by
  rintro rfl
  rcases h with ⟨ha, hb⟩ | ⟨ha, hb⟩ | ⟨hne, -⟩
  · rw [ha] at hb
    cases hb
  · rw [ha] at hb
    cases hb
  · exact hne rfl

/-! ## Assertions -/

/-- The kinds of match of an LDAP filter. -/
inductive MatchKind where
  | equality
  | greaterOrEqual
  | lessOrEqual
  | approx
  | substrings
  | present
  | extensible
  deriving DecidableEq, Repr

def ComparisonClass.kind : ComparisonClass → MatchKind
  | .equalityMatch => .equality
  | .greaterOrEqual => .greaterOrEqual
  | .lessOrEqual => .lessOrEqual
  | .approximateMatch => .approx
  | .substringMatch => .substrings
  | .presenceMatch => .present
  | .extensibleMatch _ _ => .extensible

/-- An extensible match with `:dn`. -/
def ComparisonClass.dnFlag : ComparisonClass → Bool
  | .extensibleMatch dn _ => truthy dn
  | _ => false

/-- The matching rule of an extensible match, whose case does not matter. -/
def ComparisonClass.rule : ComparisonClass → PyStr
  | .extensibleMatch _ matchingrule => lower (orStr matchingrule [])
  | _ => []

/-- What a comparison asserts of an entry. -/
structure Assertion where
  kind : MatchKind
  attr : PyStr
  dnFlag : Bool
  rule : PyStr
  value : List (Option Nat)
  deriving DecidableEq, Repr

/-- The assertion of a comparison; the case of the attribute does not matter. -/
def Comparison.assertion (c : Comparison) : Assertion where
  kind := c.cls.kind
  attr := lower c.attr
  dnFlag := c.cls.dnFlag
  rule := c.cls.rule
  value := valueOctets c.rawValue

/-! ## Truth of filters -/

section

variable {τ : Type} [Lattice τ] [BoundedOrder τ] (neg : τ → τ) (truth : Assertion → τ)

mutual

/-- The truth of a filter for an entry, over any lattice of truth values (`Undefined`
is one of them), given what the assertions are and what negation does. -/
def Expression.eval : Expression → τ
  | .comparison c => truth c.assertion
  | .container (.operator .and) es _ => es.evalAll
  | .container (.operator .or) es _ => es.evalAny
  | .container (.operator .not) es _ => neg es.evalAll
  | .container .group es _ => es.evalAll
  | .container .container es _ => es.evalAll

def Expressions.evalAll : Expressions → τ
  | .nil => ⊤
  | .token _ rest => rest.evalAll
  | .cons e rest => e.eval ⊓ rest.evalAll

def Expressions.evalAny : Expressions → τ
  | .nil => ⊥
  | .token _ rest => rest.evalAny
  | .cons e rest => e.eval ⊔ rest.evalAny

end

theorem Expressions.evalAll_append : ∀ es fs : Expressions,
    (es.append fs).evalAll neg truth = es.evalAll neg truth ⊓ fs.evalAll neg truth
  | .nil, fs => by rw [Expressions.append, Expressions.evalAll, top_inf_eq]
  | .token _ rest, fs => rest.evalAll_append fs
  | .cons e rest, fs => by
    rw [Expressions.append, Expressions.evalAll, Expressions.evalAll, rest.evalAll_append fs,
      inf_assoc]

theorem Expressions.evalAny_append : ∀ es fs : Expressions,
    (es.append fs).evalAny neg truth = es.evalAny neg truth ⊔ fs.evalAny neg truth
  | .nil, fs => by rw [Expressions.append, Expressions.evalAny, bot_sup_eq]
  | .token _ rest, fs => rest.evalAny_append fs
  | .cons e rest, fs => by
    rw [Expressions.append, Expressions.evalAny, Expressions.evalAny, rest.evalAny_append fs,
      sup_assoc]

end

/-- A filter around a place for an expression. -/
inductive Context where
  | hole
  | member (cls : ContainerClass) (before : Expressions) (inner : Context) (after : Expressions)
      (sep : Option PyStr)

/-- The filter with an expression at the place. -/
def Context.plug : Context → Expression → Expression
  | .hole, e => e
  | .member cls before inner after sep, e =>
    .container cls (before.append (.cons (inner.plug e) after)) sep

/-- The truth of a filter depends on a subfilter through its truth only. -/
theorem Context.eval_plug {τ : Type} [Lattice τ] [BoundedOrder τ] (neg : τ → τ)
    (truth : Assertion → τ) {e e' : Expression} (h : e.eval neg truth = e'.eval neg truth)
    (ctx : Context) : (ctx.plug e).eval neg truth = (ctx.plug e').eval neg truth := by
  induction ctx with
  | hole => exact h
  | member cls before inner after sep ih =>
    have hall : (before.append (.cons (inner.plug e) after)).evalAll neg truth
        = (before.append (.cons (inner.plug e') after)).evalAll neg truth := by
      rw [Expressions.evalAll_append, Expressions.evalAll_append, Expressions.evalAll,
        Expressions.evalAll, ih]
    have hany : (before.append (.cons (inner.plug e) after)).evalAny neg truth
        = (before.append (.cons (inner.plug e') after)).evalAny neg truth := by
      rw [Expressions.evalAny_append, Expressions.evalAny_append, Expressions.evalAny,
        Expressions.evalAny, ih]
    cases cls with
    | container => exact hall
    | group => exact hall
    | operator op =>
      cases op with
      | and => exact hall
      | or => exact hany
      | not => exact congrArg neg hall

/-- Of two members of an AND or OR either can be removed, wherever the operator stands,
without a change of what the filter says of any entry. -/
def MergeSafe (c₁ c₂ : Comparison) : Prop :=
  ∀ (τ : Type) [Lattice τ] [BoundedOrder τ] (neg : τ → τ) (truth : Assertion → τ)
    (op : Operator) (before between after : Expressions) (sep : Option PyStr) (ctx : Context),
    op ≠ .not →
    let both := before.append (.cons (.comparison c₁) (between.append
      (.cons (.comparison c₂) after)))
    let first := before.append (.cons (.comparison c₁) (between.append after))
    let second := before.append (between.append (.cons (.comparison c₂) after))
    (ctx.plug (.container (.operator op) first sep)).eval neg truth
        = (ctx.plug (.container (.operator op) both sep)).eval neg truth ∧
      (ctx.plug (.container (.operator op) second sep)).eval neg truth
        = (ctx.plug (.container (.operator op) both sep)).eval neg truth

theorem mergeSafe_of_assertion_eq {c₁ c₂ : Comparison} (h : c₁.assertion = c₂.assertion) :
    MergeSafe c₁ c₂ := by
  intro τ _ _ neg truth op before between after sep ctx hop both first second
  refine ⟨Context.eval_plug neg truth ?_ ctx, Context.eval_plug neg truth ?_ ctx⟩ <;>
    cases op with
    | not => exact absurd rfl hop
    | and =>
      simp only [Expression.eval, both, first, second, Expressions.evalAll_append,
        Expressions.evalAll, h]
      rw [inf_left_comm (Expressions.evalAll neg truth between)]
      simp only [inf_left_idem]
    | or =>
      simp only [Expression.eval, both, first, second, Expressions.evalAny_append,
        Expressions.evalAny, h]
      rw [sup_left_comm (Expressions.evalAny neg truth between)]
      simp only [sup_left_idem]

/-! ## Soundness of the equality -/

/-- Equal comparisons make the same assertion, so that they can be merged. -/
def EqSound (c₁ c₂ : Comparison) : Prop :=
  c₁.eq c₂ = true → c₁.assertion = c₂.assertion ∧ MergeSafe c₁ c₂

/-- Two comparisons that look alike place by place, and differ in what `__eq__` does
not look at: the class, the dn flag, the matching rule, or a place of the octets where one has
a wildcard and the other an escaped asterisk, or they have not the same octet outside ASCII. -/
structure Comparison.Confusable (c₁ c₂ : Comparison) : Prop where
  operator : c₁.cls.expression = c₂.cls.expression
  attr : c₁.attr = c₂.attr
  places : List.Forall₂ ValueUnit.Alike (units c₁.rawValue) (units c₂.rawValue)
  differ : (c₁.cls = .equalityMatch ∧ c₂.cls = .substringMatch) ∨
    (c₁.cls = .substringMatch ∧ c₂.cls = .equalityMatch) ∨
    c₁.cls.dnFlag ≠ c₂.cls.dnFlag ∨ c₁.cls.rule ≠ c₂.cls.rule ∨
    ∃ i : Nat, Differing (valueOctets c₁.rawValue)[i]? (valueOctets c₂.rawValue)[i]?

theorem Comparison.eq_iff {c₁ c₂ : Comparison} (h₁ : c₁.isEscaped = true)
    (h₂ : c₂.isEscaped = true) : c₁.eq c₂ = true ↔ c₁.cls.expression = c₂.cls.expression ∧
      c₁.attr = c₂.attr ∧
      List.Forall₂ ValueUnit.Alike (units c₁.rawValue) (units c₂.rawValue) := by
  have hvalue : ∀ {c : Comparison}, c.isEscaped = true →
      c.value = (units c.rawValue).map ValueUnit.decode := fun {c} h => by
    rw [Comparison.value, if_pos h, unescape_eq_units]
  rw [Comparison.eq, beq_iff_eq, Prod.mk.injEq, Prod.mk.injEq, forall₂_alike_iff, hvalue h₁,
    hvalue h₂]

/-- The operator text tells the kinds of match apart, but for equality and substrings. -/
theorem ComparisonClass.kind_eq {k₁ k₂ : ComparisonClass} (h : k₁.expression = k₂.expression) :
    k₁.kind = k₂.kind ∨ (k₁ = .equalityMatch ∧ k₂ = .substringMatch) ∨
      (k₁ = .substringMatch ∧ k₂ = .equalityMatch) := by
  cases k₁ <;> cases k₂ <;> simp [ComparisonClass.expression, ComparisonClass.kind, py] at h ⊢

theorem eqSound_iff {c₁ c₂ : Comparison} (h₁ : c₁.isEscaped = true) (h₂ : c₂.isEscaped = true) :
    EqSound c₁ c₂ ↔ ¬ c₁.Confusable c₂ := by
  constructor
  · rintro hsound ⟨hoperator, hattr, hplaces, hdiffer⟩
    obtain ⟨hassertion, -⟩ := hsound ((Comparison.eq_iff h₁ h₂).mpr ⟨hoperator, hattr, hplaces⟩)
    simp only [Comparison.assertion, Assertion.mk.injEq] at hassertion
    obtain ⟨hkind, -, hflag, hrule, hvalue⟩ := hassertion
    rcases hdiffer with ⟨he, hs⟩ | ⟨hs, he⟩ | hne | hne | ⟨i, hi⟩
    · rw [he, hs] at hkind
      cases hkind
    · rw [he, hs] at hkind
      cases hkind
    · exact hne hflag
    · exact hne hrule
    · exact hi.ne (congrArg (·[i]?) hvalue)
  · intro hnot heq
    obtain ⟨hoperator, hattr, hplaces⟩ := (Comparison.eq_iff h₁ h₂).mp heq
    have hsame : ¬ _ := fun hdiffer => hnot ⟨hoperator, hattr, hplaces, hdiffer⟩
    simp only [not_or, ne_eq, not_not] at hsame
    obtain ⟨hes, hse, hflag, hrule, hoctets⟩ := hsame
    have hvalue : valueOctets c₁.rawValue = valueOctets c₂.rawValue := by
      by_contra hne
      exact hoctets (exists_differing (asciiOf_congr ((forall₂_alike_iff _ _).mp hplaces)) hne)
    have hkind := ((ComparisonClass.kind_eq hoperator).resolve_right fun h => h.elim hes hse)
    have hassertion : c₁.assertion = c₂.assertion := by
      rw [Comparison.assertion, Comparison.assertion, hkind, hattr, hflag, hrule, hvalue]
    exact ⟨hassertion, mergeSafe_of_assertion_eq hassertion⟩

/-- `==` is sound for two comparisons of parsed filters exactly if they are not
confusable. -/
theorem eq_sound_iff {lark : LarkParser} (p₁ p₂ : ParsedFilter lark) {c₁ c₂ : Comparison}
    (h₁ : c₁ ∈ p₁.root.leaves) (h₂ : c₂ ∈ p₂.root.leaves) :
    EqSound c₁ c₂ ↔ ¬ c₁.Confusable c₂ :=
  eqSound_iff (p₁.parsedLeaf h₁).isEscaped (p₂.parsedLeaf h₂).isEscaped

theorem eq_sound_alice : ∃ (p₁ p₂ : ParsedFilter resolver) (c₁ c₂ : Comparison),
    p₁.text = py "(cn=\\41lice)" ∧ p₂.text = py "(cn=Alice)" ∧ c₁ ∈ p₁.root.leaves ∧
    c₂ ∈ p₂.root.leaves ∧ c₁.eq c₂ = true ∧ EqSound c₁ c₂ := by
  let c₁ : Comparison := .init .equalityMatch (py "cn") (py "\\41lice") true
  let c₂ : Comparison := .init .equalityMatch (py "cn") (py "Alice") true
  obtain ⟨p₁, htext₁, hcheck₁⟩ := exists_parsedFilter (s := py "(cn=\\41lice)")
    (fun e => decide (c₁ ∈ e.leaves)) (by decide +kernel)
  obtain ⟨p₂, htext₂, hcheck₂⟩ := exists_parsedFilter (s := py "(cn=Alice)")
    (fun e => decide (c₂ ∈ e.leaves)) (by decide +kernel)
  have hmem₁ : c₁ ∈ p₁.root.leaves := of_decide_eq_true hcheck₁
  have hmem₂ : c₂ ∈ p₂.root.leaves := of_decide_eq_true hcheck₂
  refine ⟨p₁, p₂, c₁, c₂, htext₁, htext₂, hmem₁, hmem₂, by decide,
    (eq_sound_iff p₁ p₂ hmem₁ hmem₂).mpr fun h => ?_⟩
  rcases h.differ with hdiffer | hdiffer | hdiffer | hdiffer | ⟨i, hi⟩
  · exact absurd hdiffer (by decide)
  · exact absurd hdiffer (by decide)
  · exact absurd hdiffer (by decide)
  · exact absurd hdiffer (by decide)
  · exact hi.ne (congrArg (·[i]?) (show valueOctets c₁.rawValue = valueOctets c₂.rawValue by decide))

/-- `(cn=a*b)` and `(cn=a\2ab)` compare equal: a wildcard and an escaped asterisk. -/
theorem eq_unsound_wildcard : ∃ (p₁ p₂ : ParsedFilter resolver) (c₁ c₂ : Comparison),
    p₁.text = py "(cn=a*b)" ∧ p₂.text = py "(cn=a\\2ab)" ∧ c₁ ∈ p₁.root.leaves ∧
    c₂ ∈ p₂.root.leaves ∧ c₁.eq c₂ = true ∧ ¬ EqSound c₁ c₂ := by
  let c₁ : Comparison := .init .substringMatch (py "cn") (py "a*b") true
  let c₂ : Comparison := .init .equalityMatch (py "cn") (py "a\\2ab") true
  obtain ⟨p₁, htext₁, hcheck₁⟩ := exists_parsedFilter (s := py "(cn=a*b)")
    (fun e => decide (c₁ ∈ e.leaves)) (by decide +kernel)
  obtain ⟨p₂, htext₂, hcheck₂⟩ := exists_parsedFilter (s := py "(cn=a\\2ab)")
    (fun e => decide (c₂ ∈ e.leaves)) (by decide +kernel)
  have heq : c₁.eq c₂ = true := by decide
  have hne : c₁.assertion ≠ c₂.assertion := by decide
  exact ⟨p₁, p₂, c₁, c₂, htext₁, htext₂, of_decide_eq_true hcheck₁, of_decide_eq_true hcheck₂,
    heq, fun h => hne (h heq).1⟩

end FreeIam.Ldap
