import FreeIam.Ldap.Filter.Grammar
import FreeIam.Ldap.Wrapper

/-!
# Sort keys

`server_side_sorting` prints each ordering rule in the format that
`SSSRequestControl` reads: an optional `-`, the attribute, and an optional `:`
with the matching rule. A rule that names its matching rule is read back as it
was. One without a matching rule prints `None` behind its attribute and is read
as a sort by another attribute.
-/

namespace FreeIam.Ldap

open FreeIam.Py FreeIam.Scan

deriving instance DecidableEq for SortRule

/-! ## The format -/

/-- What is not the colon of the format. -/
def notColon (c : Nat) : Bool := c != ':'.toNat

/-- Reads `attr[:matchingrule]`. -/
def readSortBody (reverse : Bool) (body : PyStr) : SortRule :=
  match body.dropWhile notColon with
  | [] => .rule body none reverse
  | _ :: matchingrule => .rule (body.takeWhile notColon) (some matchingrule) reverse

/-- Reads one ordering rule of `SSSRequestControl`: `[-]attr[:matchingrule]`. -/
def readSortKey (s : PyStr) : SortRule :=
  if s.head? = some '-'.toNat then readSortBody true s.tail else readSortBody false s

/-- The rules read back from a control for server side sorting. -/
def readSorting (control : Control) : List SortRule :=
  match control.value with
  | .sorting rules => rules.map readSortKey
  | _ => []

/-- An ordering rule given as a triple. The attribute is a name of the grammar
and so is the matching rule, where there is one. -/
structure SortKey where
  attr : Grammar.Attr
  matchingrule : Option Grammar.Attr
  reverse : Bool

/-- The triple itself. -/
def SortKey.rule (key : SortKey) : SortRule :=
  .rule key.attr.text (key.matchingrule.map Grammar.Attr.text) key.reverse

/-! ## Names in the format -/

/-- A name is its text. -/
theorem attr_ext {a b : Grammar.Attr} (h : a.text = b.text) : a = b := by
  cases a
  cases b
  cases h
  rfl

/-- A name holds no colon. -/
theorem attr_notColon (a : Grammar.Attr) : All notColon a.text := by
  intro c hc
  have hchar := Grammar.isAttrChar_cases (a.chars c hc)
  have hcolon : ':'.toNat = 58 := rfl
  simp only [notColon, bne_iff_ne, ne_eq, hcolon]
  omega

/-- A name does not begin with the sign of a reversed rule. -/
theorem attr_head_ne_minus (a : Grammar.Attr) (rest : PyStr) :
    (a.text ++ rest).head? ≠ some '-'.toNat := by
  obtain ⟨text, valid⟩ := a
  have hminus : '-'.toNat = 45 := rfl
  cases text with
  | nil => simp [Grammar.isAttr, Grammar.isName, Grammar.isOid] at valid
  | cons c s =>
    simp only [List.cons_append, List.head?_cons, ne_eq, Option.some.injEq, hminus]
    rintro rfl
    -- a minus is neither a letter nor a digit
    have hletter : isAsciiLetter 45 = false := by decide
    have hdigit : isDecimal 45 = false := by decide
    simp [Grammar.isAttr, Grammar.isName, Grammar.isOid, hletter, hdigit] at valid

/-! ## Reading back -/

/-- The sign is read back before any body that begins with a name. -/
theorem readSortKey_sign (reverse : Bool) (a : Grammar.Attr) (rest : PyStr) :
    readSortKey ((if reverse then py "-" else []) ++ a.text ++ rest) =
      readSortBody reverse (a.text ++ rest) := by
  rw [List.append_assoc]
  cases reverse with
  | true => rfl
  | false =>
    show readSortKey (a.text ++ rest) = _
    rw [readSortKey, if_neg (attr_head_ne_minus a rest)]

/-- A body without a colon is an attribute. -/
theorem readSortBody_attr {body : PyStr} (reverse : Bool) (h : All notColon body) :
    readSortBody reverse body = .rule body none reverse := by
  have hrest : body.dropWhile notColon = [] := by simpa using dropWhile_append h Stops.nil
  rw [readSortBody, hrest]

/-- A body is split at its first colon. -/
theorem readSortBody_rule {attr : PyStr} (reverse : Bool) (h : All notColon attr) (rule : PyStr) :
    readSortBody reverse (attr ++ ':'.toNat :: rule) = .rule attr (some rule) reverse := by
  have hstop : Stops notColon (':'.toNat :: rule) := by simp [notColon]
  rw [readSortBody, dropWhile_append h hstop, takeWhile_append h hstop]

/-- What is read of a printed key without a matching rule: another attribute. -/
theorem readSortKey_noRule (a : Grammar.Attr) (reverse : Bool) :
    readSortKey (SortRule.rule a.text none reverse).format =
      .rule (a.text ++ py "None") none reverse := by
  have hnone : All notColon (py "None") := by
    intro c hc
    revert c
    decide
  show readSortKey ((if reverse then py "-" else []) ++ a.text ++ [] ++ py "None") = _
  rw [List.append_nil, readSortKey_sign]
  exact readSortBody_attr reverse (all_append.mpr ⟨attr_notColon a, hnone⟩)

/-- A printed key with a matching rule is read back as it was. -/
theorem readSortKey_rule (a rule : Grammar.Attr) (reverse : Bool) :
    readSortKey (SortRule.rule a.text (some rule.text) reverse).format =
      .rule a.text (some rule.text) reverse := by
  have hne : rule.text.isEmpty = false := by simpa using rule.ne_nil
  have hformat : (SortRule.rule a.text (some rule.text) reverse).format =
      (if reverse then py "-" else []) ++ a.text ++ (':'.toNat :: rule.text) := by
    simp [SortRule.format, hne, py]
  rw [hformat, readSortKey_sign]
  exact readSortBody_rule reverse (attr_notColon a) rule.text

/-- A key is read back from what is printed for it exactly if it names its
matching rule. -/
theorem readSortKey_format_iff (key : SortKey) :
    readSortKey key.rule.format = key.rule ↔ key.matchingrule.isSome = true := by
  obtain ⟨attr, matchingrule, reverse⟩ := key
  cases matchingrule with
  | some rule => simpa [SortKey.rule] using readSortKey_rule attr rule reverse
  | none =>
    show readSortKey (SortRule.rule attr.text none reverse).format = .rule attr.text none reverse ↔ _
    rw [readSortKey_noRule]
    simp [py]

/-- Printing loses nothing: with a colon the rule is what follows it, without one
the attribute is what stands before the `None`. -/
theorem format_injective {key key' : SortKey} (h : key.rule.format = key'.rule.format) :
    key = key' := by
  have hread := congrArg readSortKey h
  obtain ⟨attr, matchingrule, reverse⟩ := key
  obtain ⟨attr', matchingrule', reverse'⟩ := key'
  simp only [SortKey.rule] at hread
  cases matchingrule with
  | none =>
    rw [Option.map_none, readSortKey_noRule] at hread
    cases matchingrule' with
    | none =>
      rw [Option.map_none, readSortKey_noRule] at hread
      obtain ⟨hattr, -, hreverse⟩ := SortRule.rule.inj hread
      rw [attr_ext (List.append_cancel_right hattr), hreverse]
    | some rule' =>
      rw [Option.map_some, readSortKey_rule] at hread
      exact absurd (SortRule.rule.inj hread).2.1 (Option.some_ne_none _).symm
  | some rule =>
    rw [Option.map_some, readSortKey_rule] at hread
    cases matchingrule' with
    | none =>
      rw [Option.map_none, readSortKey_noRule] at hread
      exact absurd (SortRule.rule.inj hread).2.1 (Option.some_ne_none _)
    | some rule' =>
      rw [Option.map_some, readSortKey_rule] at hread
      obtain ⟨hattr, hrule, hreverse⟩ := SortRule.rule.inj hread
      rw [attr_ext hattr, attr_ext (Option.some.inj hrule), hreverse]

/-! ## Requests -/

/-- The control for a list of keys. -/
def sortRequest (keys : List SortKey) (criticality : Bool) : Control :=
  serverSideSorting (keys.map SortKey.rule) criticality

/-- The keys are read back from the request in their order exactly if each names its
matching rule; and of whatever keys, different lists make different requests. -/
theorem sortRequest_roundTrip_iff (keys : List SortKey) (criticality : Bool) :
    (readSorting (sortRequest keys criticality) = keys.map SortKey.rule ↔
      ∀ key ∈ keys, key.matchingrule.isSome = true) ∧
    ∀ keys' criticality', sortRequest keys criticality = sortRequest keys' criticality' →
      keys = keys' := by
  refine ⟨?_, ?_⟩
  · show List.map readSortKey (List.map SortRule.format (keys.map SortKey.rule)) = _ ↔ _
    rw [List.map_map, List.map_map, List.map_inj_left]
    exact forall₂_congr fun key _ => readSortKey_format_iff key
  · intro keys' criticality' h
    have hformat : (keys.map SortKey.rule).map SortRule.format =
        (keys'.map SortKey.rule).map SortRule.format :=
      ControlValue.sorting.inj (congrArg Control.value h)
    rw [List.map_map, List.map_map] at hformat
    exact List.map_injective_iff.mpr (fun _ _ h => format_injective h) hformat

/-- The key `('cn', None, False)`. -/
def cnKey : SortKey := ⟨⟨py "cn", by decide⟩, none, false⟩

/-- `('cn', None, False)` is printed as `cnNone` and read as a sort by that attribute. -/
theorem sortRequest_cn :
    (sortRequest [cnKey] false).value = .sorting [py "cnNone"] ∧
    readSorting (sortRequest [cnKey] false) = [.rule (py "cnNone") none false] ∧
    readSorting (sortRequest [cnKey] false) ≠ [cnKey].map SortKey.rule := by decide

end FreeIam.Ldap
