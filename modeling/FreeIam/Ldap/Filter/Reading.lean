import FreeIam.Ldap.Filter.Transformer

/-!
# Reading a comparison off its text

The grammar derives some comparisons in several ways. What they have in common
is read off the text alone: the attribute is the longest run of attribute
characters, the operator runs up to the first `=`, and the value is what is left
without the white space around it. `Comparison.transform_reading` says that
every derivation the transformer accepts agrees with this reading, and
`Comparison.transform_cls` that the first listed alternative also agrees on the
class of the comparison.
-/

namespace FreeIam.Ldap

open FreeIam.Py FreeIam.Scan

/-- What the text of a comparison says. -/
structure Reading where
  attr : PyStr
  op : PyStr
  value : PyStr
  deriving DecidableEq, Repr

/-- A character in front of the first `=`. -/
def isOpChar (c : Nat) : Bool := c != '='.toNat

/-- The text after the first `=`. -/
def readRest (s : PyStr) : PyStr := (s.dropWhile isOpChar).drop 1

/-- Read a comparison, with optional white space around it. -/
def readComparison (s : PyStr) : Reading :=
  let s := s.dropWhile Grammar.isWS
  let r := s.dropWhile Grammar.isAttrChar
  { attr := s.takeWhile Grammar.isAttrChar
    op := r.takeWhile isOpChar ++ py "="
    value := strip (readRest r) }

/-- An equality with a lone asterisk is a presence match. -/
def Reading.isPresence (r : Reading) : Bool := r.op == py "=" && r.value == py "*"

/-- The printed operator prefix. -/
def Reading.prefixText (r : Reading) : PyStr := if r.isPresence then py "=*" else r.op

/-- The value as the comparison stores it. -/
def Reading.rawValue (r : Reading) : PyStr := if r.isPresence then [] else r.value

/-- The dn flag and the matching rule of an operator `:dn:rule:=`: one part is
the flag when it says `dn` and an attribute stands before it. -/
def Reading.extensible (r : Reading) : PyStr × PyStr :=
  let first := (r.op.drop 1).takeWhile Grammar.isAttrChar
  let second := (((r.op.drop 1).dropWhile Grammar.isAttrChar).drop 1).takeWhile Grammar.isAttrChar
  if second ≠ [] then (first, second)
  else if Grammar.isDn first && r.attr ≠ [] then (first, [])
  else ([], first)

/-- The class of the comparison. -/
def Reading.cls (r : Reading) : ComparisonClass :=
  if r.op = py "=" then
    if r.value = py "*" then .presenceMatch
    else if '*'.toNat ∈ r.value then .substringMatch
    else .equalityMatch
  else if r.op = py ">=" then .greaterOrEqual
  else if r.op = py "<=" then .lessOrEqual
  else if r.op = py "~=" then .approximateMatch
  else .extensibleMatch (some r.extensible.1) (some r.extensible.2)

example : readComparison (py " cn:dn:2.4.6:= John ") = ⟨py "cn", py ":dn:2.4.6:=", py "John"⟩ := by
  decide

namespace Grammar

/-! ## The parts of a derived comparison -/

/-- The text of the attribute, empty where the alternative has none. -/
def Comparison.attrText : Grammar.Comparison → PyStr
  | .presence attr => attr.text
  | .equality attr _ => attr.text
  | .substring attr _ => attr.text
  | .ge attr _ => attr.text
  | .le attr _ => attr.text
  | .approx attr _ => attr.text
  | .extmatchNoattrDnMatch _ _ _ => []
  | .extmatchAttrDnMatch attr _ _ _ => attr.text
  | .extmatchAttrDnNomatch attr _ _ => attr.text
  | .extmatchNoattrNodnMatch _ _ => []
  | .extmatchAttrNodnMatch attr _ _ => attr.text
  | .extmatchAttrNodnNomatch attr _ => attr.text

/-- The text between the attribute and the first `=`. -/
def Comparison.opHead : Grammar.Comparison → PyStr
  | .presence _ => []
  | .equality _ _ => []
  | .substring _ _ => []
  | .ge _ _ => py ">"
  | .le _ _ => py "<"
  | .approx _ _ => py "~"
  | .extmatchNoattrDnMatch dn rule _ => py ":" ++ dn.text ++ py ":" ++ rule.text ++ py ":"
  | .extmatchAttrDnMatch _ dn rule _ => py ":" ++ dn.text ++ py ":" ++ rule.text ++ py ":"
  | .extmatchAttrDnNomatch _ dn _ => py ":" ++ dn.text ++ py ":"
  | .extmatchNoattrNodnMatch rule _ => py ":" ++ rule.text ++ py ":"
  | .extmatchAttrNodnMatch _ rule _ => py ":" ++ rule.text ++ py ":"
  | .extmatchAttrNodnNomatch _ _ => py ":"

/-- The text after the first `=`. -/
def Comparison.rest : Grammar.Comparison → PyStr
  | .presence _ => py "*"
  | .substring _ value => value.text
  | .equality _ value
  | .ge _ value
  | .le _ value
  | .approx _ value
  | .extmatchNoattrDnMatch _ _ value
  | .extmatchAttrDnMatch _ _ _ value
  | .extmatchAttrDnNomatch _ _ value
  | .extmatchNoattrNodnMatch _ value
  | .extmatchAttrNodnMatch _ _ value
  | .extmatchAttrNodnNomatch _ value => value.text

theorem Comparison.text_eq (c : Grammar.Comparison) :
    c.text = c.attrText ++ (c.opHead ++ ('='.toNat :: c.rest)) := by
  cases c <;> simp [Comparison.text, attrText, opHead, rest, py]

theorem Comparison.attrText_chars (c : Grammar.Comparison) : All isAttrChar c.attrText := by
  cases c <;> simp [attrText, Attr.chars]

/-- An attribute that is there is accepted by the `attr` rule. -/
theorem Comparison.attrText_valid (c : Grammar.Comparison) :
    c.attrText = [] ∨ isAttr c.attrText = true := by
  cases c with
  | extmatchNoattrDnMatch dn rule value => exact .inl rfl
  | extmatchNoattrNodnMatch rule value => exact .inl rfl
  | _ attr => exact .inr attr.valid

/-- Attributes and matching rules have no `=`. -/
theorem isOpChar_of_isAttrChar {c : Nat} (h : isAttrChar c = true) : isOpChar c = true := by
  have := isAttrChar_cases h
  simp [isOpChar]
  omega

theorem Attr.opChars (a : Attr) : All isOpChar a.text :=
  a.chars.mono fun _ => isOpChar_of_isAttrChar

theorem Dn.opChars (d : Dn) : All isOpChar d.text :=
  d.chars.mono fun _ => isOpChar_of_isAttrChar

theorem Comparison.opHead_chars (c : Grammar.Comparison) : All isOpChar c.opHead := by
  have hcolon : All isOpChar (py ":") := by decide
  cases c with
  | presence _ => exact .nil
  | equality _ _ => exact .nil
  | substring _ _ => exact .nil
  | ge _ _ => exact (by decide : All isOpChar (py ">"))
  | le _ _ => exact (by decide : All isOpChar (py "<"))
  | approx _ _ => exact (by decide : All isOpChar (py "~"))
  | extmatchNoattrDnMatch dn rule _ => simp [opHead, hcolon, dn.opChars, rule.opChars]
  | extmatchAttrDnMatch _ dn rule _ => simp [opHead, hcolon, dn.opChars, rule.opChars]
  | extmatchAttrDnNomatch _ dn _ => simp [opHead, hcolon, dn.opChars]
  | extmatchNoattrNodnMatch rule _ => simp [opHead, hcolon, rule.opChars]
  | extmatchAttrNodnMatch _ rule _ => simp [opHead, hcolon, rule.opChars]
  | extmatchAttrNodnNomatch _ _ => exact hcolon

/-- What follows the attribute is no attribute character. -/
theorem Comparison.stops_opHead (c : Grammar.Comparison) (r : PyStr) :
    Stops isAttrChar (c.opHead ++ ('='.toNat :: r)) := by
  cases c <;> simp [opHead, py] <;> decide

/-- A comparison does not begin with white space or an operator symbol: it
begins with an attribute or a colon, whatever its value is. -/
theorem Comparison.frame_eq_cons (c : Grammar.Comparison) (r : PyStr) :
    ∃ d s, c.attrText ++ (c.opHead ++ ('='.toNat :: r)) = d :: s ∧
      (isAttrChar d = true ∨ d = ':'.toNat) := by
  have hattr : ∀ (a : Attr) (t : PyStr), ∃ d s, a.text ++ t = d :: s ∧
      (isAttrChar d = true ∨ d = ':'.toNat) := by
    intro a t
    obtain ⟨d, s, hs⟩ := List.exists_cons_of_ne_nil a.ne_nil
    exact ⟨d, s ++ t, by rw [hs]; rfl, .inl (a.chars d (by rw [hs]; exact List.mem_cons_self))⟩
  cases c with
  | extmatchNoattrDnMatch dn rule value => exact ⟨_, _, rfl, .inr rfl⟩
  | extmatchNoattrNodnMatch rule value => exact ⟨_, _, rfl, .inr rfl⟩
  | _ attr => exact hattr attr _

theorem Comparison.text_eq_cons (c : Grammar.Comparison) :
    ∃ d s, c.text = d :: s ∧ (isAttrChar d = true ∨ d = ':'.toNat) := by
  rw [c.text_eq]
  exact c.frame_eq_cons c.rest

/-- What the first character of a comparison is not. -/
theorem headChar_spec {d : Nat} (h : isAttrChar d = true ∨ d = ':'.toNat) :
    isWS d = false ∧ d ≠ '&'.toNat ∧ d ≠ '|'.toNat ∧ d ≠ '!'.toNat ∧ d ≠ '('.toNat := by
  rcases h with h | rfl
  · have hcases := isAttrChar_cases h
    refine ⟨?_, ?_, ?_, ?_, ?_⟩
    · cases hws : isWS d with
      | false => rfl
      | true =>
        have := isWS_cases hws
        omega
    all_goals
      simp
      omega
  · decide

theorem Comparison.stops_text (c : Grammar.Comparison) (r : PyStr) : Stops isWS (c.text ++ r) := by
  obtain ⟨d, s, hs, hd⟩ := c.text_eq_cons
  rw [hs]
  exact stops_cons.mpr (headChar_spec hd).1

/-! ## The reading of a derived comparison -/

/-- The reading of a derived comparison. -/
def Comparison.reading (c : Grammar.Comparison) : Reading where
  attr := c.attrText
  op := c.opHead ++ py "="
  value := strip c.rest

/-- Any text after the operator of a derived comparison is read as the value. -/
theorem Comparison.readComparison_frame (c : Grammar.Comparison) {lead : PyStr}
    (hlead : All isWS lead) (r : PyStr) :
    readComparison (lead ++ (c.attrText ++ (c.opHead ++ ('='.toNat :: r))))
      = ⟨c.attrText, c.opHead ++ py "=", strip r⟩ := by
  have hstops : Stops isWS (c.attrText ++ (c.opHead ++ ('='.toNat :: r))) := by
    obtain ⟨d, s, hs, hd⟩ := c.frame_eq_cons r
    rw [hs]
    exact stops_cons.mpr (headChar_spec hd).1
  have hop : Stops isOpChar ('='.toNat :: r) := by
    rw [stops_cons]
    decide
  simp only [readComparison, readRest, dropWhile_append hlead hstops,
    takeWhile_append c.attrText_chars (c.stops_opHead r),
    dropWhile_append c.attrText_chars (c.stops_opHead r), takeWhile_append c.opHead_chars hop,
    dropWhile_append c.opHead_chars hop, List.drop_succ_cons, List.drop_zero]

/-- What stands before the first `=`. -/
theorem Comparison.frame_opChars (c : Grammar.Comparison) {lead : PyStr}
    (hlead : All isWS lead) : All isOpChar (lead ++ c.attrText ++ c.opHead) := by
  have hlead : All isOpChar lead := by
    refine hlead.mono fun d hd => ?_
    rcases isWS_cases hd with rfl | rfl | rfl | rfl | rfl <;> decide
  have hattr : All isOpChar c.attrText := c.attrText_chars.mono fun _ => isOpChar_of_isAttrChar
  exact all_append.mpr ⟨all_append.mpr ⟨hlead, hattr⟩, c.opHead_chars⟩

theorem Comparison.readRest_frame (c : Grammar.Comparison) {lead : PyStr}
    (hlead : All isWS lead) (r : PyStr) :
    readRest (lead ++ (c.attrText ++ (c.opHead ++ ('='.toNat :: r)))) = r := by
  have hstop : Stops isOpChar ('='.toNat :: r) := by
    rw [stops_cons]
    decide
  rw [readRest, ← List.append_assoc, ← List.append_assoc,
    dropWhile_append (c.frame_opChars hlead) hstop]
  rfl

/-- The text of a derived comparison with white space around it, in one frame. -/
theorem Comparison.text_frame (lead trail : Ows) (c : Grammar.Comparison) :
    Ows.text lead ++ c.text ++ Ows.text trail
      = Ows.text lead ++ (c.attrText ++ (c.opHead ++ ('='.toNat :: (c.rest ++ Ows.text trail)))) := by
  rw [c.text_eq]
  simp

/-- The reading of the text, with any white space around it, is the reading of
the derivation. -/
theorem Comparison.readComparison_text (lead trail : Ows) (c : Grammar.Comparison) :
    readComparison (Ows.text lead ++ c.text ++ Ows.text trail) = c.reading := by
  have hvalue : strip (c.rest ++ Ows.text trail) = strip c.rest := by
    have := strip_append (l := c.rest) (All.nil (p := isSpace)) (Ows.spaces trail)
    simpa using this
  rw [c.text_frame, c.readComparison_frame (Ows.chars lead), hvalue, reading]

/-- What follows the first `=` is the value of the comparison and the white space
after it. -/
theorem Comparison.readRest_text (lead trail : Ows) (c : Grammar.Comparison) :
    readRest (Ows.text lead ++ c.text ++ Ows.text trail) = c.rest ++ Ows.text trail := by
  rw [c.text_frame, c.readRest_frame (Ows.chars lead)]

end Grammar

/-! ## Accepted comparisons agree with their reading -/

/-- An accepted value has no white space at its ends, or it has and is cut there. -/
theorem Transformer.value_cases {ld tr : Option PyStr} {val : PyStr} {v : ValueStr}
    (h : Transformer.value ld val tr = .ok v) :
    (strip val = val ∧ v = ⟨val, ld, tr⟩) ∨
    ∃ a b, val = a ++ strip val ++ b ∧ All isSpace a ∧ All isSpace b ∧ strip val ≠ [] ∧
      v = ⟨strip val, some (orStr ld a), some (orStr tr b)⟩ := by
  rw [Transformer.value] at h
  split at h
  · by_cases hne : strip val = []
    · simp [partition, hne] at h
    · right
      obtain ⟨a, b, hval, ha, hb⟩ := strip_decompose isSpace val
      rw [partition_strip hval ha hne] at h
      cases h
      exact ⟨a, b, hval, ha, hb, hne, rfl⟩
  · rename_i hstrip
    cases h
    exact .inl ⟨(not_not.mp hstrip).symm, rfl⟩

/-- An accepted value is stripped. -/
theorem Transformer.value_text {ld tr : Option PyStr} {val : PyStr} {v : ValueStr}
    (h : Transformer.value ld val tr = .ok v) : v.text = strip val := by
  rcases Transformer.value_cases h with ⟨hstrip, rfl⟩ | ⟨a, b, -, -, -, -, rfl⟩
  · exact hstrip.symm
  · rfl

/-- An accepted value without white space at its edges keeps its margins. -/
theorem Transformer.value_of_strip (ld tr : Option PyStr) {val : PyStr} (h : strip val = val) :
    Transformer.value ld val tr = .ok ⟨val, ld, tr⟩ := by
  simp [Transformer.value, h]

namespace Grammar

theorem Value.strip_text (v : Grammar.Value) :
    strip v.text = strip (v.body.elim [] ValueTok.text) := by
  rw [Value.text, ← List.append_assoc]
  exact strip_append (Ows.spaces v.lead) (Ows.spaces v.trail)

theorem Value.transform_text {v : Grammar.Value} {s : ValueStr} (h : v.transform = .ok s) :
    s.text = strip v.text := by
  rw [Transformer.value_text h, v.strip_text]

/-- An empty value has no token. -/
theorem Value.body_eq_none {v : Grammar.Value} (h : v.text = []) : v.body = none := by
  cases hb : v.body with
  | none => rfl
  | some tok =>
    rw [Value.text, hb] at h
    have htok : tok.text = [] := (List.append_eq_nil_iff.mp (List.append_eq_nil_iff.mp h).2).1
    exact absurd htok tok.nonempty

/-- The text of a value, margins included, is matched by the value token. -/
theorem Value.valid_text (v : Grammar.Value) : isValueText v.text = true := by
  have hows : ∀ w : Ows, isValueText (Ows.text w) = true := fun w =>
    isValueText_of_plain ((Ows.chars w).mono fun _ => isWS_plain)
  have hbody : isValueText (v.body.elim [] ValueTok.text) = true := by
    cases v.body with
    | none => rfl
    | some tok => exact tok.valid
  exact isValueText_append _ _ (hows v.lead) (isValueText_append _ _ hbody (hows v.trail))

theorem Value.chars (v : Grammar.Value) : All isValueChar v.text :=
  isValueText_chars _ v.valid_text

theorem asterisk_notMem {s : PyStr} (h : All isValueChar s) : '*'.toNat ∉ s := by
  intro hmem
  exact absurd (h _ hmem) (by decide)

/-- The class and the value of the alternatives with one assertion value. -/
def Comparison.valued : Grammar.Comparison → Option (ComparisonClass × Grammar.Value)
  | .presence _ => none
  | .substring _ _ => none
  | .equality _ value => some (.equalityMatch, value)
  | .ge _ value => some (.greaterOrEqual, value)
  | .le _ value => some (.lessOrEqual, value)
  | .approx _ value => some (.approximateMatch, value)
  | .extmatchNoattrDnMatch dn rule value =>
    some (.extensibleMatch (some dn.text) (some rule.text), value)
  | .extmatchAttrDnMatch _ dn rule value =>
    some (.extensibleMatch (some dn.text) (some rule.text), value)
  | .extmatchAttrDnNomatch _ dn value => some (.extensibleMatch (some dn.text) (some []), value)
  | .extmatchNoattrNodnMatch rule value => some (.extensibleMatch (some []) (some rule.text), value)
  | .extmatchAttrNodnMatch _ rule value => some (.extensibleMatch (some []) (some rule.text), value)
  | .extmatchAttrNodnNomatch _ value => some (.extensibleMatch (some []) (some []), value)

/-- Another value in place of the assertion value. -/
def Comparison.setValue (c : Grammar.Comparison) (v : Grammar.Value) : Grammar.Comparison :=
  match c with
  | .presence attr => .presence attr
  | .substring attr value => .substring attr value
  | .equality attr _ => .equality attr v
  | .ge attr _ => .ge attr v
  | .le attr _ => .le attr v
  | .approx attr _ => .approx attr v
  | .extmatchNoattrDnMatch dn rule _ => .extmatchNoattrDnMatch dn rule v
  | .extmatchAttrDnMatch attr dn rule _ => .extmatchAttrDnMatch attr dn rule v
  | .extmatchAttrDnNomatch attr dn _ => .extmatchAttrDnNomatch attr dn v
  | .extmatchNoattrNodnMatch rule _ => .extmatchNoattrNodnMatch rule v
  | .extmatchAttrNodnMatch attr rule _ => .extmatchAttrNodnMatch attr rule v
  | .extmatchAttrNodnNomatch attr _ => .extmatchAttrNodnNomatch attr v

@[simp] theorem Comparison.attrText_setValue (c : Grammar.Comparison) (v : Grammar.Value) :
    (c.setValue v).attrText = c.attrText := by
  cases c <;> rfl

@[simp] theorem Comparison.opHead_setValue (c : Grammar.Comparison) (v : Grammar.Value) :
    (c.setValue v).opHead = c.opHead := by
  cases c <;> rfl

theorem Comparison.rest_setValue {c : Grammar.Comparison} {cls : ComparisonClass}
    {w : Grammar.Value} (h : c.valued = some (cls, w)) (v : Grammar.Value) :
    (c.setValue v).rest = v.text := by
  cases c <;> first | rfl | cases h

/-- The explicit check of `extmatch_noattr_nodn_match`. -/
def Comparison.dnAsRule : Grammar.Comparison → Bool
  | .extmatchNoattrNodnMatch rule _ => isDn rule.text
  | _ => false

theorem Comparison.valued_rest {c : Grammar.Comparison} {cls : ComparisonClass}
    {v : Grammar.Value} (h : c.valued = some (cls, v)) : c.rest = v.text := by
  cases c <;> simp_all [valued, rest]

/-- How a comparison with one assertion value is transformed. -/
theorem Comparison.transform_valued {c : Grammar.Comparison} {cls : ComparisonClass}
    {v : Grammar.Value} (h : c.valued = some (cls, v)) (hdn : c.dnAsRule = false) :
    c.transform = v.transform.map (Transformer.comparisonOf cls c.attrText) := by
  cases c with
  | presence attr => cases h
  | substring attr value => cases h
  | extmatchNoattrNodnMatch rule value =>
    cases h
    have hne : lower rule.text ≠ py "dn" := by simpa [dnAsRule, isDn] using hdn
    simp only [Comparison.transform, Transformer.extmatchNoattrNodnMatch, if_neg hne]
    cases v.transform <;> rfl
  | _ =>
    cases h
    simp only [Comparison.transform]
    cases v.transform <;> rfl

/-- What an accepted comparison can be: a presence match, a substring match or
a comparison with one assertion value. -/
theorem Comparison.transform_cases {c : Grammar.Comparison} {cmp : Ldap.Comparison}
    (h : c.transform = .ok cmp) :
    (c.opHead = [] ∧ strip c.rest = py "*" ∧ cmp = .init .presenceMatch c.attrText [] true) ∨
    (∃ attr v s, c = .substring attr v ∧ Transformer.value none v.text none = .ok s ∧
      strip v.text ≠ py "*" ∧ cmp = Transformer.comparisonOf .substringMatch attr.text s) ∨
    (∃ cls v s, c.valued = some (cls, v) ∧ c.dnAsRule = false ∧ v.transform = .ok s ∧
      cmp = Transformer.comparisonOf cls c.attrText s) := by
  cases hc : c.valued with
  | some p =>
    obtain ⟨cls, v⟩ := p
    right; right
    by_cases hdn : c.dnAsRule = true
    · -- the guard of `extmatch_noattr_nodn_match` raises
      cases c with
      | extmatchNoattrNodnMatch rule value =>
        have heq : lower rule.text = py "dn" := by simpa [dnAsRule, isDn] using hdn
        simp only [Comparison.transform, Transformer.extmatchNoattrNodnMatch, if_pos heq] at h
        cases hv : value.transform <;> rw [hv] at h <;> cases h
      | _ => cases hdn
    · have hdn : c.dnAsRule = false := by simpa using hdn
      rw [c.transform_valued hc hdn] at h
      obtain ⟨s, hv, h⟩ := exists_of_bind_ok h
      cases h
      exact ⟨cls, v, s, rfl, hdn, hv, rfl⟩
  | none =>
    cases c with
    | presence attr =>
      left
      have hnil : Transformer.value none [] none = .ok ⟨[], none, none⟩ :=
        Transformer.value_of_strip none none strip_nil
      rw [Comparison.transform, Transformer.presence, hnil] at h
      cases h
      exact ⟨rfl, (by decide : strip (py "*") = py "*"), rfl⟩
    | substring attr v =>
      simp only [Comparison.transform, Transformer.substrings] at h
      split at h
      -- two adjacent asterisks raise
      · cases h
      · change Transformer.substring attr.text v.text = .ok cmp at h
        rw [Transformer.substring] at h
        cases hv : Transformer.value none v.text none with
        | error e => rw [hv] at h; cases h
        | ok s =>
          rw [hv] at h
          change (if s.text = py "*" then _ else _) = _ at h
          have hs := Transformer.value_text hv
          split at h
          · -- a lone asterisk: the presence callback takes over
            rename_i hstar
            left
            have hone : Transformer.value none (py "*") none = .ok ⟨py "*", none, none⟩ :=
              Transformer.value_of_strip none none (by decide)
            rw [hstar, Transformer.presence, hone] at h
            cases h
            exact ⟨rfl, hs ▸ hstar, rfl⟩
          · rename_i hstar
            right; left
            cases h
            exact ⟨attr, v, s, rfl, hv, hs ▸ hstar, rfl⟩
    | _ => cases hc

theorem Comparison.valued_notMem {c : Grammar.Comparison} {cls : ComparisonClass}
    {v : Grammar.Value} (h : c.valued = some (cls, v)) : strip c.rest ≠ py "*" := by
  intro heq
  have hmem : '*'.toNat ∈ strip c.rest := by
    rw [heq]
    exact List.mem_singleton.mpr rfl
  rw [valued_rest h] at hmem
  exact asterisk_notMem v.chars (mem_of_mem_strip hmem)

/-- The printed prefix of a class is the text of its operator. -/
theorem Comparison.valued_prefixText {c : Grammar.Comparison} {cls : ComparisonClass}
    {v : Grammar.Value} (h : c.valued = some (cls, v)) (attr : PyStr) (s : ValueStr) :
    (Transformer.comparisonOf cls attr s).prefixText = c.opHead ++ py "=" := by
  have hrule : ∀ a : Attr, a.text.isEmpty = false := fun a => by simp [a.ne_nil]
  have hflag : ∀ d : Dn, d.text.isEmpty = false := fun d => by simp [d.ne_nil]
  cases c <;> cases h <;>
    simp [Transformer.comparisonOf, Transformer.applyPrefix, Comparison.init,
      Ldap.Comparison.prefixText, ComparisonClass.expression, opHead, extraOf, truthy, orStr,
      hrule, hflag, py]

/-- An accepted comparison has the attribute, the operator prefix and the value
of its reading. -/
theorem Comparison.transform_reading {c : Grammar.Comparison} {cmp : Ldap.Comparison}
    (h : c.transform = .ok cmp) :
    cmp.attr = c.reading.attr ∧ cmp.prefixText = c.reading.prefixText ∧
      cmp.rawValue = c.reading.rawValue ∧ cmp.isEscaped = true := by
  rcases transform_cases h with ⟨hop, hval, rfl⟩ | ⟨attr, v, s, rfl, hv, hne, rfl⟩ |
    ⟨cls, v, s, hc, -, hv, rfl⟩
  · have hpres : c.reading.isPresence = true := by
      simp [Reading.isPresence, reading, hop, hval]
    rw [Reading.prefixText, Reading.rawValue, if_pos hpres, if_pos hpres]
    exact ⟨rfl, rfl, rfl, rfl⟩
  · have hpres : (Comparison.substring attr v).reading.isPresence = false := by
      simpa [Reading.isPresence, reading, rest] using fun _ => hne
    rw [Reading.prefixText, Reading.rawValue, hpres]
    exact ⟨rfl, rfl, Transformer.value_text hv, rfl⟩
  · have hpres : c.reading.isPresence = false := by
      simpa [Reading.isPresence, reading] using fun _ => valued_notMem hc
    rw [Reading.prefixText, Reading.rawValue, hpres]
    refine ⟨rfl, valued_prefixText hc _ _, ?_, rfl⟩
    show s.text = strip c.rest
    rw [valued_rest hc, Value.transform_text hv]

theorem equality_of_valued {c : Grammar.Comparison} {v : Grammar.Value}
    (h : c.valued = some (.equalityMatch, v)) : ∃ attr, c = .equality attr v := by
  cases c with
  | equality attr w =>
    cases h
    exact ⟨attr, rfl⟩
  | _ => cases h

/-! ## The alternative listed first -/

/-- The number of the alternative in `?comparison`. -/
def Comparison.alternative : Grammar.Comparison → Nat
  | .presence _ => 0
  | .equality _ _ => 1
  | .substring _ _ => 2
  | .ge _ _ => 3
  | .le _ _ => 4
  | .approx _ _ => 5
  | .extmatchNoattrDnMatch _ _ _ => 6
  | .extmatchAttrDnMatch _ _ _ _ => 7
  | .extmatchAttrDnNomatch _ _ _ => 8
  | .extmatchNoattrNodnMatch _ _ => 9
  | .extmatchAttrNodnMatch _ _ _ => 10
  | .extmatchAttrNodnNomatch _ _ => 11

/-- No alternative listed earlier derives the same text; nothing is said of
`presence`, since a substring `*` is a presence match as well. -/
def Comparison.FirstListed (c : Grammar.Comparison) : Prop :=
  ∀ c' : Grammar.Comparison, c'.text = c.text → c'.alternative ≠ 0 →
    c.alternative ≤ c'.alternative

/-- Substring parts are not empty. -/
theorem Substrings.ne_nil (v : Substrings) : v.text ≠ [] := by
  have hhead : v.head.text ≠ [] := by
    cases v.head with
    | value tok => exact tok.nonempty
    | asterisk => decide
  simp [Substrings.text, hhead]

/-- Substring parts without an asterisk are one value. -/
theorem Substrings.eq_value {v : Substrings} (h : '*'.toNat ∉ v.text) :
    v.text ≠ [] ∧ isValueText v.text = true := by
  have hpart : ∀ p : SubstrPart, '*'.toNat ∉ p.text → p.text ≠ [] ∧ isValueText p.text = true := by
    intro p hp
    cases p with
    | value tok => exact ⟨tok.nonempty, tok.valid⟩
    | asterisk => exact absurd (List.mem_singleton.mpr rfl) hp
  have htail : ∀ ps : List SubstrPart, '*'.toNat ∉ ps.flatMap SubstrPart.text →
      isValueText (ps.flatMap SubstrPart.text) = true := by
    intro ps
    induction ps with
    | nil => intro _; rfl
    | cons p ps ih =>
      intro hp
      simp only [List.flatMap_cons, List.mem_append, not_or] at hp ⊢
      exact isValueText_append _ _ (hpart p hp.1).2 (ih hp.2)
  simp only [Substrings.text, List.mem_append, not_or] at h
  obtain ⟨hne, hhead⟩ := hpart v.head h.1
  exact ⟨by simp [Substrings.text, hne], isValueText_append _ _ hhead (htail v.tail h.2)⟩

/-- A first listed substring has an asterisk: else it would be an equality. -/
theorem Comparison.FirstListed.asterisk_mem {attr : Attr} {v : Substrings}
    (h : (Comparison.substring attr v).FirstListed) : '*'.toNat ∈ v.text := by
  by_contra hmem
  obtain ⟨hne, hvalid⟩ := Substrings.eq_value hmem
  have hle := h (.equality attr ⟨none, some ⟨v.text, hne, hvalid⟩, none⟩)
    (by simp [Comparison.text, Value.text]) (by simp [alternative])
  simp [alternative] at hle

/-- A first listed matching rule after an attribute is not the dn flag. -/
theorem Comparison.FirstListed.not_dn {attr rule : Attr} {v : Grammar.Value}
    (h : (Comparison.extmatchAttrNodnMatch attr rule v).FirstListed) : isDn rule.text = false := by
  by_contra hdn
  have hdn : isDn rule.text = true := by simpa using hdn
  have hle := h (.extmatchAttrDnNomatch attr ⟨rule.text, hdn⟩ v)
    (by simp [Comparison.text]) (by simp [alternative])
  simp [alternative] at hle

end Grammar

/-! ## Classes of readings -/

section

open Grammar (isAttrChar isDn)

/-- An operator that begins with a colon is an extensible match. -/
theorem Reading.cls_of_colon {r : Reading} {t : PyStr} (h : r.op = ':'.toNat :: t) :
    r.cls = .extensibleMatch (some r.extensible.1) (some r.extensible.2) := by
  simp [Reading.cls, h, py]

/-- The operator `=` is told apart by the asterisks of the value. -/
theorem Reading.cls_of_eq {r : Reading} (h : r.op = py "=") :
    r.cls = if r.value = py "*" then .presenceMatch
      else if '*'.toNat ∈ r.value then .substringMatch else .equalityMatch := by
  rw [Reading.cls, if_pos h]

/-- The two parts of an operator `:first:second:=`. -/
theorem Reading.extensible_two {attr a b v : PyStr} (ha : All isAttrChar a) (hb : All isAttrChar b)
    (hne : b ≠ []) :
    (Reading.mk attr (py ":" ++ a ++ py ":" ++ b ++ py ":" ++ py "=") v).extensible = (a, b) := by
  have hdrop : (py ":" ++ a ++ py ":" ++ b ++ py ":" ++ py "=").drop 1
      = a ++ (':'.toNat :: (b ++ py ":=")) := by simp [py]
  have hstop₁ : Stops isAttrChar (':'.toNat :: (b ++ py ":=")) := by
    rw [stops_cons]
    decide
  have hstop₂ : Stops isAttrChar (py ":=") := by
    rw [show py ":=" = ':'.toNat :: py "=" from rfl, stops_cons]
    decide
  simp only [Reading.extensible, hdrop, takeWhile_append ha hstop₁, dropWhile_append ha hstop₁,
    List.drop_succ_cons, List.drop_zero, takeWhile_append hb hstop₂]
  rw [if_pos hne]

/-- The one part of an operator `:first:=`. -/
theorem Reading.extensible_one {attr a v : PyStr} (ha : All isAttrChar a) :
    (Reading.mk attr (py ":" ++ a ++ py ":" ++ py "=") v).extensible =
      if isDn a && attr ≠ [] then (a, []) else ([], a) := by
  have hdrop : (py ":" ++ a ++ py ":" ++ py "=").drop 1 = a ++ py ":=" := by simp [py]
  have hstop : Stops isAttrChar (py ":=") := by
    rw [show py ":=" = ':'.toNat :: py "=" from rfl, stops_cons]
    decide
  have hnone : ((py ":=").drop 1).takeWhile isAttrChar = [] := by decide
  simp only [Reading.extensible, hdrop, takeWhile_append ha hstop, dropWhile_append ha hstop, hnone]
  rfl

end

namespace Grammar

/-- A comparison with one assertion value has the class of its reading, unless a
matching rule after an attribute reads as the dn flag. -/
theorem Comparison.reading_cls {c : Grammar.Comparison} {cls : ComparisonClass}
    {v : Grammar.Value} (hc : c.valued = some (cls, v))
    (hrule : ∀ attr rule w, c = .extmatchAttrNodnMatch attr rule w → isDn rule.text = false) :
    c.reading.cls = cls := by
  have hnotMem : '*'.toNat ∉ strip c.rest := fun hmem => by
    rw [valued_rest hc] at hmem
    exact asterisk_notMem v.chars (mem_of_mem_strip hmem)
  cases c with
  | presence attr => cases hc
  | substring attr value => cases hc
  | equality attr value =>
    cases hc
    -- a single assertion value has no asterisk
    have hne : strip v.text ≠ py "*" := valued_notMem (c := .equality attr v) rfl
    have hnotMem : '*'.toNat ∉ strip v.text := hnotMem
    rw [Reading.cls_of_eq rfl]
    show (if strip v.text = py "*" then _ else if '*'.toNat ∈ strip v.text then _ else _) = _
    rw [if_neg hne, if_neg hnotMem]
  | ge attr value => cases hc; rfl
  | le attr value => cases hc; rfl
  | approx attr value => cases hc; rfl
  | extmatchNoattrDnMatch dn rule value =>
    cases hc
    rw [Reading.cls_of_colon rfl]
    simp only [reading, opHead, Reading.extensible_two dn.chars rule.chars rule.ne_nil]
  | extmatchAttrDnMatch attr dn rule value =>
    cases hc
    rw [Reading.cls_of_colon rfl]
    simp only [reading, opHead, Reading.extensible_two dn.chars rule.chars rule.ne_nil]
  | extmatchAttrDnNomatch attr dn value =>
    cases hc
    rw [Reading.cls_of_colon rfl]
    simp only [reading, opHead, Reading.extensible_one dn.chars]
    simp [attrText, dn.valid, attr.ne_nil]
  | extmatchNoattrNodnMatch rule value =>
    cases hc
    rw [Reading.cls_of_colon rfl]
    simp only [reading, opHead, Reading.extensible_one rule.chars]
    simp [attrText]
  | extmatchAttrNodnMatch attr rule value =>
    cases hc
    rw [Reading.cls_of_colon rfl]
    simp only [reading, opHead, Reading.extensible_one rule.chars]
    simp [attrText, hrule attr rule _ rfl]
  | extmatchAttrNodnNomatch attr value => cases hc; rfl

/-- Whatever alternative derives it, a lone asterisk is a presence match. -/
theorem Comparison.transform_presence {c : Grammar.Comparison} {cmp : Ldap.Comparison}
    (h : c.transform = .ok cmp) (hpres : c.reading.isPresence = true) :
    cmp.cls = .presenceMatch := by
  simp only [Reading.isPresence, Bool.and_eq_true, beq_iff_eq] at hpres
  rcases transform_cases h with ⟨-, -, rfl⟩ | ⟨attr, v, s, rfl, -, hne, -⟩ |
    ⟨cls, v, s, hc, -, -, -⟩
  · rfl
  · exact absurd hpres.2 hne
  · exact absurd hpres.2 (valued_notMem hc)

/-- Under the alternative listed first, an accepted comparison has the class of
its reading. -/
theorem Comparison.transform_cls {c : Grammar.Comparison} {cmp : Ldap.Comparison}
    (h : c.transform = .ok cmp) (hfirst : c.FirstListed) : cmp.cls = c.reading.cls := by
  rcases transform_cases h with ⟨hop, hval, rfl⟩ | ⟨attr, v, s, rfl, hv, hne, rfl⟩ |
    ⟨cls, v, s, hc, hdn, hv, rfl⟩
  · show ComparisonClass.presenceMatch = _
    simp [Reading.cls, reading, hop, hval]
  · show ComparisonClass.substringMatch = _
    have hmem : '*'.toNat ∈ strip v.text :=
      (mem_strip_iff (by decide)).mpr hfirst.asterisk_mem
    rw [Reading.cls_of_eq rfl]
    show _ = if strip v.text = py "*" then _ else if '*'.toNat ∈ strip v.text then _ else _
    rw [if_neg hne, if_pos hmem]
  · refine (reading_cls hc fun attr rule w he => ?_).symm
    subst he
    exact hfirst.not_dn

/-! ## Values with a given text -/

/-- The value rule around one token, or without one. -/
def Value.ofText (t : PyStr) (h : isValueText t = true) : Grammar.Value :=
  ⟨none, if ht : t = [] then none else some ⟨t, ht, h⟩, none⟩

@[simp] theorem Value.text_ofText (t : PyStr) (h : isValueText t = true) :
    (Value.ofText t h).text = t := by
  unfold Value.ofText
  split
  · rename_i ht
    simp [Value.text, ht]
  · simp [Value.text]

/-! ## Substring parts with a given text -/

/-- An asterisk is taken for a character of a value. -/
def maskAsterisk (c : Nat) : Nat := if c = '*'.toNat then 'x'.toNat else c

theorem eq_of_maskAsterisk {c d : Nat} (h : maskAsterisk c = d) (hd : d ≠ 'x'.toNat) : c = d := by
  unfold maskAsterisk at h
  split at h
  · exact absurd h.symm hd
  · exact h

theorem map_maskAsterisk {s : PyStr} (h : '*'.toNat ∉ s) : s.map maskAsterisk = s := by
  induction s with
  | nil => rfl
  | cons c s ih =>
    simp only [List.mem_cons, not_or] at h
    rw [List.map_cons, ih h.2, maskAsterisk, if_neg (Ne.symm h.1)]

/-- But for its asterisks, the text of substring parts is that of a value. -/
theorem Substrings.isValueText_mask (v : Substrings) :
    isValueText (v.text.map maskAsterisk) = true := by
  have hpart (p : SubstrPart) : isValueText (p.text.map maskAsterisk) = true := by
    cases p with
    | value tok =>
      have hnot := asterisk_notMem (isValueText_chars _ tok.valid)
      rw [SubstrPart.text, map_maskAsterisk hnot]
      exact tok.valid
    | asterisk => decide
  have htail : ∀ ps : List SubstrPart,
      isValueText ((ps.flatMap SubstrPart.text).map maskAsterisk) = true := by
    intro ps
    induction ps with
    | nil => rfl
    | cons p ps ih =>
      rw [List.flatMap_cons, List.map_append]
      exact isValueText_append _ _ (hpart p) ih
  rw [Substrings.text, List.map_append]
  exact isValueText_append _ _ (hpart v.head) (htail v.tail)

theorem hexDigit_ne_mask {c : Nat} (h : isHexDigit c = true) : c ≠ 'x'.toNat := by
  rintro rfl
  cases h

/-- And every such text is derived: a part for every character and every escape. -/
theorem exists_parts {m : PyStr} (h : isValueText m = true) : ∀ s : PyStr, s.map maskAsterisk = m →
    ∃ ps : List SubstrPart, ps.flatMap SubstrPart.text = s := by
  refine isValueText_induction (P := fun m => ∀ s : PyStr, s.map maskAsterisk = m →
    ∃ ps : List SubstrPart, ps.flatMap SubstrPart.text = s) ?_ ?_ ?_ ?_ m h
  · intro s hs
    exact ⟨[], (List.map_eq_nil_iff.mp hs).symm⟩
  · intro c m hc _ ih s hs
    obtain ⟨d, s, rfl, hd, hs⟩ := List.map_eq_cons_iff.mp hs
    obtain ⟨ps, hps⟩ := ih s hs
    by_cases hstar : d = '*'.toNat
    · exact ⟨.asterisk :: ps, by rw [List.flatMap_cons, hps, hstar]; rfl⟩
    · have heq : d = c := by rwa [maskAsterisk, if_neg hstar] at hd
      have hvalid : isValueText [d] = true := isValueText_of_plain (by simpa [heq] using hc)
      exact ⟨.value ⟨[d], List.cons_ne_nil _ _, hvalid⟩ :: ps, by rw [List.flatMap_cons, hps]; rfl⟩
  · intro d₀ h₀ m hd₀ hh₀ _ ih s hs
    obtain ⟨b, s, rfl, hb, hs⟩ := List.map_eq_cons_iff.mp hs
    obtain ⟨d, s, rfl, hd, hs⟩ := List.map_eq_cons_iff.mp hs
    obtain ⟨h, s, rfl, hh, hs⟩ := List.map_eq_cons_iff.mp hs
    obtain ⟨ps, hps⟩ := ih s hs
    obtain rfl := eq_of_maskAsterisk hb (by decide)
    obtain rfl := eq_of_maskAsterisk hd (hexDigit_ne_mask hd₀)
    obtain rfl := eq_of_maskAsterisk hh (hexDigit_ne_mask hh₀)
    have hvalid : isValueText ['\\'.toNat, d, h] = true := by
      rw [isValueText_escape _ _ (isHexDigit_ne_backslash hd₀), hd₀, hh₀]
      rfl
    exact ⟨.value ⟨_, List.cons_ne_nil _ _, hvalid⟩ :: ps, by rw [List.flatMap_cons, hps]; rfl⟩
  · intro d₀ h₀ m hd₀ hh₀ _ ih s hs
    obtain ⟨b, s, rfl, hb, hs⟩ := List.map_eq_cons_iff.mp hs
    obtain ⟨b', s, rfl, hb', hs⟩ := List.map_eq_cons_iff.mp hs
    obtain ⟨d, s, rfl, hd, hs⟩ := List.map_eq_cons_iff.mp hs
    obtain ⟨h, s, rfl, hh, hs⟩ := List.map_eq_cons_iff.mp hs
    obtain ⟨ps, hps⟩ := ih s hs
    obtain rfl := eq_of_maskAsterisk hb (by decide)
    obtain rfl := eq_of_maskAsterisk hb' (by decide)
    obtain rfl := eq_of_maskAsterisk hd (hexDigit_ne_mask hd₀)
    obtain rfl := eq_of_maskAsterisk hh (hexDigit_ne_mask hh₀)
    have hvalid : isValueText ['\\'.toNat, '\\'.toNat, d, h] = true := by
      rw [isValueText_escape₂, hd₀, hh₀]
      rfl
    exact ⟨.value ⟨_, List.cons_ne_nil _ _, hvalid⟩ :: ps, by rw [List.flatMap_cons, hps]; rfl⟩

theorem Substrings.exists_of_mask {s : PyStr} (hne : s ≠ [])
    (h : isValueText (s.map maskAsterisk) = true) : ∃ v : Substrings, v.text = s := by
  obtain ⟨ps, hps⟩ := exists_parts h s rfl
  cases ps with
  | nil => exact absurd hps.symm hne
  | cons p ps => exact ⟨⟨p, ps⟩, hps⟩

/-! ## White space around a value -/

/-- The margins of a value text can be replaced. -/
theorem isValueText_margins {a core b a' b' : PyStr} (ha : All isSpace a) (hb : All isSpace b)
    (ha' : All isSpace a') (hb' : All isSpace b') (h : isValueText (a ++ core ++ b) = true) :
    isValueText (a' ++ core ++ b') = true := by
  have hspaces {w : PyStr} (hw : All isSpace w) : isValueText w = true :=
    isValueText_of_plain (hw.mono fun _ => isPlainChar_of_isSpace)
  rw [List.append_assoc] at h
  have hcore := isValueText_of_append_space hb (isValueText_of_space_append ha h)
  exact isValueText_append _ _ (isValueText_append _ _ (hspaces ha') hcore) (hspaces hb')

theorem map_maskAsterisk_space {w : PyStr} (hw : All isSpace w) : w.map maskAsterisk = w := by
  refine map_maskAsterisk fun hmem => ?_
  exact absurd (hw _ hmem) (by decide)

/-- So can the white space around the value of a comparison. An asterisk with white space
around it is derived as a substring. -/
theorem Comparison.exists_margins (c : Grammar.Comparison) {a core b a' b' : PyStr}
    (hrest : c.rest = a ++ core ++ b) (ha : All isSpace a) (hb : All isSpace b)
    (ha' : All isSpace a') (hb' : All isSpace b') :
    ∃ c' : Grammar.Comparison,
      c'.attrText = c.attrText ∧ c'.opHead = c.opHead ∧ c'.rest = a' ++ core ++ b' := by
  have hsubstring (attr : Attr) (v : Substrings) (hv : v.text = a ++ core ++ b) :
      ∃ c' : Grammar.Comparison,
        c'.attrText = attr.text ∧ c'.opHead = [] ∧ c'.rest = a' ++ core ++ b' := by
    by_cases hnil : a' ++ core ++ b' = []
    · exact ⟨.equality attr (.ofText [] rfl), rfl, rfl, by rw [hnil]; rfl⟩
    · have hmask := v.isValueText_mask
      rw [hv, List.map_append, List.map_append, map_maskAsterisk_space ha,
        map_maskAsterisk_space hb] at hmask
      have hmask' := isValueText_margins ha hb ha' hb' hmask
      rw [← map_maskAsterisk_space ha', ← map_maskAsterisk_space hb', ← List.map_append,
        ← List.map_append] at hmask'
      obtain ⟨v', hv'⟩ := Substrings.exists_of_mask hnil hmask'
      exact ⟨.substring attr v', rfl, rfl, hv'⟩
  cases hc : c.valued with
  | some p =>
    obtain ⟨cls, v⟩ := p
    have hvalid := v.valid_text
    rw [← valued_rest hc, hrest] at hvalid
    have hvalid' := isValueText_margins ha hb ha' hb' hvalid
    refine ⟨c.setValue (.ofText _ hvalid'), by simp, by simp, ?_⟩
    rw [rest_setValue hc, Value.text_ofText]
  | none =>
    cases c with
    | presence attr => exact hsubstring attr ⟨.asterisk, []⟩ hrest
    | substring attr v => exact hsubstring attr v hrest
    | _ => cases hc

/-- A text with the comparison, and with white space inserted directly before and after
its value: in the margins that the value has. -/
def Comparison.Spaced (c : Grammar.Comparison) (s : PyStr) : Prop :=
  ∃ a core b a' b', c.rest = a ++ core ++ b ∧ All isSpace a ∧ All isSpace b ∧
    Inserted isWS a a' ∧ Inserted isWS b b' ∧
    s = c.attrText ++ (c.opHead ++ py "=") ++ (a' ++ core ++ b')

/-- A comparison keeps its reading when white space is inserted around its value. -/
theorem Comparison.Spaced.exists_comparison {c : Grammar.Comparison} {s : PyStr} (h : c.Spaced s) :
    ∃ c' : Grammar.Comparison, c'.text = s ∧ c'.reading = c.reading := by
  obtain ⟨a, core, b, a', b', hrest, ha, hb, hinsa, hinsb, rfl⟩ := h
  have ha' := hinsa.all ha fun _ => isSpace_of_isWS
  have hb' := hinsb.all hb fun _ => isSpace_of_isWS
  obtain ⟨c', hattr, hop, hrest'⟩ := c.exists_margins hrest ha hb ha' hb'
  refine ⟨c', ?_, ?_⟩
  · rw [c'.text_eq, hattr, hop, hrest']
    simp [py]
  · have hstrip : strip (a' ++ core ++ b') = strip (a ++ core ++ b) :=
      (strip_append ha' hb').trans (strip_append ha hb).symm
    rw [reading, reading, hattr, hop, hrest', hrest, hstrip]

end Grammar

end FreeIam.Ldap
