import FreeIam.Ldap.Filter.Parser

/-!
# A parser for the grammar

`LarkParser` and the properties of its choices are satisfied: `resolver` is a
recursive descent over the bracket structure. Every comparison is derived as Lark
derives it: by the first alternative that fits, with white space in front of the
value token, behind a final asterisk, and alone behind the `=` of an equality in
brackets left out of it. White space between the members of an operator is given to
the slot in front or behind that comes first, which the printed text does not show.
-/

namespace FreeIam.Ldap

open FreeIam.Py FreeIam.Scan FreeIam.Bracket

namespace Resolver

open Grammar hiding Comparison Value

/-! ## Values -/

/-- White space with a given text. -/
def ows (s : PyStr) : Ows := if h : All isWS s then Ows.ofText s h else none

@[simp] theorem text_ows {s : PyStr} (h : All isWS s) : Ows.text (ows s) = s := by
  rw [ows, dif_pos h, Ows.text_ofText]

theorem isValueText_dropWhile {t : PyStr} (h : isValueText t = true) :
    isValueText (t.dropWhile isWS) = true := by
  have hspaces : All isSpace (t.takeWhile isWS) := (All.takeWhile t).mono fun _ => isSpace_of_isWS
  refine isValueText_of_space_append hspaces ?_
  rwa [List.takeWhile_append_dropWhile]

/-- The value with a given text: white space in front of the token is no part of it, unless
there is nothing else. -/
def readValue (t : PyStr) (h : isValueText t = true) : Grammar.Value :=
  if hblank : t.dropWhile isWS = [] then .ofText t h
  else ⟨ows (t.takeWhile isWS), some ⟨t.dropWhile isWS, hblank, isValueText_dropWhile h⟩, none⟩

@[simp] theorem text_readValue (t : PyStr) (h : isValueText t = true) : (readValue t h).text = t := by
  unfold readValue
  split
  · exact Grammar.Value.text_ofText t h
  · show Ows.text (ows (t.takeWhile isWS)) ++ (t.dropWhile isWS ++ []) = t
    rw [text_ows (All.takeWhile t), List.append_nil, List.takeWhile_append_dropWhile]

/-- It has a token, unless it is empty. -/
theorem readValue_token {t : PyStr} {h : isValueText t = true} (hnone : (readValue t h).body = none) :
    t = [] := by
  unfold readValue at hnone
  split at hnone
  · by_contra hne
    simp [Grammar.Value.ofText, hne] at hnone
  · cases hnone

/-! ## Substrings -/

/-- A part for the characters read since the last asterisk. -/
def flush (acc : PyStr) : Option (List SubstrPart) :=
  if h : acc = [] then some []
  else if hv : isValueText acc = true then some [.value ⟨acc, h, hv⟩]
  else none

/-- The parts of a pattern. -/
def readParts : PyStr → PyStr → Option (List SubstrPart)
  | acc, [] => flush acc
  | acc, c :: s =>
    if c = '*'.toNat then
      (flush acc).bind fun p => (readParts [] s).map fun ps => p ++ .asterisk :: ps
    else readParts (acc ++ [c]) s

/-- A pattern has at least one part. -/
def readSubstrings (s : PyStr) : Option Substrings :=
  (readParts [] s).bind fun
    | [] => none
    | p :: ps => some ⟨p, ps⟩

theorem flush_sound {acc : PyStr} {ps : List SubstrPart} (h : flush acc = some ps) :
    ps.flatMap SubstrPart.text = acc := by
  rw [flush] at h
  split at h
  · rename_i hnil
    cases h
    rw [hnil]
    rfl
  · split at h
    · cases h
      simp [SubstrPart.text]
    · cases h

theorem flush_complete {acc : PyStr} (h : isValueText acc = true) : (flush acc).isSome = true := by
  rw [flush]
  split
  · rfl
  · rfl

theorem readParts_sound : ∀ (s acc : PyStr) (ps : List SubstrPart),
    readParts acc s = some ps → ps.flatMap SubstrPart.text = acc ++ s
  | [], acc, ps, h => by
    rw [readParts] at h
    rw [flush_sound h, List.append_nil]
  | c :: s, acc, ps, h => by
    rw [readParts] at h
    split at h
    · rename_i hc
      simp only [Option.bind_eq_some_iff, Option.map_eq_some_iff] at h
      obtain ⟨p, hp, qs, hqs, rfl⟩ := h
      have ih := readParts_sound s [] qs hqs
      rw [List.flatMap_append, flush_sound hp, List.flatMap_cons, ih, hc]
      rfl
    · have ih := readParts_sound s (acc ++ [c]) ps h
      simpa using ih

/-- Characters of a token are collected. -/
theorem readParts_append {t : PyStr} (ht : '*'.toNat ∉ t) (acc s : PyStr) :
    readParts acc (t ++ s) = readParts (acc ++ t) s := by
  induction t generalizing acc with
  | nil => simp
  | cons c t ih =>
    simp only [List.mem_cons, not_or] at ht
    rw [List.cons_append, readParts, if_neg (Ne.symm ht.1), ih ht.2]
    simp

theorem readParts_complete : ∀ (ps : List SubstrPart) (acc : PyStr), isValueText acc = true →
    (readParts acc (ps.flatMap SubstrPart.text)).isSome = true
  | [], acc, h => by
    rw [List.flatMap_nil, readParts]
    exact flush_complete h
  | .value tok :: ps, acc, h => by
    rw [List.flatMap_cons, SubstrPart.text,
      readParts_append (asterisk_notMem (isValueText_chars _ tok.valid))]
    exact readParts_complete ps _ (isValueText_append _ _ h tok.valid)
  | .asterisk :: ps, acc, h => by
    obtain ⟨p, hp⟩ := Option.isSome_iff_exists.mp (flush_complete h)
    obtain ⟨qs, hqs⟩ := Option.isSome_iff_exists.mp (readParts_complete ps [] rfl)
    have hshape : (SubstrPart.asterisk :: ps).flatMap SubstrPart.text
        = '*'.toNat :: ps.flatMap SubstrPart.text := rfl
    rw [hshape, readParts, if_pos rfl, hp, hqs]
    rfl

theorem readSubstrings_sound {s : PyStr} {v : Substrings} (h : readSubstrings s = some v) :
    v.text = s := by
  simp only [readSubstrings, Option.bind_eq_some_iff] at h
  obtain ⟨ps, hps, h⟩ := h
  have htext := readParts_sound s [] ps hps
  cases ps with
  | nil => cases h
  | cons p ps =>
    cases h
    simpa [Substrings.text] using htext

theorem readSubstrings_complete (v : Substrings) : (readSubstrings v.text).isSome = true := by
  have htext : v.text = (v.head :: v.tail).flatMap SubstrPart.text := by simp [Substrings.text]
  obtain ⟨ps, hps⟩ := Option.isSome_iff_exists.mp (readParts_complete (v.head :: v.tail) [] rfl)
  rw [readSubstrings, htext, hps]
  cases ps with
  | nil =>
    have hnil := readParts_sound _ _ _ hps
    rw [← htext] at hnil
    exact absurd hnil.symm v.ne_nil
  | cons p ps => rfl

/-! ## Comparisons -/

/-- The parts between the colons of an operator: one, or the dn flag and a
matching rule. -/
def readColons (opHead : PyStr) : Option (Attr ⊕ Dn × Attr) :=
  let a := (opHead.drop 1).takeWhile isAttrChar
  let b := (((opHead.drop 1).dropWhile isAttrChar).drop 1).takeWhile isAttrChar
  if h : opHead = py ":" ++ a ++ py ":" ∧ isAttr a = true then some (.inl ⟨a, h.2⟩)
  else if h : opHead = py ":" ++ a ++ py ":" ++ b ++ py ":" ∧ isDn a = true ∧ isAttr b = true then
    some (.inr (⟨a, h.2.1⟩, ⟨b, h.2.2⟩))
  else none

/-- The extensible match after an attribute: a lone part that says `dn` is the
flag. -/
def extensibleOf (attr : Attr) (v : Grammar.Value) : Attr ⊕ Dn × Attr → Grammar.Comparison
  | .inl rule =>
    if hd : isDn rule.text = true then .extmatchAttrDnNomatch attr ⟨rule.text, hd⟩ v
    else .extmatchAttrNodnMatch attr rule v
  | .inr (dn, rule) => .extmatchAttrDnMatch attr dn rule v

/-- The extensible match without an attribute. -/
def extensibleNoattrOf (v : Grammar.Value) : Attr ⊕ Dn × Attr → Grammar.Comparison
  | .inl rule => .extmatchNoattrNodnMatch rule v
  | .inr (dn, rule) => .extmatchNoattrDnMatch dn rule v

/-- The comparison with an operator without parts. -/
def readSimple (attr : Attr) (opHead : PyStr) (v : Grammar.Value) : Option Grammar.Comparison :=
  if opHead = [] then some (.equality attr v)
  else if opHead = py ">" then some (.ge attr v)
  else if opHead = py "<" then some (.le attr v)
  else if opHead = py "~" then some (.approx attr v)
  else if opHead = py ":" then some (.extmatchAttrNodnNomatch attr v)
  else none

/-- The comparison with an attribute, an operator and a value. -/
def readValued (attr opHead : PyStr) (v : Grammar.Value) : Option Grammar.Comparison :=
  if h : isAttr attr = true then
    match readColons opHead with
    | some p => some (extensibleOf ⟨attr, h⟩ v p)
    | none => readSimple ⟨attr, h⟩ opHead v
  else if attr = [] then (readColons opHead).map (extensibleNoattrOf v)
  else none

/-- The first listed comparison with an attribute, an operator and a rest. -/
def readAlternative (attr opHead rest : PyStr) : Option Grammar.Comparison :=
  if h : isValueText rest = true then readValued attr opHead (readValue rest h)
  else if h : isAttr attr = true ∧ opHead = [] then
    (readSubstrings rest).map (.substring ⟨attr, h.1⟩)
  else none

theorem readColons_sound {opHead : PyStr} : ∀ {p : Attr ⊕ Dn × Attr}, readColons opHead = some p →
    opHead = match p with
      | .inl rule => py ":" ++ rule.text ++ py ":"
      | .inr (dn, rule) => py ":" ++ dn.text ++ py ":" ++ rule.text ++ py ":" := by
  intro p h
  rw [readColons] at h
  split at h
  · rename_i ha
    cases h
    exact ha.1
  · split at h
    · rename_i ha
      cases h
      exact ha.1
    · cases h

theorem readColons_one (a : Attr) :
    readColons (py ":" ++ a.text ++ py ":") = some (.inl a) := by
  have hdrop : (py ":" ++ a.text ++ py ":").drop 1 = a.text ++ py ":" := rfl
  have hstop : Stops isAttrChar (py ":") := by decide
  rw [readColons]
  simp only [hdrop, takeWhile_append a.chars hstop]
  simp [a.valid]

theorem readColons_two (d : Dn) (b : Attr) :
    readColons (py ":" ++ d.text ++ py ":" ++ b.text ++ py ":") = some (.inr (d, b)) := by
  have hdrop : (py ":" ++ d.text ++ py ":" ++ b.text ++ py ":").drop 1
      = d.text ++ (':'.toNat :: (b.text ++ py ":")) := by simp [py]
  have hstop₁ : Stops isAttrChar (':'.toNat :: (b.text ++ py ":")) := by
    rw [stops_cons]
    decide
  have hstop₂ : Stops isAttrChar (py ":") := by decide
  have hone : ¬ (py ":" ++ d.text ++ py ":" ++ b.text ++ py ":" = py ":" ++ d.text ++ py ":" ∧
      isAttr d.text = true) := by
    intro h
    have hlen := congrArg List.length h.1
    simp [py] at hlen
  simp only [readColons, hdrop, takeWhile_append d.chars hstop₁, dropWhile_append d.chars hstop₁,
    List.drop_succ_cons, List.drop_zero, takeWhile_append b.chars hstop₂]
  rw [dif_neg hone]
  simp [d.valid, b.valid]

/-- A comparison with its three parts. -/
structure HasParts (c : Grammar.Comparison) (attr opHead rest : PyStr) : Prop where
  attr : c.attrText = attr
  opHead : c.opHead = opHead
  rest : c.rest = rest

theorem readSimple_sound {attr : Attr} {opHead : PyStr} {v : Grammar.Value}
    {c : Grammar.Comparison} (h : readSimple attr opHead v = some c) :
    HasParts c attr.text opHead v.text := by
  rw [readSimple] at h
  repeat' split at h
  all_goals
    cases h
    try exact ⟨rfl, (by assumption : opHead = _).symm, rfl⟩

theorem readValued_sound {attr opHead : PyStr} {v : Grammar.Value} {c : Grammar.Comparison}
    (h : readValued attr opHead v = some c) : HasParts c attr opHead v.text := by
  rw [readValued] at h
  split at h
  · split at h
    · rename_i p hp
      cases h
      have hcolons := readColons_sound hp
      cases p with
      | inl rule =>
        rw [extensibleOf]
        split
        · exact ⟨rfl, hcolons.symm, rfl⟩
        · exact ⟨rfl, hcolons.symm, rfl⟩
      | inr q => exact ⟨rfl, hcolons.symm, rfl⟩
    · exact readSimple_sound h
  · split at h
    · rename_i hnil
      obtain ⟨p, hp, rfl⟩ := Option.map_eq_some_iff.mp h
      have hcolons := readColons_sound hp
      cases p with
      | inl rule => exact ⟨hnil.symm, hcolons.symm, rfl⟩
      | inr q => exact ⟨hnil.symm, hcolons.symm, rfl⟩
    · cases h

theorem readAlternative_sound {attr opHead rest : PyStr} {c : Grammar.Comparison}
    (h : readAlternative attr opHead rest = some c) : HasParts c attr opHead rest := by
  rw [readAlternative] at h
  split at h
  · have hparts := readValued_sound h
    rwa [text_readValue] at hparts
  · split at h
    · rename_i ha
      obtain ⟨v, hv, rfl⟩ := Option.map_eq_some_iff.mp h
      exact ⟨rfl, ha.2.symm, readSubstrings_sound hv⟩
    · cases h

/-- A comparison with an operator without parts is read back. -/
theorem readValued_simple {attr : Attr} {opHead : PyStr} {v : Grammar.Value}
    (h : readColons opHead = none) : readValued attr.text opHead v = readSimple attr opHead v := by
  rw [readValued, dif_pos attr.valid, h]

/-- Every comparison with one assertion value is read from its parts, by an
alternative listed no later. -/
theorem readValued_complete {c : Grammar.Comparison} {cls : ComparisonClass} {w : Grammar.Value}
    (hc : c.valued = some (cls, w)) (v : Grammar.Value) :
    ∃ c', readValued c.attrText c.opHead v = some c' ∧ c'.alternative ≤ c.alternative := by
  have hempty : isAttr ([] : PyStr) ≠ true := by decide
  cases c with
  | presence attr => cases hc
  | substring attr value => cases hc
  | equality attr value => exact ⟨.equality attr v, readValued_simple rfl, Nat.le_refl _⟩
  | ge attr value => exact ⟨.ge attr v, readValued_simple rfl, Nat.le_refl _⟩
  | le attr value => exact ⟨.le attr v, readValued_simple rfl, Nat.le_refl _⟩
  | approx attr value => exact ⟨.approx attr v, readValued_simple rfl, Nat.le_refl _⟩
  | extmatchAttrNodnNomatch attr value =>
    exact ⟨.extmatchAttrNodnNomatch attr v, readValued_simple rfl, Nat.le_refl _⟩
  | extmatchNoattrDnMatch dn rule value =>
    refine ⟨.extmatchNoattrDnMatch dn rule v, ?_, Nat.le_refl _⟩
    simp only [readValued, Comparison.attrText, Comparison.opHead, dif_neg hempty, if_true,
      readColons_two]
    rfl
  | extmatchNoattrNodnMatch rule value =>
    refine ⟨.extmatchNoattrNodnMatch rule v, ?_, Nat.le_refl _⟩
    simp only [readValued, Comparison.attrText, Comparison.opHead, dif_neg hempty, if_true,
      readColons_one]
    rfl
  | extmatchAttrDnMatch attr dn rule value =>
    refine ⟨.extmatchAttrDnMatch attr dn rule v, ?_, Nat.le_refl _⟩
    simp only [readValued, Comparison.attrText, Comparison.opHead, dif_pos attr.valid,
      readColons_two]
    rfl
  | extmatchAttrDnNomatch attr dn value =>
    refine ⟨.extmatchAttrDnNomatch attr dn v, ?_, Nat.le_refl _⟩
    have hcolons : readColons (py ":" ++ dn.text ++ py ":") = some (.inl dn.toAttr) :=
      readColons_one dn.toAttr
    simp only [readValued, Comparison.attrText, Comparison.opHead, dif_pos attr.valid, hcolons]
    rw [extensibleOf, dif_pos (show isDn dn.toAttr.text = true from dn.valid)]
    rfl
  | extmatchAttrNodnMatch attr rule value =>
    refine ⟨extensibleOf attr v (.inl rule), ?_, ?_⟩
    · simp only [readValued, Comparison.attrText, Comparison.opHead, dif_pos attr.valid,
        readColons_one]
    -- a rule that spells the dn flag is read by an earlier alternative
    · rw [extensibleOf]
      split
      · exact (by decide : 8 ≤ 10)
      · exact Nat.le_refl _

/-- Every comparison is read from its parts, by an alternative listed no later,
if it is no presence match. -/
theorem readAlternative_complete (c : Grammar.Comparison) :
    ∃ c', readAlternative c.attrText c.opHead c.rest = some c' ∧
      (c.alternative ≠ 0 → c'.alternative ≤ c.alternative) := by
  cases hc : c.valued with
  | some p =>
    obtain ⟨cls, v⟩ := p
    have hvalid : isValueText c.rest = true := by
      rw [Comparison.valued_rest hc]
      exact v.valid_text
    obtain ⟨c', hread, hle⟩ := readValued_complete hc (readValue c.rest hvalid)
    exact ⟨c', by rw [readAlternative, dif_pos hvalid, hread], fun _ => hle⟩
  | none =>
    cases c with
    | presence attr =>
      obtain ⟨v, hv⟩ := Option.isSome_iff_exists.mp (readSubstrings_complete ⟨.asterisk, []⟩)
      refine ⟨.substring attr v, ?_, fun h => absurd rfl h⟩
      have hnot : ¬ isValueText (py "*") = true := by decide
      show readAlternative attr.text [] (py "*") = _
      rw [readAlternative, dif_neg hnot, dif_pos ⟨attr.valid, rfl⟩]
      exact congrArg (Option.map _) hv
    | substring attr v =>
      -- a value without an asterisk makes an equality match
      by_cases hvalid : isValueText v.text = true
      · refine ⟨.equality attr (readValue v.text hvalid), ?_, fun _ => (by decide : 1 ≤ 2)⟩
        show readAlternative attr.text [] v.text = _
        rw [readAlternative, dif_pos hvalid, readValued_simple rfl]
        rfl
      · obtain ⟨v', hv'⟩ := Option.isSome_iff_exists.mp (readSubstrings_complete v)
        refine ⟨.substring attr v', ?_, fun _ => Nat.le_refl _⟩
        show readAlternative attr.text [] v.text = _
        rw [readAlternative, dif_neg hvalid, dif_pos ⟨attr.valid, rfl⟩, hv']
        rfl
    | _ => cases hc

/-- The comparison that a text without white space in front of it is read as. -/
def resolveComparison (s : PyStr) : Option Grammar.Comparison :=
  let r := s.dropWhile isAttrChar
  match r.dropWhile isOpChar with
  | [] => none
  | _ :: rest => readAlternative (s.takeWhile isAttrChar) (r.takeWhile isOpChar) rest

/-- The parts of a text are read off it. -/
theorem resolveComparison_text (c : Grammar.Comparison) :
    resolveComparison c.text = readAlternative c.attrText c.opHead c.rest := by
  have hattr := c.stops_opHead c.rest
  have hop : Stops isOpChar ('='.toNat :: c.rest) := by
    rw [stops_cons]
    decide
  simp only [resolveComparison, c.text_eq, takeWhile_append c.attrText_chars hattr,
    dropWhile_append c.attrText_chars hattr, takeWhile_append c.opHead_chars hop,
    dropWhile_append c.opHead_chars hop]

theorem resolveComparison_sound {s : PyStr} {c : Grammar.Comparison}
    (h : resolveComparison s = some c) : c.text = s := by
  simp only [resolveComparison] at h
  split at h
  · cases h
  · rename_i d rest hdrop
    obtain ⟨hattr, hop, hrest⟩ := readAlternative_sound h
    have hd : d = '='.toNat := by
      have hstop : Stops isOpChar (d :: rest) := hdrop ▸ Stops.dropWhile _
      simpa [isOpChar] using stops_cons.mp hstop
    rw [c.text_eq, hattr, hop, hrest, ← hd, ← hdrop, List.takeWhile_append_dropWhile,
      List.takeWhile_append_dropWhile]

theorem resolveComparison_complete (c : Grammar.Comparison) :
    ∃ c', resolveComparison c.text = some c' ∧
      (c.alternative ≠ 0 → c'.alternative ≤ c.alternative) := by
  rw [resolveComparison_text]
  exact readAlternative_complete c

/-- A comparison read by the resolver is the first listed one. -/
theorem resolveComparison_firstListed {s : PyStr} {c : Grammar.Comparison}
    (h : resolveComparison s = some c) : c.FirstListed := by
  intro c' htext hne
  obtain ⟨c'', hread, hle⟩ := resolveComparison_complete c'
  rw [htext, resolveComparison_sound h, h] at hread
  cases hread
  exact hle hne

theorem readValued_value {attr opHead : PyStr} {v : Grammar.Value} {c : Grammar.Comparison}
    (h : readValued attr opHead v = some c) {cls : ComparisonClass} {w : Grammar.Value}
    (hc : c.valued = some (cls, w)) : w = v := by
  have hsimple : ∀ {a : Attr} {c : Grammar.Comparison}, readSimple a opHead v = some c →
      ∀ {cls w}, c.valued = some (cls, w) → w = v := by
    intro a c h cls w hc
    rw [readSimple] at h
    repeat' split at h
    all_goals
      cases h
      try (cases hc; rfl)
  rw [readValued] at h
  split at h
  · split at h
    · rename_i p hp
      cases h
      cases p with
      | inl rule =>
        rw [extensibleOf] at hc
        split at hc
        · cases hc
          rfl
        · cases hc
          rfl
      | inr q => cases hc; rfl
    · exact hsimple h hc
  · split at h
    · obtain ⟨p, hp, rfl⟩ := Option.map_eq_some_iff.mp h
      cases p with
      | inl rule => cases hc; rfl
      | inr q => cases hc; rfl
    · cases h

theorem resolveComparison_token {s : PyStr} {c : Grammar.Comparison}
    (h : resolveComparison s = some c) {cls : ComparisonClass} {v : Grammar.Value}
    (hc : c.valued = some (cls, v)) (hnone : v.body = none) : v.text = [] := by
  simp only [resolveComparison] at h
  split at h
  · cases h
  · rw [readAlternative] at h
    split at h
    · cases readValued_value h hc
      rw [text_readValue]
      exact readValue_token hnone
    · split at h
      · obtain ⟨w, -, rfl⟩ := Option.map_eq_some_iff.mp h
        cases hc
      · cases h

/-! ## Filters -/

/-- White space behind an asterisk, or behind the `=` of an equality and before the bracket,
is read as white space of the brackets. -/
def bracketsTake (s : PyStr) : Bool :=
  s.getLast? == some '*'.toNat || s.dropWhile isAttrChar == py "="

/-- The comparison that leaves the white space behind it to the brackets. -/
def resolveShort (s : PyStr) : Option Grammar.Comparison :=
  if bracketsTake (s.rdropWhile isWS) then resolveComparison (s.rdropWhile isWS) else none

/-- The expression with a given text between its brackets: elsewhere, the white space behind
the comparison is read as part of its value. -/
def resolveLeaf (body : PyStr) : Option Leaf :=
  let s := body.dropWhile isWS
  ((resolveShort s).map fun c => ⟨ows (body.takeWhile isWS), c, ows (s.rtakeWhile isWS)⟩).or
    ((resolveComparison s).map fun c => ⟨ows (body.takeWhile isWS), c, none⟩)

/-- The two ways to read an expression. -/
theorem resolveLeaf_cases {body : PyStr} {l : Leaf} (h : resolveLeaf body = some l) :
    (∃ c, resolveShort (body.dropWhile isWS) = some c ∧
      l = ⟨ows (body.takeWhile isWS), c, ows ((body.dropWhile isWS).rtakeWhile isWS)⟩) ∨
    (resolveShort (body.dropWhile isWS) = none ∧ ∃ c, resolveComparison (body.dropWhile isWS) = some c ∧
      l = ⟨ows (body.takeWhile isWS), c, none⟩) := by
  rcases Option.or_eq_some_iff.mp h with hshort | ⟨hnone, hlong⟩
  · obtain ⟨c, hc, rfl⟩ := Option.map_eq_some_iff.mp hshort
    exact .inl ⟨c, hc, rfl⟩
  · obtain ⟨c, hc, rfl⟩ := Option.map_eq_some_iff.mp hlong
    exact .inr ⟨Option.map_eq_none_iff.mp hnone, c, hc, rfl⟩

theorem resolveShort_spec {s : PyStr} {c : Grammar.Comparison} (h : resolveShort s = some c) :
    bracketsTake (s.rdropWhile isWS) = true ∧ resolveComparison (s.rdropWhile isWS) = some c := by
  unfold resolveShort at h
  split at h
  · exact ⟨‹_›, h⟩
  · cases h

theorem resolveLeaf_comparison {body : PyStr} {l : Leaf} (h : resolveLeaf body = some l) :
    ∃ t, resolveComparison t = some l.comparison := by
  rcases resolveLeaf_cases h with ⟨c, hc, rfl⟩ | ⟨-, c, hc, rfl⟩
  · exact ⟨_, (resolveShort_spec hc).2⟩
  · exact ⟨_, hc⟩

theorem resolveLeaf_sound {body : PyStr} {l : Leaf} (h : resolveLeaf body = some l) :
    l.text = body := by
  have hlead := text_ows (All.takeWhile (p := isWS) body)
  rcases resolveLeaf_cases h with ⟨c, hc, rfl⟩ | ⟨-, c, hc, rfl⟩
  · have htrail : All isWS ((body.dropWhile isWS).rtakeWhile isWS) := fun _ hd =>
      List.mem_rtakeWhile_imp hd
    rw [Leaf.text, hlead, resolveComparison_sound (resolveShort_spec hc).2, text_ows htrail,
      List.append_assoc, List.rdropWhile_append_rtakeWhile, List.takeWhile_append_dropWhile]
  · rw [Leaf.text, hlead, resolveComparison_sound hc]
    show _ ++ [] = body
    rw [List.append_nil, List.takeWhile_append_dropWhile]

theorem resolveLeaf_complete (l : Leaf) : (resolveLeaf l.text).isSome = true := by
  have hcore : l.comparison.rest = [] ++ l.comparison.rest ++ [] := (List.append_nil _).symm
  obtain ⟨c', hattr, hop, hrest⟩ := l.comparison.exists_margins hcore .nil .nil .nil (Ows.spaces l.trail)
  have hbody : l.text.dropWhile isWS = c'.text := by
    rw [Leaf.text, List.append_assoc,
      dropWhile_append (Ows.chars l.lead) (l.comparison.stops_text _), c'.text_eq, hattr, hop, hrest,
      l.comparison.text_eq]
    simp
  obtain ⟨c'', hread, -⟩ := resolveComparison_complete c'
  unfold resolveLeaf
  rw [Option.isSome_or, hbody, hread]
  exact Bool.or_true _

theorem cls_of_opHead {c : Grammar.Comparison} {cls : ComparisonClass} {v : Grammar.Value}
    (h : c.valued = some (cls, v)) (hop : c.opHead = []) : cls = .equalityMatch := by
  cases c with
  | equality attr w =>
    cases h
    rfl
  | presence attr => cases h
  | substring attr w => cases h
  | _ => cases hop

/-- What an equality without a value leaves to the brackets. -/
theorem resolveShort_equality (attr : Attr) {w : PyStr} (hw : All isWS w) :
    (resolveShort (attr.text ++ '='.toNat :: w)).isSome = true := by
  have htext : attr.text ++ '='.toNat :: w = (attr.text ++ py "=") ++ w := by simp [py]
  have hshort : (attr.text ++ '='.toNat :: w).rdropWhile isWS = attr.text ++ py "=" := by
    rw [htext, rdropWhile_append_of_all hw]
    exact List.rdropWhile_concat_neg isWS attr.text '='.toNat (by decide)
  have hstops : Stops isAttrChar (py "=") := by decide
  have htake : bracketsTake (attr.text ++ py "=") = true := by
    unfold bracketsTake
    rw [dropWhile_append attr.chars hstops, beq_self_eq_true, Bool.or_true]
  obtain ⟨c', hc', -⟩ := resolveComparison_complete (.equality attr ⟨none, none, none⟩)
  have hequality : (Grammar.Comparison.equality attr ⟨none, none, none⟩).text = attr.text ++ py "=" :=
    List.append_nil _
  unfold resolveShort
  rw [hshort, if_pos htake, ← hequality, hc']
  rfl

/-- White space alone behind the operator: an equality leaves it to the brackets, and every
other comparison with one assertion value takes it as its token. -/
theorem resolveLeaf_blank {l : Leaf} (h : resolveLeaf l.text = some l) {cls : ComparisonClass}
    {v : Grammar.Value} (hc : l.comparison.valued = some (cls, v))
    (hne : v.text ++ Ows.text l.trail ≠ []) (hblank : All isWS (v.text ++ Ows.text l.trail)) :
    v.body = none ↔ cls = .equalityMatch := by
  have hvblank := (all_append.mp hblank).1
  have htext := l.comparison.text_eq
  rw [Comparison.valued_rest hc] at htext
  rcases resolveLeaf_cases h with ⟨c, hshort, hl⟩ | ⟨hnone, c, hlong, hl⟩
  · obtain ⟨htake, hread⟩ := resolveShort_spec hshort
    obtain rfl : l.comparison = c := by rw [hl]
    rw [← resolveComparison_sound hread, htext] at htake
    rcases Bool.or_eq_true_iff.mp htake with hstar | hequal
    -- a comparison with one assertion value does not end with an asterisk
    · rw [← List.append_assoc, List.getLast?_append_of_ne_nil _ (List.cons_ne_nil _ _)] at hstar
      rcases List.mem_cons.mp (List.mem_of_getLast? (beq_iff_eq.mp hstar)) with heq | hvalue
      · exact absurd heq (by decide)
      · exact absurd (hvblank _ hvalue) (by decide)
    · rw [dropWhile_append l.comparison.attrText_chars (l.comparison.stops_opHead _)] at hequal
      have hequal : l.comparison.opHead ++ '='.toNat :: v.text = [] ++ '='.toNat :: [] := beq_iff_eq.mp hequal
      have hstop : ∀ t : PyStr, Stops isOpChar ('='.toNat :: t) := fun t => by
        rw [stops_cons]
        decide
      obtain ⟨hop, hvalue⟩ := append_unique l.comparison.opHead_chars .nil (hstop _) (hstop _) hequal
      have hvnil : v.text = [] := (List.cons.inj hvalue).2
      exact iff_of_true (Grammar.Value.body_eq_none hvnil) (cls_of_opHead hc hop)
  · obtain rfl : l.comparison = c := by rw [hl]
    have htrail : Ows.text l.trail = [] := by rw [hl]; rfl
    rw [htrail, List.append_nil] at hne
    refine iff_of_false (fun hbody => hne (resolveComparison_token hlong hc hbody)) ?_
    rintro rfl
    obtain ⟨attr, hattr⟩ := equality_of_valued hc
    have hbody := resolveComparison_sound hlong
    rw [hattr, Grammar.Comparison.text, List.append_assoc] at hbody
    have hsome := resolveShort_equality attr hvblank
    rw [show attr.text ++ '='.toNat :: v.text = l.text.dropWhile isWS from hbody, hnone] at hsome
    cases hsome

/-- The operator over groups; a negation has exactly one. -/
def operatorNode (op : Nat) (sep first : Ows) : Groups → Option Node
  | .cons pre n post .nil =>
    if op = '!'.toNat then some (.notOperator sep first pre n none post)
    else some (.listOperator (if op = '&'.toNat then .and else .or) sep first
      (.cons pre n post .nil) none)
  | gs =>
    if op = '!'.toNat then none
    else some (.listOperator (if op = '&'.toNat then .and else .or) sep first gs none)

mutual

/-- The node with a given layout. -/
def resolveNode : Bracket.Tree Nat → Option Node
  | .leaf body => (resolveLeaf body).map fun l => .expression l.lead l.comparison l.trail
  | .node sep op first members =>
    (resolveGroups members).bind (operatorNode op (ows sep) (ows first))

def resolveGroups : Members Nat → Option Groups
  | .nil => some .nil
  | .cons head run tail =>
    (resolveNode head).bind fun n => (resolveGroups tail).map fun gs => .cons none n (ows run) gs

end

/-- The filter with a given text. -/
def resolve (s : PyStr) : Option Start :=
  match readTree filterAlphabet s.length (s.dropWhile isWS) with
  | some (t, post) =>
    if All isWS post then (resolveNode t).map fun n => .group (ows (s.takeWhile isWS)) n (ows post)
    else none
  | none => (resolveComparison s).map .bare

theorem operatorNode_sound {op : Nat} {sep first : Ows} {gs : Groups} {n : Node}
    (hop : isOpSymbol op = true) (h : operatorNode op sep first gs = some n) :
    n.text = py "(" ++ Ows.text sep ++ [op] ++ Ows.text first ++ gs.text ++ py ")" ∧
      n.expressions = gs.expressions := by
  have hlist : ∀ gs : Groups, op ≠ '!'.toNat →
      (Node.listOperator (if op = '&'.toNat then .and else .or) sep first gs none).text
        = py "(" ++ Ows.text sep ++ [op] ++ Ows.text first ++ gs.text ++ py ")" := by
    intro gs hnot
    have hsymbol : (if op = '&'.toNat then ListOp.and else ListOp.or).symbol = op := by
      simp only [isOpSymbol, Bool.or_eq_true, beq_iff_eq] at hop
      rcases hop with (rfl | rfl) | rfl
      · rfl
      · rfl
      · exact absurd rfl hnot
    rw [Node.text, hsymbol]
    simp
  rw [operatorNode.eq_def] at h
  split at h
  · split at h
    · rename_i hnot
      cases h
      refine ⟨?_, (List.append_nil _).symm⟩
      simp [Node.text, Groups.text, hnot, py]
    · rename_i hnot
      cases h
      exact ⟨hlist _ hnot, rfl⟩
  · split at h
    · cases h
    · rename_i hnot
      cases h
      exact ⟨hlist _ hnot, rfl⟩

mutual

/-- The text of a resolved layout, and where its expressions come from. -/
theorem resolveNode_sound : ∀ (t : Bracket.Tree Nat) {n : Node}, t.WF filterAlphabet →
    resolveNode t = some n →
    n.text = t.text filterAlphabet ∧ ∀ l ∈ n.expressions, resolveLeaf l.text = some l
  | .leaf body, n, _, h => by
    obtain ⟨l, hl, rfl⟩ := Option.map_eq_some_iff.mp h
    have htext := resolveLeaf_sound hl
    refine ⟨?_, fun m hm => ?_⟩
    · rw [Node.text]
      show py "(" ++ l.text ++ py ")" = _
      rw [htext]
      simp [Bracket.Tree.text, py]
    · rw [List.mem_singleton.mp hm]
      show resolveLeaf l.text = some l
      rw [htext, hl]
  | .node sep op first members, n, hwf, h => by
    obtain ⟨hsep, hop, hfirst, hmembers⟩ := hwf
    rw [resolveNode] at h
    obtain ⟨gs, hgs, hn⟩ := Option.bind_eq_some_iff.mp h
    obtain ⟨htext, hleaves⟩ := resolveGroups_sound members hmembers hgs
    obtain ⟨hnode, hexpr⟩ := operatorNode_sound hop hn
    refine ⟨?_, hexpr ▸ hleaves⟩
    rw [hnode, htext, text_ows hsep, text_ows hfirst]
    simp [Bracket.Tree.text, py]

theorem resolveGroups_sound : ∀ (ms : Members Nat) {gs : Groups}, ms.WF filterAlphabet →
    resolveGroups ms = some gs →
    gs.text = ms.text filterAlphabet ∧ ∀ l ∈ gs.expressions, resolveLeaf l.text = some l
  | .nil, gs, _, h => by
    cases h
    exact ⟨rfl, fun _ hl => (List.not_mem_nil hl).elim⟩
  | .cons head run tail, gs, hwf, h => by
    obtain ⟨hhead, hrun, htail⟩ := hwf
    simp only [resolveGroups, Option.bind_eq_some_iff, Option.map_eq_some_iff] at h
    obtain ⟨n, hn, gs', hgs', rfl⟩ := h
    obtain ⟨htext₁, hleaves₁⟩ := resolveNode_sound head hhead hn
    obtain ⟨htext₂, hleaves₂⟩ := resolveGroups_sound tail htail hgs'
    refine ⟨?_, fun l hl => ?_⟩
    · simp [Groups.text, Members.text, htext₁, htext₂, text_ows hrun]
    · rcases List.mem_append.mp hl with hl | hl
      · exact hleaves₁ l hl
      · exact hleaves₂ l hl

end

mutual

/-- The layout of every node is resolved. -/
theorem resolveNode_complete : ∀ n : Node, (resolveNode n.layout).isSome = true
  | .expression lead c trail => by
    obtain ⟨l, hl⟩ := Option.isSome_iff_exists.mp (resolveLeaf_complete ⟨lead, c, trail⟩)
    have hl : resolveLeaf (Ows.text lead ++ c.text ++ Ows.text trail) = some l := hl
    rw [Node.layout, resolveNode, hl]
    rfl
  | .listOperator op sep lead groups trail => by
    obtain ⟨gs, hgs⟩ := Option.isSome_iff_exists.mp (resolveGroups_complete (Ows.text trail) groups)
    have hnot : op.symbol ≠ '!'.toNat := by cases op <;> decide
    rw [Node.layout, resolveNode, hgs]
    show (operatorNode op.symbol _ _ gs).isSome = true
    rw [operatorNode.eq_def]
    split <;> rw [if_neg hnot] <;> rfl
  | .notOperator sep lead pre node post trail => by
    obtain ⟨n, hn⟩ := Option.isSome_iff_exists.mp (resolveNode_complete node)
    have hgs : resolveGroups (.cons node.layout (Ows.text post ++ Ows.text trail) .nil)
        = some (.cons none n (ows (Ows.text post ++ Ows.text trail)) .nil) := by
      rw [resolveGroups, hn]
      rfl
    rw [Node.layout, resolveNode, hgs]
    rfl

theorem resolveGroups_complete (trail : PyStr) : ∀ gs : Groups,
    (resolveGroups (gs.layout trail)).isSome = true
  | .nil => rfl
  | .cons pre node post rest => by
    obtain ⟨n, hn⟩ := Option.isSome_iff_exists.mp (resolveNode_complete node)
    obtain ⟨gs, hgs⟩ := Option.isSome_iff_exists.mp (resolveGroups_complete trail rest)
    rw [Groups.layout, resolveGroups, hn, hgs]
    rfl

end

/-- The cases of a resolved filter. -/
theorem resolve_cases {s : PyStr} {d : Start} (h : resolve s = some d) :
    (∃ t post n, t.text filterAlphabet ++ post = s.dropWhile isWS ∧ t.WF filterAlphabet ∧
      All isWS post ∧ resolveNode t = some n ∧ d = .group (ows (s.takeWhile isWS)) n (ows post)) ∨
    (∃ c, resolveComparison s = some c ∧ d = .bare c) := by
  rw [resolve] at h
  split at h
  · rename_i t post hread
    left
    obtain ⟨hwf, htext⟩ := readTree_sound _ _ _ _ hread
    split at h
    · rename_i hpost
      obtain ⟨n, hn, rfl⟩ := Option.map_eq_some_iff.mp h
      exact ⟨t, post, n, htext, hwf, hpost, hn, rfl⟩
    · cases h
  · right
    obtain ⟨c, hc, rfl⟩ := Option.map_eq_some_iff.mp h
    exact ⟨c, hc, rfl⟩

theorem resolve_sound (s : PyStr) (d : Start) (h : resolve s = some d) : d.text = s := by
  rcases resolve_cases h with ⟨t, post, n, htext, hwf, hpost, hn, rfl⟩ | ⟨c, hc, rfl⟩
  · rw [Start.text, (resolveNode_sound t hwf hn).1, text_ows (All.takeWhile s), text_ows hpost,
      List.append_assoc, htext, List.takeWhile_append_dropWhile]
  · exact resolveComparison_sound hc

theorem resolve_complete (d : Start) : (resolve d.text).isSome = true := by
  cases d with
  | group pre n post =>
    have hdrop : (Start.group pre n post).text.dropWhile isWS = n.text ++ Ows.text post := by
      rw [Start.text, List.append_assoc, dropWhile_append (Ows.chars pre) (n.stops_text _)]
    have hsize : n.layout.size ≤ (Start.group pre n post).text.length := by
      have := n.layout.size_lt_length (A := filterAlphabet)
      rw [n.text_layout] at this
      simp only [Start.text, List.length_append]
      omega
    have hread := readTree_text n.layout n.layout_wf _ hsize (Ows.text post)
    rw [n.text_layout] at hread
    obtain ⟨n', hn'⟩ := Option.isSome_iff_exists.mp (resolveNode_complete n)
    rw [resolve, hdrop, hread]
    simp only [if_pos (Ows.chars post), hn']
    rfl
  | bare c =>
    show (resolve c.text).isSome = true
    obtain ⟨c', hc', -⟩ := resolveComparison_complete c
    cases hread : readTree filterAlphabet c.text.length (c.text.dropWhile isWS) with
    | none =>
      rw [resolve, hread]
      simp only [hc']
      rfl
    | some p =>
      -- a tree begins with a bracket, and a comparison has none
      obtain ⟨t, post⟩ := p
      obtain ⟨-, htext⟩ := readTree_sound _ _ _ _ hread
      obtain ⟨r, hr⟩ := t.text_eq_cons (A := filterAlphabet)
      have hmem : '('.toNat ∈ c.text := by
        rw [← List.takeWhile_append_dropWhile (p := isWS) (l := c.text), ← htext, hr]
        simp
      exact absurd (c.isPlain_text _ hmem) (by decide)

end Resolver

open Resolver

/-- A parser for the grammar. -/
def resolver : LarkParser where
  parse := resolve
  sound := resolve_sound
  complete := resolve_complete

/-- Where the comparisons of a resolved filter come from. -/
theorem resolver_comparison {s : PyStr} {d : Grammar.Start} (h : resolver.parse s = some d)
    {c : Grammar.Comparison} (hc : c ∈ d.comparisons) : ∃ t, resolveComparison t = some c := by
  rcases resolve_cases h with ⟨t, post, n, -, hwf, -, hn, rfl⟩ | ⟨c', hc', rfl⟩
  · obtain ⟨l, hl, rfl⟩ := List.mem_map.mp hc
    exact resolveLeaf_comparison ((resolveNode_sound t hwf hn).2 l hl)
  · rw [List.mem_singleton.mp hc]
    exact ⟨s, hc'⟩

theorem resolver_firstListed : resolver.FirstListed := fun _ _ h _ hc => by
  obtain ⟨t, ht⟩ := resolver_comparison h hc
  exact resolveComparison_firstListed ht

theorem resolver_tokenFirst : resolver.TokenFirst := fun _ _ h _ hc _ _ hv hnone => by
  obtain ⟨t, ht⟩ := resolver_comparison h hc
  exact resolveComparison_token ht hv hnone

/-- Where the expressions of a resolved filter come from. -/
theorem resolver_expression {s : PyStr} {d : Grammar.Start} (h : resolver.parse s = some d)
    {l : Grammar.Leaf} (hl : l ∈ d.expressions) : resolveLeaf l.text = some l := by
  rcases resolve_cases h with ⟨t, post, n, -, hwf, -, hn, rfl⟩ | ⟨c, hc, rfl⟩
  · exact (resolveNode_sound t hwf hn).2 l hl
  · exact (List.not_mem_nil hl).elim

theorem resolver_spanResolved : resolver.SpanResolved := by
  intro s s' d d' h h' l hl l' hl' htext
  have h₁ := resolver_expression h hl
  rw [htext, resolver_expression h' hl'] at h₁
  exact (Option.some.inj h₁).symm

theorem resolver_blankResolved : resolver.BlankResolved := fun _ _ h _ hl _ _ hc hne hblank =>
  resolveLeaf_blank (resolver_expression h hl) hc hne hblank

end FreeIam.Ldap
