import FreeIam.Ldap.Filter.Parser

/-!
# What the transformer accepts

The transformer raises on two adjacent asterisks, on `:dn:=` without an
attribute, on a value token that is nothing but white space, and on white space in
the slots of `_group` next to a negated filter or the whole filter. The first
two are visible in the reading of a comparison; the last two depend on the
slots that a derivation puts white space into. Where white space alone stands
behind an operator, Lark's choice decides: `LeafAcceptable` texts are accepted
whatever it is, `LeafAccepted` ones as it is.
-/

namespace FreeIam.Ldap

open FreeIam.Py FreeIam.Scan FreeIam.Bracket

/-- `:dn:=` in any case, without an attribute. -/
def Reading.dnAsRule (r : Reading) : Bool :=
  r.attr == [] && r.extensible.1 == [] && Grammar.isDn r.extensible.2

/-- Neither of the two explicit checks raises. -/
structure Reading.Acceptable (r : Reading) : Prop where
  stars : contains (py "**") r.value = false
  rule : r.dnAsRule = false

/-- The `value` callback raises exactly on texts that are nothing but white
space: `partition` refuses the empty separator. -/
theorem Transformer.value_isOk_iff (ld tr : Option PyStr) (val : PyStr) :
    (∃ s, Transformer.value ld val tr = .ok s) ↔ strip val ≠ [] ∨ val = [] := by
  constructor
  · rintro ⟨s, hs⟩
    rcases Transformer.value_cases hs with ⟨hstrip, -⟩ | ⟨a, b, -, -, -, hne, -⟩
    · by_cases hval : val = []
      · exact .inr hval
      · rw [hstrip]
        exact .inl hval
    · exact .inl hne
  · intro h
    by_cases hstrip : strip val = val
    · exact ⟨_, Transformer.value_of_strip ld tr hstrip⟩
    · have hne : strip val ≠ [] := by
        rcases h with h | rfl
        · exact h
        · exact absurd strip_nil hstrip
      obtain ⟨a, b, hval, ha, -⟩ := strip_decompose isSpace val
      refine ⟨⟨strip val, some (orStr ld a), some (orStr tr b)⟩, ?_⟩
      rw [Transformer.value, if_pos (Ne.symm hstrip), partition_strip hval ha hne]

namespace Grammar

/-! ## Comparisons -/

theorem Comparison.dnAsRule_reading (c : Grammar.Comparison) :
    c.reading.dnAsRule = c.dnAsRule := by
  cases c with
  | extmatchNoattrDnMatch dn rule value =>
    simp only [Reading.dnAsRule, reading, opHead,
      Reading.extensible_two dn.chars rule.chars rule.ne_nil]
    simp [dnAsRule, dn.ne_nil]
  | extmatchNoattrNodnMatch rule value =>
    simp only [Reading.dnAsRule, reading, opHead, Reading.extensible_one rule.chars]
    simp [attrText, dnAsRule]
  | _ attr => simp [Reading.dnAsRule, reading, attrText, dnAsRule, attr.ne_nil]

theorem contains_strip (s : PyStr) : contains (py "**") (strip s) = contains (py "**") s := by
  have h : py "**" <:+: strip s ↔ py "**" <:+: s :=
    infix_strip_iff (p := isSpace) (x := '*'.toNat) (m := []) (y := '*'.toNat) (by decide)
      (by decide)
  simp [contains, h]

/-- A value is accepted unless its token is nothing but white space. -/
theorem Value.transform_isOk_iff (v : Grammar.Value) :
    (∃ s, v.transform = .ok s) ↔ strip v.text ≠ [] ∨ v.body = none := by
  rw [Value.transform, Transformer.value_isOk_iff, v.strip_text]
  cases v.body with
  | none => simp
  | some tok => simp [tok.nonempty]

/-- The comparison has a value without a token. -/
def Comparison.valueless (c : Grammar.Comparison) : Bool :=
  match c.valued with
  | some (_, v) => v.body.isNone
  | none => false

/-- A value token stands for its text: the value of a comparison with one
assertion value has no asterisks. -/
theorem Comparison.valued_stars {c : Grammar.Comparison} {cls : ComparisonClass}
    {v : Grammar.Value} (h : c.valued = some (cls, v)) :
    contains (py "**") c.reading.value = false := by
  have hnot : '*'.toNat ∉ c.reading.value := fun hmem => by
    have hmem : '*'.toNat ∈ strip c.rest := hmem
    rw [valued_rest h] at hmem
    exact asterisk_notMem v.chars (mem_of_mem_strip hmem)
  simp only [contains, decide_eq_false_iff_not]
  exact fun hin => hnot (hin.subset List.mem_cons_self)

/-- Which derived comparisons the transformer accepts. -/
theorem Comparison.transform_isOk_iff (c : Grammar.Comparison) :
    (∃ cmp, c.transform = .ok cmp) ↔
      c.reading.Acceptable ∧ (c.reading.value ≠ [] ∨ c.valueless = true) := by
  cases hc : c.valued with
  | some p =>
    obtain ⟨cls, v⟩ := p
    have hvalueless : c.valueless = v.body.isNone := by rw [valueless, hc]
    have hvalue : c.reading.value = strip v.text := by
      show strip c.rest = _
      rw [valued_rest hc]
    constructor
    · rintro ⟨cmp, h⟩
      rcases transform_cases h with ⟨-, hstar, -⟩ | ⟨attr, w, s, rfl, -, -, -⟩ |
        ⟨cls', v', s, hc', hdn, hv, -⟩
      · exact absurd hstar (valued_notMem hc)
      · cases hc
      · rw [hc] at hc'
        cases hc'
        refine ⟨⟨valued_stars hc, by rw [dnAsRule_reading, hdn]⟩, ?_⟩
        rw [hvalue, hvalueless, Option.isNone_iff_eq_none]
        exact v.transform_isOk_iff.mp ⟨s, hv⟩
    · rintro ⟨⟨-, hrule⟩, hval⟩
      rw [hvalue, hvalueless, Option.isNone_iff_eq_none] at hval
      obtain ⟨s, hs⟩ := v.transform_isOk_iff.mpr hval
      rw [dnAsRule_reading] at hrule
      exact ⟨_, by rw [c.transform_valued hc hrule, hs]; rfl⟩
  | none =>
    have hvalueless : c.valueless = false := by rw [valueless, hc]
    have hrule : c.reading.dnAsRule = false := by
      rw [dnAsRule_reading]
      cases c <;> first | rfl | cases hc
    cases c with
    | presence attr =>
      have hnil : Transformer.value none [] none = .ok ⟨[], none, none⟩ :=
        Transformer.value_of_strip none none strip_nil
      refine ⟨fun _ => ⟨⟨(by decide : contains (py "**") (strip (py "*")) = false), hrule⟩,
        .inl (by decide : strip (py "*") ≠ [])⟩, fun _ => ?_⟩
      exact ⟨_, by rw [Comparison.transform, Transformer.presence, hnil]; rfl⟩
    | substring attr v =>
      have hstars : contains (py "**") (Comparison.substring attr v).reading.value
          = contains (py "**") v.text := contains_strip v.text
      constructor
      · rintro ⟨cmp, h⟩
        simp only [Comparison.transform, Transformer.substrings] at h
        split at h
        · cases h
        · rename_i hno
          refine ⟨⟨by rw [hstars]; simpa using hno, hrule⟩, .inl ?_⟩
          change Transformer.substring attr.text v.text = .ok cmp at h
          show strip v.text ≠ []
          rw [Transformer.substring] at h
          cases hv : Transformer.value none v.text none with
          | error e => rw [hv] at h; cases h
          | ok s =>
            rcases (Transformer.value_isOk_iff none none v.text).mp ⟨s, hv⟩ with hne | hnil
            · exact hne
            · exact absurd hnil v.ne_nil
      · rintro ⟨⟨hno, -⟩, hval⟩
        rw [hstars] at hno
        have hval : strip v.text ≠ [] := by
          rw [hvalueless] at hval
          exact hval.resolve_right Bool.false_ne_true
        obtain ⟨s, hs⟩ := (Transformer.value_isOk_iff none none v.text).mpr (.inl hval)
        have hsub : (Comparison.substring attr v).transform
            = Transformer.substring attr.text v.text := by
          simp [Comparison.transform, Transformer.substrings, hno]
          rfl
        rw [hsub, Transformer.substring, hs]
        -- a lone asterisk is passed on to the presence callback
        by_cases hstar : s.text = py "*"
        · have hone : Transformer.value none (py "*") none = .ok ⟨py "*", none, none⟩ :=
            Transformer.value_of_strip none none (by decide)
          refine ⟨Transformer.applyPrefix ⟨py "*", none, none⟩
            (.init .presenceMatch attr.text [] true), ?_⟩
          show (if s.text = py "*" then _ else _) = _
          rw [if_pos hstar, hstar, Transformer.presence, hone]
          rfl
        · refine ⟨Transformer.comparisonOf .substringMatch attr.text s, ?_⟩
          show (if s.text = py "*" then _ else _) = _
          rw [if_neg hstar]
          rfl
    | _ => cases hc

/-- A comparison whose text ends with its operator has no value token. -/
theorem Comparison.valueless_of_rest {c : Grammar.Comparison} (h : c.rest = []) :
    c.valueless = true := by
  have hvalue (v : Grammar.Value) (hv : v.text = []) : v.body.isNone = true := by
    rw [Value.body_eq_none hv]
    rfl
  cases c with
  | presence attr => cases h
  | substring attr v => exact absurd h v.ne_nil
  | _ => exact hvalue _ h

end Grammar

/-- The text of a leaf is acceptable as it stands: it passes the two explicit
checks, and after its first `=` comes more than white space, or nothing. -/
structure LeafAcceptable (body : PyStr) : Prop where
  reading : (readComparison body).Acceptable
  value : (readComparison body).value ≠ [] ∨ readRest body = []

namespace Grammar

theorem Leaf.reading_text (l : Leaf) : readComparison l.text = l.comparison.reading :=
  l.comparison.readComparison_text l.lead l.trail

/-- Every derivation of an acceptable leaf is accepted. -/
theorem Leaf.transform_isOk {l : Leaf} (h : LeafAcceptable l.text) :
    ∃ cmp, l.comparison.transform = .ok cmp := by
  obtain ⟨hreading, hvalue⟩ := h
  rw [l.reading_text] at hreading hvalue
  refine l.comparison.transform_isOk_iff.mpr ⟨hreading, hvalue.imp_right fun hrest => ?_⟩
  have hrest : l.comparison.rest ++ Ows.text l.trail = [] := by
    rw [← l.comparison.readRest_text l.lead l.trail]
    exact hrest
  exact Comparison.valueless_of_rest (List.append_eq_nil_iff.mp hrest).1

/-! ## White space alone behind an operator -/

end Grammar

/-- The text of an equality with nothing but white space of the grammar behind its `=`. -/
def BlankEquality (body : PyStr) : Prop :=
  (readComparison body).op = py "=" ∧ All Grammar.isWS (readRest body)

/-- The text of a leaf is accepted as Lark reads it: what is white space only is the value
of an equality. -/
structure LeafAccepted (body : PyStr) : Prop where
  reading : (readComparison body).Acceptable
  value : (readComparison body).value ≠ [] ∨ readRest body = [] ∨ BlankEquality body

namespace Grammar

theorem Leaf.readRest_text (l : Leaf) : readRest l.text = l.comparison.rest ++ Ows.text l.trail :=
  l.comparison.readRest_text l.lead l.trail

theorem Value.chars_of_body {v : Grammar.Value} (h : v.body = none) : All isWS v.text := by
  rw [Value.text, h]
  exact all_append.mpr ⟨Ows.chars v.lead, all_append.mpr ⟨.nil, Ows.chars v.trail⟩⟩

/-- Without a value token there is only white space of the grammar behind the operator. -/
theorem Leaf.blank_of_valueless {l : Leaf} (h : l.comparison.valueless = true) :
    All isWS (readRest l.text) := by
  rw [l.readRest_text]
  cases hc : l.comparison.valued with
  | none =>
    rw [Comparison.valueless, hc] at h
    cases h
  | some p =>
    rw [Comparison.valueless, hc] at h
    rw [Comparison.valued_rest hc]
    exact all_append.mpr ⟨Value.chars_of_body (Option.isNone_iff_eq_none.mp h), Ows.chars l.trail⟩

/-- An equality with white space alone has no value token. -/
theorem Leaf.valueless_of_blank {lark : LarkParser} (hfirst : lark.FirstListed)
    (hblank : lark.BlankResolved) {s : PyStr} {d : Start} (hparse : lark.parse s = some d) {l : Leaf}
    (hl : l ∈ d.expressions) (h : BlankEquality l.text) : l.comparison.valueless = true := by
  obtain ⟨hop, hspace⟩ := h
  rw [l.reading_text] at hop
  rw [l.readRest_text] at hspace
  have hhead : l.comparison.opHead ++ py "=" = py "=" := hop
  have hcomparison : l.comparison ∈ d.comparisons := by
    cases d with
    | group pre n post => exact List.mem_map_of_mem hl
    | bare c => exact (List.not_mem_nil hl).elim
  have hlisted := hfirst s d hparse _ hcomparison
  cases hc : l.comparison with
  | equality attr v =>
    have hvalued : l.comparison.valued = some (.equalityMatch, v) := by rw [hc]; rfl
    rw [Comparison.valued_rest hvalued] at hspace
    have hbody : v.body = none := by
      by_cases hnil : v.text ++ Ows.text l.trail = []
      · exact Value.body_eq_none (List.append_eq_nil_iff.mp hnil).1
      · exact (hblank s d hparse l hl _ v hvalued hnil hspace).mpr rfl
    rw [Comparison.valueless]
    exact Option.isNone_iff_eq_none.mpr hbody
  | presence attr =>
    rw [hc] at hspace
    exact absurd (hspace '*'.toNat (List.mem_append_left _ (List.mem_singleton_self _))) (by decide)
  | substring attr v =>
    -- a first listed substring has an asterisk
    rw [hc] at hlisted hspace
    exact absurd (hspace _ (List.mem_append_left _ hlisted.asterisk_mem)) (by decide)
  | _ =>
    rw [hc] at hhead
    have hlength := congrArg List.length hhead
    simp [Comparison.opHead, py] at hlength

/-- Which leaves of a parse are accepted. -/
theorem Leaf.transform_isOk_iff {lark : LarkParser} (hfirst : lark.FirstListed)
    (hblank : lark.BlankResolved) {s : PyStr} {d : Start} (hparse : lark.parse s = some d) {l : Leaf}
    (hl : l ∈ d.expressions) : (∃ cmp, l.comparison.transform = .ok cmp) ↔ LeafAccepted l.text := by
  rw [l.comparison.transform_isOk_iff]
  constructor
  · rintro ⟨hreading, hvalue⟩
    rw [← l.reading_text] at hreading hvalue
    refine ⟨hreading, hvalue.imp_right fun hvalueless => ?_⟩
    have hspace := l.blank_of_valueless hvalueless
    cases hc : l.comparison.valued with
    | none =>
      rw [Comparison.valueless, hc] at hvalueless
      cases hvalueless
    | some p =>
      obtain ⟨cls, v⟩ := p
      rw [Comparison.valueless, hc] at hvalueless
      have hbody := Option.isNone_iff_eq_none.mp hvalueless
      have hrest : readRest l.text = v.text ++ Ows.text l.trail := by
        rw [l.readRest_text, Comparison.valued_rest hc]
      by_cases hnil : v.text ++ Ows.text l.trail = []
      · exact .inl (hrest.trans hnil)
      · obtain rfl := (hblank s d hparse l hl cls v hc hnil (hrest ▸ hspace)).mp hbody
        refine .inr ⟨?_, hspace⟩
        rw [l.reading_text]
        obtain ⟨attr, heq⟩ := equality_of_valued hc
        rw [heq]
        rfl
  · rintro ⟨hreading, hvalue⟩
    rw [l.reading_text] at hreading
    refine ⟨hreading, ?_⟩
    rcases hvalue with hne | hnil | hequality
    · rw [l.reading_text] at hne
      exact .inl hne
    · rw [l.readRest_text] at hnil
      exact .inr (Comparison.valueless_of_rest (List.append_eq_nil_iff.mp hnil).1)
    · exact .inr (l.valueless_of_blank hfirst hblank hparse hl hequality)

/-! ## Operators -/

/-- No white space stands around a negated filter. -/
abbrev NotTight (t : Bracket.Tree Nat) : Prop := t.TightAt (· = '!'.toNat)

mutual

/-- A node is accepted when its comparisons are and no white space stands
around a negated filter. -/
theorem Node.transform_isOk : ∀ n : Node, NotTight n.layout →
    (∀ c ∈ n.comparisons, ∃ cmp, c.transform = .ok cmp) → ∃ e, n.transform = .ok e
  | .expression lead c trail, _, hc => by
    obtain ⟨cmp, hcmp⟩ := hc c (List.mem_singleton.mpr rfl)
    exact ⟨_, by rw [Node.transform, hcmp]; rfl⟩
  | .listOperator op sep lead groups trail, htight, hc => by
    obtain ⟨es, hes⟩ := groups.transform_isOk htight.2 hc
    exact ⟨_, by rw [Node.transform, hes]; rfl⟩
  | .notOperator sep lead pre node post trail, htight, hc => by
    obtain ⟨hruns, hnode, -⟩ := htight
    obtain ⟨hfirst, hrun, -⟩ := hruns rfl
    obtain ⟨e, he⟩ := node.transform_isOk hnode hc
    have hpre : pre = none := Ows.text_eq_nil.mp (List.append_eq_nil_iff.mp hfirst).2
    have hpost : post = none := Ows.text_eq_nil.mp (List.append_eq_nil_iff.mp hrun).1
    exact ⟨_, by rw [Node.transform, he, hpre, hpost]; rfl⟩

theorem Groups.transform_isOk {trail : PyStr} : ∀ gs : Groups,
    (gs.layout trail).TightAt (· = '!'.toNat) →
    (∀ c ∈ gs.comparisons, ∃ cmp, c.transform = .ok cmp) → ∃ es, gs.transform = .ok es
  | .nil, _, _ => ⟨.nil, rfl⟩
  | .cons pre node post rest, htight, hc => by
    obtain ⟨e, he⟩ := node.transform_isOk htight.1 fun c hmem => hc c (by simp [hmem])
    obtain ⟨es, hes⟩ := rest.transform_isOk htight.2 fun c hmem => hc c (by simp [hmem])
    exact ⟨_, by rw [Groups.transform, he, hes]; rfl⟩

end

/-- Every derivation of a text with tight negations is accepted, if its leaves
are. -/
theorem Node.transform_of_text {n : Node} (htight : NotTight n.layout) {d : Start}
    (h : d.text = n.text)
    (hleaf : ∀ l ∈ d.expressions, l.text ∈ n.layout.leaves →
      ∃ cmp, l.comparison.transform = .ok cmp) : ∃ e, d.transform = .ok e := by
  cases d with
  | bare c => exact absurd (by simpa [Start.text] using h) (c.text_ne_group none n [])
  | group pre n' post =>
    have htext : Ows.text pre ++ n'.text ++ Ows.text post = Ows.text none ++ n.text ++ [] := by
      simpa [Start.text] using h
    obtain ⟨hpre, hlayout, hpost⟩ := Node.layout_unique htext
    have hpre : pre = none := Ows.text_eq_nil.mp hpre
    have hpost : post = none := Ows.text_eq_nil.mp hpost
    obtain ⟨e, he⟩ := n'.transform_isOk (hlayout ▸ htight) fun c hc => by
      obtain ⟨l, hl, rfl⟩ := List.mem_map.mp hc
      refine hleaf l hl ?_
      rw [← hlayout, n'.leaves_layout]
      exact List.mem_map.mpr ⟨l, hl, rfl⟩
    exact ⟨_, by rw [Start.transform, he, hpre, hpost]; rfl⟩

/-- A comparison whose value begins and ends the text after its operator is
acceptable as a leaf of its own. -/
theorem Comparison.leafAcceptable_text {c : Grammar.Comparison} (h : c.reading.Acceptable)
    (hvalue : c.reading.value ≠ [] ∨ c.rest = []) : LeafAcceptable c.text := by
  have hread : readComparison c.text = c.reading := by
    simpa using c.readComparison_text none none
  have hrest : readRest c.text = c.rest := by
    simpa using c.readRest_text none none
  exact ⟨hread ▸ h, by rw [hread, hrest]; exact hvalue⟩

/-! ## Derivations without optional white space -/

section

variable {β : Type} {P : PyStr → Prop} {g : Reading → β}

/-- A node that derives a text, with its outline, with no white space for the transformer
to refuse, and with a property of its leaves. -/
structure Derives (P : PyStr → Prop) (g : Reading → β) (s : PyStr) (o : Outline β) (n : Node) :
    Prop where
  text : n.text = s
  outline : n.outline g = o
  tight : NotTight n.layout
  leaves : ∀ body ∈ n.layout.leaves, P body

/-- The same of the members of an operator. -/
structure DerivesGroups (P : PyStr → Prop) (g : Reading → β) (s : PyStr) (os : List (Outline β))
    (gs : Groups) : Prop where
  text : gs.text = s
  outline : gs.outline g = os
  tight : (gs.layout []).TightAt (· = '!'.toNat)
  leaves : ∀ body ∈ (gs.layout []).leaves, P body

theorem Derives.leaf {c : Grammar.Comparison} (h : P c.text) :
    Derives P g (py "(" ++ c.text ++ py ")") (.leaf (g c.reading)) (.expression none c none) where
  text := by simp [Node.text]
  outline := rfl
  tight := trivial
  leaves := by
    intro body hbody
    rw [List.mem_singleton.mp hbody]
    simpa using h

theorem Derives.not {s : PyStr} {o : Outline β} {n : Node} (h : Derives P g s o n) :
    Derives P g (py "(!" ++ s ++ py ")") (.operator .not [o])
      (.notOperator none none none n none none) where
  text := by simp [Node.text, h.text, py]
  outline := by rw [Node.outline, h.outline]
  tight := ⟨fun _ => ⟨rfl, rfl, trivial⟩, h.tight, trivial⟩
  leaves := by
    intro body hbody
    exact h.leaves body (by simpa [Node.layout, Bracket.Tree.leaves, Members.leaves] using hbody)

theorem DerivesGroups.operator {s : PyStr} {os : List (Outline β)} {gs : Groups} (op : ListOp)
    (h : DerivesGroups P g s os gs) :
    Derives P g (py "(" ++ [op.symbol] ++ s ++ py ")") (.operator op.operator os)
      (.listOperator op none none gs none) where
  text := by simp [Node.text, h.text]
  outline := by rw [Node.outline, h.outline]
  tight := by
    refine ⟨fun hnot => ?_, h.tight⟩
    cases op <;> cases hnot
  leaves := h.leaves

theorem DerivesGroups.nil : DerivesGroups P g [] [] .nil where
  text := rfl
  outline := rfl
  tight := trivial
  leaves := fun _ hbody => (List.not_mem_nil hbody).elim

theorem DerivesGroups.cons {s t : PyStr} {o : Outline β} {os : List (Outline β)} {n : Node}
    {gs : Groups} (h : Derives P g s o n) (hs : DerivesGroups P g t os gs) :
    DerivesGroups P g (s ++ t) (o :: os) (.cons none n none gs) where
  text := by simp [Groups.text, h.text, hs.text]
  outline := by rw [Groups.outline, h.outline, hs.outline]
  tight := ⟨h.tight, hs.tight⟩
  leaves := by
    intro body hbody
    rcases List.mem_append.mp hbody with hbody | hbody
    · exact h.leaves body hbody
    · exact hs.leaves body hbody

/-- Every derivation of such a text is accepted. -/
theorem Derives.transform_isOk {s : PyStr} {o : Outline β} {n : Node}
    (h : Derives LeafAcceptable g s o n)
    {d : Start} (hd : d.text = s) : ∃ e, d.transform = .ok e :=
  Node.transform_of_text h.tight (hd.trans h.text.symm) fun _ _ hmem =>
    Leaf.transform_isOk (h.leaves _ hmem)

/-- The derivation that Lark finds of a text with accepted leaves is accepted. -/
theorem Derives.transform_isOk_of_parse {lark : LarkParser} (hfirst : lark.FirstListed)
    (hblank : lark.BlankResolved) {s : PyStr} {o : Outline β} {n : Node}
    (h : Derives LeafAccepted g s o n) {d : Start} (hparse : lark.parse s = some d) (hd : d.text = s) :
    ∃ e, d.transform = .ok e :=
  Node.transform_of_text h.tight (hd.trans h.text.symm) fun _ hl hmem =>
    (Leaf.transform_isOk_iff hfirst hblank hparse hl).mpr (h.leaves _ hmem)

end

end Grammar

end FreeIam.Ldap
