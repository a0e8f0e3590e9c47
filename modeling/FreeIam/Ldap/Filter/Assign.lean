import FreeIam.Ldap.Filter.Reprint
import FreeIam.Ldap.Filter.Unescape

/-!
# Assigned values

The setter of `Comparison.value` stores what it is given as the raw value, while a
parsed comparison stays marked as escaped: a value that needs an escape is printed
without one.
-/

namespace FreeIam.Ldap

open FreeIam.Py FreeIam.Scan FreeIam.Bracket

open Grammar (isPlainChar isValueText)

/-! ## One leaf of a tree -/

mutual

/-- The tree after `leaf.value = v` for the comparison at a position among its
leaves. -/
def Expression.assign (v : PyStr) : Expression → Nat → Expression
  | .comparison c, 0 => .comparison (c.setValue v)
  | .comparison c, _ + 1 => .comparison c
  | .container cls es sep, i => .container cls (es.assign v i) sep

def Expressions.assign (v : PyStr) : Expressions → Nat → Expressions
  | .nil, _ => .nil
  | .token t rest, i => .token t (rest.assign v i)
  | .cons e rest, i =>
    if i < e.leaves.length then .cons (e.assign v i) rest
    else .cons e (rest.assign v (i - e.leaves.length))

end

/-- The filter object after `leaf.value = v`. -/
def Filter.assign (f : Filter) (i : Nat) (v : PyStr) : Filter := { f with ast := f.ast.assign v i }

theorem modify_append {α : Type} (f : α → α) (l r : List α) (i : Nat) :
    (l ++ r).modify i f = if i < l.length then l.modify i f ++ r
      else l ++ r.modify (i - l.length) f := by
  induction l generalizing i with
  | nil => simp
  | cons a l ih =>
    cases i with
    | zero => simp
    | succ i =>
      rw [List.cons_append, List.modify_succ_cons, ih, List.modify_succ_cons, List.length_cons,
        Nat.add_sub_add_right]
      by_cases hi : i < l.length
      · rw [if_pos hi, if_pos (by omega), List.cons_append]
      · rw [if_neg hi, if_neg (by omega), List.cons_append]

section

variable (v : PyStr)

mutual

theorem Expression.leaves_assign : ∀ (e : Expression) (i : Nat),
    (e.assign v i).leaves = e.leaves.modify i (·.setValue v)
  | .comparison _, 0 => rfl
  | .comparison c, i + 1 => by
    rw [Expression.assign, Expression.leaves, List.modify_succ_cons, List.modify_nil]
  | .container _ es _, i => es.leaves_assign i

theorem Expressions.leaves_assign : ∀ (es : Expressions) (i : Nat),
    (es.assign v i).leaves = es.leaves.modify i (·.setValue v)
  | .nil, _ => (List.modify_nil _ _).symm
  | .token _ rest, i => rest.leaves_assign i
  | .cons e rest, i => by
    rw [Expressions.assign, Expressions.leaves, modify_append]
    split
    · rw [Expressions.leaves, e.leaves_assign i]
    · rw [Expressions.leaves, rest.leaves_assign]

end

theorem Expressions.count_assign : ∀ (es : Expressions) (i : Nat),
    (es.assign v i).count = es.count
  | .nil, _ => rfl
  | .token _ rest, i => rest.count_assign i
  | .cons e rest, i => by
    rw [Expressions.assign]
    split
    · rfl
    · exact congrArg (· + 1) (rest.count_assign _)

mutual

theorem Expression.regular_assign : ∀ (e : Expression) (i : Nat), e.Regular →
    (e.assign v i).Regular
  | .comparison _, 0, _ => trivial
  | .comparison _, _ + 1, _ => trivial
  | .container (.operator _) es _, i, h =>
    ⟨h.1, fun hop => (es.count_assign v i).trans (h.2.1 hop), es.regular_assign i h.2.2⟩

theorem Expressions.regular_assign : ∀ (es : Expressions) (i : Nat), es.Regular →
    (es.assign v i).Regular
  | .nil, _, _ => trivial
  | .token _ rest, i, h => ⟨h.1, rest.regular_assign i h.2⟩
  | .cons e rest, i, h => by
    rw [Expressions.assign]
    split
    · exact ⟨e.regular_assign i h.1, h.2⟩
    · exact ⟨h.1, rest.regular_assign _ h.2⟩

end

end

theorem Expression.mem_leaves_assign {e : Expression} {i : Nat} {c : Comparison} {v : PyStr}
    (hc : e.leaves[i]? = some c) :
    c.setValue v ∈ (e.assign v i).leaves ∧
      ∀ c' ∈ (e.assign v i).leaves, c' ∈ e.leaves ∨ c' = c.setValue v := by
  rw [e.leaves_assign]
  refine ⟨List.mem_of_getElem? (i := i) (by rw [List.getElem?_modify_eq, hc]; rfl), fun c' hc' => ?_⟩
  obtain ⟨j, hj⟩ := List.mem_iff_getElem?.mp hc'
  rw [List.getElem?_modify] at hj
  by_cases hij : i = j
  · subst hij
    rw [hc] at hj
    exact .inr (by simpa using hj.symm)
  · exact .inl (List.mem_of_getElem? (i := j) (by simpa [hij] using hj))

/-! ## Comparisons with a value -/

/-- An equality, approximate, ordering or extensible match. -/
def Comparison.Valued (c : Comparison) : Prop :=
  c.cls ≠ .presenceMatch ∧ c.cls ≠ .substringMatch

instance (c : Comparison) : Decidable c.Valued := inferInstanceAs (Decidable (_ ∧ _))

/-- No white space is printed around the value. -/
def Comparison.Unpadded (c : Comparison) : Prop := c.mid = [] ∧ c.fin = [] ∧ c.trail = []

namespace Grammar

/-- The margins of an accepted value are white space. -/
theorem Value.margins_space {v : Grammar.Value} {s : ValueStr} (h : v.transform = .ok s) :
    All isSpace (orStr s.pre []) ∧ All isSpace (orStr s.suffix []) := by
  change Transformer.value (Ows.token v.lead) v.token (Ows.token v.trail) = .ok s at h
  rcases Transformer.value_cases h with ⟨-, rfl⟩ | ⟨a, b, -, ha, hb, -, rfl⟩
  · rw [Ows.orStr_token, Ows.orStr_token]
    exact ⟨Ows.spaces v.lead, Ows.spaces v.trail⟩
  · simp only [Ows.orStr_orStr_token]
    refine ⟨?_, ?_⟩ <;> split
    · exact ha
    · exact Ows.spaces v.lead
    · exact hb
    · exact Ows.spaces v.trail

/-- What stands around the value of a comparison that was made from a leaf. -/
structure Leaf.Frames (l : Leaf) (c : Ldap.Comparison) : Prop where
  valued : ∃ w, l.comparison.valued = some (c.cls, w)
  notRule : l.comparison.dnAsRule = false
  notFlag : ∀ attr rule w, l.comparison = .extmatchAttrNodnMatch attr rule w → isDn rule.text = false
  attr : c.attr = l.comparison.attrText
  operator : c.prefixText = l.comparison.opHead ++ py "="
  isEscaped : c.isEscaped = true
  lead : c.lead = Ows.text l.lead
  mid : All isSpace c.mid
  fin : All isSpace c.fin
  trail : All isWS c.trail

theorem Leaf.Makes.frames {l : Leaf} {c : Ldap.Comparison} (h : l.Makes c)
    (hfirst : l.comparison.FirstListed) (hvalued : c.Valued) : l.Frames c := by
  obtain ⟨cmp, hcmp, rfl⟩ := h
  rcases Comparison.transform_cases hcmp with ⟨-, -, rfl⟩ | ⟨attr, v, s, -, -, -, rfl⟩ |
    ⟨cls, v, s, hc, hdn, hv, rfl⟩
  · exact absurd rfl hvalued.1
  · exact absurd rfl hvalued.2
  · obtain ⟨hmid, hfin⟩ := Value.margins_space hv
    exact {
      valued := ⟨v, hc⟩
      notRule := hdn
      notFlag := fun attr rule w he => (he ▸ hfirst).not_dn
      attr := rfl
      operator := Comparison.valued_prefixText hc l.comparison.attrText s
      isEscaped := rfl
      lead := Ows.orStr_token l.lead
      mid := hmid
      fin := hfin
      trail := by
        show All isWS (orStr (Ows.token l.trail) [])
        rw [Ows.orStr_token]
        exact Ows.chars l.trail }

section

variable {l : Leaf} {c : Ldap.Comparison}

theorem Leaf.Frames.cls_valued (h : l.Frames c) : c.Valued := by
  obtain ⟨w, hw⟩ := h.valued
  constructor <;>
    intro hcls <;> rw [hcls] at hw <;> cases hl : l.comparison <;> rw [hl] at hw <;> cases hw

/-- The setter changes nothing around the value. -/
theorem Leaf.Frames.setValue (h : l.Frames c) (v : PyStr) : l.Frames (c.setValue v) :=
  ⟨h.valued, h.notRule, h.notFlag, h.attr, h.operator, h.isEscaped, h.lead, h.mid, h.fin, h.trail⟩

theorem Leaf.Frames.str_eq (h : l.Frames c) :
    c.str = Ows.text l.lead ++ (l.comparison.attrText ++ (l.comparison.opHead ++
      ('='.toNat :: (c.mid ++ c.rawValue ++ c.fin ++ c.trail)))) := by
  have hstart := h.operator
  rw [Ldap.Comparison.prefixText] at hstart
  have hescaped : c.escaped = c.rawValue := if_pos h.isEscaped
  have hjoin : c.str = c.lead ++ (c.attr ++ ((c.extra ++ c.cls.expression) ++
      (c.mid ++ c.rawValue ++ c.fin ++ c.trail))) := by
    rw [Ldap.Comparison.str, hescaped]
    simp
  rw [hjoin, hstart, h.lead, h.attr]
  simp [py]

theorem Leaf.Frames.value_eq (h : l.Frames c) : c.value = unescape c.rawValue := if_pos h.isEscaped

theorem Leaf.Frames.trail_space (h : l.Frames c) : All isSpace c.trail :=
  h.trail.mono fun _ => isSpace_of_isWS

theorem Leaf.Frames.strip_rest (h : l.Frames c) :
    strip (c.mid ++ c.rawValue ++ c.fin ++ c.trail) = strip c.rawValue := by
  rw [List.append_assoc _ c.fin]
  exact strip_append h.mid (all_append.mpr ⟨h.fin, h.trail_space⟩)

theorem Leaf.Frames.readComparison_str (h : l.Frames c) :
    readComparison c.str
      = ⟨l.comparison.attrText, l.comparison.opHead ++ py "=", strip c.rawValue⟩ := by
  rw [h.str_eq, l.comparison.readComparison_frame (Ows.chars l.lead), h.strip_rest]

theorem Leaf.Frames.readRest_str (h : l.Frames c) :
    readRest c.str = c.mid ++ c.rawValue ++ c.fin ++ c.trail := by
  rw [h.str_eq, l.comparison.readRest_frame (Ows.chars l.lead)]

/-- A value that needs no escape is printed as a comparison that is derived with the
meaning of the leaf. -/
theorem Leaf.Frames.exists_printed (h : l.Frames c) (hstrip : strip c.rawValue = c.rawValue)
    (hplain : All isPlainChar c.rawValue) :
    ∃ gc : Grammar.Comparison, Ows.text l.lead ++ gc.text = c.str ∧
      (readComparison c.str).Acceptable ∧
      readingMeaning (readComparison c.str) = leafMeaning c := by
  have hspaces : ∀ {s : PyStr}, All isSpace s → All isPlainChar s := fun hs =>
    hs.mono fun _ => isPlainChar_of_isSpace
  have hvalid : isValueText (c.mid ++ c.rawValue ++ c.fin ++ c.trail) = true :=
    isValueText_of_plain (all_append.mpr ⟨all_append.mpr ⟨all_append.mpr
      ⟨hspaces h.mid, hplain⟩, hspaces h.fin⟩, hspaces h.trail_space⟩)
  obtain ⟨w, hvalued⟩ := h.valued
  obtain ⟨gc, htext, hreading, hacceptable, hcls⟩ :=
    Comparison.exists_setValue hvalued h.notRule hvalid
  rw [h.strip_rest] at hreading
  have hread : readComparison c.str = gc.reading := by rw [hreading, h.readComparison_str]
  have hcls : gc.reading.cls = c.cls := hcls h.notFlag
  have hpresence : gc.reading.isPresence = false := by
    have hnot := asterisk_notMem (isValueText_chars _ (isValueText_of_plain hplain))
    rw [hreading, Reading.isPresence, hstrip]
    simp only [Bool.and_eq_false_iff, beq_eq_false_iff_ne]
    exact .inr fun he => hnot (he ▸ List.mem_singleton.mpr rfl)
  refine ⟨gc, ?_, hread ▸ hacceptable, ?_⟩
  · rw [htext, h.str_eq]
    simp [py]
  · rw [hread, readingMeaning, leafMeaning, hcls, Reading.rawValue, hpresence, h.value_eq]
    rw [hreading, hstrip, h.attr]
    rfl

/-- A value that is printed as a leaf with the meaning of the comparison needs no escape. -/
theorem Leaf.Frames.plain_of_printed (h : l.Frames c) (hstrip : strip c.rawValue = c.rawValue)
    (hvalue : c.value = c.rawValue) {l' : Leaf} (hl : l'.text = c.str)
    (hmeaning : readingMeaning (readComparison c.str) = leafMeaning c) :
    All isPlainChar c.rawValue := by
  have hread := h.readComparison_str
  rw [hstrip] at hread
  have hcls : (readComparison c.str).cls = c.cls := congrArg (fun m => m.1) hmeaning
  have hasterisk : (readComparison c.str).op = py "=" → '*'.toNat ∉ readRest c.str := by
    intro hop
    have hraw : '*'.toNat ∉ c.rawValue := by
      intro hmem
      obtain ⟨hpresence, hsubstring⟩ := h.cls_valued
      rw [Reading.cls_of_eq hop, hread] at hcls
      split at hcls
      · exact hpresence hcls.symm
      · exact hsubstring hcls.symm
    have hspaces : ∀ {s : PyStr}, All isSpace s → '*'.toNat ∉ s := fun hs hmem =>
      absurd (hs _ hmem) (by decide)
    rw [h.readRest_str]
    simp only [List.mem_append, not_or]
    exact ⟨⟨⟨hspaces h.mid, hraw⟩, hspaces h.fin⟩, hspaces h.trail_space⟩
  have hvalid : isValueText (c.mid ++ c.rawValue ++ c.fin ++ c.trail) = true := by
    rw [← h.readRest_str, ← hl]
    refine isValueText_rest fun hop => ?_
    rw [hl]
    exact hasterisk (by rw [← hl, l'.reading_text]; exact hop)
  have hvalid : isValueText c.rawValue = true := by
    rw [List.append_assoc _ c.fin, List.append_assoc] at hvalid
    exact isValueText_of_append_space (all_append.mpr ⟨h.fin, h.trail_space⟩)
      (isValueText_of_space_append h.mid hvalid)
  rw [h.value_eq] at hvalue
  exact (unescape_eq_self_iff hvalid).mp hvalue

end

end Grammar

/-! ## Filters with an assigned value -/

section

variable {lark : LarkParser}

theorem ParsedLeaf.exists_frames (hfirst : lark.FirstListed) {c : Comparison}
    (h : ParsedLeaf lark c) (hvalued : c.Valued) : ∃ l : Grammar.Leaf, l.Frames c := by
  obtain ⟨s, d, hparse, l, hl, hmakes⟩ := h
  exact ⟨l, hmakes.frames (hfirst s d hparse _ hl) hvalued⟩

/-- A value that needs no escape makes an acceptable leaf, unless it is empty between
white space. -/
theorem Grammar.Leaf.Frames.leafAcceptable {l : Grammar.Leaf} {c : Ldap.Comparison}
    (h : l.Frames c) (hstrip : strip c.rawValue = c.rawValue)
    (hplain : All isPlainChar c.rawValue) (hblank : c.rawValue = [] → c.Unpadded) :
    LeafAcceptable c.str := by
  obtain ⟨gc, -, hacceptable, -⟩ := h.exists_printed hstrip hplain
  refine ⟨hacceptable, ?_⟩
  rw [h.readComparison_str, h.readRest_str, hstrip]
  by_cases hnil : c.rawValue = []
  · obtain ⟨hmid, hfin, htrail⟩ := hblank hnil
    exact .inr (by rw [hmid, hnil, hfin, htrail]; rfl)
  · exact .inl hnil

/-- A printed leaf in brackets reads back exactly if its value needs no escape, and an
empty value has no white space around it or is accepted with it. -/
theorem Grammar.Leaf.Frames.reprints_iff (hfirst : lark.FirstListed) {l : Grammar.Leaf}
    {c : Ldap.Comparison} (h : l.Frames c) (hstrip : strip c.rawValue = c.rawValue)
    (hsingle : ParsesTo lark (py "(" ++ c.str ++ py ")") [.leaf (leafMeaning c)] ↔
      Reprints lark c) :
    (c.value = c.rawValue ∧ Reprints lark c) ↔ All isPlainChar c.rawValue ∧
      (c.rawValue = [] → c.Unpadded ∨ Accepted lark (py "(" ++ c.str ++ py ")")) := by
  constructor
  · rintro ⟨hvalue, hreprints⟩
    obtain ⟨l', hl'⟩ := hreprints.derived
    refine ⟨h.plain_of_printed hstrip hvalue hl' hreprints.meaning, fun _ => .inr ?_⟩
    obtain ⟨f, hf, -⟩ := hsingle.mpr hreprints
    exact ⟨f, hf⟩
  · rintro ⟨hplain, hblank⟩
    refine ⟨by rw [h.value_eq, unescape_of_plain hplain], ?_⟩
    obtain ⟨gc, htext, -, hmeaning⟩ := h.exists_printed hstrip hplain
    have hl : (Grammar.Leaf.mk l.lead gc none).text = c.str := by
      simpa [Grammar.Leaf.text] using htext
    by_cases hknown : c.rawValue = [] → c.Unpadded
    · exact ⟨⟨_, hl⟩, .inl (h.leafAcceptable hstrip hplain hknown), hmeaning⟩
    · -- the blank leaf is accepted on its own, with the meaning that it is read with
      obtain ⟨hnil, hpadded⟩ := Classical.not_imp.mp hknown
      obtain ⟨f, hf⟩ := (hblank hnil).resolve_left hpadded
      refine hsingle.mp ⟨f, hf, ?_⟩
      have hnode : (Grammar.Node.expression l.lead gc none).text = py "(" ++ c.str ++ py ")" := by
        rw [← hl]
        simp [Grammar.Node.text, Grammar.Leaf.text]
      rw [Filter.outline_group hfirst hf hnode, ← hmeaning, ← hl]
      rfl

/-- An assigned leaf of a bracketed filter. -/
theorem Expression.assign_iff (hfirst : lark.FirstListed) (hspan : lark.SpanResolved)
    (htight : lark.NegationTight) {e : Expression} (he : e.Regular)
    (hparsed : ∀ c ∈ e.leaves, ParsedLeaf lark c) (hknown : ∀ c ∈ e.leaves, KnownLeaf lark c.str)
    {i : Nat} {c : Comparison} (hc : e.leaves[i]? = some c) (hvalued : c.Valued) {v : PyStr}
    (hv : strip v = v) :
    ((c.setValue v).value = v ∧
      ParsesTo lark (e.assign v i).memberStr ((e.assign v i).outline leafMeaning)) ↔
    All isPlainChar v ∧
      (v = [] → c.Unpadded ∨ Accepted lark (py "(" ++ (c.setValue []).str ++ py ")")) := by
  obtain ⟨l, hl⟩ := (hparsed c (List.mem_of_getElem? hc)).exists_frames hfirst hvalued
  have hframes := hl.setValue v
  have hstops : Stops isOpSymbol ((c.setValue v).str.dropWhile Grammar.isWS) := by
    rw [hframes.str_eq]
    exact l.comparison.stops_frame (Grammar.Ows.chars l.lead) _
  obtain ⟨hmem, hleaves⟩ := e.mem_leaves_assign (v := v) hc
  -- the other leaves print as they did
  have hother : ∀ c' ∈ e.leaves, Reprints lark c' := fun c' hc' =>
    ⟨((hparsed c' hc').printed hfirst).1, hknown c' hc', ((hparsed c' hc').printed hfirst).2⟩
  have hwhole : ParsesTo lark (e.assign v i).memberStr ((e.assign v i).outline leafMeaning) ↔
      Reprints lark (c.setValue v) := by
    rw [Expression.reprint_iff hfirst hspan htight (e.regular_assign v i he) fun c' hc' => ?_]
    · refine ⟨fun h => h _ hmem, fun h c' hc' => ?_⟩
      rcases hleaves c' hc' with hc' | rfl
      · exact hother c' hc'
      · exact h
    · rcases hleaves c' hc' with hc' | rfl
      · obtain ⟨l', hl'⟩ := (hother c' hc').derived
        rw [← hl']
        exact l'.stops_text
      · exact hstops
  -- the assigned leaf as a filter of its own
  have hsingle : ParsesTo lark (py "(" ++ (c.setValue v).str ++ py ")")
      [.leaf (leafMeaning (c.setValue v))] ↔ Reprints lark (c.setValue v) := by
    have hiff := Expression.reprint_iff hfirst hspan htight (e := .comparison (c.setValue v))
      trivial fun c' hc' => List.mem_singleton.mp hc' ▸ hstops
    rw [Expression.leaves, List.forall_mem_singleton] at hiff
    exact (List.append_nil (py "(" ++ (c.setValue v).str ++ py ")")) ▸ hiff
  rw [hwhole]
  have hiff := hframes.reprints_iff hfirst hv hsingle
  refine hiff.trans (and_congr_right fun _ => forall_congr' fun hnil => ?_)
  subst hnil
  rfl

/-- An assigned bare comparison: white space around an empty value is refused. -/
theorem Grammar.Leaf.Frames.bare_iff (hfirst : lark.FirstListed) (htoken : lark.TokenFirst)
    {l : Grammar.Leaf} {c : Ldap.Comparison} (h : l.Frames c) (hlead : c.lead = [])
    (hstrip : strip c.rawValue = c.rawValue) :
    (c.value = c.rawValue ∧ ParsesTo lark c.str [.leaf (leafMeaning c)]) ↔
      All isPlainChar c.rawValue ∧ (c.rawValue = [] → c.Unpadded) := by
  have hleadText : Grammar.Ows.text l.lead = [] := h.lead.symm.trans hlead
  constructor
  · rintro ⟨hvalue, f, hf, houtline⟩
    have hhead : ∀ r, c.str ≠ '('.toNat :: r := by
      intro r hr
      obtain ⟨d, s, hs, hd⟩ := l.comparison.frame_eq_cons
        (c.mid ++ c.rawValue ++ c.fin ++ c.trail)
      rw [h.str_eq, hleadText, List.nil_append, hs] at hr
      exact (Grammar.headChar_spec hd).2.2.2.2 (List.cons.inj hr).1
    obtain ⟨⟨gc, hgc⟩, hread⟩ := Filter.init_bare hfirst hf c.str_ne_blank hhead
    rw [houtline] at hread
    have hl : (Grammar.Leaf.mk none gc none).text = c.str := by
      simpa [Grammar.Leaf.text] using hgc
    refine ⟨h.plain_of_printed hstrip hvalue hl (Outline.leaf.inj (List.cons.inj hread).1).symm,
      fun hnil => ?_⟩
    -- without brackets an empty value has no white space around it
    obtain ⟨gc', root, hparse, hd, hroot⟩ :=
      Filter.init_derivation_bare hf c.str_ne_blank hhead
    obtain ⟨cmp, hcmp, -⟩ := Grammar.Start.transform_bare hroot
    have hreading : gc'.reading = readComparison c.str := by
      rw [← hd]
      simpa using (gc'.readComparison_text none none).symm
    have hrest : gc'.rest = readRest c.str := by
      rw [← hd]
      simpa using (gc'.readRest_text none none).symm
    have hblank := bare_rest_of_blank htoken hparse hcmp (by
      rw [hreading, h.readComparison_str, hstrip, hnil])
    rw [hrest, h.readRest_str] at hblank
    simp only [List.append_eq_nil_iff] at hblank
    exact ⟨hblank.1.1.1, hblank.1.2, hblank.2⟩
  · rintro ⟨hplain, hblank⟩
    obtain ⟨gc, htext, -, hmeaning⟩ := h.exists_printed hstrip hplain
    rw [hleadText, List.nil_append] at htext
    obtain ⟨f, hf, houtline⟩ := Filter.exists_bare hfirst
      (htext ▸ h.leafAcceptable hstrip hplain hblank)
    refine ⟨by rw [h.value_eq, unescape_of_plain hplain], f, htext ▸ hf, ?_⟩
    have hread : gc.reading = readComparison c.str := by
      rw [← htext]
      simpa using (gc.readComparison_text none none).symm
    rw [houtline, hread, hmeaning]

theorem ParsedFilter.Bare.lead_eq_nil {p : ParsedFilter lark} {c : Comparison} (hp : p.Bare c)
    {l : Grammar.Leaf} (h : l.Frames c) : c.lead = [] := by
  obtain ⟨gc, hgc⟩ := hp.str
  have hstops := gc.stops_text []
  rw [List.append_nil, hgc, h.str_eq] at hstops
  have hlead := Grammar.Ows.chars l.lead
  rw [h.lead]
  cases hl : Grammar.Ows.text l.lead with
  | nil => rfl
  | cons d r =>
    rw [hl] at hstops hlead
    have hspace := (all_cons.mp hlead).1
    rw [stops_cons.mp hstops] at hspace
    cases hspace

theorem Transformer.start_assign (e : Expression) (i : Nat) (v : PyStr) :
    (Transformer.start e).assign v i = Transformer.start (e.assign v i) := by
  cases e with
  | comparison c =>
    cases i with
    | zero => rfl
    | succ i =>
      simp [Transformer.start, Expressions.ofList, Expression.assign, Expressions.assign,
        Expression.leaves]
  | container cls es sep => rfl

theorem Transformer.start_str (e : Expression) : (Transformer.start e).str = e.memberStr := by
  cases e with
  | comparison c => rfl
  | container cls es sep => exact (List.append_nil _).symm

theorem ParsedFilter.assign_eq (p : ParsedFilter lark) {i : Nat} {c : Comparison}
    (hc : p.root.leaves[i]? = some c) (v : PyStr) :
    (p.filter.assign i v).str = (p.root.assign v i).str ∧
      (p.filter.assign i v).outline leafMeaning = (p.root.assign v i).outline leafMeaning := by
  obtain ⟨d, hd⟩ := p.filter_eq
  have hlt := (List.getElem?_eq_some_iff.mp hc).1
  have hast : (containerOf [p.root]).assign v i = containerOf [p.root.assign v i] := by
    simp only [containerOf, Expressions.ofList, Expression.assign, Expressions.assign, if_pos hlt]
  rw [hd, Filter.assign, Filter.str, Filter.outline]
  simp only [hast]
  exact ⟨List.append_nil _, List.append_nil _⟩

/-- After `leaf.value = v` the getter returns `v` and the filter prints as one in which
only that value has changed, exactly if `v` needs no escape and, where it is empty, the
white space printed around it is none or accepted. -/
theorem assign_faithful_iff (hfirst : lark.FirstListed) (htoken : lark.TokenFirst)
    (hspan : lark.SpanResolved) (htight : lark.NegationTight) (p : ParsedFilter lark) {i : Nat}
    {c : Comparison} (hc : p.root.leaves[i]? = some c) (hvalued : c.Valued) {v : PyStr}
    (hv : strip v = v) :
    ((c.setValue v).value = v ∧
      ParsesTo lark (p.filter.assign i v).str ((p.filter.assign i v).outline leafMeaning)) ↔
    All isPlainChar v ∧ (v = [] → c.Unpadded ∨
      p.Bracketed ∧ Accepted lark (py "(" ++ (c.setValue []).str ++ py ")")) := by
  obtain ⟨hstr, houtline⟩ := p.assign_eq hc v
  rw [hstr, houtline]
  -- the filter has brackets, or is a bare comparison
  rcases p.cases hfirst with ⟨⟨s, hs⟩, e, he⟩ | ⟨c₀, hbare⟩
  · have hbracketed : p.Bracketed := by
      rw [ParsedFilter.Bracketed, hs]
      rfl
    rw [he.root, Transformer.start_leaves] at hc
    have hiff := Expression.assign_iff hfirst hspan htight he.regular he.parsed he.known hc hvalued
      hv
    rw [he.root, Transformer.start_assign, Grammar.start_outline, Transformer.start_str]
    simp only [hbracketed, true_and]
    exact hiff
  · have hnot : ¬ p.Bracketed := hbare.not_bracketed
    rw [hbare.root] at hc ⊢
    have hi : i = 0 := by
      have hlt : i < 1 := (List.getElem?_eq_some_iff.mp hc).1
      omega
    subst hi
    have hcc : c₀ = c := Option.some.inj hc
    subst hcc
    obtain ⟨l, hl⟩ := hbare.parsed.exists_frames hfirst hvalued
    have hiff := (hl.setValue v).bare_iff hfirst htoken (hbare.lead_eq_nil hl) hv
    simp only [hnot, false_and, or_false]
    rw [← List.append_nil (c₀.setValue v).str] at hiff
    exact hiff

end

/-- The check of a filter's leaf that it has a value. -/
def hasValuedLeaf (i : Nat) (e : Expression) : Bool := e.leaves[i]?.any fun c => decide c.Valued

theorem exists_valuedLeaf {e : Expression} {i : Nat} (h : hasValuedLeaf i e = true) :
    ∃ c, e.leaves[i]? = some c ∧ c.Valued := by
  obtain ⟨c, hc, hvalued⟩ := (Option.any_eq_true _ _).mp h
  exact ⟨c, hc, of_decide_eq_true hvalued⟩

theorem assign_faithful_address : ∃ (p : ParsedFilter resolver) (c : Comparison),
    p.text = py "(|(cn=x)(ip:dn:= 127.0.0.1))" ∧ p.root.leaves[1]? = some c ∧
    (c.setValue (py "192.0.2.1")).value = py "192.0.2.1" ∧
    ParsesTo resolver (p.filter.assign 1 (py "192.0.2.1")).str
      ((p.filter.assign 1 (py "192.0.2.1")).outline leafMeaning) := by
  obtain ⟨p, htext, hcheck⟩ := exists_parsedFilter (s := py "(|(cn=x)(ip:dn:= 127.0.0.1))")
    (hasValuedLeaf 1) (by decide +kernel)
  obtain ⟨c, hc, hvalued⟩ := exists_valuedLeaf hcheck
  exact ⟨p, c, htext, hc, (assign_faithful_iff resolver_firstListed resolver_tokenFirst
    resolver_spanResolved resolver_negationTight p hc hvalued (v := py "192.0.2.1")
    (by decide +kernel)).mpr ⟨by decide, nofun⟩⟩

/-- Assigning `x)(uid=y` to the leaf of `(&(cn=x))` puts a second member into the filter. -/
theorem assign_injects : ∃ (p : ParsedFilter resolver) (c : Comparison),
    p.text = py "(&(cn=x))" ∧ p.root.leaves[0]? = some c ∧ c.Valued ∧
    (p.filter.assign 0 (py "x)(uid=y")).str = py "(&(cn=x)(uid=y))" ∧
    ¬ ParsesTo resolver (p.filter.assign 0 (py "x)(uid=y")).str
      ((p.filter.assign 0 (py "x)(uid=y")).outline leafMeaning) := by
  obtain ⟨p, htext, hcheck⟩ := exists_parsedFilter (s := py "(&(cn=x))")
    (fun e => hasValuedLeaf 0 e && ((e.assign (py "x)(uid=y") 0).str == py "(&(cn=x)(uid=y))")
      && (Outline.nodesList ((e.assign (py "x)(uid=y") 0).outline leafMeaning) == 2))
    (by decide +kernel)
  simp only [Bool.and_eq_true, beq_iff_eq] at hcheck
  obtain ⟨⟨hleaf, hstr⟩, hnodes⟩ := hcheck
  obtain ⟨c, hc, hvalued⟩ := exists_valuedLeaf hleaf
  obtain ⟨hassigned, houtline⟩ := p.assign_eq hc (py "x)(uid=y")
  refine ⟨p, c, htext, hc, hvalued, hassigned.trans hstr, ?_⟩
  rw [hassigned, houtline]
  rintro ⟨f, hf, heq⟩
  have hthree : ((Filter.init resolver (some (py "(&(cn=x)(uid=y))"))).toOption.any fun f =>
      Outline.nodesList (f.outline leafMeaning) == 3) = true := by decide +kernel
  rw [← hstr, hf] at hthree
  have hthree : Outline.nodesList (f.outline leafMeaning) = 3 := beq_iff_eq.mp hthree
  rw [heq, hnodes] at hthree
  cases hthree

end FreeIam.Ldap
