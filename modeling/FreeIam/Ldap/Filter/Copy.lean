import FreeIam.Ldap.Filter.Injection
import FreeIam.Ldap.Filter.Reprint
import FreeIam.Ldap.Filter.Unescape
import Mathlib.Logic.Function.Iterate

/-!
# Copies

`Comparison.copy` keeps the raw value and its escapes and drops the white space
around it. `ExtensibleMatch.copy` hands the decoded value on as if it were escaped,
so its escapes are lost: the copy keeps the meaning only of a value that needs none.
-/

namespace FreeIam.Ldap

open FreeIam.Py FreeIam.Scan FreeIam.Bracket

open Grammar (isPlainChar isValueText)

namespace Grammar

/-! ## Values without white space at their ends -/

theorem isValueText_strip {s : PyStr} (h : isValueText s = true) : isValueText (strip s) = true := by
  obtain ⟨a, b, hsplit, ha, hb⟩ := strip_decompose isSpace s
  rw [hsplit, List.append_assoc] at h
  exact isValueText_of_append_space hb (isValueText_of_space_append ha h)

theorem parts_of_space_append : ∀ (ps : List SubstrPart) {a t : PyStr}, All isSpace a →
    a ++ t = ps.flatMap SubstrPart.text → ∃ ps' : List SubstrPart, ps'.flatMap SubstrPart.text = t
  | ps, [], t, _, h => ⟨ps, h.symm⟩
  | [], c :: a, t, _, h => nomatch h
  | p :: ps, c :: a, t, ha, h => by
    rw [List.flatMap_cons] at h
    cases p with
    | asterisk =>
      have hc : c = '*'.toNat := (List.cons.inj h).1
      have hspace := (all_cons.mp ha).1
      rw [hc] at hspace
      exact absurd hspace (by decide)
    | value tok =>
      rcases List.append_eq_append_iff.mp h with ⟨r, htok, ht⟩ | ⟨r, htok, hrest⟩
      · -- the white space ends inside the token
        by_cases hr : r = []
        · exact ⟨ps, by rw [ht, hr]; rfl⟩
        · have hvalid : isValueText r = true :=
            isValueText_of_space_append ha (by rw [← htok]; exact tok.valid)
          exact ⟨.value ⟨r, hr, hvalid⟩ :: ps, by rw [ht]; rfl⟩
      · have hr : All isSpace r := fun d hd => ha d (by rw [htok]; exact List.mem_append_right _ hd)
        exact parts_of_space_append ps hr hrest.symm

theorem parts_of_append_space : ∀ (ps : List SubstrPart) {t b : PyStr}, All isSpace b →
    t ++ b = ps.flatMap SubstrPart.text → ∃ ps' : List SubstrPart, ps'.flatMap SubstrPart.text = t
  | [], t, b, _, h => ⟨[], (List.append_eq_nil_iff.mp h).1.symm⟩
  | p :: ps, t, b, hb, h => by
    rw [List.flatMap_cons] at h
    rcases List.append_eq_append_iff.mp h with ⟨r, hp, hr⟩ | ⟨r, ht, hrest⟩
    · -- the white space begins inside the part
      have hspace : All isSpace r := fun d hd => hb d (by rw [hr]; exact List.mem_append_left _ hd)
      by_cases hnil : t = []
      · exact ⟨[], hnil.symm⟩
      cases p with
      | asterisk =>
        have hlength := congrArg List.length hp
        have hpos := List.length_pos_iff.mpr hnil
        have hone : (SubstrPart.text .asterisk).length = 1 := rfl
        rw [hone, List.length_append] at hlength
        have hrnil : r = [] := List.length_eq_zero_iff.mp (by omega)
        rw [hrnil, List.append_nil] at hp
        exact ⟨[.asterisk], by rw [List.flatMap_singleton, hp]⟩
      | value tok =>
        have hvalid : isValueText t = true :=
          isValueText_of_append_space hspace (by rw [← hp]; exact tok.valid)
        exact ⟨[.value ⟨t, hnil, hvalid⟩], List.flatMap_singleton _ _⟩
    · obtain ⟨ps', hps'⟩ := parts_of_append_space ps hb hrest.symm
      exact ⟨p :: ps', by rw [List.flatMap_cons, hps', ht]⟩

/-- The stripped text of substring parts is the text of substring parts. -/
theorem Substrings.exists_strip (v : Substrings) (h : strip v.text ≠ []) :
    ∃ v' : Substrings, v'.text = strip v.text := by
  obtain ⟨a, b, hsplit, ha, hb⟩ := strip_decompose isSpace v.text
  have htext : v.text = (v.head :: v.tail).flatMap SubstrPart.text := rfl
  rw [htext, List.append_assoc] at hsplit
  obtain ⟨ps, hps⟩ := parts_of_space_append _ ha hsplit.symm
  obtain ⟨ps', hps'⟩ := parts_of_append_space ps hb hps.symm
  cases ps' with
  | nil => exact absurd hps'.symm h
  | cons p ps' => exact ⟨⟨p, ps'⟩, hps'⟩

end Grammar

/-! ## The copy of an accepted comparison -/

/-- What an extensible match hands on to its copy can be read back: it has no white
space at its ends and nothing that needs an escape. -/
def Comparison.CopyStable (c : Comparison) : Prop :=
  ∀ dn rule, c.cls = .extensibleMatch dn rule → strip c.value = c.value ∧ All isPlainChar c.value

instance (c : Comparison) : Decidable c.CopyStable :=
  match hcls : c.cls with
  | .extensibleMatch dn rule =>
    decidable_of_iff (strip c.value = c.value ∧ All isPlainChar c.value)
      ⟨fun h _ _ _ => h, fun h => h dn rule hcls⟩
  | .equalityMatch | .greaterOrEqual | .lessOrEqual | .approximateMatch | .substringMatch
  | .presenceMatch => isTrue fun _ _ h => nomatch hcls.symm.trans h

/-- The raw value of the copy. -/
def Comparison.copiedValue (c : Comparison) : PyStr :=
  match c.cls with
  | .extensibleMatch _ _ => c.value
  | _ => c.rawValue

theorem Comparison.copy_eq (c : Comparison) :
    c.copy = .init c.cls c.attr c.copiedValue c.isEscaped := by
  cases hcls : c.cls <;> simp [Comparison.copy, Comparison.copiedValue, hcls]

/-- An escaped comparison as `__init__` leaves it prints no margins. -/
theorem Comparison.init_str_escaped (cls : ComparisonClass) (attr value : PyStr) :
    (Comparison.init cls attr value true).str
      = attr ++ ((Comparison.init cls attr value true).prefixText ++ value) := by
  simp [Comparison.str, Comparison.init, Comparison.prefixText, Comparison.escaped]

/-- A stable value is its own copy. -/
theorem Comparison.copy_copy {c : Comparison} (h : c.CopyStable) (hescaped : c.isEscaped = true) :
    c.copy.copy = c.copy := by
  rw [c.copy_eq, Comparison.copy_eq]
  congr 1
  cases hcls : c.cls with
  | extensibleMatch dn rule =>
    have hvalue : (Comparison.init c.cls c.attr c.copiedValue c.isEscaped).value
        = unescape c.copiedValue := by
      show (if c.isEscaped then unescape c.copiedValue else c.copiedValue) = _
      rw [if_pos hescaped]
    rw [Comparison.copiedValue, hcls] at hvalue
    rw [Comparison.copiedValue, Comparison.copiedValue, hcls]
    exact hvalue.trans (unescape_of_plain (h dn rule hcls).2)
  | _ => simp only [Comparison.copiedValue, Comparison.init, hcls]

/-- Operators other than `=` say the class on their own. -/
theorem Reading.cls_congr {r r' : Reading} (hop : r.op = r'.op) (hattr : r.attr = r'.attr)
    (hne : r.op ≠ py "=") : r.cls = r'.cls := by
  have hext : r.extensible = r'.extensible := by
    rw [Reading.extensible, Reading.extensible, hop, hattr]
  have hne' : r'.op ≠ py "=" := hop ▸ hne
  rw [Reading.cls, Reading.cls, if_neg hne, if_neg hne', hop, hext]

namespace Grammar

/-- A derived comparison with another value, which is derived and has no white space
at its ends. -/
theorem Comparison.exists_stripped {c : Grammar.Comparison} {cls : ComparisonClass}
    {v : Grammar.Value} (hc : c.valued = some (cls, v)) (hdn : c.dnAsRule = false) {w : PyStr}
    (hw : isValueText w = true) (hstrip : strip w = w) :
    ∃ c' : Grammar.Comparison, c'.text = c.attrText ++ (c.opHead ++ py "=" ++ w) ∧
      LeafAcceptable c'.text ∧ c'.reading = ⟨c.attrText, c.opHead ++ py "=", w⟩ := by
  obtain ⟨c', htext, hreading, hacceptable, -⟩ := Comparison.exists_setValue hc hdn hw
  rw [hstrip] at hreading
  have hrest : readRest c'.text = w := by
    rw [htext, List.append_assoc c.opHead]
    exact c.readRest_frame .nil w
  have hread : readComparison c'.text = c'.reading := by
    simpa using c'.readComparison_text none none
  refine ⟨c', htext, ⟨hread ▸ hacceptable, ?_⟩, hreading⟩
  rw [hread, hreading, hrest]
  exact (em (w = [])).symm

/-- A stable copy prints as a comparison that is derived with the meaning of the
original. -/
theorem Comparison.exists_copy {c : Grammar.Comparison} {cmp : Ldap.Comparison}
    (h : c.transform = .ok cmp) (hstable : cmp.CopyStable) (hfirst : c.FirstListed) :
    ∃ c' : Grammar.Comparison, c'.text = cmp.copy.str ∧ LeafAcceptable c'.text ∧
      readingMeaning c'.reading = leafMeaning cmp := by
  have hmeaning : leafMeaning cmp = readingMeaning c.reading := by
    have hobs := observes_meaning hfirst cmp none none h
    exact hobs
  have hacceptable := (c.transform_isOk_iff.mp ⟨cmp, h⟩).1
  rw [hmeaning]
  rcases transform_cases h with ⟨hop, hval, rfl⟩ | ⟨attr, v, s, rfl, hv, hne, rfl⟩ |
    ⟨cls, v, s, hc, hdn, hv, rfl⟩
  -- a presence match prints no value
  · obtain ⟨c', htext, hreading⟩ := Comparison.exists_str h
    have hvalue : c'.reading.value ≠ [] := by
      rw [hreading]
      show strip c.rest ≠ []
      rw [hval]
      exact List.cons_ne_nil _ _
    exact ⟨c', htext, Comparison.leafAcceptable_text (hreading ▸ hacceptable) (.inl hvalue),
      by rw [hreading]⟩
  -- a substring match is copied with the stripped value
  · have hnil : strip v.text ≠ [] := by
      rcases (Transformer.value_isOk_iff none none v.text).mp ⟨s, hv⟩ with hnil | hnil
      · exact hnil
      · exact absurd hnil v.ne_nil
    obtain ⟨v', hv'⟩ := v.exists_strip hnil
    have hreading : (Comparison.substring attr v').reading
        = (Comparison.substring attr v).reading := by
      show Reading.mk _ _ (strip v'.text) = Reading.mk _ _ (strip v.text)
      rw [hv']
      exact congrArg _ (strip_strip v.text)
    refine ⟨.substring attr v', ?_, Comparison.leafAcceptable_text (hreading ▸ hacceptable) (.inl ?_),
      by rw [hreading]⟩
    · rw [Ldap.Comparison.copy_eq]
      show _ = (Comparison.init .substringMatch attr.text s.text true).str
      rw [Comparison.init_str_escaped, Transformer.value_text hv, Comparison.text, hv']
      simp [Ldap.Comparison.prefixText, Comparison.init, ComparisonClass.expression]
    · rw [hreading]
      exact hnil
  -- one assertion value: the attribute and the operator are copied as they are
  · have htext := Value.transform_text hv
    have hstr : ∀ w, (Comparison.init cls c.attrText w true).str
        = c.attrText ++ (c.opHead ++ py "=" ++ w) := by
      intro w
      have hstart : (Comparison.init cls c.attrText w true).prefixText = c.opHead ++ py "=" :=
        valued_prefixText hc c.attrText s
      rw [Comparison.init_str_escaped, hstart]
    have hreading : c.reading = ⟨c.attrText, c.opHead ++ py "=", s.text⟩ := by
      rw [reading, htext, valued_rest hc]
    rw [Ldap.Comparison.copy_eq]
    show ∃ c', _ = (Comparison.init cls c.attrText _ true).str ∧ _
    rw [hstr]
    by_cases hext : ∃ dn rule, cls = .extensibleMatch dn rule
    · -- the copy takes the decoded value for the raw one
      obtain ⟨dn, rule, rfl⟩ := hext
      obtain ⟨hstrip, hplain⟩ := hstable dn rule rfl
      have hvalue : (Transformer.comparisonOf (.extensibleMatch dn rule) c.attrText s).value
          = unescape s.text := rfl
      rw [hvalue] at hstrip hplain
      obtain ⟨c', htext', hacc, hreading'⟩ := Comparison.exists_stripped hc hdn
        (isValueText_of_plain hplain) hstrip
      refine ⟨c', htext', hacc, ?_⟩
      have hne : c.opHead ++ py "=" ≠ py "=" := by
        cases c <;> cases hc <;> simp [opHead, py]
      have hpresence : ∀ w, (Reading.mk c.attrText (c.opHead ++ py "=") w).isPresence = false := by
        intro w
        simpa [Reading.isPresence] using fun he => absurd he (by simpa using hne)
      have hcls : (Reading.mk c.attrText (c.opHead ++ py "=") (unescape s.text)).cls
          = (Reading.mk c.attrText (c.opHead ++ py "=") s.text).cls := Reading.cls_congr rfl rfl hne
      rw [readingMeaning, readingMeaning, hreading', hreading, hcls, Reading.rawValue,
        Reading.rawValue, hpresence, hpresence]
      show (_, _, unescape (unescape s.text)) = (_, _, unescape s.text)
      rw [unescape_of_plain hplain]
    · have hcopied : (Transformer.comparisonOf cls c.attrText s).copiedValue = s.text := by
        cases cls with
        | extensibleMatch dn rule => exact absurd ⟨dn, rule, rfl⟩ hext
        | _ => rfl
      rw [hcopied]
      have hvalid : isValueText s.text = true := by
        rw [htext]
        exact isValueText_strip v.valid_text
      have hstrip : strip s.text = s.text := by
        rw [htext]
        exact strip_strip v.text
      obtain ⟨c', htext', hacc, hreading'⟩ := Comparison.exists_stripped hc hdn hvalid hstrip
      exact ⟨c', htext', hacc, by rw [hreading', hreading]⟩

/-- A copy prints the attribute and the operator of the original. -/
theorem Comparison.copy_frame {c : Grammar.Comparison} {cmp : Ldap.Comparison}
    (h : c.transform = .ok cmp) :
    ∃ r, cmp.copy.str = c.attrText ++ (c.opHead ++ ('='.toNat :: r)) ∧
      ∀ dn rule, cmp.cls = .extensibleMatch dn rule → r = cmp.value ∧ c.opHead ≠ [] := by
  rw [Ldap.Comparison.copy_eq]
  rcases transform_cases h with ⟨hop, -, rfl⟩ | ⟨attr, v, s, rfl, -, -, rfl⟩ |
    ⟨cls, v, s, hc, -, -, rfl⟩
  · refine ⟨py "*", ?_, fun dn rule hcls => by cases hcls⟩
    rw [hop]
    show (Comparison.init .presenceMatch c.attrText [] true).str = _
    rw [Comparison.init_str_escaped]
    simp [Ldap.Comparison.prefixText, Comparison.init, ComparisonClass.expression, py]
  · refine ⟨s.text, ?_, fun dn rule hcls => by cases hcls⟩
    show (Comparison.init .substringMatch attr.text s.text true).str = _
    rw [Comparison.init_str_escaped]
    simp [Ldap.Comparison.prefixText, Comparison.init, ComparisonClass.expression, attrText,
      opHead, py]
  · refine ⟨(Transformer.comparisonOf cls c.attrText s).copiedValue, ?_, ?_⟩
    · have hstart : ∀ w, (Comparison.init cls c.attrText w true).prefixText = c.opHead ++ py "=" :=
        fun _ => valued_prefixText hc c.attrText s
      show (Comparison.init cls c.attrText _ true).str = _
      rw [Comparison.init_str_escaped, hstart]
      simp [py]
    · rintro dn rule rfl
      refine ⟨rfl, ?_⟩
      cases c <;> cases hc <;> simp [opHead, py]

/-- A copy that is read with the meaning of the original has a stable value. -/
theorem Comparison.copyStable_of_reading {c : Grammar.Comparison} {cmp : Ldap.Comparison}
    (h : c.transform = .ok cmp) {l : Leaf} (hl : l.text = cmp.copy.str)
    (hmeaning : readingMeaning (readComparison cmp.copy.str) = leafMeaning cmp) :
    cmp.CopyStable := by
  intro dn rule hcls
  obtain ⟨r, hstr, hext⟩ := Comparison.copy_frame h
  obtain ⟨hr, hhead⟩ := hext dn rule hcls
  have hread : readComparison cmp.copy.str = ⟨c.attrText, c.opHead ++ py "=", strip r⟩ := by
    rw [hstr]
    exact c.readComparison_frame .nil r
  have hrest : readRest cmp.copy.str = r := by
    rw [hstr]
    exact c.readRest_frame .nil r
  have hop : c.opHead ++ py "=" ≠ py "=" := by simpa using hhead
  have hpresence : (Reading.mk c.attrText (c.opHead ++ py "=") (strip r)).isPresence = false := by
    simpa [Reading.isPresence] using fun he => absurd he (by simpa using hhead)
  have hvalue : unescape (strip r) = r := by
    rw [hread] at hmeaning
    have hthird := congrArg (fun m => m.2.2) hmeaning
    simp only [readingMeaning, leafMeaning, Reading.rawValue, hpresence, ← hr] at hthird
    exact hthird
  obtain ⟨hstrip, hself⟩ := strip_of_unescape_strip hvalue
  have hvalid : isValueText r = true := by
    have hrestl := Leaf.isValueText_rest (l := l) fun he => absurd he (by
      rw [← l.reading_text, hl, hread]
      exact hop)
    rw [hl, hrest] at hrestl
    exact hrestl
  rw [← hr]
  exact ⟨hstrip, (unescape_eq_self_iff hvalid).mp hself⟩

end Grammar

section

variable {lark : LarkParser}

/-- The copy of a stable leaf is derived with the meaning of the leaf. -/
theorem ParsedLeaf.exists_copy (hfirst : lark.FirstListed) {c : Comparison}
    (h : ParsedLeaf lark c) (hstable : c.CopyStable) :
    ∃ gc : Grammar.Comparison, gc.text = c.copy.str ∧ LeafAcceptable gc.text ∧
      readingMeaning gc.reading = leafMeaning c := by
  obtain ⟨s, d, hparse, l, hl, cmp, hcmp, rfl⟩ := h
  have hcopy : ∃ gc : Grammar.Comparison, gc.text = cmp.copy.str ∧ LeafAcceptable gc.text ∧
      readingMeaning gc.reading = leafMeaning cmp :=
    Grammar.Comparison.exists_copy hcmp hstable (hfirst s d hparse _ hl)
  exact hcopy

theorem ParsedLeaf.copyStable {c : Comparison} (h : ParsedLeaf lark c) {l : Grammar.Leaf}
    (hl : l.text = c.copy.str)
    (hmeaning : readingMeaning (readComparison c.copy.str) = leafMeaning c) : c.CopyStable := by
  obtain ⟨s, d, -, l₀, -, cmp, hcmp, rfl⟩ := h
  have hcopy : cmp.CopyStable := Grammar.Comparison.copyStable_of_reading hcmp hl hmeaning
  exact hcopy

/-- A copy begins with an attribute or a colon. -/
theorem ParsedLeaf.copy_eq_cons {c : Comparison} (h : ParsedLeaf lark c) :
    ∃ d s, c.copy.str = d :: s ∧ (Grammar.isAttrChar d = true ∨ d = ':'.toNat) := by
  obtain ⟨s, d, -, l, -, cmp, hcmp, rfl⟩ := h
  obtain ⟨r, hr, -⟩ := Grammar.Comparison.copy_frame hcmp
  obtain ⟨x, t, ht, hx⟩ := l.comparison.frame_eq_cons r
  exact ⟨x, t, hr.trans ht, hx⟩

/-- A copy does not begin with white space or an operator symbol. -/
theorem ParsedLeaf.copy_stops {c : Comparison} (h : ParsedLeaf lark c) :
    Stops isOpSymbol (c.copy.str.dropWhile Grammar.isWS) := by
  obtain ⟨s, d, -, l, -, cmp, hcmp, rfl⟩ := h
  obtain ⟨r, hr, -⟩ := Grammar.Comparison.copy_frame hcmp
  have hstops := l.comparison.stops_frame .nil r
  rw [List.nil_append, ← hr] at hstops
  exact hstops

end

/-! ## Copies of trees -/

theorem Expressions.count_copy (es : Expressions) : es.copy.count = es.count := by
  cases es with
  | nil => rfl
  | token token rest => exact rest.count_copy
  | cons e rest =>
    show rest.copy.count + 1 = rest.count + 1
    rw [rest.count_copy]

mutual

theorem Expression.regular_copy : ∀ e : Expression, e.Regular → e.copy.Regular
  | .comparison _, _ => trivial
  | .container (.operator _) es _, h =>
    ⟨.nil, fun hop => es.count_copy.trans (h.2.1 hop), es.regular_copy h.2.2⟩

theorem Expressions.regular_copy : ∀ es : Expressions, es.Regular → es.copy.Regular
  | .nil, _ => trivial
  | .token _ rest, h => ⟨h.1, rest.regular_copy h.2⟩
  | .cons e rest, h => ⟨e.regular_copy h.1, rest.regular_copy h.2⟩

end

mutual

theorem Expression.leaves_copy : ∀ e : Expression, e.copy.leaves = e.leaves.map Comparison.copy
  | .comparison _ => rfl
  | .container _ es _ => es.leaves_copy

theorem Expressions.leaves_copy : ∀ es : Expressions,
    es.copy.leaves = es.leaves.map Comparison.copy
  | .nil => rfl
  | .token _ rest => rest.leaves_copy
  | .cons e rest => by
    rw [Expressions.copy, Expressions.leaves, Expressions.leaves, List.map_append, e.leaves_copy,
      rest.leaves_copy]

end

section

variable {β : Type} (f : Comparison → β)

mutual

/-- A copy has the operators of the original around the copies of its leaves. -/
theorem Expression.outline_copy : ∀ e : Expression,
    e.copy.outline f = e.outline fun c => f c.copy
  | .comparison _ => rfl
  | .container (.operator op) es _ => by
    rw [Expression.copy, Expression.outline, Expression.outline, es.outline_copy]
  | .container .group es _ => es.outline_copy
  | .container .container es _ => es.outline_copy

theorem Expressions.outline_copy : ∀ es : Expressions,
    es.copy.outline f = es.outline fun c => f c.copy
  | .nil => rfl
  | .token _ rest => rest.outline_copy
  | .cons e rest => by
    rw [Expressions.copy, Expressions.outline, Expressions.outline, e.outline_copy,
      rest.outline_copy]

end

end

mutual

theorem Expression.copy_copy : ∀ e : Expression, (∀ c ∈ e.leaves, c.copy.copy = c.copy) →
    e.copy.copy = e.copy
  | .comparison c, h => congrArg Expression.comparison (h c (List.mem_singleton.mpr rfl))
  | .container cls es _, h => by
    rw [Expression.copy, Expression.copy, es.copy_copy h]

theorem Expressions.copy_copy : ∀ es : Expressions, (∀ c ∈ es.leaves, c.copy.copy = c.copy) →
    es.copy.copy = es.copy
  | .nil, _ => rfl
  | .token t rest, h => congrArg (Expressions.token t) (rest.copy_copy h)
  | .cons e rest, h => by
    rw [Expressions.copy, Expressions.copy,
      e.copy_copy fun c hc => h c (List.mem_append_left _ hc),
      rest.copy_copy fun c hc => h c (List.mem_append_right _ hc)]

end

/-- Further copies of a copy with stable leaves change nothing. -/
theorem Expression.iterate_copy {e : Expression} (h : ∀ c ∈ e.leaves, c.copy.copy = c.copy)
    (k : Nat) : Expression.copy^[k + 1] e = e.copy := by
  induction k with
  | zero => rfl
  | succ k ih => rw [Function.iterate_succ_apply', ih, e.copy_copy h]

/-! ## The expressions of a filter -/

mutual

/-- An expression and those below it. -/
def Expression.subs : Expression → List Expression
  | .comparison c => [.comparison c]
  | .container cls es sep => .container cls es sep :: es.subs

def Expressions.subs : Expressions → List Expression
  | .nil => []
  | .token _ rest => rest.subs
  | .cons e rest => e.subs ++ rest.subs

end

theorem Expression.mem_subs (e : Expression) : e ∈ e.subs := by
  cases e with
  | comparison c => exact List.mem_cons_self
  | container cls es sep => exact List.mem_cons_self

mutual

/-- The expressions of a regular tree are regular, over leaves of the tree. -/
theorem Expression.sub_spec : ∀ (e : Expression) {x : Expression}, e.Regular → x ∈ e.subs →
    x.Regular ∧ ∀ c ∈ x.leaves, c ∈ e.leaves
  | .comparison c, x, _, hx => by
    rw [List.mem_singleton.mp hx]
    exact ⟨trivial, fun _ hc => hc⟩
  | .container (.operator _) es sep, x, h, hx => by
    rcases List.mem_cons.mp hx with rfl | hx
    · exact ⟨h, fun _ hc => hc⟩
    · exact es.sub_spec h.2.2 hx

theorem Expressions.sub_spec : ∀ (es : Expressions) {x : Expression}, es.Regular → x ∈ es.subs →
    x.Regular ∧ ∀ c ∈ x.leaves, c ∈ es.leaves
  | .token _ rest, _, h, hx => rest.sub_spec h.2 hx
  | .cons e rest, _, h, hx => by
    rcases List.mem_append.mp hx with hx | hx
    · obtain ⟨hregular, hleaves⟩ := e.sub_spec h.1 hx
      exact ⟨hregular, fun c hc => List.mem_append_left _ (hleaves c hc)⟩
    · obtain ⟨hregular, hleaves⟩ := rest.sub_spec h.2 hx
      exact ⟨hregular, fun c hc => List.mem_append_right _ (hleaves c hc)⟩

end

/-- The expressions of a parsed filter: comparisons and operators, and a root around
one comparison. -/
inductive Part (lark : LarkParser) : Expression → Prop
  | comparison {c : Comparison} (h : ParsedLeaf lark c) : Part lark (.comparison c)
  | operator {op : Operator} {es : Expressions} {sep : Option PyStr}
      (hregular : (Expression.container (.operator op) es sep).Regular)
      (hleaves : ∀ c ∈ es.leaves, ParsedLeaf lark c) : Part lark (.container (.operator op) es sep)
  | group {c : Comparison} (h : ParsedLeaf lark c) :
      Part lark (.container .group (.ofList [.comparison c]) none)
  | container {c : Comparison} (h : ParsedLeaf lark c) :
      Part lark (.container .container (.ofList [.comparison c]) none)

theorem Part.of_regular {lark : LarkParser} {x : Expression} (h : x.Regular)
    (hleaves : ∀ c ∈ x.leaves, ParsedLeaf lark c) : Part lark x := by
  cases x with
  | comparison c => exact .comparison (hleaves c (List.mem_singleton.mpr rfl))
  | container cls es sep =>
    cases cls with
    | operator op => exact .operator h hleaves
    | group => exact h.elim
    | container => exact h.elim

theorem ParsedFilter.part {lark : LarkParser} (hfirst : lark.FirstListed) (p : ParsedFilter lark)
    {x : Expression} (hx : x ∈ p.root.subs) : Part lark x := by
  rcases p.cases hfirst with ⟨-, e, he⟩ | ⟨c, hc⟩
  · have hpart : ∀ y ∈ e.subs, Part lark y := fun y hy => by
      obtain ⟨hregular, hleaves⟩ := e.sub_spec he.regular hy
      exact .of_regular hregular fun c hc => he.parsed c (hleaves c hc)
    rw [he.root] at hx
    cases e with
    | comparison c =>
      have hc := he.parsed c (List.mem_singleton.mpr rfl)
      rcases List.mem_cons.mp hx with rfl | hx
      · exact .group hc
      · rw [List.mem_singleton.mp hx]
        exact .comparison hc
    | container cls es sep => exact hpart x hx
  · rw [hc.root] at hx
    rcases List.mem_cons.mp hx with rfl | hx
    · exact .container hc.parsed
    · rw [List.mem_singleton.mp hx]
      exact .comparison hc.parsed

/-- The text of a part, when it is accepted at all, parses to the outline of the part. -/
def ReadsBack (lark : LarkParser) (e : Expression) : Prop :=
  ∀ f, Filter.init lark (some e.str) = .ok f → f.outline leafMeaning = e.outline leafMeaning

/-- Every successive copy prints a text with the operators and leaves of the original. -/
def CopyKeeps (lark : LarkParser) (e : Expression) : Prop :=
  ∀ k, ParsesTo lark (Expression.copy^[k + 1] e).str (e.outline leafMeaning)

section

variable {lark : LarkParser}

/-! ### Comparisons on their own -/

theorem ParsedLeaf.readsBack (hfirst : lark.FirstListed) {c : Comparison}
    (h : ParsedLeaf lark c) {f : Filter} (hf : Filter.init lark (some c.str) = .ok f) :
    f.outline leafMeaning = [.leaf (leafMeaning c)] := by
  obtain ⟨⟨l, hl⟩, hmeaning⟩ := h.printed hfirst
  have hhead : ∀ r, c.str ≠ '('.toNat :: r := by
    intro r hr
    have hplain := l.isPlain_text
    rw [hl, hr] at hplain
    exact absurd (all_cons.mp hplain).1 (by decide)
  rw [(Filter.init_bare hfirst hf c.str_ne_blank hhead).2, hmeaning]

theorem ParsedLeaf.copy_iff (hfirst : lark.FirstListed) {c : Comparison}
    (h : ParsedLeaf lark c) :
    ParsesTo lark c.copy.str [.leaf (leafMeaning c)] ↔ c.CopyStable := by
  constructor
  · rintro ⟨f, hf, houtline⟩
    have hhead : ∀ r, c.copy.str ≠ '('.toNat :: r := by
      intro r hr
      obtain ⟨d, s, hs, hd⟩ := h.copy_eq_cons
      rw [(List.cons.inj (hs.symm.trans hr)).1] at hd
      exact absurd hd (by decide)
    obtain ⟨⟨gc, hgc⟩, hread⟩ := Filter.init_bare hfirst hf c.copy.str_ne_blank hhead
    rw [houtline] at hread
    have hl : (Grammar.Leaf.mk none gc none).text = c.copy.str := by
      simpa [Grammar.Leaf.text] using hgc
    exact h.copyStable hl (Outline.leaf.inj (List.cons.inj hread).1).symm
  · intro hstable
    obtain ⟨gc, htext, hacceptable, hmeaning⟩ := h.exists_copy hfirst hstable
    obtain ⟨f, hf, houtline⟩ := Filter.exists_bare hfirst hacceptable
    exact ⟨f, htext ▸ hf, by rw [houtline, hmeaning]⟩

/-! ### Bracketed trees -/

theorem Expression.readsBack (hfirst : lark.FirstListed) {e : Expression} (he : e.Regular)
    (hleaves : ∀ c ∈ e.leaves, ParsedLeaf lark c) {f : Filter}
    (hf : Filter.init lark (some e.memberStr) = .ok f) :
    f.outline leafMeaning = e.outline leafMeaning := by
  obtain ⟨n, hn⟩ := Grammar.exists_node e he fun c hc => ((hleaves c hc).printed hfirst).1
  have htext : n.text = e.memberStr := by
    rw [← n.text_layout, hn, e.text_layout he]
  have hread := e.outline_layout readingMeaning he
  rw [Filter.outline_group hfirst hf htext, hn, ← hread]
  exact e.outline_congr fun c hc => ((hleaves c hc).printed hfirst).2

theorem Expression.copy_iff (hfirst : lark.FirstListed) (hspan : lark.SpanResolved)
    (htight : lark.NegationTight) {e : Expression} (he : e.Regular)
    (hleaves : ∀ c ∈ e.leaves, ParsedLeaf lark c) :
    ParsesTo lark e.copy.memberStr (e.outline leafMeaning) ↔ ∀ c ∈ e.leaves, c.CopyStable := by
  have hcopied : ∀ c ∈ e.copy.leaves, ∃ c₀ ∈ e.leaves, c₀.copy = c := fun c hc => by
    rw [e.leaves_copy] at hc
    exact List.mem_map.mp hc
  constructor
  · rintro ⟨f, hf, houtline⟩ c hc
    -- what is read has the operators of the copy, so its leaves are those of the copy
    have hnodes : Outline.nodesList (f.outline leafMeaning) = e.copy.layout.nodes := by
      rw [houtline, ← e.copy.nodes_outline leafMeaning (e.regular_copy he), e.outline_copy,
        e.nodes_outline leafMeaning he, e.nodes_outline _ he]
    obtain ⟨hread, hderived⟩ := Filter.reprint_leaves hfirst (e.regular_copy he)
      (fun c' hc' => by
        obtain ⟨c₀, hc₀, rfl⟩ := hcopied c' hc'
        exact (hleaves c₀ hc₀).copy_stops) hf hnodes
    rw [houtline, e.outline_copy] at hread
    obtain ⟨l, hl⟩ := (hderived c.copy (by
      rw [e.leaves_copy]
      exact List.mem_map_of_mem hc)).1
    exact (hleaves c hc).copyStable hl (e.outline_inj hread c hc).symm
  · intro hstable
    have hcopies : ∀ c ∈ e.leaves, (∃ gc : Grammar.Comparison, gc.text = c.copy.str ∧
        LeafAcceptable gc.text ∧ readingMeaning gc.reading = leafMeaning c) := fun c hc =>
      (hleaves c hc).exists_copy hfirst (hstable c hc)
    obtain ⟨f, hf, houtline⟩ := Filter.exists_reprint hfirst hspan htight (e.regular_copy he)
      fun c' hc' => by
        obtain ⟨c, hc, rfl⟩ := hcopied c' hc'
        obtain ⟨gc, htext, hacceptable, -⟩ := hcopies c hc
        exact ⟨⟨⟨none, gc, none⟩, by simpa [Grammar.Leaf.text] using htext⟩,
          .inl (htext ▸ hacceptable)⟩
    refine ⟨f, hf, ?_⟩
    rw [houtline, e.outline_copy]
    refine e.outline_congr fun c hc => ?_
    obtain ⟨gc, htext, -, hmeaning⟩ := hcopies c hc
    have hread := gc.readComparison_text none none
    simp only [Grammar.Ows.text_none, List.nil_append, List.append_nil, htext] at hread
    rw [hread, hmeaning]

/-! ### The expressions of a parsed filter -/

theorem Part.parsedLeaf {e : Expression} (h : Part lark e) : ∀ c ∈ e.leaves, ParsedLeaf lark c := by
  intro c hc
  cases h with
  | comparison h => exact List.mem_singleton.mp hc ▸ h
  | operator hregular hleaves => exact hleaves c hc
  | group h => exact List.mem_singleton.mp hc ▸ h
  | container h => exact List.mem_singleton.mp hc ▸ h

theorem Part.readsBack (hfirst : lark.FirstListed) {e : Expression} (h : Part lark e) :
    ReadsBack lark e := by
  intro f hf
  cases h with
  | comparison h => exact h.readsBack hfirst hf
  | operator hregular hleaves =>
    refine Expression.readsBack hfirst hregular hleaves ?_
    rw [Expression.memberStr, Expressions.groupStr, Expressions.groupStr, List.append_nil]
    exact hf
  | group h =>
    rename_i c
    exact Expression.readsBack (e := .comparison c) hfirst trivial
      (fun c' hc' => List.mem_singleton.mp hc' ▸ h) hf
  | container h =>
    refine h.readsBack hfirst ?_
    rw [← List.append_nil (Comparison.str _)]
    exact hf

theorem Part.copy_iff (hfirst : lark.FirstListed) (hspan : lark.SpanResolved)
    (htight : lark.NegationTight) {e : Expression} (h : Part lark e) :
    ParsesTo lark e.copy.str (e.outline leafMeaning) ↔ ∀ c ∈ e.leaves, c.CopyStable := by
  cases h with
  | comparison h => exact (h.copy_iff hfirst).trans List.forall_mem_singleton.symm
  | @operator op es sep hregular hleaves =>
    have hstr : (Expression.container (.operator op) es sep).copy.str
        = (Expression.container (.operator op) es sep).copy.memberStr := by
      rw [Expression.copy, Expression.memberStr, Expressions.groupStr, Expressions.groupStr,
        List.append_nil]
    rw [hstr]
    exact Expression.copy_iff hfirst hspan htight hregular hleaves
  | @group c h =>
    exact Expression.copy_iff (e := .comparison c) hfirst hspan htight trivial
      fun c' hc' => List.mem_singleton.mp hc' ▸ h
  | @container c h =>
    have hstr : (Expression.container .container (.ofList [.comparison c]) none).copy.str
        = c.copy.str := List.append_nil _
    rw [hstr]
    exact (h.copy_iff hfirst).trans List.forall_mem_singleton.symm

/-- The copies of an expression of a parsed filter keep its meaning exactly if no
extensible match in it has a decoded value that needs an escape. -/
theorem copy_keeps_iff (hfirst : lark.FirstListed) (hspan : lark.SpanResolved)
    (htight : lark.NegationTight) (p : ParsedFilter lark) {e : Expression}
    (he : e ∈ p.root.subs) :
    (CopyKeeps lark e ↔ ∀ c ∈ e.leaves, c.CopyStable) ∧ ReadsBack lark e := by
  have hpart := p.part hfirst he
  refine ⟨⟨fun h => (hpart.copy_iff hfirst hspan htight).mp (h 0), fun hstable k => ?_⟩,
    hpart.readsBack hfirst⟩
  have hcopies : Expression.copy^[k + 1] e = e.copy := Expression.iterate_copy
    (fun c hc => Comparison.copy_copy (hstable c hc) (hpart.parsedLeaf c hc).isEscaped) k
  rw [hcopies]
  exact (hpart.copy_iff hfirst hspan htight).mpr hstable

end

theorem copy_keeps_and : ∃ p : ParsedFilter resolver,
    p.text = py "(&(cn=a\\2ab)(sn:dn:=x))" ∧ CopyKeeps resolver p.root := by
  obtain ⟨p, htext, hcheck⟩ := exists_parsedFilter (s := py "(&(cn=a\\2ab)(sn:dn:=x))")
    (fun e => decide (∀ c ∈ e.leaves, c.CopyStable)) (by decide +kernel)
  exact ⟨p, htext, (copy_keeps_iff resolver_firstListed resolver_spanResolved
    resolver_negationTight p p.root.mem_subs).1.mpr (of_decide_eq_true hcheck)⟩

/-- The copy of `(cn:=\28)` prints as `(cn:=()`, which is no filter. -/
theorem extensible_copy_drops_escapes : ∃ p : ParsedFilter resolver,
    p.text = py "(cn:=\\28)" ∧ p.root.copy.str = py "(cn:=()" ∧
    p.root ∈ p.root.subs ∧ ¬ CopyKeeps resolver p.root := by
  obtain ⟨p, htext, hcheck⟩ := exists_parsedFilter (s := py "(cn:=\\28)")
    (fun e => e.copy.str == py "(cn:=()") (by decide +kernel)
  have hcopy : p.root.copy.str = py "(cn:=()" := beq_iff_eq.mp hcheck
  refine ⟨p, htext, hcopy, p.root.mem_subs, fun h => ?_⟩
  obtain ⟨f, hf, -⟩ := h 0
  have hrefused : (Filter.init resolver (some (py "(cn:=()"))).isOk = false := by decide +kernel
  rw [← hcopy] at hrefused
  rw [show Filter.init resolver (some p.root.copy.str) = .ok f from hf] at hrefused
  cases hrefused

end FreeIam.Ldap
