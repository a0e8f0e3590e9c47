import FreeIam.Ldap.Filter.Assertion

/-!
# What a parsed filter means

The tree of a parsed filter asserts what its printed leaves do, optional white
space left out. White space at the ends of a value is optional for the repository's
grammar and part of the value for the RFC, and that is the only difference: the
tree means what a server reads off the string exactly where no value has any.
-/

namespace FreeIam.Ldap

open FreeIam.Py FreeIam.Scan FreeIam.Bracket

/-! ## Octets of a value with white space around it -/

/-- A character without a digit behind it begins no escape. -/
theorem octets_cons_of_stops (c : Nat) {t : PyStr} (ht : Stops isHexDigit t) :
    octets (c :: t) = utf8 c ++ octets t := by
  match t, ht with
  | [], _ => rfl
  | [_], _ => rfl
  | h₁ :: h₂ :: t, ht =>
    have hdigit : isHexDigit h₁ = false := stops_cons.mp ht
    rw [octets, if_neg]
    rintro ⟨-, h, -⟩
    rw [hdigit] at h
    cases h

/-- A text behind an escape is no part of it, unless it begins with a digit. -/
theorem octets_append (s : PyStr) {t : PyStr} (ht : Stops isHexDigit t) :
    octets (s ++ t) = octets s ++ octets t := by
  fun_induction octets s with
  | case1 c h₁ h₂ s hescape ih =>
    show octets (c :: h₁ :: h₂ :: (s ++ t)) = _
    rw [octets, if_pos hescape, ih]
    rfl
  | case2 c h₁ h₂ s hescape ih =>
    show octets (c :: h₁ :: h₂ :: (s ++ t)) = _
    rw [octets, if_neg hescape]
    have hrest : octets (h₁ :: h₂ :: (s ++ t)) = octets (h₁ :: h₂ :: s) ++ octets t := ih
    rw [hrest, List.append_assoc]
  | case3 s hshort =>
    -- at most two characters, before which no escape can end
    cases s with
    | nil => rfl
    | cons c s =>
      cases s with
      | nil =>
        show octets (c :: t) = _
        rw [octets_cons_of_stops c ht]
        simp
      | cons d s =>
        cases s with
        | nil =>
          have hd := octets_cons_of_stops d ht
          have hc : octets (c :: d :: t) = utf8 c ++ octets (d :: t) := by
            cases t with
            | nil => rfl
            | cons h t =>
              have hdigit : isHexDigit h = false := stops_cons.mp ht
              rw [octets, if_neg]
              rintro ⟨-, -, hh⟩
              rw [hdigit] at hh
              cases hh
          show octets (c :: d :: t) = _
          rw [hc, hd]
          simp
        | cons h s => exact absurd rfl (hshort c d h s)

theorem utf8_ne_nil (c : Nat) : utf8 c ≠ [] := by
  unfold utf8
  split
  · exact List.cons_ne_nil _ _
  · split
    · exact List.cons_ne_nil _ _
    · split <;> exact List.cons_ne_nil _ _

/-- White space stands for itself. -/
theorem octets_space {a : PyStr} (ha : All isSpace a) (s : PyStr) :
    octets (a ++ s) = textOctets a ++ octets s := by
  induction a with
  | nil => rfl
  | cons c a ih =>
    obtain ⟨hc, ha⟩ := all_cons.mp ha
    have hne : c ≠ '\\'.toNat := by
      rintro rfl
      exact absurd hc (by decide)
    rw [List.cons_append, octets_cons hne, ih ha, ← List.append_assoc]
    rfl

theorem stops_space {b : PyStr} (hb : All isSpace b) : Stops isHexDigit b := by
  cases b with
  | nil => exact .nil
  | cons c b => exact stops_cons.mpr (Grammar.isSpace_not_hex (all_cons.mp hb).1)

/-- White space at the ends shows in the octets. -/
theorem octets_strip_iff (value : PyStr) : octets (strip value) = octets value ↔ strip value = value := by
  refine ⟨fun h => ?_, fun h => by rw [h]⟩
  obtain ⟨a, b, hvalue, ha, hb⟩ := strip_decompose isSpace value
  have hall : octets value = textOctets a ++ octets (strip value) ++ textOctets b := by
    have hb' := octets_space hb []
    rw [List.append_nil] at hb'
    conv_lhs => rw [hvalue]
    rw [List.append_assoc, octets_space ha, octets_append _ (stops_space hb), hb']
    simp [octets]
  have hlength := congrArg List.length (h.trans hall)
  simp only [List.length_append] at hlength
  have hnil : ∀ s : PyStr, (textOctets s).length = 0 → s = [] := by
    intro s hs
    rw [List.length_eq_zero_iff, textOctets, List.flatMap_eq_nil_iff] at hs
    exact List.eq_nil_iff_forall_not_mem.mpr fun c hc => utf8_ne_nil c (hs c hc)
  have ha' := hnil a (by omega)
  have hb' := hnil b (by omega)
  rw [ha', hb', List.nil_append, List.append_nil] at hvalue
  exact hvalue.symm

theorem octets_intercalate (pieces : List PyStr) :
    octets (List.intercalate ['*'.toNat] pieces) = List.intercalate ['*'.toNat] (pieces.map octets) := by
  match pieces with
  | [] => rfl
  | [p] => simp
  | p :: q :: rest =>
    have hstar : Stops isHexDigit ('*'.toNat :: List.intercalate ['*'.toNat] (q :: rest)) := by
      rw [stops_cons]
      decide
    have ih := octets_intercalate (q :: rest)
    rw [List.intercalate_cons_cons, List.append_assoc, List.map_cons, List.map_cons,
      List.intercalate_cons_cons]
    show octets (p ++ '*'.toNat :: List.intercalate ['*'.toNat] (q :: rest)) = _
    rw [octets_append p hstar, octets_cons (by decide), ih]
    simp [utf8]

/-- The pieces of a pattern say what its octets are. -/
theorem octets_of_pieces {s t : PyStr}
    (h : (s.splitOn '*'.toNat).map octets = (t.splitOn '*'.toNat).map octets) : octets s = octets t := by
  have hs : octets s = octets (['*'.toNat].intercalate (s.splitOn '*'.toNat)) := by
    rw [List.intercalate_splitOn]
  rw [hs, octets_intercalate, h, ← octets_intercalate, List.intercalate_splitOn]

/-! ## Readings -/

theorem Reading.assertion_of_eq (attr value : PyStr) :
    (Reading.mk attr (py "=") value).assertion =
      if value = py "*" then .present attr
      else if '*'.toNat ∈ value then .substring attr ((value.splitOn '*'.toNat).map octets)
      else .value .equal attr (octets value) := by
  have hcls := Reading.cls_of_eq (r := ⟨attr, py "=", value⟩) rfl
  by_cases hstar : value = py "*"
  · rw [Reading.assertion, hcls.trans (if_pos hstar), if_pos hstar]
  · by_cases hmem : '*'.toNat ∈ value
    · rw [Reading.assertion, hcls.trans ((if_neg hstar).trans (if_pos hmem)), if_neg hstar, if_pos hmem]
    · rw [Reading.assertion, hcls.trans ((if_neg hstar).trans (if_neg hmem)), if_neg hstar, if_neg hmem]

/-- Only the operator `=` looks at the asterisks of a value. -/
theorem Reading.exists_assertion (attr : PyStr) {op : PyStr} (hop : op ≠ py "=") :
    ∃ f : List Nat → Asserted, Function.Injective f ∧
      ∀ value, (Reading.mk attr op value).assertion = f (octets value) := by
  by_cases hge : op = py ">="
  · subst hge
    exact ⟨.value .greaterorequal attr, fun _ _ h => (Asserted.value.inj h).2.2, fun _ => rfl⟩
  · by_cases hle : op = py "<="
    · subst hle
      exact ⟨.value .lessorequal attr, fun _ _ h => (Asserted.value.inj h).2.2, fun _ => rfl⟩
    · by_cases happrox : op = py "~="
      · subst happrox
        exact ⟨.value .approx attr, fun _ _ h => (Asserted.value.inj h).2.2, fun _ => rfl⟩
      · refine ⟨.extensible attr ((Reading.mk attr op []).extensible.1 ≠ [])
          (ruleName (Reading.mk attr op []).extensible.2),
          fun _ _ h => (Asserted.extensible.inj h).2.2.2, fun value => ?_⟩
        have hcls : (Reading.mk attr op value).cls =
            .extensibleMatch (some (Reading.mk attr op []).extensible.1)
              (some (Reading.mk attr op []).extensible.2) := by
          rw [Reading.cls, if_neg hop, if_neg hge, if_neg hle, if_neg happrox]
          rfl
        rw [Reading.assertion, hcls]
        rfl

/-- Readings of one leaf that differ in the value assert the same only if the octets of
their values are the same. -/
theorem Reading.octets_of_assertion {attr op value value' : PyStr}
    (h : (Reading.mk attr op value).assertion = (Reading.mk attr op value').assertion) :
    octets value = octets value' := by
  by_cases hop : op = py "="
  · subst hop
    rw [Reading.assertion_of_eq, Reading.assertion_of_eq] at h
    split_ifs at h with h₁ h₂ h₃ h₄ h₅ h₆
    · rw [h₁, h₂]
    · exact octets_of_pieces (Asserted.substring.inj h).2
    · exact (Asserted.value.inj h).2.2
  · obtain ⟨f, hinjective, hf⟩ := Reading.exists_assertion attr hop
    rw [hf, hf] at h
    exact hinjective h

/-- The assertion of a printed leaf, without optional white space. -/
def Comparison.asserted (c : Comparison) : Asserted :=
  (readItem (c.attr ++ c.prefixText ++ c.escaped)).assertion

/-- The operator and the value of a reading, as they are printed. -/
theorem Reading.text_eq {r : Reading} (head : PyStr) (hop : r.op = head ++ py "=") :
    r.attr ++ r.prefixText ++ r.rawValue = r.attr ++ (head ++ '='.toNat :: r.value) := by
  unfold Reading.prefixText Reading.rawValue
  by_cases hpres : r.isPresence = true
  · rw [if_pos hpres, if_pos hpres]
    simp only [Reading.isPresence, Bool.and_eq_true, beq_iff_eq] at hpres
    obtain ⟨heq, hvalue⟩ := hpres
    have hhead : head = [] := by
      have hlength := congrArg List.length (hop.symm.trans heq)
      simp only [List.length_append] at hlength
      exact List.length_eq_zero_iff.mp (by omega)
    rw [hvalue, hhead]
    simp [py]
  · rw [if_neg hpres, if_neg hpres, hop]
    simp [py]

/-- The tree of an accepted comparison asserts what it reads. -/
theorem observes_assertion (c : Grammar.Comparison) :
    Observes Comparison.asserted Reading.assertion c := by
  intro cmp lead trail h
  obtain ⟨hattr, hop, hraw, hescaped⟩ := Grammar.Comparison.transform_reading h
  have hvalue : cmp.escaped = cmp.rawValue := by
    rw [Comparison.escaped, if_pos hescaped]
  show (readItem (cmp.attr ++ cmp.prefixText ++ cmp.escaped)).assertion = _
  rw [hvalue, hattr, hop, hraw, Reading.text_eq c.opHead rfl]
  have hread : readItem (c.reading.attr ++ (c.opHead ++ '='.toNat :: c.reading.value)) = c.reading :=
    readItem_text c.attrText_chars c.opHead_chars (c.stops_opHead c.reading.value)
  rw [hread]

/-! ## Parsed filters of the RFC -/

namespace Rfc4515

/-- No white space stands at the ends of the value. -/
def Item.Tight (i : Item) : Prop := strip i.value = i.value

theorem Item.definite_of_supported : ∀ i : Item, i.Supported → i.Definite
  | .simple _ _ _, _ => trivial
  | .present _, _ => trivial
  | .substring _ _ _ _, _ => trivial
  | .extensible _ none none _, _ => trivial
  | .extensible _ none (some rule) _, h => h.2 rfl rule rfl
  | .extensible _ (some _) _ _, _ => trivial
  | .extensibleRule _ _ _, _ => trivial

/-- The parser reads an item as the RFC does if and only if its value has no white
space at its ends. -/
theorem Item.assertion_readComparison_iff (i : Item) (h : i.Definite) :
    (readComparison i.text).assertion = i.assertion ↔ i.Tight := by
  obtain ⟨d, s, hs, hd⟩ := i.text_eq_cons
  have hstops : i.text.dropWhile Grammar.isWS = i.text := by
    rw [hs, List.dropWhile_cons_of_neg (by rw [(Grammar.headChar_spec hd).1]; exact Bool.false_ne_true)]
  have hread : readComparison i.text = ⟨i.frame.1, i.frame.2.1 ++ py "=", strip i.frame.2.2⟩ := by
    obtain ⟨hattr, hhead, hbehind⟩ := i.frame_spec
    have hop : Stops isOpChar ('='.toNat :: i.frame.2.2) := by
      rw [stops_cons]
      decide
    rw [readComparison, hstops, i.text_eq]
    simp only [readRest, takeWhile_append hattr hbehind, dropWhile_append hattr hbehind,
      takeWhile_append hhead hop, dropWhile_append hhead hop, List.drop_succ_cons, List.drop_zero]
  rw [← i.assertion_readItem h, hread, i.readItem_text, Item.Tight, ← i.frame_value]
  constructor
  · intro heq
    exact (octets_strip_iff _).mp (Reading.octets_of_assertion heq)
  · intro htight
    rw [htight]

mutual

theorem Filter.outline_layout_iff : ∀ r : Filter, r.Definite →
    (treeOutline Reading.assertion r.layout = r.assertions ↔ r.Every Item.Tight)
  | .and filters, h => by
    show Outline.operator .and (membersOutline Reading.assertion filters.layout) = .operator .and _ ↔ _
    rw [Outline.operator.injEq, filters.outline_layout_iff h]
    simp [Filter.Every]
  | .or filters, h => by
    show Outline.operator .or (membersOutline Reading.assertion filters.layout) = .operator .or _ ↔ _
    rw [Outline.operator.injEq, filters.outline_layout_iff h]
    simp [Filter.Every]
  | .not filter, h => by
    show Outline.operator .not [treeOutline Reading.assertion filter.layout] = .operator .not [_] ↔ _
    rw [Outline.operator.injEq, List.cons.injEq, filter.outline_layout_iff h]
    simp [Filter.Every]
  | .item item, h => by
    show Outline.leaf (readComparison item.text).assertion = .leaf item.assertion ↔ _
    rw [Outline.leaf.injEq, item.assertion_readComparison_iff h]
    rfl

theorem Filters.outline_layout_iff : ∀ rs : Filters, rs.Definite →
    (membersOutline Reading.assertion rs.layout = rs.assertions ↔ rs.Every Item.Tight)
  | .nil, _ => iff_of_true rfl trivial
  | .cons filter filters, h => by
    show treeOutline Reading.assertion filter.layout :: membersOutline Reading.assertion filters.layout =
      filter.assertions :: filters.assertions ↔ _
    rw [List.cons.injEq, filter.outline_layout_iff h.1, filters.outline_layout_iff h.2]
    rfl

end

end Rfc4515

namespace Rfc4515

/-- A derivation of a supported filter is laid out like the filter. -/
theorem Filter.layout_eq {r : Filter} (h : r.Every Item.Supported) :
    ∃ n : Grammar.Node, n.text = r.text ∧ n.layout = r.layout := by
  obtain ⟨n, hn⟩ := r.exists_node (P := fun _ => True) (h.mono fun _ hi => ⟨hi, trivial⟩)
  have htexts : n.layout.text filterAlphabet ++ [] = r.layout.text filterAlphabet ++ [] := by
    rw [n.text_layout, r.text_layout, hn.text]
  exact ⟨n, hn.text, (Bracket.Tree.text_inj n.layout_wf r.layout_wf htexts).1⟩

/-- What the tree of an accepted filter asserts is read off the layout. -/
theorem Filter.outline_asserted {lark : LarkParser} {r : Filter} (h : r.Every Item.Supported)
    {f : Ldap.Filter} (hf : Ldap.Filter.init lark (some r.text) = .ok f) :
    f.outline Comparison.asserted = [treeOutline Reading.assertion r.layout] := by
  obtain ⟨n, htext, hlayout⟩ := r.layout_eq h
  have hstart : (Grammar.Start.group none n none).text = r.text := by
    simp [Grammar.Start.text, htext]
  rw [Filter.outline_eq hf (fun d _ c _ => observes_assertion c) hstart]
  show [n.outline Reading.assertion] = _
  rw [← n.outline_layout, hlayout]

/-- Without white space at the ends of its values, a supported filter is accepted. -/
theorem Filter.accepted_of_tight (lark : LarkParser) {r : Filter} (h : r.Every Item.Supported)
    (htight : r.Every Item.Tight) : Accepted lark r.text := by
  have hitems : r.Every fun i => i.Supported ∧ LeafAcceptable i.text := by
    refine (h.and htight).mono fun i ⟨hi, htight⟩ => ⟨hi, i.leafAcceptable hi ?_⟩
    by_cases hnil : strip i.value = []
    · exact .inl (htight.symm.trans hnil)
    · exact .inr hnil
  obtain ⟨n, hn⟩ := r.exists_node hitems
  have htext : (Grammar.Start.group none n none).text = r.text := by
    simp [Grammar.Start.text, hn.text]
  rw [← htext]
  exact Filter.accepted_of_parse lark _ fun d _ hd => hn.transform_isOk (hd.trans htext)

/-- Of an accepted filter, every value is. -/
theorem Filter.valued_of_accepted {lark : LarkParser} (hfirst : lark.FirstListed)
    (hblank : lark.BlankResolved) {r : Filter} (h : r.Every Item.Supported)
    (haccepted : Accepted lark r.text) : r.Every Item.Valued := by
  obtain ⟨f, hf⟩ := haccepted
  obtain ⟨n, htext, hlayout⟩ := r.layout_eq h
  have hstart : (Grammar.Start.group none n none).text = r.text := by
    simp [Grammar.Start.text, htext]
  rcases Ldap.Filter.init_cases hf with ⟨hempty, -⟩ | ⟨-, d, root, hparse, hd, hroot, -⟩
  · exact absurd (hstart ▸ hempty) (Grammar.Start.text_ne_blank _)
  · have hleaves : ∀ body ∈ r.layout.leaves, LeafAccepted body := by
      intro body hbody
      cases d with
      | bare c =>
        have hbare : c.text = Grammar.Ows.text none ++ n.text ++ [] := by
          simpa [Grammar.Start.text, htext] using hd
        exact absurd hbare (c.text_ne_group none n [])
      | group pre n' post =>
        obtain ⟨-, hsame, -⟩ := Grammar.Node.layout_unique (hd.trans hstart.symm)
        rw [← hlayout, ← hsame, n'.leaves_layout] at hbody
        obtain ⟨l, hl, rfl⟩ := List.mem_map.mp hbody
        obtain ⟨e, he, -⟩ := Grammar.Start.transform_group hroot
        exact (l.transform_isOk_iff hfirst hblank hparse hl).mp (n'.transform_leaf he l hl)
    exact (h.and (r.every_of_leaves hleaves)).mono fun i hi => (Item.leafAccepted_iff hi.1).mp hi.2

end Rfc4515

/-- A supported filter of the RFC is accepted with a tree that asserts what the RFC reads in
the string if and only if no value has white space at its ends; and it is accepted at all
if and only if every value is empty, more than white space, or of an equality and white
space of the grammar. -/
theorem parsed_meaning_iff (lark : LarkParser) (r : Rfc4515.Filter)
    (h : r.Every Rfc4515.Item.Supported) :
    ((∃ f, Filter.init lark (some r.text) = .ok f ∧
        f.outline Comparison.asserted = [r.assertions]) ↔ r.Every Rfc4515.Item.Tight) ∧
    (lark.FirstListed → lark.BlankResolved →
      (Accepted lark r.text ↔ r.Every Rfc4515.Item.Valued)) := by
  have hdefinite : r.Definite := h.mono Rfc4515.Item.definite_of_supported
  have hmeaning {f : Filter} (hf : Filter.init lark (some r.text) = .ok f) :
      f.outline Comparison.asserted = [r.assertions] ↔ r.Every Rfc4515.Item.Tight := by
    rw [r.outline_asserted h hf, List.cons.injEq, ← r.outline_layout_iff hdefinite]
    simp
  refine ⟨⟨?_, fun htight => ?_⟩, fun hfirst hblank => ⟨r.valued_of_accepted hfirst hblank h, ?_⟩⟩
  · rintro ⟨f, hf, hasserted⟩
    exact (hmeaning hf).mp hasserted
  · obtain ⟨f, hf⟩ := r.accepted_of_tight lark h htight
    exact ⟨f, hf, (hmeaning hf).mpr htight⟩
  · intro hvalued
    obtain ⟨-, -, -, haccepted⟩ := Rfc4515.Filter.exists_accepted hfirst hblank h hvalued
    exact haccepted

/-- The pattern `(cn=J*n)`, which has no white space, and the equality `(cn= )`. -/
theorem parsed_meaning_pattern :
    (∃ f, Filter.init resolver (some (py "(cn=J*n)")) = .ok f ∧
      f.outline Comparison.asserted = [.leaf (.substring (py "cn") [[74], [110]])]) ∧
    Accepted resolver (py "(cn= )") := by
  have hpattern := parsed_meaning_iff resolver
    (.item (.substring Rfc4515.cn ⟨py "J", by decide⟩ [] ⟨py "n", by decide⟩)) (.inl rfl)
  have hblank := parsed_meaning_iff resolver
    (.item (.simple Rfc4515.cn .equal ⟨py " ", by decide⟩)) (.inl rfl)
  exact ⟨hpattern.1.mpr (by decide : strip (py "J*n") = py "J*n"),
    (hblank.2 resolver_firstListed resolver_blankResolved).mpr (.inr (.inr ⟨rfl, by decide⟩))⟩

end FreeIam.Ldap
