import FreeIam.Ldap.Filter.Acceptance
import FreeIam.Ldap.Filter.Escaping
import FreeIam.Ldap.Filter.Resolver

/-!
# Injection safety

A template is an expression tree over the builders `Filter.get_*` with holes for
the values. Whatever strings fill the holes, the printed tree is accepted, and
every accepted derivation of it has the operators and the leaves of the template:
no value can add, drop, move or retype a node.
-/

namespace FreeIam.Ldap

open FreeIam.Py FreeIam.Scan FreeIam.Bracket

open Grammar (NotTight)

/-! ## Templates -/

mutual

/-- A tree of builder calls; a leaf names the hole its value comes from. -/
inductive Template where
  | eq (attr : PyStr) (hole : Nat)
  | approx (attr : PyStr) (hole : Nat)
  | gtEq (attr : PyStr) (hole : Nat)
  | ltEq (attr : PyStr) (hole : Nat)
  | pres (attr : PyStr)
  | extensible (attr : PyStr) (dn matchingrule : Option PyStr) (hole : Nat)
  | not (t : Template)
  | and (ts : Templates)
  | or (ts : Templates)

/-- A list of templates. -/
inductive Templates where
  | nil
  | cons (t : Template) (ts : Templates)

end

mutual

/-- The expression that the builder calls return. -/
def Template.build (σ : Nat → PyStr) : Template → Expression
  | .eq attr hole => getEq attr (σ hole)
  | .approx attr hole => getApprox attr (σ hole)
  | .gtEq attr hole => getGtEq attr (σ hole)
  | .ltEq attr hole => getLtEq attr (σ hole)
  | .pres attr => getPres attr
  | .extensible attr dn matchingrule hole => getExtensible attr dn matchingrule (σ hole)
  | .not t => getNot (t.build σ)
  | .and ts => getAnd (ts.build σ)
  | .or ts => getOr (ts.build σ)

def Templates.build (σ : Nat → PyStr) : Templates → List Expression
  | .nil => []
  | .cons t ts => t.build σ :: ts.build σ

end

/-- The dn flag is absent or says `dn` in any case. -/
def DnFlag (dn : Option PyStr) : Prop := truthy dn = false ∨ Grammar.isDn (orStr dn []) = true

/-- The matching rule is absent or an attribute name other than `dn`. -/
def RuleName (rule : Option PyStr) : Prop :=
  truthy rule = false ∨
    (Grammar.isAttr (orStr rule []) = true ∧ Grammar.isDn (orStr rule []) = false)

mutual

/-- Attribute names and matching rules are accepted by the `attr` rule. -/
def Template.WellFormed : Template → Prop
  | .eq attr _ => Grammar.isAttr attr = true
  | .approx attr _ => Grammar.isAttr attr = true
  | .gtEq attr _ => Grammar.isAttr attr = true
  | .ltEq attr _ => Grammar.isAttr attr = true
  | .pres attr => Grammar.isAttr attr = true
  | .extensible attr dn matchingrule _ =>
    Grammar.isAttr attr = true ∧ DnFlag dn ∧ RuleName matchingrule
  | .not t => t.WellFormed
  | .and ts => ts.WellFormed
  | .or ts => ts.WellFormed

def Templates.WellFormed : Templates → Prop
  | .nil => True
  | .cons t ts => t.WellFormed ∧ ts.WellFormed

end

/-- What a leaf is compared by: its attribute and its printed operator prefix. -/
def leafShape (c : Comparison) : PyStr × PyStr := (c.attr, c.prefixText)

/-- The same of a reading. -/
def readingShape (r : Reading) : PyStr × PyStr := (r.attr, r.prefixText)

theorem observes_shape (c : Grammar.Comparison) : Observes leafShape readingShape c := by
  intro cmp lead trail h
  have htext := observes_text c cmp lead trail h
  simp only [Prod.mk.injEq] at htext
  show (_, _) = _
  rw [htext.1, htext.2.1]
  rfl

/-! ## Printed leaves -/

/-- The value rule around the escaped value of a builder. -/
def escapedValue (cls : ComparisonClass) (attr value : PyStr) : Grammar.Value :=
  .ofText (Comparison.init cls attr value false).escaped (Comparison.escaped_spec rfl).1

/-- A comparison whose text is derived by `gc`, with its shape, and all of whose
derivations are accepted. -/
structure PrintedAs (c : Comparison) (gc : Grammar.Comparison) : Prop where
  text : gc.text = c.str
  shape : readingShape gc.reading = leafShape c
  acceptable : LeafAcceptable c.str

/-- A comparison with one assertion value is printed as the alternative of its
attribute, operator and escaped value. -/
theorem printedAs_valued (gc : Grammar.Comparison) {c : Comparison} {cls : ComparisonClass}
    {v : Grammar.Value} (hescaped : c.isEscaped = false)
    (hstr : c.str = c.attr ++ c.prefixText ++ c.escaped)
    (hvalued : gc.valued = some (cls, v)) (hv : v.text = c.escaped)
    (hattr : gc.attrText = c.attr) (hop : gc.opHead ++ py "=" = c.prefixText)
    (hdn : gc.dnAsRule = false) : PrintedAs c gc := by
  have hrest : gc.rest = c.escaped := (Grammar.Comparison.valued_rest hvalued).trans hv
  have htext : gc.text = c.str := by
    rw [gc.text_eq, hstr, hattr, ← hop, hrest]
    simp [py]
  have hpres : gc.reading.isPresence = false := by
    simpa [Reading.isPresence, Grammar.Comparison.reading] using
      fun _ => Grammar.Comparison.valued_notMem hvalued
  refine ⟨htext, ?_, htext ▸ Grammar.Comparison.leafAcceptable_text
    ⟨Grammar.Comparison.valued_stars hvalued, by rw [gc.dnAsRule_reading, hdn]⟩ ?_⟩
  · show (gc.attrText, gc.reading.prefixText) = (c.attr, c.prefixText)
    rw [Reading.prefixText, hpres, hattr, ← hop]
    rfl
  · show strip gc.rest ≠ [] ∨ _
    rw [hrest, (Comparison.escaped_spec hescaped).2]
    exact (em (c.escaped = [])).symm

theorem printedAs_presence {attr : PyStr} (h : Grammar.isAttr attr = true) :
    PrintedAs (.init .presenceMatch attr [] false) (.presence ⟨attr, h⟩) := by
  have htext : (Grammar.Comparison.presence ⟨attr, h⟩).text
      = (Comparison.init .presenceMatch attr [] false).str := by
    simp [Grammar.Comparison.text, Comparison.str, Comparison.init, Comparison.escaped,
      ComparisonClass.expression, escape]
  refine ⟨htext, rfl, htext ▸ Grammar.Comparison.leafAcceptable_text ⟨?_, ?_⟩ (.inl ?_)⟩
  · exact (by decide : contains (py "**") (strip (py "*")) = false)
  · rw [Grammar.Comparison.dnAsRule_reading]
    rfl
  · exact (by decide : strip (py "*") ≠ [])

/-- An unescaped comparison as `__init__` leaves it prints no margins. -/
theorem Comparison.init_str (cls : ComparisonClass) (attr value : PyStr) :
    (Comparison.init cls attr value false).str
      = attr ++ (Comparison.init cls attr value false).prefixText
        ++ (Comparison.init cls attr value false).escaped := by
  simp [Comparison.str, Comparison.init, Comparison.prefixText]

/-- An extensible match of an attribute with its flag and its rule has a derivation. -/
theorem printedAs_extensible {attr : PyStr} {dn rule : Option PyStr} (value : PyStr)
    (hattr : Grammar.isAttr attr = true) (hdn : DnFlag dn)
    (hrule : truthy rule = true → Grammar.isAttr (orStr rule []) = true) :
    ∃ gc, PrintedAs (.init (.extensibleMatch dn rule) attr value false) gc := by
  have hvalue := Grammar.Value.text_ofText
    (Comparison.init (.extensibleMatch dn rule) attr value false).escaped
    (Comparison.escaped_spec rfl).1
  have hstr := Comparison.init_str (.extensibleMatch dn rule) attr value
  cases hd : truthy dn with
  | false =>
    cases hr : truthy rule with
    | false =>
      refine ⟨.extmatchAttrNodnNomatch ⟨attr, hattr⟩ (escapedValue _ attr value),
        printedAs_valued _ rfl hstr rfl hvalue rfl ?_ rfl⟩
      simp [Grammar.Comparison.opHead, Comparison.prefixText, Comparison.init, extraOf, hd, hr,
        ComparisonClass.expression, py]
    | true =>
      refine ⟨.extmatchAttrNodnMatch ⟨attr, hattr⟩ ⟨orStr rule [], hrule hr⟩ (escapedValue _ attr value),
        printedAs_valued _ rfl hstr rfl hvalue rfl ?_ rfl⟩
      simp [Grammar.Comparison.opHead, Comparison.prefixText, Comparison.init, extraOf, hd, hr,
        ComparisonClass.expression, py]
  | true =>
    -- a flag that is given is the dn flag
    have hflag := hdn.resolve_left (by simp [hd])
    cases hr : truthy rule with
    | false =>
      refine ⟨.extmatchAttrDnNomatch ⟨attr, hattr⟩ ⟨orStr dn [], hflag⟩ (escapedValue _ attr value),
        printedAs_valued _ rfl hstr rfl hvalue rfl ?_ rfl⟩
      simp [Grammar.Comparison.opHead, Comparison.prefixText, Comparison.init, extraOf, hd, hr,
        ComparisonClass.expression, py]
    | true =>
      refine ⟨.extmatchAttrDnMatch ⟨attr, hattr⟩ ⟨orStr dn [], hflag⟩ ⟨orStr rule [], hrule hr⟩
        (escapedValue _ attr value), printedAs_valued _ rfl hstr rfl hvalue rfl ?_ rfl⟩
      simp [Grammar.Comparison.opHead, Comparison.prefixText, Comparison.init, extraOf, hd, hr,
        ComparisonClass.expression, py]

/-! ## Printed trees -/

/-- A printed member of an operator, derived with its outline. -/
def Printed (e : Expression) : Prop :=
  ∃ o n, Grammar.Derives LeafAcceptable readingShape (Expressions.cons e .nil).groupStr o n ∧
    e.outline leafShape = [o]

/-- The printed members of an operator, derived with their outlines. -/
def PrintedGroups (es : Expressions) : Prop :=
  ∃ os gs, Grammar.DerivesGroups LeafAcceptable readingShape es.groupStr os gs ∧ es.outline leafShape = os

theorem PrintedAs.printed {c : Comparison} {gc : Grammar.Comparison} (h : PrintedAs c gc) :
    Printed (.comparison c) := by
  have hleaf := Grammar.Derives.leaf (g := readingShape) (h.text ▸ h.acceptable)
  have hstr : (Expressions.cons (.comparison c) .nil).groupStr = py "(" ++ c.str ++ py ")" :=
    List.append_nil _
  rw [h.text, h.shape, ← hstr] at hleaf
  exact ⟨_, _, hleaf, rfl⟩

theorem Printed.not {e : Expression} (h : Printed e) : Printed (getNot e) := by
  obtain ⟨o, n, hn, ho⟩ := h
  have hstr : (Expressions.cons (getNot e) .nil).groupStr
      = py "(!" ++ (Expressions.cons e .nil).groupStr ++ py ")" := by
    simp [getNot, Expressions.ofList, Expressions.groupStr, Expression.str,
      Operator.expression, orStr, py]
  have hnot := hn.not
  rw [← hstr] at hnot
  refine ⟨_, _, hnot, ?_⟩
  show [Outline.operator .not ((Expressions.cons e .nil).outline leafShape)] = _
  simp only [Expressions.outline, ho, List.append_nil]

theorem PrintedGroups.operator {es : Expressions} (op : Grammar.ListOp) (h : PrintedGroups es) :
    Printed (.container (.operator op.operator) es none) := by
  obtain ⟨os, gs, hgs, hos⟩ := h
  have hstr : (Expressions.cons (.container (.operator op.operator) es none) .nil).groupStr
      = py "(" ++ [op.symbol] ++ es.groupStr ++ py ")" := by
    have hop : op.operator.expression = [op.symbol] := by cases op <;> rfl
    simp [Expressions.groupStr, Expression.str, orStr, hop]
  have hnode := hgs.operator op
  rw [← hstr] at hnode
  exact ⟨_, _, hnode, by rw [Expression.outline, hos]⟩

theorem PrintedGroups.cons {e : Expression} {es : Expressions} (h : Printed e)
    (hs : PrintedGroups es) : PrintedGroups (.cons e es) := by
  obtain ⟨o, n, hn, ho⟩ := h
  obtain ⟨os, gs, hgs, hos⟩ := hs
  have hstr : (Expressions.cons e es).groupStr
      = (Expressions.cons e .nil).groupStr ++ es.groupStr :=
    Expressions.groupStr_append (.cons e .nil) es
  have hcons := Grammar.DerivesGroups.cons hn hgs
  rw [← hstr] at hcons
  refine ⟨o :: os, _, hcons, ?_⟩
  rw [Expressions.outline, ho, hos]
  rfl

/-- A template that is a single leaf has a derivation without brackets. -/
theorem Template.printedAs (σ : Nat → PyStr) {t : Template} (ht : t.WellFormed) {c : Comparison}
    (hc : t.build σ = .comparison c) : ∃ gc, PrintedAs c gc := by
  cases t with
  | eq attr hole =>
    cases hc
    exact ⟨_, printedAs_valued
      (.equality ⟨attr, ht⟩ (escapedValue .equalityMatch attr (σ hole))) rfl
      (Comparison.init_str .equalityMatch attr (σ hole)) rfl (Grammar.Value.text_ofText _ _) rfl rfl rfl⟩
  | approx attr hole =>
    cases hc
    exact ⟨_, printedAs_valued
      (.approx ⟨attr, ht⟩ (escapedValue .approximateMatch attr (σ hole))) rfl
      (Comparison.init_str .approximateMatch attr (σ hole)) rfl (Grammar.Value.text_ofText _ _) rfl rfl rfl⟩
  | gtEq attr hole =>
    cases hc
    exact ⟨_, printedAs_valued
      (.ge ⟨attr, ht⟩ (escapedValue .greaterOrEqual attr (σ hole))) rfl
      (Comparison.init_str .greaterOrEqual attr (σ hole)) rfl (Grammar.Value.text_ofText _ _) rfl rfl rfl⟩
  | ltEq attr hole =>
    cases hc
    exact ⟨_, printedAs_valued
      (.le ⟨attr, ht⟩ (escapedValue .lessOrEqual attr (σ hole))) rfl
      (Comparison.init_str .lessOrEqual attr (σ hole)) rfl (Grammar.Value.text_ofText _ _) rfl rfl rfl⟩
  | pres attr =>
    cases hc
    exact ⟨_, printedAs_presence ht⟩
  | extensible attr dn rule hole =>
    cases hc
    refine printedAs_extensible (σ hole) ht.1 ht.2.1 fun hrule => ?_
    exact (ht.2.2.resolve_left (by simp [hrule])).1
  -- an operator is no leaf
  | not t => cases hc
  | and ts => cases hc
  | or ts => cases hc

/-- A single leaf as the member of an operator. -/
theorem Template.printed_leaf (σ : Nat → PyStr) {t : Template} (ht : t.WellFormed)
    {c : Comparison} (hc : t.build σ = .comparison c) : Printed (t.build σ) := by
  obtain ⟨gc, hgc⟩ := Template.printedAs σ ht hc
  exact hc ▸ hgc.printed

mutual

/-- Every instance of a well-formed template is printed as some derivation. -/
theorem Template.printed (σ : Nat → PyStr) : ∀ t : Template, t.WellFormed → Printed (t.build σ)
  | .eq _ _, h => Template.printed_leaf σ h rfl
  | .approx _ _, h => Template.printed_leaf σ h rfl
  | .gtEq _ _, h => Template.printed_leaf σ h rfl
  | .ltEq _ _, h => Template.printed_leaf σ h rfl
  | .pres _, h => Template.printed_leaf σ h rfl
  | .extensible _ _ _ _, h => Template.printed_leaf σ h rfl
  | .not t, h => (t.printed σ h).not
  | .and ts, h => (ts.printed σ h).operator .and
  | .or ts, h => (ts.printed σ h).operator .or

theorem Templates.printed (σ : Nat → PyStr) : ∀ ts : Templates, ts.WellFormed →
    PrintedGroups (.ofList (ts.build σ))
  | .nil, _ => ⟨[], .nil, .nil, rfl⟩
  | .cons t ts, h => .cons (t.printed σ h.1) (ts.printed σ h.2)

end

/-! ## The two-run law -/

/-- Every derivation of an acceptable comparison without brackets is accepted. -/
theorem bare_transform_isOk {gc : Grammar.Comparison} (h : LeafAcceptable gc.text)
    {d : Grammar.Start} (hd : d.text = gc.text) : ∃ e', d.transform = .ok e' := by
  cases d with
  | group pre n post => exact absurd hd.symm (gc.text_ne_group pre n _)
  | bare c =>
    have htext : c.text = gc.text := hd
    obtain ⟨cmp, hcmp⟩ := Grammar.Leaf.transform_isOk (l := ⟨none, c, none⟩)
      (by simpa [Grammar.Leaf.text, htext] using h)
    have hcmp : c.transform = .ok cmp := hcmp
    exact ⟨_, by rw [Grammar.Start.transform, hcmp]; rfl⟩

/-- The text of a printed expression as a whole: a comparison stands without
brackets. -/
theorem Template.derivation (σ : Nat → PyStr) (t : Template) (ht : t.WellFormed) :
    ∃ d : Grammar.Start, d.text = (t.build σ).str ∧
      (t.build σ).outline leafShape = [d.outline readingShape] ∧
      ∀ d' : Grammar.Start, d'.text = d.text → ∃ e, d'.transform = .ok e := by
  cases he : t.build σ with
  | container cls es sep =>
    obtain ⟨o, n, hn, ho⟩ := t.printed σ ht
    rw [he] at hn ho
    have hstr : (Expressions.cons (.container cls es sep) .nil).groupStr
        = (Expression.container cls es sep).str := List.append_nil _
    rw [hstr] at hn
    refine ⟨.group none n none, by simp [Grammar.Start.text, hn.text], ?_, fun d' hd' => ?_⟩
    · rw [ho, ← hn.outline]
      rfl
    · exact hn.transform_isOk (by rw [hd']; simp [Grammar.Start.text, hn.text])
  | comparison c =>
    obtain ⟨gc, htext, hshape, hacceptable⟩ := Template.printedAs σ ht he
    refine ⟨.bare gc, htext, ?_, fun d' hd' => bare_transform_isOk (htext ▸ hacceptable) hd'⟩
    rw [Expression.outline, Grammar.Start.outline, hshape]

mutual

/-- The outline of an instance does not depend on the values. -/
theorem Template.outline_build (σ τ : Nat → PyStr) : ∀ t : Template,
    (t.build σ).outline leafShape = (t.build τ).outline leafShape
  | .eq _ _ => rfl
  | .approx _ _ => rfl
  | .gtEq _ _ => rfl
  | .ltEq _ _ => rfl
  | .pres _ => rfl
  | .extensible _ _ _ _ => rfl
  | .not t => by
    have h := t.outline_build σ τ
    simp only [Template.build, getNot, Expressions.ofList, Expression.outline, Expressions.outline, h]
  | .and ts => by
    have h := ts.outline_build σ τ
    simp only [Template.build, getAnd, Expression.outline, h]
  | .or ts => by
    have h := ts.outline_build σ τ
    simp only [Template.build, getOr, Expression.outline, h]

theorem Templates.outline_build (σ τ : Nat → PyStr) : ∀ ts : Templates,
    (Expressions.ofList (ts.build σ)).outline leafShape
      = (Expressions.ofList (ts.build τ)).outline leafShape
  | .nil => rfl
  | .cons t ts => by
    have h₁ := t.outline_build σ τ
    have h₂ := ts.outline_build σ τ
    simp only [Templates.build, Expressions.ofList, Expressions.outline, h₁, h₂]

end

/-- Injection safety: for every values of the holes the printed tree is
accepted, every derivation of it that the transformer accepts has the operators
and the leaf shapes of the tree, and so any two assignments of values give
filters of one structure. -/
theorem injection_safety (lark : LarkParser) (t : Template) (ht : t.WellFormed)
    (σ τ : Nat → PyStr) :
    Accepted lark (t.build σ).str ∧
    (∀ (d : Grammar.Start) (e : Expression), d.text = (t.build σ).str → d.transform = .ok e →
      e.outline leafShape = (t.build σ).outline leafShape) ∧
    (∀ (d d' : Grammar.Start) (e e' : Expression),
      d.text = (t.build σ).str → d.transform = .ok e →
      d'.text = (t.build τ).str → d'.transform = .ok e' →
      e.outline leafShape = e'.outline leafShape) := by
  have hstructure : ∀ (ρ : Nat → PyStr) (d : Grammar.Start) (e : Expression),
      d.text = (t.build ρ).str → d.transform = .ok e →
      e.outline leafShape = (t.build ρ).outline leafShape := by
    intro ρ d e hd he
    obtain ⟨d₀, htext, houtline, -⟩ := t.derivation ρ ht
    rw [houtline, d.outline_transform (fun c _ => observes_shape c) he,
      Grammar.Start.outline_unique readingShape (hd.trans htext.symm)]
  refine ⟨?_, hstructure σ, ?_⟩
  · obtain ⟨d, htext, -, hok⟩ := t.derivation σ ht
    rw [← htext]
    exact Filter.accepted_of_parse lark d fun d' _ hd' => hok d' hd'
  · intro d d' e e' hd he hd' he'
    rw [hstructure σ d e hd he, hstructure τ d' e' hd' he', t.outline_build σ τ]

/-- `(&(cn=…)(!(sn=*)))` with a hole for the value. -/
def cnTemplate : Template := .and (.cons (.eq (py "cn") 0) (.cons (.not (.pres (py "sn"))) .nil))

/-- A value that tries to close its own leaf and open another one. -/
theorem injection_safety_attack :
    Accepted resolver (cnTemplate.build fun _ => py "*)(uid=*").str :=
  (injection_safety resolver cnTemplate
    ⟨(by decide : Grammar.isAttr (py "cn") = true), (by decide : Grammar.isAttr (py "sn") = true),
      trivial⟩ (fun _ => py "*)(uid=*") fun _ => []).1

end FreeIam.Ldap
