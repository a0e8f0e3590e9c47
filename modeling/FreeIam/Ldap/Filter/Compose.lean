import FreeIam.Ldap.Filter.Reprint

/-!
# Composing parsed filters

`Filter.get_and`, `get_or` and `get_not` over the roots of parsed filters. The root
of a bracketed filter is an operator or a `Group`, which print their own brackets.
The root of a bare comparison is a `Container`, which prints none, and no operator
adds them: `Group.__str__` puts brackets around comparisons only.
-/

namespace FreeIam.Ldap

open FreeIam.Py FreeIam.Scan FreeIam.Bracket

/-- The printed expression is accepted, and it is the operator over the trees of the
filters in order. -/
def Composes (lark : LarkParser) (op : Operator) (e : Expression)
    (ps : List (ParsedFilter lark)) : Prop :=
  ∃ f, Filter.init lark (some e.str) = .ok f ∧
    f.outline leafMeaning = [.operator op (ps.flatMap fun p => p.filter.outline leafMeaning)]

/-- The opening brackets that an expression prints as a member. -/
def Expression.openings (e : Expression) : Nat := e.memberStr.count '('.toNat

section

variable {lark : LarkParser}

/-- Leaves that print as the texts of derived comparisons have no brackets, so a
tree of them prints one opening bracket for each of its nodes. -/
theorem Expression.openings_eq {e : Expression} (he : e.Regular)
    (hleaves : ∀ c ∈ e.leaves, ∃ l : Grammar.Leaf, l.text = c.str) :
    e.openings = Outline.nodesList (e.outline leafMeaning) := by
  have hcount := Tree.count_text (A := filterAlphabet) (b := '('.toNat) (by decide) (by decide)
    (e.layout_framed he)
  have hnone : e.layout.leaves.flatten.count '('.toNat = 0 := by
    refine List.count_eq_zero.mpr fun hmem => ?_
    obtain ⟨body, hbody, hb⟩ := List.mem_flatten.mp hmem
    rw [e.leaves_layout] at hbody
    obtain ⟨c, hc, rfl⟩ := List.mem_map.mp hbody
    obtain ⟨l, hl⟩ := hleaves c hc
    exact absurd (l.isPlain_text _ (hl ▸ hb)) (by decide)
  have hone : [filterAlphabet.opening, filterAlphabet.closing].count '('.toNat = 1 := by decide
  rw [e.text_layout he, hnone, hone, Nat.mul_one, Nat.add_zero] at hcount
  rw [e.nodes_outline leafMeaning he]
  exact hcount

theorem ParsedFilter.MadeOf.openings_eq (hfirst : lark.FirstListed) {p : ParsedFilter lark}
    {e : Expression} (h : p.MadeOf e) :
    p.root.openings = Outline.nodesList (p.filter.outline leafMeaning) := by
  have hstr : p.root.openings = e.openings := by
    rw [Expression.openings, Expression.memberStr, h.root, groupStr_start]
    rfl
  rw [hstr, p.outline_root, h.root, Grammar.start_outline]
  exact Expression.openings_eq h.regular fun c hc => ((h.parsed c hc).printed hfirst).1

/-- The root of a bare comparison prints no bracket, but it is a node. -/
theorem ParsedFilter.openings_lt (hfirst : lark.FirstListed) {p : ParsedFilter lark}
    (h : ¬ p.Bracketed) :
    p.root.openings < Outline.nodesList (p.filter.outline leafMeaning) := by
  rcases p.cases hfirst with ⟨⟨s, hs⟩, -⟩ | ⟨c, hc⟩
  · exact absurd (by rw [ParsedFilter.Bracketed, hs]; rfl) h
  · have hstr : p.root.memberStr = c.str := by
      rw [Expression.memberStr, hc.root]
      simp [Transformer.bare, Expressions.ofList, Expressions.groupStr, Expression.str,
        Expressions.str]
    have hnone : p.root.openings = 0 := by
      obtain ⟨gc, hgc⟩ := hc.str
      rw [Expression.openings, hstr, ← hgc]
      refine List.count_eq_zero.mpr fun hmem => ?_
      exact absurd (gc.isPlain_text _ hmem) (by decide)
    rw [hnone, p.outline_root, hc.root]
    exact Nat.one_pos

/-! ## Printing the members -/

theorem Expressions.outline_ofList {β : Type} (obs : Comparison → β) (es : List Expression) :
    (Expressions.ofList es).outline obs = es.flatMap fun e => e.outline obs := by
  induction es with
  | nil => rfl
  | cons e es ih => rw [Expressions.ofList, Expressions.outline, ih, List.flatMap_cons]

theorem Expressions.groupStr_ofList (es : List Expression) :
    (Expressions.ofList es).groupStr = es.flatMap Expression.memberStr := by
  induction es with
  | nil => rfl
  | cons e es ih =>
    rw [Expressions.ofList, Grammar.groupStr_cons, ih, List.flatMap_cons]
    rfl

theorem Expressions.count_ofList (es : List Expression) :
    (Expressions.ofList es).count = es.length := by
  induction es with
  | nil => rfl
  | cons e es ih => rw [Expressions.ofList, Expressions.count, ih, List.length_cons]

theorem Expressions.regular_ofList {es : List Expression} (h : ∀ e ∈ es, e.Regular) :
    (Expressions.ofList es).Regular := by
  induction es with
  | nil => trivial
  | cons e es ih =>
    exact ⟨h e List.mem_cons_self, ih fun e' he => h e' (List.mem_cons_of_mem _ he)⟩

theorem Expressions.mem_leaves_ofList {es : List Expression} {c : Comparison}
    (h : c ∈ (Expressions.ofList es).leaves) : ∃ e ∈ es, c ∈ e.leaves := by
  induction es with
  | nil => cases h
  | cons e es ih =>
    rcases List.mem_append.mp h with h | h
    · exact ⟨e, List.mem_cons_self, h⟩
    · obtain ⟨e', he, hc⟩ := ih h
      exact ⟨e', List.mem_cons_of_mem _ he, hc⟩

/-- `op(list(expressions))`. -/
def operatorOver (op : Operator) (es : List Expression) : Expression :=
  .container (.operator op) (.ofList es) none

theorem operatorOver_str (op : Operator) (es : List Expression) :
    (operatorOver op es).str = py "(" ++ [op.symbol] ++ es.flatMap Expression.memberStr ++ py ")"
    := by
  simp [operatorOver, Expression.str, Expressions.groupStr_ofList, op.expression_eq, orStr]

theorem memberStr_operatorOver (op : Operator) (es : List Expression) :
    (operatorOver op es).memberStr = (operatorOver op es).str := List.append_nil _

/-- The trees that the roots of bracketed filters are made of. -/
theorem exists_trees (hfirst : lark.FirstListed) : ∀ {ps : List (ParsedFilter lark)},
    (∀ p ∈ ps, p.Bracketed) → ∃ es : List Expression,
      ps.map ParsedFilter.root = es.map Transformer.start ∧
      (ps.flatMap fun p => p.filter.outline leafMeaning)
        = (es.flatMap fun e => e.outline leafMeaning) ∧
      ∀ e ∈ es, ∃ p : ParsedFilter lark, p.MadeOf e
  | [], _ => ⟨[], rfl, rfl, fun _ he => (List.not_mem_nil he).elim⟩
  | p :: ps, h => by
    obtain ⟨e, he⟩ := ParsedFilter.exists_madeOf hfirst (h p List.mem_cons_self)
    obtain ⟨es, hroots, houtlines, hmade⟩ :=
      exists_trees hfirst fun q hq => h q (List.mem_cons_of_mem _ hq)
    refine ⟨e :: es, ?_, ?_, ?_⟩
    · rw [List.map_cons, List.map_cons, hroots, he.root]
    · rw [List.flatMap_cons, List.flatMap_cons, houtlines, p.outline_root, he.root,
        Grammar.start_outline]
    · intro e' he'
      rcases List.mem_cons.mp he' with rfl | he'
      · exact ⟨p, he⟩
      · exact hmade e' he'

theorem flatMap_memberStr_start (es : List Expression) :
    (es.map Transformer.start).flatMap Expression.memberStr = es.flatMap Expression.memberStr := by
  induction es with
  | nil => rfl
  | cons e es ih =>
    rw [List.map_cons, List.flatMap_cons, List.flatMap_cons, ih]
    congr 1
    exact groupStr_start e .nil

/-- The roots of bracketed filters compose. -/
theorem composes_of_bracketed (hfirst : lark.FirstListed) (hspan : lark.SpanResolved)
    (htight : lark.NegationTight) (op : Operator) {ps : List (ParsedFilter lark)}
    (hop : op = .not → ps.length = 1) (h : ∀ p ∈ ps, p.Bracketed) :
    Composes lark op (operatorOver op (ps.map ParsedFilter.root)) ps := by
  obtain ⟨es, hroots, houtlines, hmade⟩ := exists_trees hfirst h
  have hstr : (operatorOver op (ps.map ParsedFilter.root)).str = (operatorOver op es).str := by
    rw [operatorOver_str, operatorOver_str, hroots, flatMap_memberStr_start]
  have hregular : (operatorOver op es).Regular := by
    refine ⟨.nil, fun hnot => ?_, Expressions.regular_ofList fun e he => ?_⟩
    · have hlength := congrArg List.length hroots
      rw [List.length_map, List.length_map] at hlength
      rw [Expressions.count_ofList, ← hlength, hop hnot]
    · obtain ⟨p, hp⟩ := hmade e he
      exact hp.regular
  have hleaf : ∀ c ∈ (operatorOver op es).leaves, ∃ (p : ParsedFilter lark) (e : Expression),
      p.MadeOf e ∧ c ∈ e.leaves := by
    intro c hc
    obtain ⟨e, he, hc⟩ := Expressions.mem_leaves_ofList hc
    obtain ⟨p, hp⟩ := hmade e he
    exact ⟨p, e, hp, hc⟩
  obtain ⟨f, hf, houtline⟩ := Filter.exists_reprint hfirst hspan htight hregular fun c hc =>
    (hleaf c hc).elim fun _ ⟨_, hp, hc⟩ => ⟨((hp.parsed c hc).printed hfirst).1, hp.known c hc⟩
  have hmeaning := Expression.outline_congr (g := leafMeaning) (operatorOver op es) fun c hc =>
    (hleaf c hc).elim fun _ ⟨_, hp, hc⟩ => ((hp.parsed c hc).printed hfirst).2
  refine ⟨f, by rw [hstr, ← memberStr_operatorOver]; exact hf, ?_⟩
  rw [houtline, hmeaning, operatorOver, Expression.outline, Expressions.outline_ofList, houtlines]

/-! ## Counting brackets -/

/-- An accepted text in brackets has one opening bracket for each node. -/
theorem Filter.openings_group (hfirst : lark.FirstListed) {s : PyStr} {f : Filter}
    (h : Filter.init lark (some ('('.toNat :: s)) = .ok f) :
    ('('.toNat :: s).count '('.toNat = Outline.nodesList (f.outline leafMeaning) := by
  obtain ⟨n, root, -, htext, -, -⟩ := Filter.init_group h
  have hcount := Tree.count_text (A := filterAlphabet) (b := '('.toNat) (by decide) (by decide)
    n.layout_wf.framed
  have hnone : n.layout.leaves.flatten.count '('.toNat = 0 := by
    refine List.count_eq_zero.mpr fun hmem => ?_
    obtain ⟨body, hbody, hb⟩ := List.mem_flatten.mp hmem
    exact absurd (n.layout_wf.plain body hbody _ hb) (by decide)
  have hone : [filterAlphabet.opening, filterAlphabet.closing].count '('.toNat = 1 := by decide
  rw [Filter.outline_group hfirst h htext, Outline.nodesList, treeOutline_nodes, ← htext,
    ← n.text_layout, hcount, hnone, hone]
  simp [Outline.nodesList]

/-- The members of an operator print at most one opening bracket for each node, and
as many only if each of them is bracketed. -/
theorem openings_members (hfirst : lark.FirstListed) (ps : List (ParsedFilter lark)) :
    ((ps.map ParsedFilter.root).flatMap Expression.memberStr).count '('.toNat
        ≤ Outline.nodesList (ps.flatMap fun p => p.filter.outline leafMeaning) ∧
      (((ps.map ParsedFilter.root).flatMap Expression.memberStr).count '('.toNat
        = Outline.nodesList (ps.flatMap fun p => p.filter.outline leafMeaning) →
        ∀ p ∈ ps, p.Bracketed) := by
  induction ps with
  | nil => exact ⟨Nat.le_refl 0, fun _ p hp => (List.not_mem_nil hp).elim⟩
  | cons p ps ih =>
    obtain ⟨hle, hall⟩ := ih
    rw [List.map_cons, List.flatMap_cons, List.flatMap_cons, List.count_append,
      Outline.nodesList_append]
    show p.root.openings + _ ≤ _ ∧ (p.root.openings + _ = _ → _)
    by_cases hp : p.Bracketed
    · obtain ⟨e, he⟩ := ParsedFilter.exists_madeOf hfirst hp
      have heq := he.openings_eq hfirst
      refine ⟨by omega, fun hcount q hq => ?_⟩
      rcases List.mem_cons.mp hq with rfl | hq
      · exact hp
      · exact hall (by omega) q hq
    · have hlt := ParsedFilter.openings_lt hfirst hp
      exact ⟨by omega, fun hcount => by omega⟩

/-- A printed operator that is accepted has as many opening brackets as nodes, so no
member is a bare comparison. -/
theorem bracketed_of_composes (hfirst : lark.FirstListed) (op : Operator)
    {ps : List (ParsedFilter lark)}
    (h : Composes lark op (operatorOver op (ps.map ParsedFilter.root)) ps) :
    ∀ p ∈ ps, p.Bracketed := by
  obtain ⟨f, hf, houtline⟩ := h
  have hstr : (operatorOver op (ps.map ParsedFilter.root)).str = '('.toNat :: ([op.symbol]
      ++ (ps.map ParsedFilter.root).flatMap Expression.memberStr ++ py ")") := by
    rw [operatorOver_str]
    rfl
  rw [hstr] at hf
  have hcount := Filter.openings_group hfirst hf
  have hsymbol : [op.symbol].count '('.toNat = 0 := by cases op <;> decide
  have hclosing : (py ")").count '('.toNat = 0 := by decide
  rw [houtline, List.count_cons_self, List.count_append, List.count_append, hsymbol, hclosing,
    Outline.nodesList, Outline.nodes, Outline.nodesList] at hcount
  exact (openings_members hfirst ps).2 (by omega)

/-- Parsed filters compose under an operator exactly if each of them is bracketed. -/
theorem composes_iff (hfirst : lark.FirstListed) (hspan : lark.SpanResolved)
    (htight : lark.NegationTight) (op : Operator) {ps : List (ParsedFilter lark)}
    (hop : op = .not → ps.length = 1) :
    Composes lark op (operatorOver op (ps.map ParsedFilter.root)) ps ↔ ∀ p ∈ ps, p.Bracketed :=
  ⟨bracketed_of_composes hfirst op, composes_of_bracketed hfirst hspan htight op hop⟩

end

/-- The three builders over the roots of parsed filters. -/
theorem parsed_filters_compose_iff {lark : LarkParser} (hfirst : lark.FirstListed)
    (hspan : lark.SpanResolved) (htight : lark.NegationTight) (ps : List (ParsedFilter lark)) :
    (Composes lark .and (getAnd (ps.map ParsedFilter.root)) ps ↔ ∀ p ∈ ps, p.Bracketed) ∧
    (Composes lark .or (getOr (ps.map ParsedFilter.root)) ps ↔ ∀ p ∈ ps, p.Bracketed) ∧
    ∀ p : ParsedFilter lark, Composes lark .not (getNot p.root) [p] ↔ p.Bracketed := by
  refine ⟨composes_iff hfirst hspan htight .and nofun,
    composes_iff hfirst hspan htight .or nofun, fun p => ?_⟩
  have hone : Composes lark .not (operatorOver .not ([p].map ParsedFilter.root)) [p] ↔
      ∀ q ∈ [p], q.Bracketed := composes_iff hfirst hspan htight .not fun _ => rfl
  rw [List.forall_mem_singleton] at hone
  exact hone

theorem parsed_filters_compose_two : ∃ p q : ParsedFilter resolver, p.text = py "(cn= John)" ∧
    q.text = py "( !(sn=*))" ∧ Composes resolver .and (getAnd [p.root, q.root]) [p, q] := by
  obtain ⟨p, hp, -⟩ := exists_parsedFilter (s := py "(cn= John)") (fun _ => true)
    (by decide +kernel)
  obtain ⟨q, hq, -⟩ := exists_parsedFilter (s := py "( !(sn=*))") (fun _ => true)
    (by decide +kernel)
  refine ⟨p, q, hp, hq, (parsed_filters_compose_iff resolver_firstListed resolver_spanResolved
    resolver_negationTight [p, q]).1.mpr ?_⟩
  intro r hr
  rcases List.mem_cons.mp hr with rfl | hr
  · rw [ParsedFilter.Bracketed, hp]
    rfl
  · rw [List.mem_singleton.mp hr, ParsedFilter.Bracketed, hq]
    rfl

/-- `Filter('cn=x')` under `&` prints as `(&cn=x)`, which is no filter. -/
theorem bare_filter_does_not_compose : ∃ p : ParsedFilter resolver, p.text = py "cn=x" ∧
    (getAnd [p.root]).str = py "(&cn=x)" ∧ ¬ Composes resolver .and (getAnd [p.root]) [p] := by
  let p : ParsedFilter resolver :=
    { text := py "cn=x"
      filter := ⟨some (py "cn=x"), containerOf [Transformer.bare (Transformer.equality (py "cn")
        ⟨py "x", none, none⟩)], some (.bare (.equality ⟨py "cn", by decide⟩
          ⟨none, some ⟨py "x", by decide, by decide⟩, none⟩))⟩
      root := Transformer.bare (Transformer.equality (py "cn") ⟨py "x", none, none⟩)
      parsed := by rfl
      isRoot := rfl }
  have hstr : (getAnd [p.root]).str = py "(&cn=x)" := by decide
  refine ⟨p, rfl, hstr, ?_⟩
  rintro ⟨f, hf, -⟩
  rw [hstr] at hf
  have hrefused : (Filter.init resolver (some (py "(&cn=x)"))).isOk = false := by decide +kernel
  rw [hf] at hrefused
  cases hrefused

end FreeIam.Ldap
