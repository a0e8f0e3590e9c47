import FreeIam.Ldap.Filter.Lossless
import FreeIam.Ldap.Filter.Resolver

/-!
# Pretty-printing

`Filter.pretty` drops the white space between the members of an operator and
puts every member on a line of its own. What it prints is again derived by the
grammar, with the operators and the readings of the filter, and the transformer
accepts it.
-/

namespace FreeIam.Ldap

open FreeIam.Py FreeIam.Scan FreeIam.Bracket

open Grammar (NotTight)

namespace Grammar

/-! ## Printed comparisons -/

/-- What an accepted value prints is derived as a value with the same core. -/
theorem Value.exists_printed {v : Grammar.Value} {s : ValueStr} (h : v.transform = .ok s) :
    ∃ v' : Grammar.Value, v'.text = s.printed ∧ strip v'.text = strip v.text := by
  rcases Value.printed_cases h with ⟨-, hprinted⟩ | ⟨a, b, hsplit, ha, hb, hne, hprinted⟩
  · exact ⟨v, hprinted.symm, rfl⟩
  · have hvalid : isValueText v.token = true := by
      rw [Value.token]
      cases v.body with
      | none => rfl
      | some tok => exact tok.valid
    -- the core with the white space of the token where the margin is free
    have hcore : ∀ x y : PyStr, (x = a ∨ x = []) → (y = b ∨ y = []) →
        x ++ strip v.token ++ y ≠ [] ∧ isValueText (x ++ strip v.token ++ y) = true := by
      intro x y hx hy
      refine ⟨by simp [hne], ?_⟩
      have hleft : isValueText (x ++ strip v.token ++ b) = true := by
        rcases hx with rfl | rfl
        · rwa [← hsplit]
        · rw [hsplit, List.append_assoc] at hvalid
          exact isValueText_of_space_append ha hvalid
      rcases hy with rfl | rfl
      · exact hleft
      · rw [List.append_nil]
        exact isValueText_of_append_space hb hleft
    obtain ⟨htok, hvalid'⟩ := hcore (if v.lead = none then a else []) (if v.trail = none then b else [])
      (by split <;> simp) (by split <;> simp)
    refine ⟨⟨v.lead, some ⟨_, htok, hvalid'⟩, v.trail⟩, ?_, ?_⟩
    · have hlead : ∀ (w : Ows) (m : PyStr), Ows.text w ++ (if w = none then m else [])
          = if w = none then m else Ows.text w := by
        intro w m
        cases w <;> simp
      have htrail : ∀ (w : Ows) (m : PyStr), (if w = none then m else []) ++ Ows.text w
          = if w = none then m else Ows.text w := by
        intro w m
        cases w <;> simp
      rw [hprinted, ← hlead, ← htrail]
      simp only [Value.text, Option.elim, List.append_assoc]
    · have hspaces : ∀ (w : Ows) (m : PyStr), All isSpace m →
          All isSpace (if w = none then m else []) := by
        intro w m hm
        split
        · exact hm
        · exact .nil
      rw [Value.strip_text, Value.strip_text]
      have hstrip := strip_append (l := Py.strip v.token) (hspaces v.lead a ha)
        (hspaces v.trail b hb)
      rw [strip_strip] at hstrip
      exact hstrip

/-- What an accepted comparison prints is derived as a comparison with the same
reading. -/
theorem Comparison.exists_str {c : Grammar.Comparison} {cmp : Ldap.Comparison}
    (h : c.transform = .ok cmp) :
    ∃ c' : Grammar.Comparison, c'.text = cmp.str ∧ c'.reading = c.reading := by
  by_cases hlone : c.LoneAsterisk
  · -- a lone asterisk is printed as a presence match
    cases c with
    | substring attr v =>
      refine ⟨.presence attr, ?_, ?_⟩
      · rcases transform_cases h with ⟨-, -, rfl⟩ | ⟨attr', v', s, hc, -, hne, -⟩ |
          ⟨cls, v', s, hc, -⟩
        · simp [Comparison.text, Ldap.Comparison.str, Comparison.init, ComparisonClass.expression,
            Ldap.Comparison.escaped, attrText]
        · cases hc
          exact absurd hlone.1 hne
        · cases hc
      · show Reading.mk _ _ (strip (py "*")) = Reading.mk _ _ (strip v.text)
        rw [hlone.1]
        rfl
    | _ => exact hlone.elim
  · cases hc : c.valued with
    | none =>
      -- without one assertion value the comparison prints as it is
      refine ⟨c, ?_, rfl⟩
      refine ((Comparison.str_spec h hlone).2.mpr fun cls v hc' => ?_).symm
      rw [hc] at hc'
      cases hc'
    | some p =>
      obtain ⟨cls, v⟩ := p
      rcases transform_cases h with ⟨-, hstar, -⟩ | ⟨attr, w, s, rfl, -⟩ |
        ⟨cls', v', s, hc', -, hv, rfl⟩
      · exact absurd hstar (valued_notMem hc)
      · cases hc
      · rw [hc] at hc'
        cases hc'
        obtain ⟨v', htext, hstrip⟩ := Value.exists_printed hv
        refine ⟨c.setValue v', ?_, ?_⟩
        · rw [text_eq, attrText_setValue, opHead_setValue, rest_setValue hc, htext,
            comparisonOf_str, valued_prefixText hc]
          simp [py]
        · rw [reading, reading, attrText_setValue, opHead_setValue, rest_setValue hc,
            valued_rest hc, hstrip]

/-! ## Pretty-printed nodes -/

/-- A printed leaf on which the transformer cannot fail: its text is acceptable,
or it is the text of an accepted leaf. -/
def LeafKept (leaves : List Leaf) (body : PyStr) : Prop :=
  LeafAcceptable body ∨ ∃ l ∈ leaves, l.text = body ∧ ∃ cmp, l.comparison.transform = .ok cmp

theorem LeafKept.mono {ls ms : List Leaf} {body : PyStr} (h : LeafKept ls body)
    (hsub : ∀ l ∈ ls, l ∈ ms) : LeafKept ms body :=
  h.imp_right fun ⟨l, hl, hrest⟩ => ⟨l, hsub l hl, hrest⟩

/-- The printed leaf of an accepted leaf, as an expression of its own. -/
theorem Leaf.exists_pretty {l : Leaf} {cmp : Ldap.Comparison}
    (h : l.comparison.transform = .ok cmp) :
    ∃ l' : Leaf, l'.text = Ows.text l.lead ++ cmp.str ++ Ows.text l.trail ∧
      l'.comparison.reading = l.comparison.reading ∧ LeafKept [l] l'.text := by
  obtain ⟨c', htext, hreading⟩ := Comparison.exists_str h
  have hbody : (Leaf.mk l.lead c' l.trail).text
      = Ows.text l.lead ++ cmp.str ++ Ows.text l.trail := by
    rw [Leaf.text, htext]
  refine ⟨⟨l.lead, c', l.trail⟩, hbody, hreading, ?_⟩
  obtain ⟨hacceptable, hvalue⟩ := l.comparison.transform_isOk_iff.mp ⟨cmp, h⟩
  have hread : readComparison (Leaf.mk l.lead c' l.trail).text = l.comparison.reading := by
    rw [Leaf.reading_text, hreading]
  by_cases hblank : l.comparison.reading.value = []
  · -- a value without a token is printed as it was read
    right
    refine ⟨l, List.mem_singleton.mpr rfl, ?_, cmp, h⟩
    have hlone : ¬ l.comparison.LoneAsterisk := by
      intro hlone
      cases hc : l.comparison with
      | substring attr v =>
        rw [hc] at hlone hblank
        have hstar : Py.strip v.text = py "*" := hlone.1
        have hnil : Py.strip v.text = [] := hblank
        rw [hstar] at hnil
        cases hnil
      | _ => rw [hc] at hlone; exact hlone.elim
    have hkept : l.comparison.EdgesKept := by
      intro cls v hc
      have hnone : v.body = none := by
        have := hvalue.resolve_left (by simpa using hblank)
        rw [Comparison.valueless, hc] at this
        simpa using this
      exact ⟨.inr (by simp [hnone]), .inr (by simp [hnone])⟩
    rw [hbody, (Comparison.str_spec h hlone).2.mpr hkept]
    rfl
  · left
    exact ⟨hread ▸ hacceptable, .inl (hread ▸ hblank)⟩

theorem pad_chars (level : Nat) : All isWS (pad level) := by
  induction level with
  | zero => exact .nil
  | succ level ih => exact all_append.mpr ⟨by decide, ih⟩

/-- A line break and the indentation of a level. -/
def newline (level : Nat) : Ows :=
  Ows.ofText (py "\n" ++ pad level) (all_append.mpr ⟨by decide, pad_chars level⟩)

@[simp] theorem text_newline (level : Nat) : Ows.text (newline level) = py "\n" ++ pad level :=
  Ows.text_ofText _ _

/-- Lines, each begun by a line break. -/
def lines (ps : List PyStr) : PyStr := ps.flatMap (py "\n" ++ ·)

/-- A line break in front of joined lines begins the first of them, if there is
one. -/
theorem newline_join (ps : List PyStr) :
    py "\n" ++ join (py "\n") ps = (if ps = [] then py "\n" else []) ++ lines ps := by
  induction ps with
  | nil => rfl
  | cons p ps ih =>
    cases ps with
    | nil => simp [join, lines, List.intercalate]
    | cons q ps =>
      have hjoin : join (py "\n") (p :: q :: ps) = p ++ (py "\n" ++ join (py "\n") (q :: ps)) := by
        simp [join, List.intercalate]
      rw [hjoin, ih]
      simp [lines]

@[simp] theorem prettyAt_consToken (t : Option PyStr) (es : Expressions) (level : Nat) :
    (Transformer.consToken t es).prettyAt level = es.prettyAt level := by
  cases t <;> rfl

@[simp] theorem prettyAt_filterItems (ld tr : Option PyStr) (es : Expressions) (level : Nat) :
    (Transformer.filterItems ld es tr).prettyAt level = es.prettyAt level := by
  simp [Transformer.filterItems, Expressions.prettyAt]

theorem prettyAt_listOperator (op : ListOp) (es : Expressions) (sep : Option PyStr) (level : Nat) :
    (Expression.container (.operator op.operator) es sep).prettyAt level
      = pad level ++ (py "(" ++ [op.symbol] ++ (py "\n" ++ join (py "\n") (es.prettyAt (level + 1)))
        ++ (py "\n" ++ pad level) ++ py ")") := by
  cases op <;> simp [Expression.prettyAt, ListOp.operator, Operator.expression, ListOp.symbol, py]

section

variable {β : Type} (g : Reading → β)

/-- A node that derives a pretty-printed line without its indentation. -/
structure PrettyNode (n : Node) (line : PyStr) (n' : Node) : Prop where
  text : n'.text = line
  tight : NotTight n'.layout
  outline : n'.outline g = n.outline g
  leaves : ∀ l ∈ n'.expressions, LeafKept n.expressions l.text

/-- Groups that derive pretty-printed lines. -/
structure PrettyGroups (gs : Groups) (ps : List PyStr) (gs' : Groups) : Prop where
  text : gs'.text = lines ps
  tight : ∀ trail, (gs'.layout trail).TightAt (· = '!'.toNat)
  outline : gs'.outline g = gs.outline g
  leaves : ∀ l ∈ gs'.expressions, LeafKept gs.expressions l.text

mutual

/-- What is pretty-printed for an accepted node is derived again. -/
theorem Node.exists_pretty : ∀ (n : Node) {e : Expression}, n.transform = .ok e → ∀ level : Nat,
    ∃ line n', e.prettyAt level = pad level ++ line ∧ PrettyNode g n line n'
  | .expression lead c trail, e, h, level => by
    obtain ⟨cmp, hc, rfl⟩ := Node.transform_expression h
    obtain ⟨l', htext, hreading, hkept⟩ := Leaf.exists_pretty (l := ⟨lead, c, trail⟩) hc
    refine ⟨py "(" ++ l'.text ++ py ")", .expression l'.lead l'.comparison l'.trail, ?_,
      ⟨rfl, trivial, ?_, ?_⟩⟩
    · rw [Expression.prettyAt, Comparison.str_expression hc, htext]
      simp
    · rw [Node.outline, Node.outline, hreading]
    · intro l hl
      rw [List.mem_singleton.mp hl]
      exact hkept
  | .listOperator op sep lead groups trail, e, h, level => by
    obtain ⟨es, hes, rfl⟩ := Node.transform_listOperator h
    obtain ⟨gs', hgs⟩ := groups.exists_pretty hes (level + 1)
    -- without members there is only a line break
    have hfirst : All isWS (if es.prettyAt (level + 1) = [] then py "\n" else []) := by
      split
      · decide
      · exact .nil
    refine ⟨_, .listOperator op none (Ows.ofText _ hfirst) gs' (newline level),
      by rw [prettyAt_listOperator, prettyAt_filterItems, newline_join], ⟨?_, ?_, ?_, hgs.leaves⟩⟩
    · simp [Node.text, hgs.text]
    · refine ⟨fun hnot => ?_, hgs.tight _⟩
      cases op <;> cases hnot
    · rw [Node.outline, Node.outline, hgs.outline]
  | .notOperator sep lead pre node post trail, e, h, level => by
    obtain ⟨e', he', -, -, rfl⟩ := Node.transform_notOperator h
    obtain ⟨line, n', hline, hn⟩ := node.exists_pretty he' 0
    refine ⟨py "(" ++ py "!" ++ line ++ py ")", .notOperator none none none n' none none, ?_,
      ⟨?_, ⟨fun _ => ⟨rfl, rfl, trivial⟩, hn.tight, trivial⟩, ?_, hn.leaves⟩⟩
    · simp [Transformer.notOperator, Expression.prettyAt, Expressions.prettyAt, hline, pad, join,
        List.intercalate, Operator.expression]
    · simp [Node.text, hn.text]
    · rw [Node.outline, Node.outline, hn.outline]

theorem Groups.exists_pretty : ∀ (gs : Groups) {es : Expressions}, gs.transform = .ok es →
    ∀ level : Nat, ∃ gs', PrettyGroups g gs (es.prettyAt level) gs'
  | .nil, es, h, level => by
    cases h
    exact ⟨.nil, ⟨rfl, fun _ => trivial, rfl, fun _ hl => (List.not_mem_nil hl).elim⟩⟩
  | .cons pre node post rest, es, h, level => by
    obtain ⟨e, es', he, hes', rfl⟩ := Groups.transform_cons h
    obtain ⟨line, n', hline, hn⟩ := node.exists_pretty he level
    obtain ⟨gs', hgs⟩ := rest.exists_pretty hes' level
    refine ⟨.cons (newline level) n' none gs', ⟨?_, fun trail => ⟨hn.tight, hgs.tight trail⟩, ?_, ?_⟩⟩
    · simp [Groups.text, Expressions.prettyAt, lines, hline, hn.text, hgs.text]
    · rw [Groups.outline, Groups.outline, hn.outline, hgs.outline]
    · intro l hl
      rcases List.mem_append.mp hl with hl | hl
      · exact (hn.leaves l hl).mono fun m hm => List.mem_append_left _ hm
      · exact (hgs.leaves l hl).mono fun m hm => List.mem_append_right _ hm

end

end

end Grammar

/-! ## Reparsing -/

/-- What a leaf is printed from: its attribute, its operator prefix and its raw
value. -/
def leafText (c : Comparison) : PyStr × PyStr × PyStr := (c.attr, c.prefixText, c.rawValue)

/-- The same of a reading. -/
def readingText (r : Reading) : PyStr × PyStr × PyStr := (r.attr, r.prefixText, r.rawValue)

theorem prettyAt_start (e : Expression) (level : Nat) :
    (Transformer.start e).prettyAt level = e.prettyAt level := by
  cases e with
  | comparison c =>
    simp [Transformer.start, Expressions.ofList, Expression.prettyAt, Expressions.prettyAt, join,
      List.intercalate]
  | container cls es sep => rfl

/-- A derivation without a comparison that the transformer can refuse is the
derivation of an accepted filter. -/
theorem reparse {lark : LarkParser} (hspan : lark.SpanResolved) {s : PyStr} {d : Grammar.Start}
    (hparse : lark.parse s = some d) {n : Grammar.Node} (htight : NotTight n.layout)
    (hleaves : ∀ l ∈ n.expressions, Grammar.LeafKept d.expressions l.text) :
    ∃ f, Filter.init lark (some n.text) = .ok f ∧ f.outline leafText = [n.outline readingText] := by
  have htext : (Grammar.Start.group none n none).text = n.text := by simp [Grammar.Start.text]
  have hacc : Accepted lark n.text := by
    rw [← htext]
    refine Filter.accepted_of_parse lark _ fun d' hparse' hd' => ?_
    refine Grammar.Node.transform_of_text htight (hd'.trans htext) fun l hl hmem => ?_
    rw [n.leaves_layout] at hmem
    obtain ⟨m, hm, hml⟩ := List.mem_map.mp hmem
    rcases hml ▸ hleaves m hm with hacceptable | ⟨l₀, hl₀, htext₀, haccepted⟩
    · exact Grammar.Leaf.transform_isOk hacceptable
    · -- the leaf was read and accepted before, and is resolved the same way again
      rw [← hspan s _ d d' hparse hparse' l₀ hl₀ l hl htext₀]
      exact haccepted
  obtain ⟨f, hf⟩ := hacc
  exact ⟨f, hf, Filter.outline_eq hf (fun _ _ c _ => observes_text c) htext⟩

/-- A value that is nothing but white space would have been read as a token and
refused. -/
theorem bare_rest_of_blank {lark : LarkParser} (htoken : lark.TokenFirst) {s : PyStr}
    {c : Grammar.Comparison} (hparse : lark.parse s = some (.bare c)) {cmp : Comparison}
    (h : c.transform = .ok cmp) (hblank : c.reading.value = []) : c.rest = [] := by
  have hnone := (c.transform_isOk_iff.mp ⟨cmp, h⟩).2.resolve_left (not_not_intro hblank)
  cases hc : c.valued with
  | none => rw [Grammar.Comparison.valueless, hc] at hnone; cases hnone
  | some p =>
    obtain ⟨cls, v⟩ := p
    rw [Grammar.Comparison.valueless, hc] at hnone
    rw [Grammar.Comparison.valued_rest hc]
    exact htoken s _ hparse c (List.mem_singleton.mpr rfl) cls v hc (by simpa using hnone)

/-- The leaf of a bare comparison is acceptable between brackets. -/
theorem bare_leafKept {lark : LarkParser} (htoken : lark.TokenFirst) {s : PyStr}
    {c : Grammar.Comparison} (hparse : lark.parse s = some (.bare c)) {cmp : Comparison}
    (h : c.transform = .ok cmp) :
    ∃ l : Grammar.Leaf, l.text = cmp.str ∧ l.comparison.reading = c.reading ∧
      LeafAcceptable l.text := by
  obtain ⟨l, htext, hreading, hkept⟩ := Grammar.Leaf.exists_pretty (l := ⟨none, c, none⟩) h
  have htext : l.text = cmp.str := by simpa using htext
  refine ⟨l, htext, hreading, ?_⟩
  rcases hkept with hacceptable | ⟨l₀, hl₀, htext₀, -⟩
  · exact hacceptable
  · have hself : l.text = c.text := by
      rw [← htext₀, List.mem_singleton.mp hl₀]
      simp [Grammar.Leaf.text]
    have hread : readComparison l.text = c.reading := by rw [l.reading_text, hreading]
    have hrest : readRest l.text = c.rest := by
      rw [hself]
      simpa using c.readRest_text none none
    refine ⟨hread ▸ (c.transform_isOk_iff.mp ⟨cmp, h⟩).1, ?_⟩
    rw [hread, hrest]
    exact or_iff_not_imp_left.mpr fun hvalue =>
      bare_rest_of_blank htoken hparse h (not_not.mp hvalue)

/-- Pretty-printing preserves the filter: the printed text is accepted, and it
has the operators and the leaves of the filter. -/
theorem pretty_preserves {lark : LarkParser} (htoken : lark.TokenFirst)
    (hspan : lark.SpanResolved) {s : PyStr} {f : Filter}
    (h : Filter.init lark (some s) = .ok f) :
    ∃ f', Filter.init lark (some (f.pretty 0)) = .ok f' ∧
      f'.outline leafText = f.outline leafText := by
  rcases Filter.init_cases h with ⟨-, rfl⟩ | ⟨-, d, root, hparse, hd, hroot, rfl⟩
  · -- the empty filter prints as the empty filter
    exact ⟨⟨some [], containerOf [], none⟩, rfl, rfl⟩
  · have houtline : Filter.outline leafText ⟨some s, containerOf [root], some d⟩
        = [d.outline readingText] :=
      Filter.outline_eq h (fun _ _ c _ => observes_text c) hd
    rw [houtline]
    show ∃ f', Filter.init lark (some (root.prettyAt 0)) = .ok f' ∧ _
    cases d with
    | group pre n post =>
      obtain ⟨e, he, -, -, rfl⟩ := Grammar.Start.transform_group hroot
      obtain ⟨line, n', hline, hn⟩ := n.exists_pretty readingText he 0
      have hpretty : (Transformer.start e).prettyAt 0 = n'.text := by
        rw [prettyAt_start, hline, hn.text]
        rfl
      rw [hpretty]
      obtain ⟨f', hf', hf'outline⟩ := reparse hspan hparse hn.tight hn.leaves
      exact ⟨f', hf', by rw [hf'outline, hn.outline]; rfl⟩
    | bare c =>
      obtain ⟨cmp, hc, rfl⟩ := Grammar.Start.transform_bare hroot
      -- a bare comparison is printed in brackets
      obtain ⟨l, htext, hreading, hacceptable⟩ := bare_leafKept htoken hparse hc
      have hpretty : (Transformer.bare cmp).prettyAt 0
          = (Grammar.Node.expression l.lead l.comparison l.trail).text := by
        simp only [Transformer.bare, Expressions.ofList, Expression.prettyAt,
          Expressions.prettyAt, Grammar.Node.text]
        show _ = py "(" ++ l.text ++ py ")"
        rw [htext]
        simp [join, List.intercalate, pad]
      rw [hpretty]
      obtain ⟨f', hf', hf'outline⟩ := reparse hspan hparse
        (n := .expression l.lead l.comparison l.trail) trivial fun m hm => by
          rw [List.mem_singleton.mp hm]
          exact .inl hacceptable
      refine ⟨f', hf', ?_⟩
      rw [hf'outline, Grammar.Node.outline, hreading]
      rfl

theorem pretty_preserves_and :
    ∃ f f', Filter.init resolver (some (py "(&(cn= John)( !(sn=*)))")) = .ok f ∧
      Filter.init resolver (some (f.pretty 0)) = .ok f' ∧
      f'.outline leafText = f.outline leafText := by
  obtain ⟨f, hf⟩ : Accepted resolver (py "(&(cn= John)( !(sn=*)))") :=
    .of_isOk (by decide +kernel)
  obtain ⟨f', hf', houtline⟩ := pretty_preserves resolver_tokenFirst resolver_spanResolved hf
  exact ⟨f, f', hf, hf', houtline⟩

end FreeIam.Ldap
