import FreeIam.Ldap.Filter.Injection
import FreeIam.Ldap.Filter.Pretty
import FreeIam.Ldap.Filter.Whitespace

/-!
# Printing a tree and parsing it again

A tree that the transformer has built, or that was put together from such trees,
prints as a bracketed text again: `Expression.layout`. A parse of that text has the
operators of the tree and its leaf texts, unless the text of a leaf has brackets of
its own; and it is accepted if every leaf is.
-/

namespace FreeIam.Ldap

open FreeIam.Py FreeIam.Scan FreeIam.Bracket

/-! ## Leaves -/

mutual

/-- The comparisons of an expression, from left to right. -/
def Expression.leaves : Expression → List Comparison
  | .comparison c => [c]
  | .container _ es _ => es.leaves

def Expressions.leaves : Expressions → List Comparison
  | .nil => []
  | .token _ rest => rest.leaves
  | .cons e rest => e.leaves ++ rest.leaves

end

section

variable {β : Type} {f g : Comparison → β}

mutual

/-- An outline depends on what is observed of the leaves only. -/
theorem Expression.outline_congr : ∀ e : Expression, (∀ c ∈ e.leaves, f c = g c) →
    e.outline f = e.outline g
  | .comparison c, h => by
    rw [Expression.outline, Expression.outline, h c (List.mem_singleton.mpr rfl)]
  | .container (.operator op) es _, h => by
    rw [Expression.outline, Expression.outline, es.outline_congr h]
  | .container .group es _, h => es.outline_congr h
  | .container .container es _, h => es.outline_congr h

theorem Expressions.outline_congr : ∀ es : Expressions, (∀ c ∈ es.leaves, f c = g c) →
    es.outline f = es.outline g
  | .nil, _ => rfl
  | .token _ rest, h => rest.outline_congr h
  | .cons e rest, h => by
    rw [Expressions.outline, Expressions.outline,
      e.outline_congr fun c hc => h c (List.mem_append_left _ hc),
      rest.outline_congr fun c hc => h c (List.mem_append_right _ hc)]

end

mutual

theorem Expression.length_outline : ∀ e : Expression,
    (e.outline f).length = (e.outline g).length
  | .comparison _ => rfl
  | .container (.operator _) _ _ => rfl
  | .container .group es _ => es.length_outline
  | .container .container es _ => es.length_outline

theorem Expressions.length_outline : ∀ es : Expressions,
    (es.outline f).length = (es.outline g).length
  | .nil => rfl
  | .token _ rest => rest.length_outline
  | .cons e rest => by
    rw [Expressions.outline, Expressions.outline, List.length_append, List.length_append,
      e.length_outline, rest.length_outline]

end

mutual

/-- Equal outlines of one tree come from equal observations. -/
theorem Expression.outline_inj : ∀ e : Expression, e.outline f = e.outline g →
    ∀ c ∈ e.leaves, f c = g c
  | .comparison c, h, c', hc => by
    rw [List.mem_singleton.mp hc]
    exact Outline.leaf.inj (List.cons.inj h).1
  | .container (.operator _) es _, h, c, hc =>
    es.outline_inj (Outline.operator.inj (List.cons.inj h).1).2 c hc
  | .container .group es _, h, c, hc => es.outline_inj h c hc
  | .container .container es _, h, c, hc => es.outline_inj h c hc

theorem Expressions.outline_inj : ∀ es : Expressions, es.outline f = es.outline g →
    ∀ c ∈ es.leaves, f c = g c
  | .token _ rest, h, c, hc => rest.outline_inj h c hc
  | .cons e rest, h, c, hc => by
    obtain ⟨he, hrest⟩ := List.append_inj h e.length_outline
    rcases List.mem_append.mp hc with hc | hc
    · exact e.outline_inj he c hc
    · exact rest.outline_inj hrest c hc

end

end

mutual

/-- The leaves and operators of an outline. -/
def Outline.nodes {β : Type} : Outline β → Nat
  | .leaf _ => 1
  | .operator _ members => Outline.nodesList members + 1

def Outline.nodesList {β : Type} : List (Outline β) → Nat
  | [] => 0
  | o :: os => o.nodes + Outline.nodesList os

end

theorem Outline.nodesList_append {β : Type} (os ps : List (Outline β)) :
    Outline.nodesList (os ++ ps) = Outline.nodesList os + Outline.nodesList ps := by
  induction os with
  | nil => simp [Outline.nodesList]
  | cons o os ih =>
    rw [List.cons_append, Outline.nodesList, Outline.nodesList, ih, Nat.add_assoc]

mutual

/-- What is observed of the leaves, from left to right. -/
def Outline.leaves {β : Type} : Outline β → List β
  | .leaf b => [b]
  | .operator _ members => Outline.leavesList members

def Outline.leavesList {β : Type} : List (Outline β) → List β
  | [] => []
  | o :: os => o.leaves ++ Outline.leavesList os

end

theorem Outline.leavesList_append {β : Type} (os ps : List (Outline β)) :
    Outline.leavesList (os ++ ps) = Outline.leavesList os ++ Outline.leavesList ps := by
  induction os with
  | nil => rfl
  | cons o os ih =>
    rw [List.cons_append, Outline.leavesList, Outline.leavesList, ih, List.append_assoc]

mutual

/-- An outline lists the observed leaves. -/
theorem Expression.leaves_outline {β : Type} (f : Comparison → β) : ∀ e : Expression,
    Outline.leavesList (e.outline f) = e.leaves.map f
  | .comparison _ => rfl
  | .container (.operator _) es _ =>
    (List.append_nil _).trans (es.leaves_outline f)
  | .container .group es _ => es.leaves_outline f
  | .container .container es _ => es.leaves_outline f

theorem Expressions.leaves_outline {β : Type} (f : Comparison → β) : ∀ es : Expressions,
    Outline.leavesList (es.outline f) = es.leaves.map f
  | .nil => rfl
  | .token _ rest => rest.leaves_outline f
  | .cons e rest => by
    rw [Expressions.outline, Outline.leavesList_append, e.leaves_outline f, rest.leaves_outline f,
      Expressions.leaves, List.map_append]

end

mutual

theorem treeOutline_nodes {β : Type} (g : Reading → β) : ∀ t : Bracket.Tree Nat,
    (treeOutline g t).nodes = t.nodes
  | .leaf _ => rfl
  | .node _ _ _ members => by
    rw [treeOutline, Outline.nodes, membersOutline_nodes g members, Bracket.Tree.nodes]

theorem membersOutline_nodes {β : Type} (g : Reading → β) : ∀ ms : Members Nat,
    Outline.nodesList (membersOutline g ms) = ms.nodes
  | .nil => rfl
  | .cons head _ tail => by
    rw [membersOutline, Outline.nodesList, treeOutline_nodes g head, membersOutline_nodes g tail,
      Members.nodes]

end

/-! ## Regular trees -/

/-- The symbol of an operator. -/
def Operator.symbol : Operator → Nat
  | .and => '&'.toNat
  | .or => '|'.toNat
  | .not => '!'.toNat

theorem Operator.expression_eq (op : Operator) : op.expression = [op.symbol] := by
  cases op <;> rfl

theorem Operator.operatorOf_symbol (op : Operator) : operatorOf op.symbol = op := by
  cases op <;> rfl

theorem Operator.isOpSymbol (op : Operator) : isOpSymbol op.symbol = true := by
  cases op <;> decide

/-- The number of members that are no tokens. -/
def Expressions.count : Expressions → Nat
  | .nil => 0
  | .token _ rest => rest.count
  | .cons _ rest => rest.count + 1

mutual

/-- Operators around operators and comparisons, with white space tokens between
them and one member in each negation. -/
def Expression.Regular : Expression → Prop
  | .comparison _ => True
  | .container (.operator op) es sep =>
    All Grammar.isWS (orStr sep []) ∧ (op = .not → es.count = 1) ∧ es.Regular
  | .container _ _ _ => False

def Expressions.Regular : Expressions → Prop
  | .nil => True
  | .token t rest => All Grammar.isWS t ∧ rest.Regular
  | .cons e rest => e.Regular ∧ rest.Regular

end

/-- The tokens in front of the first member, or of the closing bracket. -/
def Expressions.firstRun : Expressions → PyStr
  | .nil => []
  | .token t rest => t ++ rest.firstRun
  | .cons _ _ => []

mutual

/-- The bracketed text of a member of an operator. -/
def Expression.layout : Expression → Bracket.Tree Nat
  | .comparison c => .leaf c.str
  | .container (.operator op) es sep =>
    .node [] op.symbol (orStr sep [] ++ es.firstRun) es.layout
  | .container _ es _ => .node [] 0 [] es.layout

def Expressions.layout : Expressions → Members Nat
  | .nil => .nil
  | .token _ rest => rest.layout
  | .cons e rest => .cons e.layout rest.firstRun rest.layout

end

theorem Expressions.layout_of_count_zero : ∀ es : Expressions, es.count = 0 → es.layout = .nil
  | .nil, _ => rfl
  | .token _ rest, h => rest.layout_of_count_zero h

/-- One member, with the white space behind it. -/
theorem Expressions.layout_of_count_one : ∀ es : Expressions, es.count = 1 →
    ∃ t run, es.layout = .cons t run .nil
  | .token _ rest, h => rest.layout_of_count_one h
  | .cons _ rest, h =>
    ⟨_, _, by rw [Expressions.layout, rest.layout_of_count_zero (Nat.succ.inj h)]⟩

/-- An expression as `Group.__str__` prints a member. -/
def Expression.memberStr (e : Expression) : PyStr := (Expressions.cons e .nil).groupStr

mutual

theorem Expression.text_layout : ∀ e : Expression, e.Regular →
    e.layout.text filterAlphabet = e.memberStr
  | .comparison c, _ => by
    simp [Expression.layout, Bracket.Tree.text, Expression.memberStr, Expressions.groupStr, py]
  | .container (.operator op) es sep, h => by
    have hes := es.text_layout h.2.2
    simp only [Expression.layout, Bracket.Tree.text, Expression.memberStr, Expressions.groupStr,
      Expression.str, List.append_assoc, op.expression_eq]
    rw [← List.append_assoc es.firstRun, hes]
    simp [py]

theorem Expressions.text_layout : ∀ es : Expressions, es.Regular →
    es.firstRun ++ es.layout.text filterAlphabet = es.groupStr
  | .nil, _ => rfl
  | .token t rest, h => by
    rw [Expressions.firstRun, Expressions.layout, List.append_assoc, rest.text_layout h.2,
      Expressions.groupStr]
  | .cons e rest, h => by
    have he := e.text_layout h.1
    have hrest := rest.text_layout h.2
    rw [Grammar.groupStr_cons, ← hrest]
    simp only [Expressions.firstRun, Expressions.layout, Members.text, List.nil_append, he]
    rfl

end

mutual

theorem Expression.leaves_layout : ∀ e : Expression,
    e.layout.leaves = e.leaves.map Comparison.str
  | .comparison _ => rfl
  | .container (.operator _) es _ => es.leaves_layout
  | .container .group es _ => es.leaves_layout
  | .container .container es _ => es.leaves_layout

theorem Expressions.leaves_layout : ∀ es : Expressions,
    es.layout.leaves = es.leaves.map Comparison.str
  | .nil => rfl
  | .token _ rest => rest.leaves_layout
  | .cons e rest => by
    rw [Expressions.layout, Members.leaves, Expressions.leaves, List.map_append, e.leaves_layout,
      rest.leaves_layout]

end

theorem Expressions.firstRun_chars : ∀ {es : Expressions}, es.Regular →
    All Grammar.isWS es.firstRun
  | .nil, _ => .nil
  | .token _ _, h => all_append.mpr ⟨h.1, Expressions.firstRun_chars h.2⟩
  | .cons _ _, _ => .nil

mutual

theorem Expression.layout_framed : ∀ e : Expression, e.Regular →
    e.layout.Framed filterAlphabet
  | .comparison _, _ => trivial
  | .container (.operator op) es _, h =>
    ⟨.nil, op.isOpSymbol, all_append.mpr ⟨h.1, Expressions.firstRun_chars h.2.2⟩,
      es.layout_framed h.2.2⟩

theorem Expressions.layout_framed : ∀ es : Expressions, es.Regular →
    es.layout.Framed filterAlphabet
  | .nil, _ => trivial
  | .token _ rest, h => rest.layout_framed h.2
  | .cons e rest, h =>
    ⟨e.layout_framed h.1, Expressions.firstRun_chars h.2, rest.layout_framed h.2⟩

end

section

variable {β : Type} (g : Reading → β)

mutual

/-- The operators of a regular tree around the readings of its leaf texts. -/
theorem Expression.outline_layout : ∀ e : Expression, e.Regular →
    e.outline (fun c => g (readComparison c.str)) = [treeOutline g e.layout]
  | .comparison _, _ => rfl
  | .container (.operator op) es _, h => by
    rw [Expression.outline, Expression.layout, treeOutline, op.operatorOf_symbol,
      es.outline_layout h.2.2]

theorem Expressions.outline_layout : ∀ es : Expressions, es.Regular →
    es.outline (fun c => g (readComparison c.str)) = membersOutline g es.layout
  | .nil, _ => rfl
  | .token _ rest, h => rest.outline_layout h.2
  | .cons e rest, h => by
    rw [Expressions.outline, Expressions.layout, membersOutline, e.outline_layout h.1,
      rest.outline_layout h.2]
    rfl

end

end

mutual

theorem Expression.nodes_outline {β : Type} (f : Comparison → β) : ∀ e : Expression, e.Regular →
    Outline.nodesList (e.outline f) = e.layout.nodes
  | .comparison _, _ => rfl
  | .container (.operator op) es _, h => by
    rw [Expression.outline, Expression.layout, Outline.nodesList, Outline.nodes,
      es.nodes_outline f h.2.2, Bracket.Tree.nodes]
    rfl

theorem Expressions.nodes_outline {β : Type} (f : Comparison → β) : ∀ es : Expressions,
    es.Regular → Outline.nodesList (es.outline f) = es.layout.nodes
  | .nil, _ => rfl
  | .token _ rest, h => rest.nodes_outline f h.2
  | .cons e rest, h => by
    rw [Expressions.outline, Expressions.layout, Outline.nodesList_append, Members.nodes,
      e.nodes_outline f h.1, rest.nodes_outline f h.2]

end

/-! ## Trees of the transformer -/

namespace Grammar

/-- White space in front of a list of members. -/
theorem regular_consToken (w : Ows) {es : Expressions} (h : es.Regular) :
    (Transformer.consToken (Ows.token w) es).Regular := by
  cases w with
  | none => exact h
  | some w => exact ⟨w.chars, h⟩

theorem Expressions.Regular.append : ∀ {es fs : Expressions}, es.Regular → fs.Regular →
    (es.append fs).Regular
  | .nil, _, _, hfs => hfs
  | .token _ _, _, hes, hfs => ⟨hes.1, Expressions.Regular.append hes.2 hfs⟩
  | .cons _ _, _, hes, hfs => ⟨hes.1, Expressions.Regular.append hes.2 hfs⟩

theorem regular_filterItems (lead trail : Ows) {es : Expressions} (h : es.Regular) :
    (Transformer.filterItems (Ows.token lead) es (Ows.token trail)).Regular :=
  regular_consToken lead (Expressions.Regular.append h
    (regular_consToken trail trivial))

theorem regular_sep (sep : Ows) : All isWS (orStr (Ows.token sep) []) := by
  rw [Ows.orStr_token]
  exact Ows.chars sep

mutual

theorem Node.regular : ∀ (n : Node) {e : Expression}, n.transform = .ok e → e.Regular
  | .expression lead c trail, e, h => by
    obtain ⟨cmp, -, rfl⟩ := Node.transform_expression h
    trivial
  | .listOperator op sep lead groups trail, e, h => by
    obtain ⟨es, hes, rfl⟩ := Node.transform_listOperator h
    refine ⟨regular_sep sep, fun hnot => ?_, regular_filterItems lead trail (groups.regular hes)⟩
    cases op <;> cases hnot
  | .notOperator sep lead pre node post trail, e, h => by
    obtain ⟨e', he', -, -, rfl⟩ := Node.transform_notOperator h
    refine ⟨regular_sep sep, fun _ => ?_,
      regular_filterItems lead trail ⟨node.regular he', trivial⟩⟩
    cases lead <;> cases trail <;> rfl

theorem Groups.regular : ∀ (gs : Groups) {es : Expressions}, gs.transform = .ok es → es.Regular
  | .nil, es, h => by
    cases h
    trivial
  | .cons pre node post rest, es, h => by
    obtain ⟨e, es', he, hes', rfl⟩ := Groups.transform_cons h
    exact regular_consToken pre
      ⟨node.regular he, regular_consToken post (rest.regular hes')⟩

end

/-- An accepted leaf of a derivation and the comparison that was made of it. -/
def Leaf.Makes (l : Leaf) (c : Ldap.Comparison) : Prop :=
  ∃ cmp, l.comparison.transform = .ok cmp ∧
    c = Transformer.expression (Ows.token l.lead) cmp (Ows.token l.trail)

@[simp] theorem leaves_consToken (t : Option PyStr) (es : Expressions) :
    (Transformer.consToken t es).leaves = es.leaves := by
  cases t <;> rfl

theorem leaves_append : ∀ es fs : Expressions, (es.append fs).leaves = es.leaves ++ fs.leaves
  | .nil, _ => rfl
  | .token _ rest, fs => leaves_append rest fs
  | .cons e rest, fs => by
    rw [Expressions.append, Expressions.leaves, leaves_append rest fs, Expressions.leaves,
      List.append_assoc]

@[simp] theorem leaves_filterItems (ld tr : Option PyStr) (es : Expressions) :
    (Transformer.filterItems ld es tr).leaves = es.leaves := by
  rw [Transformer.filterItems, leaves_consToken, leaves_append, leaves_consToken]
  exact List.append_nil _

mutual

/-- Where the leaves of a transformed node come from. -/
theorem Node.mem_leaves : ∀ (n : Node) {e : Expression}, n.transform = .ok e →
    ∀ c ∈ e.leaves, ∃ l ∈ n.expressions, l.Makes c
  | .expression lead c trail, e, h, c', hc => by
    obtain ⟨cmp, hcmp, rfl⟩ := Node.transform_expression h
    refine ⟨⟨lead, c, trail⟩, List.mem_singleton.mpr rfl, cmp, hcmp, ?_⟩
    exact List.mem_singleton.mp hc
  | .listOperator op sep lead groups trail, e, h, c, hc => by
    obtain ⟨es, hes, rfl⟩ := Node.transform_listOperator h
    rw [Expression.leaves, leaves_filterItems] at hc
    exact groups.mem_leaves hes c hc
  | .notOperator sep lead pre node post trail, e, h, c, hc => by
    obtain ⟨e', he', -, -, rfl⟩ := Node.transform_notOperator h
    rw [Transformer.notOperator, Expression.leaves, leaves_filterItems, Expressions.leaves,
      Expressions.leaves, List.append_nil] at hc
    exact node.mem_leaves he' c hc

theorem Groups.mem_leaves : ∀ (gs : Groups) {es : Expressions}, gs.transform = .ok es →
    ∀ c ∈ es.leaves, ∃ l ∈ gs.expressions, l.Makes c
  | .nil, es, h, c, hc => by
    cases h
    cases hc
  | .cons pre node post rest, es, h, c, hc => by
    obtain ⟨e, es', he, hes', rfl⟩ := Groups.transform_cons h
    rw [leaves_consToken, Expressions.leaves, leaves_consToken] at hc
    rcases List.mem_append.mp hc with hc | hc
    · obtain ⟨l, hl, hmakes⟩ := node.mem_leaves he c hc
      exact ⟨l, List.mem_append_left _ hl, hmakes⟩
    · obtain ⟨l, hl, hmakes⟩ := rest.mem_leaves hes' c hc
      exact ⟨l, List.mem_append_right _ hl, hmakes⟩

end

/-! ## Negations -/

mutual

/-- The white space next to a negated filter stands in the slots of the negation
itself, the only ones its callback takes. -/
def Node.TightNegations : Node → Prop
  | .expression _ _ _ => True
  | .listOperator _ _ _ groups _ => groups.TightNegations
  | .notOperator _ _ pre node post _ => pre = none ∧ post = none ∧ node.TightNegations

def Groups.TightNegations : Groups → Prop
  | .nil => True
  | .cons _ node _ rest => node.TightNegations ∧ rest.TightNegations

end

def Start.TightNegations : Start → Prop
  | .group _ node _ => node.TightNegations
  | .bare _ => True

mutual

theorem Node.transform_of_tightNegations : ∀ n : Node, n.TightNegations →
    (∀ l ∈ n.expressions, ∃ cmp, l.comparison.transform = .ok cmp) → ∃ e, n.transform = .ok e
  | .expression lead c trail, _, hl => by
    obtain ⟨cmp, hcmp⟩ := hl _ (List.mem_singleton.mpr rfl)
    exact ⟨_, by rw [Node.transform, hcmp]; rfl⟩
  | .listOperator op sep lead groups trail, htight, hl => by
    obtain ⟨es, hes⟩ := groups.transform_of_tightNegations htight hl
    exact ⟨_, by rw [Node.transform, hes]; rfl⟩
  | .notOperator sep lead pre node post trail, ⟨hpre, hpost, htight⟩, hl => by
    obtain ⟨e, he⟩ := node.transform_of_tightNegations htight hl
    exact ⟨_, by rw [Node.transform, he, hpre, hpost]; rfl⟩

theorem Groups.transform_of_tightNegations : ∀ gs : Groups, gs.TightNegations →
    (∀ l ∈ gs.expressions, ∃ cmp, l.comparison.transform = .ok cmp) → ∃ es, gs.transform = .ok es
  | .nil, _, _ => ⟨.nil, rfl⟩
  | .cons pre node post rest, htight, hl => by
    obtain ⟨e, he⟩ := node.transform_of_tightNegations htight.1 fun l h =>
      hl l (List.mem_append_left _ h)
    obtain ⟨es, hes⟩ := rest.transform_of_tightNegations htight.2 fun l h =>
      hl l (List.mem_append_right _ h)
    exact ⟨_, by rw [Groups.transform, he, hes]; rfl⟩

end

/-! ## A derivation of the printed text -/

mutual

/-- A regular tree whose leaf texts are derived has a derivation of its layout. -/
theorem exists_node : ∀ e : Expression, e.Regular → (∀ c ∈ e.leaves, ∃ l : Leaf, l.text = c.str) →
    ∃ n : Node, n.layout = e.layout
  | .comparison c, _, hleaves => by
    obtain ⟨l, hl⟩ := hleaves c (List.mem_singleton.mpr rfl)
    refine ⟨.expression l.lead l.comparison l.trail, ?_⟩
    rw [Expression.layout, ← hl]
    rfl
  | .container (.operator op) es sep, h, hleaves => by
    have hfirst : All isWS (orStr sep [] ++ es.firstRun) :=
      all_append.mpr ⟨h.1, Expressions.firstRun_chars h.2.2⟩
    obtain ⟨gs, hfirstRun, hgs⟩ := exists_groups es h.2.2 hleaves
    have hlist : ∀ op' : ListOp, op'.symbol = op.symbol →
        (Node.listOperator op' none (Ows.ofText _ hfirst) gs none).layout
          = (Expression.container (.operator op) es sep).layout := by
      intro op' hop
      rw [Node.layout, Expression.layout, hop, Ows.text_ofText, Ows.text_none, hfirstRun, hgs,
        List.append_nil]
    cases op with
    | and => exact ⟨_, hlist .and rfl⟩
    | or => exact ⟨_, hlist .or rfl⟩
    | not =>
      -- a negation has one member
      have hcount : gs.layout [] = es.layout := hgs
      obtain ⟨t, run, ht⟩ := es.layout_of_count_one (h.2.1 rfl)
      cases gs with
      | nil => rw [Groups.layout, ht] at hcount; cases hcount
      | cons pre node post rest =>
        rw [Groups.layout, ht] at hcount
        injection hcount with hnode hrun hrest
        have hpre : pre = none := Ows.text_eq_nil.mp hfirstRun
        cases rest with
        | cons pre' node' post' rest' => cases hrest
        | nil =>
          refine ⟨.notOperator none (Ows.ofText _ hfirst) none node post none, ?_⟩
          rw [Node.layout, Expression.layout, ht, Ows.text_ofText, ← hnode, ← hrun]
          simp [Operator.symbol]

theorem exists_groups : ∀ es : Expressions, es.Regular →
    (∀ c ∈ es.leaves, ∃ l : Leaf, l.text = c.str) →
    ∃ gs : Groups, gs.firstRun [] = [] ∧ gs.layout [] = es.layout
  | .nil, _, _ => ⟨.nil, rfl, rfl⟩
  | .token _ rest, h, hleaves => exists_groups rest h.2 hleaves
  | .cons e rest, h, hleaves => by
    obtain ⟨n, hn⟩ := exists_node e h.1 fun c hc => hleaves c (List.mem_append_left _ hc)
    obtain ⟨gs, hfirstRun, hgs⟩ := exists_groups rest h.2 fun c hc =>
      hleaves c (List.mem_append_right _ hc)
    refine ⟨.cons none n (Ows.ofText _ (Expressions.firstRun_chars h.2)) gs, rfl, ?_⟩
    rw [Groups.layout, Expressions.layout, hn, hgs, hfirstRun, Ows.text_ofText, List.append_nil]

end

end Grammar

namespace Grammar

/-! ## Leaves with other values -/

theorem Leaf.isPlain_text (l : Leaf) : All filterAlphabet.isPlain l.text := by
  simp [Leaf.text, Ows.isPlain_text, l.comparison.isPlain_text]

/-- Whatever follows its operator, a comparison does not begin with an operator symbol. -/
theorem Comparison.stops_frame (c : Grammar.Comparison) {lead : PyStr} (hlead : All isWS lead)
    (r : PyStr) :
    Stops isOpSymbol
      ((lead ++ (c.attrText ++ (c.opHead ++ ('='.toNat :: r)))).dropWhile isWS) := by
  obtain ⟨d, s, hs, hd⟩ := c.frame_eq_cons r
  obtain ⟨hws, hand, hor, hnot, -⟩ := headChar_spec hd
  rw [hs, dropWhile_append hlead (stops_cons.mpr hws), stops_cons]
  simp [isOpSymbol] at hand hor hnot ⊢
  exact ⟨⟨hand, hor⟩, hnot⟩

theorem Leaf.stops_text (l : Leaf) : Stops isOpSymbol (l.text.dropWhile isWS) := by
  have htext : l.text = _ := l.comparison.text_frame l.lead l.trail
  rw [htext]
  exact l.comparison.stops_frame (Ows.chars l.lead) _

/-- A derived comparison with another value. -/
theorem Comparison.exists_setValue {c : Grammar.Comparison} {cls : ComparisonClass}
    {v : Grammar.Value} (hc : c.valued = some (cls, v)) (hdn : c.dnAsRule = false) {w : PyStr}
    (hw : isValueText w = true) :
    ∃ c' : Grammar.Comparison, c'.text = c.attrText ++ (c.opHead ++ py "=" ++ w) ∧
      c'.reading = ⟨c.attrText, c.opHead ++ py "=", strip w⟩ ∧ c'.reading.Acceptable ∧
      ((∀ attr rule v, c = .extmatchAttrNodnMatch attr rule v → isDn rule.text = false) →
        c'.reading.cls = cls) := by
  let v' := Grammar.Value.ofText w hw
  have hrest : (c.setValue v').rest = w := by
    rw [rest_setValue hc, Value.text_ofText]
  have hreading : (c.setValue v').reading = ⟨c.attrText, c.opHead ++ py "=", strip w⟩ := by
    rw [reading, attrText_setValue, opHead_setValue, hrest]
  have hstars : contains (py "**") (strip w) = false := by
    have hnot := asterisk_notMem (isValueText_chars w hw)
    simp only [contains, decide_eq_false_iff_not]
    exact fun hin => hnot (mem_of_mem_strip (hin.subset List.mem_cons_self))
  have hrule : (c.setValue v').reading.dnAsRule = false := by
    rw [dnAsRule_reading, ← hdn]
    cases c <;> rfl
  refine ⟨c.setValue v', ?_, hreading, ⟨by rw [hreading]; exact hstars, hrule⟩, fun hnotDn => ?_⟩
  · rw [text_eq, attrText_setValue, opHead_setValue, hrest]
    simp [py]
  · have hvalued : (c.setValue v').valued = some (cls, v') := by
      cases c <;> cases hc <;> rfl
    refine reading_cls hvalued fun attr rule w' he => ?_
    cases c with
    | extmatchAttrNodnMatch attr' rule' v'' =>
      cases he
      exact hnotDn attr rule v'' rfl
    | _ => cases he

/-- The text after the operator is derived as a value text, unless it may have asterisks. -/
theorem Leaf.isValueText_rest {l : Leaf}
    (h : l.comparison.reading.op = py "=" → '*'.toNat ∉ readRest l.text) :
    isValueText (readRest l.text) = true := by
  have hrest : readRest l.text = l.comparison.rest ++ Ows.text l.trail :=
    l.comparison.readRest_text l.lead l.trail
  have htrail : isValueText (Ows.text l.trail) = true :=
    isValueText_of_plain ((Ows.chars l.trail).mono fun _ => isWS_plain)
  rw [hrest] at h ⊢
  refine isValueText_append _ _ ?_ htrail
  cases hc : l.comparison.valued with
  | some p =>
    rw [Comparison.valued_rest hc]
    exact p.2.valid_text
  | none =>
    cases hcmp : l.comparison with
    | presence attr =>
      rw [hcmp] at h
      exact absurd (List.mem_append_left _ (List.mem_singleton.mpr rfl)) (h rfl)
    | substring attr v =>
      rw [hcmp] at h
      exact (Substrings.eq_value fun hmem => h rfl (List.mem_append_left _ hmem)).2
    | _ => rw [hcmp] at hc; cases hc

end Grammar

/-! ## Parsing the printed text -/

/-- White space next to a negated filter goes to the slots of `not_operator`
itself: its callback takes no others. -/
def LarkParser.NegationTight (lark : LarkParser) : Prop :=
  ∀ s d, lark.parse s = some d → d.TightNegations

/-- The text of a leaf on which the transformer cannot fail: it is acceptable, or
it is the text of a leaf that was accepted before. -/
def KnownLeaf (lark : LarkParser) (body : PyStr) : Prop :=
  LeafAcceptable body ∨ ∃ s d, lark.parse s = some d ∧
    ∃ l ∈ d.expressions, l.text = body ∧ ∃ cmp, l.comparison.transform = .ok cmp

theorem KnownLeaf.accepted {lark : LarkParser} (hspan : lark.SpanResolved) {s : PyStr}
    {d : Grammar.Start} {l : Grammar.Leaf} (h : KnownLeaf lark l.text)
    (hparse : lark.parse s = some d) (hl : l ∈ d.expressions) :
    ∃ cmp, l.comparison.transform = .ok cmp := by
  rcases h with hacceptable | ⟨s₀, d₀, hparse₀, l₀, hl₀, htext, haccepted⟩
  · exact Grammar.Leaf.transform_isOk hacceptable
  · rw [← hspan s₀ s d₀ d hparse₀ hparse l₀ hl₀ l hl htext]
    exact haccepted

theorem Expression.memberStr_eq_cons {e : Expression} (h : e.Regular) :
    ∃ s, e.memberStr = '('.toNat :: s := by
  obtain ⟨s, hs⟩ := e.layout.text_eq_cons (A := filterAlphabet)
  exact ⟨s, by rw [← e.text_layout h, hs]; rfl⟩

/-- What the parse of a bracketed text is. -/
theorem Filter.init_group {lark : LarkParser} {s : PyStr} {f : Filter}
    (h : Filter.init lark (some ('('.toNat :: s)) = .ok f) :
    ∃ n root, lark.parse ('('.toNat :: s) = some (.group none n none) ∧
      n.text = '('.toNat :: s ∧ n.transform = .ok root ∧
      f = ⟨some ('('.toNat :: s), containerOf [Transformer.start root],
        some (.group none n none)⟩ := by
  rcases Filter.init_cases h with ⟨hblank, -⟩ | ⟨-, d, root, hparse, hd, hroot, rfl⟩
  · rcases hblank with hblank | hblank
    · cases hblank
    · exact absurd (List.cons.inj hblank).1 (by decide)
  · cases d with
    | group pre n post =>
      obtain ⟨e, he, rfl, rfl, rfl⟩ := Grammar.Start.transform_group hroot
      exact ⟨n, e, hparse, by simpa [Grammar.Start.text] using hd, he, rfl⟩
    | bare c =>
      have htext : c.text = '('.toNat :: s := hd
      have hplain := c.isPlain_text
      rw [htext] at hplain
      exact absurd (all_cons.mp hplain).1 (by decide)

/-- A node of a parse has the meaning of its layout. -/
theorem Filter.outline_group {lark : LarkParser} (hfirst : lark.FirstListed) {s : PyStr}
    {f : Filter} (h : Filter.init lark (some s) = .ok f) {n : Grammar.Node} (hn : n.text = s) :
    f.outline leafMeaning = [treeOutline readingMeaning n.layout] := by
  have hobs : ∀ d, lark.parse s = some d → ∀ c ∈ d.comparisons,
      Observes leafMeaning readingMeaning c := fun d hparse c hc =>
    observes_meaning (hfirst s d hparse c hc)
  have htext : (Grammar.Start.group none n none).text = s := by
    simpa [Grammar.Start.text] using hn
  rw [Filter.outline_eq h hobs htext, n.outline_layout]
  rfl

/-- A regular tree with known leaves prints as an accepted filter, with its
operators around the readings of its leaf texts. -/
theorem Filter.exists_reprint {lark : LarkParser} (hfirst : lark.FirstListed)
    (hspan : lark.SpanResolved) (htight : lark.NegationTight) {e : Expression} (he : e.Regular)
    (hleaves : ∀ c ∈ e.leaves, (∃ l : Grammar.Leaf, l.text = c.str) ∧ KnownLeaf lark c.str) :
    ∃ f, Filter.init lark (some e.memberStr) = .ok f ∧
      f.outline leafMeaning = e.outline fun c => readingMeaning (readComparison c.str) := by
  obtain ⟨n, hn⟩ := Grammar.exists_node e he fun c hc => (hleaves c hc).1
  have htext : n.text = e.memberStr := by
    rw [← n.text_layout, hn, e.text_layout he]
  have hstart : (Grammar.Start.group none n none).text = e.memberStr := by
    simpa [Grammar.Start.text] using htext
  have hacc : Accepted lark e.memberStr := by
    rw [← hstart]
    refine Filter.accepted_of_parse lark _ fun d hparse hd => ?_
    cases d with
    | bare c => exact absurd (by simpa [Grammar.Start.text] using hd) (c.text_ne_group none n [])
    | group pre n' post =>
      have hd' : Grammar.Ows.text pre ++ n'.text ++ Grammar.Ows.text post
          = Grammar.Ows.text none ++ n.text ++ [] := by
        simpa [Grammar.Start.text] using hd
      obtain ⟨hpre, hlayout, hpost⟩ := Grammar.Node.layout_unique hd'
      have hpre : pre = none := Grammar.Ows.text_eq_nil.mp hpre
      have hpost : post = none := Grammar.Ows.text_eq_nil.mp hpost
      -- the leaves of whatever the parser returns are those of the tree
      have haccepted : ∀ l ∈ n'.expressions, ∃ cmp, l.comparison.transform = .ok cmp := by
        intro l hl
        have hmem : l.text ∈ e.leaves.map Comparison.str := by
          rw [← e.leaves_layout, ← hn, ← hlayout, n'.leaves_layout]
          exact List.mem_map.mpr ⟨l, hl, rfl⟩
        obtain ⟨c, hc, hcl⟩ := List.mem_map.mp hmem
        exact KnownLeaf.accepted hspan (hcl ▸ (hleaves c hc).2) hparse hl
      obtain ⟨root, hroot⟩ := n'.transform_of_tightNegations (htight _ _ hparse) haccepted
      exact ⟨_, by rw [Grammar.Start.transform, hroot, hpre, hpost]; rfl⟩
  obtain ⟨f, hf⟩ := hacc
  refine ⟨f, hf, ?_⟩
  rw [Filter.outline_group hfirst hf htext, hn, e.outline_layout readingMeaning he]

/-- A text is accepted as a filter with the given operators and leaves. -/
def ParsesTo (lark : LarkParser) (s : PyStr)
    (o : List (Outline (ComparisonClass × PyStr × PyStr))) : Prop :=
  ∃ f, Filter.init lark (some s) = .ok f ∧ f.outline leafMeaning = o

/-- If the printed text of a regular tree is accepted as a filter of as many nodes,
its leaves are the leaves of the tree. -/
theorem Filter.reprint_leaves {lark : LarkParser} (hfirst : lark.FirstListed) {e : Expression}
    (he : e.Regular) (hstops : ∀ c ∈ e.leaves, Stops isOpSymbol (c.str.dropWhile Grammar.isWS))
    {f : Filter} (h : Filter.init lark (some e.memberStr) = .ok f)
    (hnodes : Outline.nodesList (f.outline leafMeaning) = e.layout.nodes) :
    (f.outline leafMeaning = e.outline fun c => readingMeaning (readComparison c.str)) ∧
      ∀ c ∈ e.leaves, (∃ l : Grammar.Leaf, l.text = c.str) ∧ KnownLeaf lark c.str := by
  obtain ⟨s, hs⟩ := e.memberStr_eq_cons he
  obtain ⟨n, root, hparse, hntext, hroot, -⟩ := Filter.init_group (hs ▸ h)
  rw [← hs] at hparse hntext
  have houtline := Filter.outline_group hfirst h hntext
  have htext : n.layout.text filterAlphabet = e.layout.text filterAlphabet := by
    rw [n.text_layout, hntext, e.text_layout he]
  have hsize : n.layout.nodes = e.layout.nodes := by
    rw [← hnodes, houtline, Outline.nodesList, treeOutline_nodes]
    rfl
  have hplain := Bracket.Tree.plain_of_nodes_eq (by decide) n.layout_wf (e.layout_framed he) htext
    hsize
  have hwf : e.layout.WF filterAlphabet := by
    refine (e.layout_framed he).wf fun body hbody => ⟨hplain body hbody, ?_⟩
    rw [e.leaves_layout] at hbody
    obtain ⟨c, hc, rfl⟩ := List.mem_map.mp hbody
    exact hstops c hc
  have hlayout : n.layout = e.layout :=
    (Bracket.Tree.text_inj n.layout_wf hwf (congrArg (· ++ []) htext)).1
  refine ⟨by rw [houtline, hlayout, e.outline_layout readingMeaning he], fun c hc => ?_⟩
  have hmem : c.str ∈ n.expressions.map Grammar.Leaf.text := by
    rw [← n.leaves_layout, hlayout, e.leaves_layout]
    exact List.mem_map.mpr ⟨c, hc, rfl⟩
  obtain ⟨l, hl, htextl⟩ := List.mem_map.mp hmem
  obtain ⟨cmp, hcmp⟩ := n.transform_leaf hroot l hl
  exact ⟨⟨l, htextl⟩, .inr ⟨_, _, hparse, l, hl, htextl, cmp, hcmp⟩⟩

/-- A leaf whose printed text is derived with its meaning, as one on which the
transformer cannot fail. -/
structure Reprints (lark : LarkParser) (c : Comparison) : Prop where
  derived : ∃ l : Grammar.Leaf, l.text = c.str
  known : KnownLeaf lark c.str
  meaning : readingMeaning (readComparison c.str) = leafMeaning c

/-- A regular tree prints as a filter with its operators and leaves exactly if each
leaf prints as a leaf with its meaning. -/
theorem Expression.reprint_iff {lark : LarkParser} (hfirst : lark.FirstListed)
    (hspan : lark.SpanResolved) (htight : lark.NegationTight) {e : Expression} (he : e.Regular)
    (hstops : ∀ c ∈ e.leaves, Stops isOpSymbol (c.str.dropWhile Grammar.isWS)) :
    ParsesTo lark e.memberStr (e.outline leafMeaning) ↔ ∀ c ∈ e.leaves, Reprints lark c := by
  constructor
  · rintro ⟨f, hf, houtline⟩ c hc
    have hnodes : Outline.nodesList (f.outline leafMeaning) = e.layout.nodes := by
      rw [houtline, e.nodes_outline leafMeaning he]
    obtain ⟨hread, hderived⟩ := Filter.reprint_leaves hfirst he hstops hf hnodes
    rw [houtline] at hread
    exact ⟨(hderived c hc).1, (hderived c hc).2, (e.outline_inj hread c hc).symm⟩
  · intro h
    obtain ⟨f, hf, houtline⟩ := Filter.exists_reprint hfirst hspan htight he fun c hc =>
      ⟨(h c hc).derived, (h c hc).known⟩
    exact ⟨f, hf, houtline.trans (e.outline_congr fun c hc => (h c hc).meaning)⟩

/-! ## Comparisons without brackets -/

theorem Comparison.str_ne_blank (c : Comparison) : ¬ (c.str = [] ∨ c.str = py " ") := by
  have hop : '='.toNat ∈ c.cls.expression := by
    cases c.cls <;> simp [ComparisonClass.expression, py]
  have hmem : '='.toNat ∈ c.str := by
    simp only [Comparison.str, List.mem_append]
    tauto
  rintro (h | h)
  · rw [h] at hmem
    exact List.not_mem_nil hmem
  · rw [h] at hmem
    exact absurd hmem (by decide)

/-- A bare comparison on which the transformer cannot fail is accepted with its
reading. -/
theorem Filter.exists_bare {lark : LarkParser} (hfirst : lark.FirstListed)
    {gc : Grammar.Comparison} (h : LeafAcceptable gc.text) :
    ∃ f, Filter.init lark (some gc.text) = .ok f ∧
      f.outline leafMeaning = [.leaf (readingMeaning gc.reading)] := by
  obtain ⟨f, hf⟩ := Filter.accepted_of_parse lark (.bare gc) fun d _ hd =>
    bare_transform_isOk h hd
  refine ⟨f, hf, Filter.outline_eq hf (fun d hparse c hc => ?_) (d := .bare gc) rfl⟩
  exact observes_meaning (hfirst _ d hparse c hc)

/-- An accepted text that is no bracketed filter is read as a comparison. -/
theorem Filter.init_derivation_bare {lark : LarkParser} {s : PyStr} {f : Filter}
    (h : Filter.init lark (some s) = .ok f) (hblank : ¬ (s = [] ∨ s = py " "))
    (hhead : ∀ r, s ≠ '('.toNat :: r) :
    ∃ (gc : Grammar.Comparison) (root : Expression), lark.parse s = some (.bare gc) ∧
      gc.text = s ∧ (Grammar.Start.bare gc).transform = .ok root := by
  rcases Filter.init_cases h with ⟨hb, -⟩ | ⟨-, d, root, hparse, hd, hroot, -⟩
  · exact absurd hb hblank
  · cases d with
    | group pre n post =>
      obtain ⟨e, -, rfl, rfl, -⟩ := Grammar.Start.transform_group hroot
      obtain ⟨r, hr⟩ := n.layout.text_eq_cons (A := filterAlphabet)
      rw [n.text_layout] at hr
      refine absurd ?_ (hhead r)
      rw [← hd, Grammar.Start.text, hr]
      simp
    | bare gc => exact ⟨gc, root, hparse, hd, hroot⟩

/-- An accepted text that is no bracketed filter is that of a comparison. -/
theorem Filter.init_bare {lark : LarkParser} (hfirst : lark.FirstListed) {s : PyStr} {f : Filter}
    (h : Filter.init lark (some s) = .ok f) (hblank : ¬ (s = [] ∨ s = py " "))
    (hhead : ∀ r, s ≠ '('.toNat :: r) :
    (∃ gc : Grammar.Comparison, gc.text = s) ∧
      f.outline leafMeaning = [.leaf (readingMeaning (readComparison s))] := by
  obtain ⟨gc, root, -, hgc, -⟩ := Filter.init_derivation_bare h hblank hhead
  have hread := gc.readComparison_text none none
  simp only [Grammar.Ows.text_none, List.nil_append, List.append_nil, hgc] at hread
  refine ⟨⟨gc, hgc⟩, ?_⟩
  rw [hread]
  refine Filter.outline_eq h (fun d hparse c hc => ?_) (d := .bare gc) hgc
  exact observes_meaning (hfirst _ d hparse c hc)

/-! ## Parsed filters -/

theorem Grammar.Start.comparison_mem {d : Grammar.Start} {l : Grammar.Leaf}
    (h : l ∈ d.expressions) : l.comparison ∈ d.comparisons := by
  cases d with
  | group pre n post => exact List.mem_map.mpr ⟨l, h, rfl⟩
  | bare c => cases h

/-- What a parsed leaf prints is derived with the meaning of the leaf. -/
theorem Grammar.Leaf.Makes.printed {l : Grammar.Leaf} {c : Ldap.Comparison} (h : l.Makes c)
    (hfirst : l.comparison.FirstListed) :
    ∃ l' : Grammar.Leaf, l'.text = c.str ∧ LeafKept [l] l'.text ∧
      readingMeaning (readComparison c.str) = leafMeaning c := by
  obtain ⟨cmp, hcmp, rfl⟩ := h
  obtain ⟨l', htext, hreading, hkept⟩ := Grammar.Leaf.exists_pretty hcmp
  have hstr := Grammar.Comparison.str_expression hcmp l.lead l.trail
  rw [← htext] at hstr
  refine ⟨l', hstr.symm, hkept, ?_⟩
  rw [hstr, l'.reading_text, hreading]
  exact (observes_meaning hfirst cmp _ _ hcmp).symm

/-- A leaf of a parsed filter. -/
def ParsedLeaf (lark : LarkParser) (c : Comparison) : Prop :=
  ∃ s d, lark.parse s = some d ∧ ∃ l : Grammar.Leaf, l.comparison ∈ d.comparisons ∧ l.Makes c

theorem ParsedLeaf.printed {lark : LarkParser} (hfirst : lark.FirstListed) {c : Comparison}
    (h : ParsedLeaf lark c) : (∃ l : Grammar.Leaf, l.text = c.str) ∧
      readingMeaning (readComparison c.str) = leafMeaning c := by
  obtain ⟨s, d, hparse, l, hl, hmakes⟩ := h
  obtain ⟨l', htext, -, hmeaning⟩ := hmakes.printed (hfirst s d hparse _ hl)
  exact ⟨⟨l', htext⟩, hmeaning⟩

theorem ParsedLeaf.isEscaped {lark : LarkParser} {c : Comparison} (h : ParsedLeaf lark c) :
    c.isEscaped = true := by
  obtain ⟨s, d, -, l, -, cmp, hcmp, rfl⟩ := h
  exact (Grammar.Comparison.transform_reading hcmp).2.2.2

/-- A filter that was parsed from a text and is not empty. -/
structure ParsedFilter (lark : LarkParser) where
  text : PyStr
  filter : Filter
  root : Expression
  parsed : Filter.init lark (some text) = .ok filter
  isRoot : filter.root = some root

/-- The root of a bracketed filter is made of a regular tree with known leaves. -/
structure ParsedFilter.MadeOf {lark : LarkParser} (p : ParsedFilter lark) (e : Expression) :
    Prop where
  root : p.root = Transformer.start e
  regular : e.Regular
  parsed : ∀ c ∈ e.leaves, ParsedLeaf lark c
  known : ∀ c ∈ e.leaves, KnownLeaf lark c.str

/-- The root of a bare comparison holds that comparison. -/
structure ParsedFilter.Bare {lark : LarkParser} (p : ParsedFilter lark) (c : Comparison) :
    Prop where
  root : p.root = Transformer.bare c
  parsed : ParsedLeaf lark c
  text : ∃ gc : Grammar.Comparison, gc.text = p.text
  str : ∃ gc : Grammar.Comparison, gc.text = c.str

/-- An unparsed margin changes nothing. -/
theorem Grammar.Comparison.expression_none {c : Grammar.Comparison} {cmp : Ldap.Comparison}
    (h : c.transform = .ok cmp) : Transformer.expression none cmp none = cmp := by
  rcases Comparison.transform_cases h with ⟨-, -, rfl⟩ | ⟨attr, v, s, -, -, -, rfl⟩ |
    ⟨cls, v, s, -, -, -, rfl⟩ <;> rfl

/-- The root is transformed from the derivation that the text was read as. -/
theorem ParsedFilter.derivation {lark : LarkParser} (p : ParsedFilter lark) :
    ∃ s d, lark.parse s = some d ∧ d.text = p.text ∧ d.transform = .ok p.root := by
  have hisRoot := p.isRoot
  rcases Filter.init_cases p.parsed with ⟨-, hf⟩ | ⟨-, d, root, hparse, hd, hroot, hf⟩
  · rw [hf] at hisRoot
    cases hisRoot
  · rw [hf] at hisRoot
    have he : root = p.root := Option.some.inj hisRoot
    rw [he] at hroot
    exact ⟨_, d, hparse, hd, hroot⟩

theorem Transformer.start_leaves (e : Expression) : (Transformer.start e).leaves = e.leaves := by
  cases e with
  | comparison c => rfl
  | container cls es sep => rfl

/-- Where the leaves of an accepted derivation come from. -/
theorem Grammar.Start.mem_leaves {d : Grammar.Start} {root : Expression}
    (h : d.transform = .ok root) {c : Ldap.Comparison} (hc : c ∈ root.leaves) :
    ∃ l : Grammar.Leaf, l.comparison ∈ d.comparisons ∧ l.Makes c := by
  cases d with
  | group pre n post =>
    obtain ⟨e, he, -, -, hstart⟩ := Grammar.Start.transform_group h
    rw [hstart, Transformer.start_leaves] at hc
    obtain ⟨l, hl, hmakes⟩ := n.mem_leaves he c hc
    exact ⟨l, Grammar.Start.comparison_mem hl, hmakes⟩
  | bare gc =>
    obtain ⟨cmp, hcmp, hbare⟩ := Grammar.Start.transform_bare h
    rw [hbare] at hc
    have hcmp' : c = cmp := List.mem_singleton.mp hc
    exact ⟨⟨none, gc, none⟩, List.mem_singleton.mpr rfl, cmp, hcmp,
      hcmp'.trans (Grammar.Comparison.expression_none hcmp).symm⟩

theorem ParsedFilter.parsedLeaf {lark : LarkParser} (p : ParsedFilter lark) {c : Comparison}
    (hc : c ∈ p.root.leaves) : ParsedLeaf lark c := by
  obtain ⟨s, d, hparse, -, hroot⟩ := p.derivation
  exact ⟨s, d, hparse, Grammar.Start.mem_leaves hroot hc⟩

/-- The root of a filter that is not empty: an operator or a group, or a bare
comparison. -/
theorem ParsedFilter.cases {lark : LarkParser} (hfirst : lark.FirstListed)
    (p : ParsedFilter lark) :
    ((∃ s, p.text = '('.toNat :: s) ∧ ∃ e, p.MadeOf e) ∨ ∃ c, p.Bare c := by
  obtain ⟨s, d, hparse, hd, hroot⟩ := p.derivation
  cases d with
  | group pre n post =>
    obtain ⟨e, he, rfl, rfl, hstart⟩ := Grammar.Start.transform_group hroot
    obtain ⟨r, hr⟩ := n.layout.text_eq_cons (A := filterAlphabet)
    have htext : p.text = '('.toNat :: r := by
      have hn : n.text = p.text := by simpa [Grammar.Start.text] using hd
      rw [← hn, ← n.text_layout, hr]
      rfl
    refine .inl ⟨⟨r, htext⟩, e, hstart, n.regular he, fun c hc => ?_, fun c hc => ?_⟩
    · apply p.parsedLeaf
      rw [hstart, Transformer.start_leaves]
      exact hc
    · obtain ⟨l, hl, hmakes⟩ := n.mem_leaves he c hc
      obtain ⟨l', hl', hkept, -⟩ := hmakes.printed (hfirst _ _ hparse _
        (Grammar.Start.comparison_mem hl))
      rw [hl'] at hkept
      refine hkept.imp_right fun hprinted => ?_
      obtain ⟨l₀, hl₀, htext₀, haccepted⟩ := hprinted
      rw [List.mem_singleton.mp hl₀] at htext₀ haccepted
      exact ⟨_, _, hparse, l, hl, htext₀, haccepted⟩
  | bare gc =>
    obtain ⟨cmp, hcmp, hbare⟩ := Grammar.Start.transform_bare hroot
    obtain ⟨gc', hgc', -⟩ := Grammar.Comparison.exists_str hcmp
    have hleaf : cmp ∈ p.root.leaves := by
      rw [hbare]
      exact List.mem_singleton.mpr rfl
    exact .inr ⟨cmp, hbare, p.parsedLeaf hleaf, ⟨gc, hd⟩, ⟨gc', hgc'⟩⟩

/-- The text begins with a bracket. -/
def ParsedFilter.Bracketed {lark : LarkParser} (p : ParsedFilter lark) : Prop :=
  p.text.head? = some '('.toNat

theorem ParsedFilter.Bare.not_bracketed {lark : LarkParser} {p : ParsedFilter lark}
    {c : Comparison} (hp : p.Bare c) : ¬ p.Bracketed := by
  obtain ⟨gc, hgc⟩ := hp.text
  obtain ⟨d, s, hs, hd⟩ := gc.text_eq_cons
  rw [ParsedFilter.Bracketed, ← hgc, hs]
  exact fun he => (Grammar.headChar_spec hd).2.2.2.2 (Option.some.inj he)

theorem ParsedFilter.exists_madeOf {lark : LarkParser} (hfirst : lark.FirstListed)
    {p : ParsedFilter lark} (h : p.Bracketed) : ∃ e, p.MadeOf e := by
  rcases p.cases hfirst with ⟨-, e, he⟩ | ⟨c, hc⟩
  · exact ⟨e, he⟩
  · exact absurd h hc.not_bracketed

theorem ParsedFilter.filter_eq {lark : LarkParser} (p : ParsedFilter lark) :
    ∃ d, p.filter = ⟨some p.text, containerOf [p.root], some d⟩ := by
  have hisRoot := p.isRoot
  rcases Filter.init_cases p.parsed with ⟨-, hf⟩ | ⟨-, d, root, -, -, -, hf⟩
  · rw [hf] at hisRoot
    cases hisRoot
  · rw [hf] at hisRoot
    have he : root = p.root := Option.some.inj hisRoot
    exact ⟨d, he ▸ hf⟩

theorem ParsedFilter.outline_root {lark : LarkParser} {β : Type} (obs : Comparison → β)
    (p : ParsedFilter lark) : p.filter.outline obs = p.root.outline obs := by
  obtain ⟨d, hd⟩ := p.filter_eq
  rw [hd]
  exact List.append_nil _

/-- A root prints as a member as the tree it was made of. -/
theorem groupStr_start (e : Expression) (es : Expressions) :
    (Expressions.cons (Transformer.start e) es).groupStr = (Expressions.cons e es).groupStr := by
  cases e with
  | comparison c =>
    simp [Transformer.start, Expressions.ofList, Expressions.groupStr, Expression.str]
  | container cls fs sep => rfl

section

open Grammar Resolver

mutual

theorem resolveNode_tightNegations : ∀ (t : Bracket.Tree Nat) {n : Node},
    resolveNode t = some n → n.TightNegations
  | .leaf body, n, h => by
    obtain ⟨l, -, rfl⟩ := Option.map_eq_some_iff.mp h
    trivial
  | .node sep op first members, n, h => by
    obtain ⟨gs, hgs, hn⟩ := Option.bind_eq_some_iff.mp h
    obtain ⟨htight, hpre⟩ := resolveGroups_tightNegations members hgs
    rw [operatorNode.eq_def] at hn
    split at hn
    · split at hn
      · cases hn
        exact ⟨hpre _ _ _ _ rfl, rfl, htight.1⟩
      · cases hn
        exact htight
    · split at hn
      · cases hn
      · cases hn
        exact htight

theorem resolveGroups_tightNegations : ∀ (ms : Members Nat) {gs : Groups},
    resolveGroups ms = some gs → gs.TightNegations ∧
      ∀ pre n post rest, gs = .cons pre n post rest → pre = none
  | .nil, gs, h => by
    cases h
    exact ⟨trivial, fun _ _ _ _ he => nomatch he⟩
  | .cons head run tail, gs, h => by
    obtain ⟨n, hn, htail⟩ := Option.bind_eq_some_iff.mp h
    obtain ⟨rest, hrest, rfl⟩ := Option.map_eq_some_iff.mp htail
    refine ⟨⟨resolveNode_tightNegations head hn, (resolveGroups_tightNegations tail hrest).1⟩, ?_⟩
    rintro pre n' post rest' he
    cases he
    rfl

end

theorem resolver_negationTight : resolver.NegationTight := by
  intro s d h
  rcases resolve_cases h with ⟨t, post, n, -, -, -, hn, rfl⟩ | ⟨c, -, rfl⟩
  · exact resolveNode_tightNegations t hn
  · trivial

end

/-- A text that `resolver` reads as a filter that is not empty, with a check of its root. -/
theorem exists_parsedFilter {s : PyStr} (check : Expression → Bool)
    (h : ((Filter.init resolver (some s)).toOption.bind Filter.root).any check = true) :
    ∃ p : ParsedFilter resolver, p.text = s ∧ check p.root = true := by
  cases hf : Filter.init resolver (some s) with
  | error err =>
    rw [hf] at h
    cases h
  | ok f =>
    rw [hf] at h
    obtain ⟨e, he, hcheck⟩ := (Option.any_eq_true _ _).mp h
    exact ⟨⟨s, f, e, hf, he⟩, rfl, hcheck⟩

end FreeIam.Ldap
