import FreeIam.Ldap.Filter.Reading
import FreeIam.Lib.Bracket

/-!
# The layout of a filter

A filter is a bracketed text over comparisons. Two derivations of one string
may put white space into different slots and read a comparison by different
alternatives, but they have one layout (`Start.layout_unique`), and so the same
operators around the same readings (`Start.outline_unique`). The expressions
that the transformer builds have the outline of their derivation.
-/

namespace FreeIam.Ldap

open FreeIam.Py FreeIam.Scan FreeIam.Bracket

/-- `&`, `|` and `!`. -/
def isOpSymbol (c : Nat) : Bool := c == '&'.toNat || c == '|'.toNat || c == '!'.toNat

/-- The alphabet of filters. -/
def filterAlphabet : Alphabet Nat where
  opening := '('.toNat
  closing := ')'.toNat
  isBlank := Grammar.isWS
  isOp := isOpSymbol
  opening_ne_closing := by decide
  opening_not_blank := by decide
  closing_not_blank := by decide
  closing_not_op := by decide
  op_not_blank := by
    intro c hc
    simp only [isOpSymbol, Bool.or_eq_true, beq_iff_eq] at hc
    rcases hc with (rfl | rfl) | rfl <;> decide

@[simp] theorem filterAlphabet_opening : filterAlphabet.opening = '('.toNat := rfl

@[simp] theorem filterAlphabet_closing : filterAlphabet.closing = ')'.toNat := rfl

/-- The operator of a symbol. -/
def operatorOf (c : Nat) : Operator :=
  if c = '&'.toNat then .and else if c = '|'.toNat then .or else .not

namespace Grammar

/-- The operator of the rule. -/
def ListOp.operator : ListOp → Operator
  | .and => .and
  | .or => .or

/-! ## Layouts -/

/-- The white space in front of the first group, or of the closing bracket. -/
def Groups.firstRun (trail : PyStr) : Groups → PyStr
  | .nil => trail
  | .cons pre _ _ _ => Ows.text pre

@[simp] theorem Groups.firstRun_nil (trail : PyStr) : Groups.nil.firstRun trail = trail := rfl

@[simp] theorem Groups.firstRun_cons (trail : PyStr) (pre : Ows) (node : Node) (post : Ows)
    (rest : Groups) : (Groups.cons pre node post rest).firstRun trail = Ows.text pre := rfl

mutual

/-- The bracketed text of a node. -/
def Node.layout : Node → Bracket.Tree Nat
  | .expression lead comparison trail =>
    .leaf (Ows.text lead ++ comparison.text ++ Ows.text trail)
  | .listOperator op sep lead groups trail =>
    .node (Ows.text sep) op.symbol (Ows.text lead ++ groups.firstRun (Ows.text trail))
      (groups.layout (Ows.text trail))
  | .notOperator sep lead pre node post trail =>
    .node (Ows.text sep) '!'.toNat (Ows.text lead ++ Ows.text pre)
      (.cons node.layout (Ows.text post ++ Ows.text trail) .nil)

/-- The groups as members, with the white space that follows the last one. -/
def Groups.layout (trail : PyStr) : Groups → Members Nat
  | .nil => .nil
  | .cons _ node post rest =>
    .cons node.layout (Ows.text post ++ rest.firstRun trail) (rest.layout trail)

end

mutual

/-- A layout has the text of its node. -/
theorem Node.text_layout : ∀ n : Node, n.layout.text filterAlphabet = n.text
  | .expression lead comparison trail => by
    simp [Node.layout, Node.text, Bracket.Tree.text, py]
  | .listOperator op sep lead groups trail => by
    have h := groups.text_layout (Ows.text trail)
    simp only [Node.layout, Node.text, Bracket.Tree.text, List.append_assoc]
    rw [← List.append_assoc (groups.firstRun _), h]
    simp [py]
  | .notOperator sep lead pre node post trail => by
    have h := node.text_layout
    simp [Node.layout, Node.text, Bracket.Tree.text, Members.text, h, py]

theorem Groups.text_layout (trail : PyStr) : ∀ gs : Groups,
    gs.firstRun trail ++ (gs.layout trail).text filterAlphabet = gs.text ++ trail
  | .nil => by simp [Groups.layout, Groups.text, Members.text]
  | .cons pre node post rest => by
    have h₁ := node.text_layout
    have h₂ := rest.text_layout trail
    simp only [Groups.firstRun_cons, Groups.layout, Groups.text, Members.text, List.append_assoc,
      h₁]
    rw [h₂]

end

theorem ListOp.isOpSymbol (op : ListOp) : isOpSymbol op.symbol = true := by
  cases op <;> decide

/-- Values, attributes and operators contain no brackets. -/
theorem Comparison.isPlain_text (c : Grammar.Comparison) : All filterAlphabet.isPlain c.text := by
  have hattr : ∀ s, All isAttrChar s → All filterAlphabet.isPlain s := by
    intro s hs
    refine hs.mono fun c hc => ?_
    have := isAttrChar_cases hc
    simp [Alphabet.isPlain, filterAlphabet]
    omega
  have hvalue : ∀ s, All isValueChar s → All filterAlphabet.isPlain s := by
    intro s hs
    refine hs.mono fun c hc => ?_
    simp only [isValueChar, isPlainChar, Bool.or_eq_true, beq_iff_eq] at hc
    simp [Alphabet.isPlain, filterAlphabet]
    simp at hc
    omega
  have hpart : ∀ p : SubstrPart, All filterAlphabet.isPlain p.text := by
    intro p
    cases p with
    | value tok => exact hvalue _ (isValueText_chars _ tok.valid)
    | asterisk => exact (by decide : All filterAlphabet.isPlain (py "*"))
  have hparts : ∀ v : Substrings, All filterAlphabet.isPlain v.text := by
    intro v
    refine all_append.mpr ⟨hpart v.head, fun c hc => ?_⟩
    obtain ⟨p, -, hp⟩ := List.mem_flatMap.mp hc
    exact hpart p c hp
  have hop : ∀ s ∈ [py "=*", py "=", py ">=", py "<=", py "~=", py ":", py ":="],
      All filterAlphabet.isPlain s := by decide
  simp only [List.mem_cons, List.not_mem_nil, or_false, forall_eq_or_imp, forall_eq] at hop
  obtain ⟨h₁, h₂, h₃, h₄, h₅, h₆, h₇⟩ := hop
  have ha : ∀ a : Attr, All filterAlphabet.isPlain a.text := fun a => hattr _ a.chars
  have hd : ∀ d : Dn, All filterAlphabet.isPlain d.text := fun d => hattr _ d.chars
  have hv : ∀ v : Grammar.Value, All filterAlphabet.isPlain v.text := fun v => hvalue _ v.chars
  cases c <;> simp [Comparison.text, *]

theorem Comparison.stops_op (c : Grammar.Comparison) (r : PyStr) :
    Stops isOpSymbol (c.text ++ r) := by
  obtain ⟨d, s, hs, hd⟩ := c.text_eq_cons
  rw [hs, List.cons_append, stops_cons]
  obtain ⟨-, h₁, h₂, h₃, -⟩ := headChar_spec hd
  simp [isOpSymbol] at h₁ h₂ h₃ ⊢
  exact ⟨⟨h₁, h₂⟩, h₃⟩

theorem Ows.isPlain_text (w : Ows) : All filterAlphabet.isPlain (Ows.text w) := by
  refine (Ows.chars w).mono fun c hc => ?_
  rcases isWS_cases hc with rfl | rfl | rfl | rfl | rfl <;> decide

theorem Groups.firstRun_chars {trail : PyStr} (ht : All isWS trail) (gs : Groups) :
    All isWS (gs.firstRun trail) := by
  cases gs with
  | nil => exact ht
  | cons pre node post rest => exact Ows.chars pre

mutual

/-- A layout is a well-formed bracketed text. -/
theorem Node.layout_wf : ∀ n : Node, n.layout.WF filterAlphabet
  | .expression lead comparison trail => by
    refine ⟨by simp [Ows.isPlain_text, comparison.isPlain_text], ?_⟩
    show Stops isOpSymbol ((Ows.text lead ++ comparison.text ++ Ows.text trail).dropWhile isWS)
    rw [List.append_assoc, dropWhile_append (Ows.chars lead) (comparison.stops_text _)]
    exact comparison.stops_op _
  | .listOperator op sep lead groups trail =>
    ⟨Ows.chars sep, op.isOpSymbol,
      all_append.mpr ⟨Ows.chars lead, groups.firstRun_chars (Ows.chars trail)⟩,
      groups.layout_wf (Ows.chars trail)⟩
  | .notOperator sep lead pre node post trail =>
    ⟨Ows.chars sep, by decide, all_append.mpr ⟨Ows.chars lead, Ows.chars pre⟩,
      node.layout_wf, all_append.mpr ⟨Ows.chars post, Ows.chars trail⟩, trivial⟩

theorem Groups.layout_wf {trail : PyStr} (ht : All isWS trail) :
    ∀ gs : Groups, (gs.layout trail).WF filterAlphabet
  | .nil => trivial
  | .cons _ node post rest =>
    ⟨node.layout_wf, all_append.mpr ⟨Ows.chars post, rest.firstRun_chars ht⟩, rest.layout_wf ht⟩

end

theorem Node.stops_text (n : Node) (r : PyStr) : Stops isWS (n.text ++ r) := by
  obtain ⟨s, hs⟩ := n.layout.text_eq_cons (A := filterAlphabet)
  rw [← n.text_layout, hs, List.cons_append, stops_cons]
  decide

/-- A whole filter has at most one layout: the white space in front of it, its
brackets and the white space after it. -/
theorem Node.layout_unique {pre pre' : Ows} {n n' : Node} {post post' : PyStr}
    (h : Ows.text pre ++ n.text ++ post = Ows.text pre' ++ n'.text ++ post') :
    Ows.text pre = Ows.text pre' ∧ n.layout = n'.layout ∧ post = post' := by
  simp only [List.append_assoc] at h
  obtain ⟨hpre, h⟩ := append_unique (Ows.chars pre) (Ows.chars pre') (n.stops_text post)
    (n'.stops_text post') h
  rw [← n.text_layout, ← n'.text_layout] at h
  obtain ⟨hlayout, hpost⟩ := Bracket.Tree.text_inj n.layout_wf n'.layout_wf h
  exact ⟨hpre, hlayout, hpost⟩

/-- Every node that derives a leaf between brackets is an expression. -/
theorem Node.layout_eq_leaf {n : Node} {body : PyStr} (h : n.layout = .leaf body) :
    ∃ lead c trail, n = .expression lead c trail ∧
      Ows.text lead ++ c.text ++ Ows.text trail = body := by
  cases n with
  | expression lead c trail => exact ⟨lead, c, trail, rfl, Bracket.Tree.leaf.inj h⟩
  | listOperator op sep lead groups trail => cases h
  | notOperator sep lead pre node post trail => cases h

/-- A bare comparison is no bracketed filter. -/
theorem Comparison.text_ne_group (c : Grammar.Comparison) (pre : Ows) (n : Node) (post : PyStr) :
    c.text ≠ Ows.text pre ++ n.text ++ post := by
  intro h
  obtain ⟨s, hs⟩ := n.layout.text_eq_cons (A := filterAlphabet)
  rw [n.text_layout] at hs
  have hmem : '('.toNat ∈ c.text := by
    rw [h, hs]
    simp
  have := c.isPlain_text _ hmem
  revert this
  decide

end Grammar

/-! ## Outlines -/

section Outline

variable {β : Type} (g : Reading → β)

mutual

/-- The operators of a bracketed text around the readings of its leaves. -/
def treeOutline : Bracket.Tree Nat → Outline β
  | .leaf body => .leaf (g (readComparison body))
  | .node _ op _ members => .operator (operatorOf op) (membersOutline members)

def membersOutline : Members Nat → List (Outline β)
  | .nil => []
  | .cons head _ tail => treeOutline head :: membersOutline tail

end

namespace Grammar

mutual

/-- The operators of a derivation around the readings of its comparisons. -/
def Node.outline : Node → Outline β
  | .expression _ comparison _ => .leaf (g comparison.reading)
  | .listOperator op _ _ groups _ => .operator op.operator groups.outline
  | .notOperator _ _ _ node _ _ => .operator .not [node.outline]

def Groups.outline : Groups → List (Outline β)
  | .nil => []
  | .cons _ node _ rest => node.outline :: rest.outline

end

def Start.outline : Start → Outline β
  | .group _ node _ => node.outline g
  | .bare comparison => .leaf (g comparison.reading)

theorem ListOp.operatorOf_symbol (op : ListOp) : operatorOf op.symbol = op.operator := by
  cases op <;> rfl

mutual

theorem Node.outline_layout : ∀ n : Node, treeOutline g n.layout = n.outline g
  | .expression lead comparison trail => by
    rw [Node.layout, treeOutline, comparison.readComparison_text, Node.outline]
  | .listOperator op sep lead groups trail => by
    rw [Node.layout, treeOutline, op.operatorOf_symbol, groups.outline_layout, Node.outline]
  | .notOperator sep lead pre node post trail => by
    rw [Node.layout, treeOutline, membersOutline, membersOutline, node.outline_layout, Node.outline]
    rfl

theorem Groups.outline_layout {trail : PyStr} : ∀ gs : Groups,
    membersOutline g (gs.layout trail) = gs.outline g
  | .nil => rfl
  | .cons pre node post rest => by
    rw [Groups.layout, membersOutline, node.outline_layout, rest.outline_layout, Groups.outline]

end

/-- All derivations of a string have the same operators around the same
readings. -/
theorem Start.outline_unique {d d' : Start} (h : d.text = d'.text) :
    d.outline g = d'.outline g := by
  cases d with
  | group pre n post =>
    cases d' with
    | group pre' n' post' =>
      obtain ⟨-, hlayout, -⟩ := Node.layout_unique h
      show n.outline g = n'.outline g
      rw [← n.outline_layout, ← n'.outline_layout, hlayout]
    | bare c' => exact absurd h.symm (c'.text_ne_group pre n _)
  | bare c =>
    cases d' with
    | group pre' n' post' => exact absurd h (c.text_ne_group pre' n' _)
    | bare c' =>
      have hc := c.readComparison_text none none
      have hc' := c'.readComparison_text none none
      have htext : c.text = c'.text := h
      simp only [Ows.text_none, List.nil_append, List.append_nil] at hc hc'
      show Outline.leaf _ = Outline.leaf _
      rw [← hc, ← hc', htext]

end Grammar

end Outline

/-! ## Transformed expressions -/

namespace Grammar

/-- The children of an `expression`. -/
structure Leaf where
  lead : Ows
  comparison : Grammar.Comparison
  trail : Ows

/-- The text between the brackets. -/
def Leaf.text (l : Leaf) : PyStr := Ows.text l.lead ++ l.comparison.text ++ Ows.text l.trail

mutual

/-- The `expression` nodes of a derivation, in order. -/
def Node.expressions : Node → List Leaf
  | .expression lead comparison trail => [⟨lead, comparison, trail⟩]
  | .listOperator _ _ _ groups _ => groups.expressions
  | .notOperator _ _ _ node _ _ => node.expressions

def Groups.expressions : Groups → List Leaf
  | .nil => []
  | .cons _ node _ rest => node.expressions ++ rest.expressions

end

def Start.expressions : Start → List Leaf
  | .group _ node _ => node.expressions
  | .bare _ => []

/-- The comparisons of a derivation, in order. -/
def Node.comparisons (n : Node) : List Grammar.Comparison := n.expressions.map Leaf.comparison

def Groups.comparisons (gs : Groups) : List Grammar.Comparison :=
  gs.expressions.map Leaf.comparison

def Start.comparisons : Start → List Grammar.Comparison
  | .group _ node _ => node.comparisons
  | .bare comparison => [comparison]

@[simp] theorem Groups.comparisons_cons (pre : Ows) (node : Node) (post : Ows) (rest : Groups) :
    (Groups.cons pre node post rest).comparisons = node.comparisons ++ rest.comparisons := by
  simp [Groups.comparisons, Node.comparisons, Groups.expressions]

mutual

/-- The leaves of a layout are the texts of the expressions. -/
theorem Node.leaves_layout : ∀ n : Node, n.layout.leaves = n.expressions.map Leaf.text
  | .expression lead comparison trail => rfl
  | .listOperator op sep lead groups trail => by
    rw [Node.layout, Bracket.Tree.leaves, groups.leaves_layout, Node.expressions]
  | .notOperator sep lead pre node post trail => by
    rw [Node.layout, Bracket.Tree.leaves, Members.leaves, Members.leaves, node.leaves_layout,
      Node.expressions, List.append_nil]

theorem Groups.leaves_layout {trail : PyStr} : ∀ gs : Groups,
    (gs.layout trail).leaves = gs.expressions.map Leaf.text
  | .nil => rfl
  | .cons pre node post rest => by
    rw [Groups.layout, Members.leaves, node.leaves_layout, rest.leaves_layout,
      Groups.expressions, List.map_append]

end

end Grammar

section Transform

variable {β : Type} {f : Ldap.Comparison → β} {g : Reading → β}

@[simp] theorem Transformer.outline_consToken (t : Option PyStr) (es : Expressions) :
    (Transformer.consToken t es).outline f = es.outline f := by
  cases t <;> rfl

@[simp] theorem Transformer.outline_filterItems (ld tr : Option PyStr) (es : Expressions) :
    (Transformer.filterItems ld es tr).outline f = es.outline f := by
  simp [Transformer.filterItems, Expressions.outline]

/-- An observation `f` of comparisons that a derived comparison determines by
its reading, wherever the comparison stands. -/
def Observes (f : Comparison → β) (g : Reading → β) (c : Grammar.Comparison) : Prop :=
  ∀ cmp lead trail, c.transform = .ok cmp → f (Transformer.expression lead cmp trail) = g c.reading

namespace Grammar

/-- Callbacks that take no white space of `_group`. -/
theorem unpadded_of_ok {pre post : Ows} {x e : Expression}
    (h : (match pre, post with
      | none, none => pure x
      | _, _ => .error .typeError : Except VisitError Expression) = .ok e) :
    pre = none ∧ post = none ∧ e = x := by
  cases pre with
  | some w => cases h
  | none =>
    cases post with
    | some w => cases h
    | none =>
      cases h
      exact ⟨rfl, rfl, rfl⟩

/-- What an accepted operator over groups is. -/
theorem Node.transform_listOperator {op : ListOp} {sep lead trail : Ows} {groups : Groups}
    {e : Expression} (h : (Node.listOperator op sep lead groups trail).transform = .ok e) :
    ∃ es, groups.transform = .ok es ∧
      e = .container (.operator op.operator)
        (Transformer.filterItems (Ows.token lead) es (Ows.token trail)) (Ows.token sep) := by
  rw [Node.transform] at h
  obtain ⟨es, hes, h⟩ := exists_of_bind_ok h
  refine ⟨es, hes, ?_⟩
  cases op <;> cases h <;> rfl

/-- What an accepted negation is: no white space of `_group` inside. -/
theorem Node.transform_notOperator {sep lead pre post trail : Ows} {node : Node} {e : Expression}
    (h : (Node.notOperator sep lead pre node post trail).transform = .ok e) :
    ∃ e', node.transform = .ok e' ∧ pre = none ∧ post = none ∧
      e = Transformer.notOperator (Ows.token sep) (Ows.token lead) e' (Ows.token trail) := by
  rw [Node.transform] at h
  obtain ⟨e', he', h⟩ := exists_of_bind_ok h
  exact ⟨e', he', unpadded_of_ok h⟩

/-- What an accepted leaf is. -/
theorem Node.transform_expression {lead trail : Ows} {c : Grammar.Comparison} {e : Expression}
    (h : (Node.expression lead c trail).transform = .ok e) :
    ∃ cmp, c.transform = .ok cmp ∧
      e = .comparison (Transformer.expression (Ows.token lead) cmp (Ows.token trail)) := by
  rw [Node.transform] at h
  obtain ⟨cmp, hcmp, h⟩ := exists_of_bind_ok h
  cases h
  exact ⟨cmp, hcmp, rfl⟩

/-- What accepted groups are. -/
theorem Groups.transform_cons {pre post : Ows} {node : Node} {rest : Groups} {es : Expressions}
    (h : (Groups.cons pre node post rest).transform = .ok es) :
    ∃ e es', node.transform = .ok e ∧ rest.transform = .ok es' ∧
      es = Transformer.consToken (Ows.token pre)
        (.cons e (Transformer.consToken (Ows.token post) es')) := by
  rw [Groups.transform] at h
  obtain ⟨e, he, h⟩ := exists_of_bind_ok h
  obtain ⟨es', hes', h⟩ := exists_of_bind_ok h
  cases h
  exact ⟨e, es', he, hes', rfl⟩

mutual

/-- Every leaf of an accepted node is accepted. -/
theorem Node.transform_leaf : ∀ (n : Node) {e : Expression}, n.transform = .ok e →
    ∀ l ∈ n.expressions, ∃ cmp, l.comparison.transform = .ok cmp
  | .expression lead c trail, e, h, l, hl => by
    obtain ⟨cmp, hcmp, -⟩ := Node.transform_expression h
    rw [List.mem_singleton.mp hl]
    exact ⟨cmp, hcmp⟩
  | .listOperator op sep lead groups trail, e, h, l, hl => by
    obtain ⟨es, hes, -⟩ := Node.transform_listOperator h
    exact groups.transform_leaf hes l hl
  | .notOperator sep lead pre node post trail, e, h, l, hl => by
    obtain ⟨e', he', -, -, -⟩ := Node.transform_notOperator h
    exact node.transform_leaf he' l hl

theorem Groups.transform_leaf : ∀ (gs : Groups) {es : Expressions}, gs.transform = .ok es →
    ∀ l ∈ gs.expressions, ∃ cmp, l.comparison.transform = .ok cmp
  | .cons pre node post rest, es, h, l, hl => by
    obtain ⟨e, es', he, hes', -⟩ := Groups.transform_cons h
    rcases List.mem_append.mp hl with hl | hl
    · exact node.transform_leaf he l hl
    · exact rest.transform_leaf hes' l hl

end

mutual

/-- An accepted node has the outline of its derivation. -/
theorem Node.outline_transform : ∀ (n : Node) {e : Expression},
    (∀ c ∈ n.comparisons, Observes f g c) → n.transform = .ok e → e.outline f = [n.outline g]
  | .expression lead c trail, e, hobs, h => by
    obtain ⟨cmp, hc, rfl⟩ := Node.transform_expression h
    rw [Expression.outline, Node.outline, hobs c (List.mem_singleton.mpr rfl) cmp _ _ hc]
  | .listOperator op sep lead groups trail, e, hobs, h => by
    obtain ⟨es, hes, rfl⟩ := Node.transform_listOperator h
    rw [Expression.outline, Transformer.outline_filterItems,
      groups.outline_transform hobs hes, Node.outline]
  | .notOperator sep lead pre node post trail, e, hobs, h => by
    obtain ⟨e', he', -, -, rfl⟩ := Node.transform_notOperator h
    rw [Transformer.notOperator, Expression.outline, Transformer.outline_filterItems,
      Expressions.outline, Expressions.outline, node.outline_transform hobs he', Node.outline]
    rfl

theorem Groups.outline_transform : ∀ (gs : Groups) {es : Expressions},
    (∀ c ∈ gs.comparisons, Observes f g c) → gs.transform = .ok es →
      es.outline f = gs.outline g
  | .nil, es, _, h => by
    cases h
    rfl
  | .cons pre node post rest, es, hobs, h => by
    obtain ⟨e, es', he, hes', rfl⟩ := Groups.transform_cons h
    have h₁ := node.outline_transform (fun c hc => hobs c (by simp [hc])) he
    have h₂ := rest.outline_transform (fun c hc => hobs c (by simp [hc])) hes'
    rw [Transformer.outline_consToken, Expressions.outline, Transformer.outline_consToken, h₁, h₂,
      Groups.outline]
    rfl

end

/-- `start` only wraps a comparison. -/
@[simp] theorem start_outline (e : Expression) :
    (Transformer.start e).outline f = e.outline f := by
  cases e with
  | comparison c => rfl
  | container cls es sep => rfl

/-- What an accepted filter is: no white space around it. -/
theorem Start.transform_group {pre post : Ows} {node : Node} {e : Expression}
    (h : (Start.group pre node post).transform = .ok e) :
    ∃ e', node.transform = .ok e' ∧ pre = none ∧ post = none ∧ e = Transformer.start e' := by
  rw [Start.transform] at h
  obtain ⟨e', he', h⟩ := exists_of_bind_ok h
  exact ⟨e', he', unpadded_of_ok h⟩

theorem Start.transform_bare {c : Grammar.Comparison} {e : Expression}
    (h : (Start.bare c).transform = .ok e) :
    ∃ cmp, c.transform = .ok cmp ∧ e = Transformer.bare cmp := by
  rw [Start.transform] at h
  obtain ⟨cmp, hcmp, h⟩ := exists_of_bind_ok h
  cases h
  exact ⟨cmp, hcmp, rfl⟩

/-- An accepted filter has the outline of its derivation. -/
theorem Start.outline_transform {d : Start} {e : Expression}
    (hobs : ∀ c ∈ d.comparisons, Observes f g c) (h : d.transform = .ok e) :
    e.outline f = [d.outline g] := by
  cases d with
  | group pre node post =>
    obtain ⟨e', he', -, -, rfl⟩ := Start.transform_group h
    rw [start_outline, node.outline_transform hobs he']
    rfl
  | bare c =>
    obtain ⟨cmp, hc, rfl⟩ := Start.transform_bare h
    have hcmp : cmp.lead = [] ∧ cmp.trail = [] := by
      rcases Comparison.transform_cases hc with ⟨-, -, rfl⟩ | ⟨attr, v, s, -, -, -, rfl⟩ |
        ⟨cls, v, s, -, -, -, rfl⟩ <;> exact ⟨rfl, rfl⟩
    have hself : Transformer.expression none cmp none = cmp := by
      cases cmp
      obtain ⟨hlead, htrail⟩ := hcmp
      simp only at hlead htrail
      rw [hlead, htrail]
      rfl
    have hg := hobs c (List.mem_singleton.mpr rfl) cmp none none hc
    rw [hself] at hg
    show [Outline.leaf (f cmp)] = _
    rw [hg]
    rfl

end Grammar

/-- The attribute, the printed operator prefix and the raw value of an accepted
comparison are those of its reading. -/
theorem observes_text (c : Grammar.Comparison) :
    Observes (fun cmp => (cmp.attr, cmp.prefixText, cmp.rawValue))
      (fun r => (r.attr, r.prefixText, r.rawValue)) c := by
  intro cmp lead trail h
  obtain ⟨hattr, hstart, hraw, -⟩ := Grammar.Comparison.transform_reading h
  show (cmp.attr, cmp.prefixText, cmp.rawValue) = _
  rw [hattr, hstart, hraw]

/-- So are, under the alternative listed first, its class and its decoded
value. -/
theorem observes_meaning {c : Grammar.Comparison} (hfirst : c.FirstListed) :
    Observes (fun cmp => (cmp.cls, cmp.attr, cmp.value))
      (fun r => (r.cls, r.attr, unescape r.rawValue)) c := by
  intro cmp lead trail h
  obtain ⟨hattr, -, hraw, hesc⟩ := Grammar.Comparison.transform_reading h
  have hcls := Grammar.Comparison.transform_cls h hfirst
  have hvalue : (Transformer.expression lead cmp trail).value = unescape cmp.rawValue := by
    show (if cmp.isEscaped then unescape cmp.rawValue else cmp.rawValue) = _
    rw [if_pos hesc]
  show (cmp.cls, cmp.attr, (Transformer.expression lead cmp trail).value) = _
  rw [hvalue, hcls, hattr, hraw]

end Transform

end FreeIam.Ldap
