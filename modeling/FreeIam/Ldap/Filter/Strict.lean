import FreeIam.Ldap.Filter.Traversal

/-!
# Strict parsing

`Filter(s, strict=True)` parses as ever and then walks the tree with
`_disallow_whitespace`. The walk comes to comparisons and operators, so it sees the
white space that these hold; the tokens among the members of an operator are none of
both, and a lone asterisk has lost its margins by then.
-/

namespace FreeIam.Ldap

open FreeIam.Py FreeIam.Errors FreeIam.Scan

/-! ## The check -/

/-- `expr._mid or expr._lead or expr._trail or expr._end` of a comparison, `expr._sep` of
an operator. -/
def Cell.hasWhitespace : Cell → Bool
  | .comparison c => !(c.mid.isEmpty && c.lead.isEmpty && c.trail.isEmpty && c.fin.isEmpty)
  | .container (.operator _) _ sep => truthy sep
  | .container _ _ _ => false

/-- `Filter._disallow_whitespace`. It edits nothing and the object is lost once it has
raised, so of the calls that follow an error nothing is seen: the state of the callback
is the first error. -/
def disallowWhitespace (error : FilterError) : Callback (Option FilterError) :=
  fun raised h _ expression =>
    ([], raised.or (if h[expression]?.any Cell.hasWhitespace then some error else none))

/-- The two callbacks of the strict walk. -/
def strictCallbacks (error : FilterError) : Callbacks (Option FilterError) where
  comparison := some (disallowWhitespace error)
  operator := some (disallowWhitespace error)

/-- What `Filter(filter_expr, strict=True)` raises. -/
inductive StrictExc where
  | filterError (error : FilterError)
  | raised (exc : PyExc)

/-- `Filter.__init__` with `Filter.parse(strict=True)`, for at most so many rounds of the
walk; the two empty filters return before it. -/
def Filter.initStrict (lark : LarkParser) (filterExpr : Option PyStr) (rounds : Nat) :
    Option (Except StrictExc Filter) :=
  match Filter.init lark filterExpr with
  | .error e => some (.error (.filterError e))
  | .ok f =>
    match f.tree with
    | none => some (.ok f)
    | some _ =>
      match f.walk (strictCallbacks (Filter.error filterExpr)) .post rounds none with
      | none => none
      | some (.error exc) => some (.error (.raised exc))
      | some (.ok w) =>
        match w.own with
        | some e => some (.error (.filterError e))
        | none => some (.ok f)

/-- `Filter(s, strict=True)` succeeds. -/
def StrictlyAccepted (lark : LarkParser) (s : PyStr) : Prop :=
  ∃ n, ∀ rounds, n ≤ rounds → ∃ f, Filter.initStrict lark (some s) rounds = some (.ok f)

/-! ## The walk of the check -/

mutual

/-- Some comparison or operator of the expression holds white space. -/
def Expression.hasWhitespace : Expression → Bool
  | .comparison c => (Cell.comparison c).hasWhitespace
  | .container cls es sep => es.hasWhitespace || (Cell.container cls [] sep).hasWhitespace

def Expressions.hasWhitespace : Expressions → Bool
  | .nil => false
  | .token _ rest => rest.hasWhitespace
  | .cons e rest => e.hasWhitespace || rest.hasWhitespace

end

theorem strictCallbacks_leaveAlone (error : FilterError) (tree : Heap) :
    (strictCallbacks error).LeaveAlone tree := by
  have hkeep : Callback.LeavesAlone tree (disallowWhitespace error) := by
    intro own h parent expression h' htree hedit
    cases hedit
    exact htree
  constructor <;> intro callback hcallback <;> cases hcallback <;> exact hkeep

/-- What the calls of the check for some objects leave: the objects, and an error where
one of them holds white space. -/
structure Walk.Checked (error : FilterError) (found : Bool) (w w' : Walk (Option FilterError)) :
    Prop where
  heap : w'.heap = w.heap
  own : w'.own = w.own.or (if found then some error else none)

namespace Walk.Checked

variable {error : FilterError} {w w₁ w₂ : Walk (Option FilterError)}

theorem refl (w : Walk (Option FilterError)) : Checked error false w w := by
  refine ⟨rfl, ?_⟩
  cases w.own <;> rfl

theorem trans {found found' : Bool} (h₁ : Checked error found w w₁)
    (h₂ : Checked error found' w₁ w₂) : Checked error (found || found') w w₂ := by
  refine ⟨h₂.heap.trans h₁.heap, ?_⟩
  rw [h₂.own, h₁.own]
  cases w.own <;> cases found <;> cases found' <;> rfl

end Walk.Checked

/-- One call of the check. -/
theorem checked_call (error : FilterError) (w : Walk (Option FilterError)) {p r : Ref} {cell : Cell}
    (hcell : w.heap[r]? = some cell) :
    ∃ w', w.callIf (some (disallowWhitespace error)) p r = .ok w' ∧
      w.Checked error cell.hasWhitespace w' := by
  refine ⟨_, rfl, rfl, ?_⟩
  show w.own.or (if w.heap[r]?.any Cell.hasWhitespace then some error else none) = _
  rw [hcell]
  rfl

mutual

/-- The walk of the check over an expression ends with an error where the expression
holds white space. -/
theorem Expression.traverse_checked (error : FilterError) : ∀ (e : Expression) {p r : Ref}
    {w : Walk (Option FilterError)}, e.At r w.heap →
    ∃ w', e.traverse (strictCallbacks error) .post p r w = .ok w' ∧
      w.Checked error e.hasWhitespace w'
  | .comparison c, p, r, w, hat => checked_call error w hat.comparison
  | .container cls es sep, p, r, w, hat => by
    obtain ⟨hcell, hmembers⟩ := hat.container
    obtain ⟨w₁, hw₁, hchecked₁⟩ := es.traverse_checked error (p := r) hmembers
    rw [Walk.traverse_container, Expression.hasWhitespace]
    -- the operator itself comes after its members
    have hlast : ∃ w', w₁.callAt (strictCallbacks error)
        (WalkStrategy.post.after && (Cell.container cls [] sep).isOperator) p r = .ok w' ∧
        w₁.Checked error (Cell.container cls [] sep).hasWhitespace w' := by
      cases cls with
      | container => exact ⟨w₁, rfl, .refl w₁⟩
      | group => exact ⟨w₁, rfl, .refl w₁⟩
      | operator op =>
        rw [← hchecked₁.heap] at hcell
        have hcall := checked_call error w₁ (p := p) hcell
        exact hcall
    obtain ⟨w₂, hw₂, hchecked₂⟩ := hlast
    refine ⟨w₂, ?_, hchecked₁.trans hchecked₂⟩
    show es.traverse (strictCallbacks error) .post r (r + 1) w >>= _ = .ok w₂
    rw [hw₁]
    exact hw₂

theorem Expressions.traverse_checked (error : FilterError) : ∀ (es : Expressions) {p r : Ref}
    {w : Walk (Option FilterError)}, es.At r w.heap →
    ∃ w', es.traverse (strictCallbacks error) .post p r w = .ok w' ∧
      w.Checked error es.hasWhitespace w'
  | .nil, _, _, w, _ => ⟨w, rfl, .refl w⟩
  | .token _ rest, _, _, _, hat => rest.traverse_checked error hat
  | .cons e rest, p, r, w, hat => by
    obtain ⟨hhead, htail⟩ := hat.cons
    obtain ⟨w₁, hw₁, hchecked₁⟩ := e.traverse_checked error (p := p) hhead
    obtain ⟨w₂, hw₂, hchecked₂⟩ := rest.traverse_checked error (p := p) (hchecked₁.heap ▸ htail)
    refine ⟨w₂, ?_, hchecked₁.trans hchecked₂⟩
    show e.traverse (strictCallbacks error) .post p r w >>= _ = .ok w₂
    rw [hw₁]
    exact hw₂

end

/-- Strict parsing of an accepted filter ends, with an error exactly if a comparison or
an operator of it holds white space. -/
theorem Filter.initStrict_eq {lark : LarkParser} {s : PyStr} {f : Filter}
    (hf : Filter.init lark (some s) = .ok f) {root : Expression} (hroot : f.root = some root) :
    ∃ n, ∀ rounds, n ≤ rounds → Filter.initStrict lark (some s) rounds
      = some (if root.hasWhitespace then .error (.filterError (Filter.error (some s))) else .ok f) := by
  obtain ⟨hheap, -⟩ := Filter.heap_of_root hf hroot
  have hat : root.At 1 f.heap := by
    intro k _
    rw [hheap, Nat.add_comm, List.getElem?_cons_succ]
  obtain ⟨w, hw, hchecked⟩ := root.traverse_checked (Filter.error (some s)) (p := 0)
    (w := ⟨f.heap, [], none, []⟩) hat
  obtain ⟨n, hn⟩ := Filter.walk_traverse hf hroot (strictCallbacks (Filter.error (some s)))
    (strictCallbacks_leaveAlone _ _) .post none
  refine ⟨n, fun rounds hrounds => ?_⟩
  obtain ⟨tree, htree⟩ : ∃ tree, f.tree = some tree := by
    cases htree : f.tree with
    | none => simp [Filter.root, htree] at hroot
    | some tree => exact ⟨tree, rfl⟩
  have hwalk := hn rounds hrounds
  rw [hw] at hwalk
  rw [Filter.initStrict, hf]
  simp only [htree, hwalk, hchecked.own, Option.none_or]
  cases root.hasWhitespace <;> rfl

/-! ## White space outside the values -/

/-- The text of a leaf without the core of its assertion value, which is what stands
from the first to the last of its characters that are no white space. -/
def leafOutside (body : PyStr) : PyStr :=
  body.takeWhile isOpChar ++ py "=" ++ margins isSpace (readRest body)

mutual

/-- A bracketed text without the cores of its assertion values. -/
def treeOutside : Bracket.Tree Nat → PyStr
  | .leaf body => py "(" ++ leafOutside body ++ py ")"
  | .node sep op first members =>
    py "(" ++ sep ++ [op] ++ first ++ membersOutside members ++ py ")"

def membersOutside : Bracket.Members Nat → PyStr
  | .nil => []
  | .cons head run tail => treeOutside head ++ run ++ membersOutside tail

end

namespace Grammar

/-- The text of a filter without the cores of its assertion values. -/
def Start.outside : Start → PyStr
  | .group pre node post => Ows.text pre ++ treeOutside node.layout ++ Ows.text post
  | .bare comparison => leafOutside comparison.text

/-! ### The two kinds of white space outside the values -/

/-- The white space around a value, seen by the check unless the value is a lone
asterisk. -/
def Comparison.checkedSpace (c : Grammar.Comparison) : PyStr :=
  if strip c.rest = py "*" then [] else margins isSpace c.rest

/-- The white space around a lone asterisk. -/
def Comparison.missedSpace (c : Grammar.Comparison) : PyStr :=
  if strip c.rest = py "*" then margins isSpace c.rest else []

mutual

/-- The white space that the check sees: around a comparison and its value, and in
front of an operator symbol. -/
def Node.checkedSpace : Node → PyStr
  | .expression lead comparison trail =>
    Ows.text lead ++ comparison.checkedSpace ++ Ows.text trail
  | .listOperator _ sep _ groups _ => Ows.text sep ++ groups.checkedSpace
  | .notOperator sep _ _ node _ _ => Ows.text sep ++ node.checkedSpace

def Groups.checkedSpace : Groups → PyStr
  | .nil => []
  | .cons _ node _ rest => node.checkedSpace ++ rest.checkedSpace

end

mutual

/-- The white space that it misses: between an operator symbol, the members and the
closing bracket, and around a lone asterisk. -/
def Node.missedSpace : Node → PyStr
  | .expression _ comparison _ => comparison.missedSpace
  | .listOperator _ _ lead groups trail => Ows.text lead ++ groups.missedSpace ++ Ows.text trail
  | .notOperator _ lead pre node post trail =>
    Ows.text lead ++ Ows.text pre ++ node.missedSpace ++ Ows.text post ++ Ows.text trail

def Groups.missedSpace : Groups → PyStr
  | .nil => []
  | .cons pre node post rest =>
    Ows.text pre ++ node.missedSpace ++ Ows.text post ++ rest.missedSpace

end

def Start.checkedSpace : Start → PyStr
  | .group _ node _ => node.checkedSpace
  | .bare comparison => comparison.checkedSpace

def Start.missedSpace : Start → PyStr
  | .group pre node post => Ows.text pre ++ node.missedSpace ++ Ows.text post
  | .bare comparison => comparison.missedSpace

/-! ### The text outside the values -/

theorem isSpace_of_isAttrChar {c : Nat} (h : isAttrChar c = true) : isSpace c = false := by
  have hother : ∀ o ∈ otherSpaces, isAttrChar o = false := by decide
  have hcases := isAttrChar_cases h
  by_contra hspace
  simp only [isSpace, Bool.not_eq_false, Bool.or_eq_true, Bool.and_eq_true, decide_eq_true_eq,
    beq_iff_eq, List.contains_iff_mem] at hspace
  rcases hspace with (hspace | hspace) | hspace
  · omega
  · omega
  · rw [hother c hspace] at h
    cases h

theorem any_isSpace_of_attr {s : PyStr} (h : All isAttrChar s) : s.any isSpace = false :=
  List.any_eq_false.mpr fun c hc => by rw [isSpace_of_isAttrChar (h c hc)]; decide

theorem any_isSpace_ows (w : Ows) : (Ows.text w).any isSpace = false ↔ Ows.text w = [] :=
  (Ows.spaces w).any_eq_false

theorem any_isSpace_open : (py "(").any isSpace = false := by decide

theorem any_isSpace_close : (py ")").any isSpace = false := by decide

/-- No white space stands in an attribute or an operator. -/
theorem Comparison.any_isSpace_frame (c : Grammar.Comparison) :
    c.attrText.any isSpace = false ∧ c.opHead.any isSpace = false := by
  refine ⟨any_isSpace_of_attr c.attrText_chars, ?_⟩
  have hcolon : (py ":").any isSpace = false := by decide
  cases c with
  | presence _ => rfl
  | equality _ _ => rfl
  | substring _ _ => rfl
  | ge _ _ => exact (by decide : (py ">").any isSpace = false)
  | le _ _ => exact (by decide : (py "<").any isSpace = false)
  | approx _ _ => exact (by decide : (py "~").any isSpace = false)
  | extmatchNoattrDnMatch dn rule _ =>
    simp [opHead, hcolon, any_isSpace_of_attr dn.chars, any_isSpace_of_attr rule.chars]
  | extmatchAttrDnMatch _ dn rule _ =>
    simp [opHead, hcolon, any_isSpace_of_attr dn.chars, any_isSpace_of_attr rule.chars]
  | extmatchAttrDnNomatch _ dn _ => simp [opHead, hcolon, any_isSpace_of_attr dn.chars]
  | extmatchNoattrNodnMatch rule _ => simp [opHead, hcolon, any_isSpace_of_attr rule.chars]
  | extmatchAttrNodnMatch _ rule _ => simp [opHead, hcolon, any_isSpace_of_attr rule.chars]
  | extmatchAttrNodnNomatch _ _ => exact hcolon

/-- A leaf has white space outside its value where some stands around the comparison
or the value. -/
theorem Comparison.leafOutside_iff (lead trail : Ows) (c : Grammar.Comparison) :
    (leafOutside (Ows.text lead ++ c.text ++ Ows.text trail)).any isSpace = false ↔
      Ows.text lead = [] ∧ margins isSpace c.rest = [] ∧ Ows.text trail = [] := by
  obtain ⟨hattr, hop⟩ := c.any_isSpace_frame
  have hstop : Stops isOpChar ('='.toNat :: (c.rest ++ Ows.text trail)) := by
    rw [stops_cons]
    decide
  have hhead : (Ows.text lead ++ c.text ++ Ows.text trail).takeWhile isOpChar
      = Ows.text lead ++ c.attrText ++ c.opHead := by
    rw [c.text_frame, ← List.append_assoc, ← List.append_assoc,
      takeWhile_append (c.frame_opChars (Ows.chars lead)) hstop]
  have hmargins := margins_append_eq_nil (l := c.rest) (All.nil (p := isSpace)) (Ows.spaces trail)
  rw [List.nil_append] at hmargins
  have hequals : (py "=").any isSpace = false := by decide
  rw [leafOutside, hhead, c.readRest_text]
  simp only [List.any_append, Bool.or_eq_false_iff, hattr, hop, hequals, and_true,
    any_isSpace_ows, (all_margins (c.rest ++ Ows.text trail)).any_eq_false, hmargins, true_and]

theorem Comparison.space_cases (c : Grammar.Comparison) :
    margins isSpace c.rest = [] ↔ c.checkedSpace = [] ∧ c.missedSpace = [] := by
  rw [checkedSpace, missedSpace]
  split <;> simp

mutual

/-- A bracketed text has white space outside its values where the check sees some or
misses some. -/
theorem Node.treeOutside_iff : ∀ n : Node, (treeOutside n.layout).any isSpace = false ↔
    n.checkedSpace = [] ∧ n.missedSpace = []
  | .expression lead c trail => by
    rw [Node.layout, treeOutside, List.any_append, List.any_append, any_isSpace_open,
      any_isSpace_close, Bool.false_or, Bool.or_false, c.leafOutside_iff, c.space_cases,
      Node.checkedSpace, Node.missedSpace, List.append_eq_nil_iff, List.append_eq_nil_iff]
    tauto
  | .listOperator op sep lead groups trail => by
    have hgroups := groups.membersOutside_iff (Ows.text trail) (Ows.spaces trail)
    have hop : [op.symbol].any isSpace = false := by cases op <;> decide
    simp only [List.any_append, Bool.or_eq_false_iff] at hgroups
    simp only [Node.layout, treeOutside, List.any_append, Bool.or_eq_false_iff, hop,
      any_isSpace_open, any_isSpace_close, any_isSpace_ows, Node.checkedSpace, Node.missedSpace,
      List.append_eq_nil_iff, true_and, and_true]
    tauto
  | .notOperator sep lead pre node post trail => by
    have hnode := node.treeOutside_iff
    have hop : ['!'.toNat].any isSpace = false := by decide
    simp only [Node.layout, treeOutside, membersOutside, List.any_append, List.any_nil,
      Bool.or_eq_false_iff, hop, any_isSpace_open, any_isSpace_close, any_isSpace_ows,
      Node.checkedSpace, Node.missedSpace, List.append_eq_nil_iff, true_and, and_true, hnode]
    tauto

theorem Groups.membersOutside_iff (trail : PyStr) (htrail : All isSpace trail) : ∀ gs : Groups,
    (gs.firstRun trail ++ membersOutside (gs.layout trail)).any isSpace = false ↔
      gs.checkedSpace = [] ∧ gs.missedSpace = [] ∧ trail = []
  | .nil => by
    have hrun := htrail.any_eq_false
    simp only [Groups.layout, membersOutside, Groups.firstRun_nil, List.append_nil, hrun,
      Groups.checkedSpace, Groups.missedSpace, true_and]
  | .cons pre node post rest => by
    have hnode := node.treeOutside_iff
    have hrest := rest.membersOutside_iff trail htrail
    simp only [List.any_append, Bool.or_eq_false_iff] at hrest
    simp only [Groups.layout, membersOutside, Groups.firstRun_cons, List.any_append,
      Bool.or_eq_false_iff, any_isSpace_ows, Groups.checkedSpace, Groups.missedSpace,
      List.append_eq_nil_iff, hnode]
    tauto

end

theorem Start.outside_iff (d : Start) :
    d.outside.any isSpace = false ↔ d.checkedSpace = [] ∧ d.missedSpace = [] := by
  cases d with
  | group pre n post =>
    have hnode := n.treeOutside_iff
    simp only [Start.outside, List.any_append, Bool.or_eq_false_iff, any_isSpace_ows, hnode,
      Start.checkedSpace, Start.missedSpace, List.append_eq_nil_iff]
    tauto
  | bare c =>
    have hleaf := c.leafOutside_iff none none
    rw [c.space_cases, Ows.text_none, List.nil_append, List.append_nil] at hleaf
    exact hleaf.trans ⟨fun h => h.2.1, fun h => ⟨rfl, h, rfl⟩⟩

/-- What stands outside the values depends on the text only. -/
theorem Start.outside_unique {d d' : Start} (h : d.text = d'.text) : d.outside = d'.outside := by
  cases d with
  | group pre n post =>
    cases d' with
    | group pre' n' post' =>
      obtain ⟨hpre, hlayout, hpost⟩ := Node.layout_unique h
      rw [Start.outside, Start.outside, hpre, hlayout, hpost]
    | bare c' => exact absurd h.symm (c'.text_ne_group pre n _)
  | bare c =>
    cases d' with
    | group pre' n' post' => exact absurd h (c.text_ne_group pre' n' _)
    | bare c' =>
      have htext : c.text = c'.text := h
      rw [Start.outside, Start.outside, htext]

end Grammar

/-! ## What the transformer keeps of it -/

theorem orStr_eq_nil (a : Option PyStr) (b : PyStr) : orStr a b = [] ↔ orStr a [] = [] ∧ b = [] := by
  cases a with
  | none => simp [orStr]
  | some s => cases s <;> simp [orStr]

/-- An accepted value keeps a margin where its text has one. -/
theorem Transformer.value_margins {ld tr : Option PyStr} {val : PyStr} {v : ValueStr}
    (h : Transformer.value ld val tr = .ok v) (hld : All isSpace (orStr ld []))
    (htr : All isSpace (orStr tr [])) :
    (orStr v.pre [] = [] ∧ orStr v.suffix [] = []) ↔
      margins isSpace (orStr ld [] ++ val ++ orStr tr []) = [] := by
  rw [margins_append_eq_nil hld htr]
  rcases Transformer.value_cases h with ⟨hstrip, rfl⟩ | ⟨a, b, hval, ha, hb, -, rfl⟩
  · have hnone : margins isSpace val = [] := margins_eq_nil.mpr hstrip
    simp only [hnone, true_and]
  · -- the edges that were cut off the value
    have hcut := margins_append_eq_nil (l := Py.strip val) ha hb
    have hcore : margins isSpace (Py.strip val) = [] := margins_eq_nil.mpr (strip_strip val)
    rw [← hval] at hcut
    have hsome : ∀ t : PyStr, orStr (some t) [] = t := by
      intro t
      cases t <;> rfl
    rw [hcut, hsome, hsome, orStr_eq_nil ld a, orStr_eq_nil tr b]
    tauto

theorem Expressions.hasWhitespace_append : ∀ es fs : Expressions,
    (es.append fs).hasWhitespace = (es.hasWhitespace || fs.hasWhitespace)
  | .nil, _ => rfl
  | .token _ rest, fs => Expressions.hasWhitespace_append rest fs
  | .cons e rest, fs => by
    rw [Expressions.append, Expressions.hasWhitespace, Expressions.hasWhitespace,
      Expressions.hasWhitespace_append rest fs, Bool.or_assoc]

/-- The tokens among the members are passed over. -/
theorem Transformer.hasWhitespace_consToken (t : Option PyStr) (es : Expressions) :
    (Transformer.consToken t es).hasWhitespace = es.hasWhitespace := by
  cases t <;> rfl

theorem Transformer.hasWhitespace_filterItems (ld tr : Option PyStr) (es : Expressions) :
    (Transformer.filterItems ld es tr).hasWhitespace = es.hasWhitespace := by
  rw [Transformer.filterItems, hasWhitespace_consToken, Expressions.hasWhitespace_append,
    hasWhitespace_consToken, Expressions.hasWhitespace, Bool.or_false]

namespace Grammar

theorem Ows.truthy_token (w : Ows) : truthy (Ows.token w) = false ↔ Ows.text w = [] := by
  cases w with
  | none => simp [Ows.token, truthy]
  | some w => simp [Ows.token, truthy, w.nonempty]

theorem Value.transform_margins {v : Grammar.Value} {s : ValueStr} (h : v.transform = .ok s) :
    (orStr s.pre [] = [] ∧ orStr s.suffix [] = []) ↔ margins isSpace v.text = [] := by
  have hlead : All isSpace (orStr (Ows.token v.lead) []) := by
    rw [Ows.orStr_token]
    exact Ows.spaces v.lead
  have htrail : All isSpace (orStr (Ows.token v.trail) []) := by
    rw [Ows.orStr_token]
    exact Ows.spaces v.trail
  rw [Transformer.value_margins h hlead htrail, Ows.orStr_token, Ows.orStr_token, v.text_eq,
    List.append_assoc]
  rfl

/-- An accepted comparison holds the white space around its value, unless that is a lone
asterisk. -/
theorem Comparison.transform_margins {c : Grammar.Comparison} {cmp : Ldap.Comparison}
    (h : c.transform = .ok cmp) : (cmp.mid = [] ∧ cmp.fin = []) ↔ c.checkedSpace = [] := by
  rw [Comparison.checkedSpace]
  rcases transform_cases h with ⟨-, hval, rfl⟩ | ⟨attr, v, s, rfl, hv, hne, rfl⟩ |
    ⟨cls, v, s, hc, -, hv, rfl⟩
  · rw [if_pos hval]
    exact iff_of_true ⟨rfl, rfl⟩ rfl
  · have hne : strip (Comparison.substring attr v).rest ≠ py "*" := hne
    have hmargins := Transformer.value_margins hv (All.nil (p := isSpace)) (All.nil (p := isSpace))
    rw [show orStr none [] = [] from rfl, List.nil_append, List.append_nil] at hmargins
    rw [if_neg hne]
    exact hmargins
  · rw [if_neg (valued_notMem hc), valued_rest hc]
    exact Value.transform_margins hv

/-- A leaf holds white space where its text has some that the check sees. -/
theorem Leaf.hasWhitespace_transform (lead trail : Ows) {c : Grammar.Comparison}
    {cmp : Ldap.Comparison} (h : c.transform = .ok cmp) :
    (Cell.comparison (Transformer.expression (Ows.token lead) cmp (Ows.token trail))).hasWhitespace
        = false ↔ Ows.text lead ++ c.checkedSpace ++ Ows.text trail = [] := by
  have hmargins := Comparison.transform_margins h
  simp only [Cell.hasWhitespace, Transformer.expression, Ows.orStr_token, Bool.not_eq_false',
    Bool.and_eq_true, List.isEmpty_iff, List.append_eq_nil_iff, ← hmargins]
  tauto

mutual

/-- A transformed node holds white space where its text has some that the check sees. -/
theorem Node.hasWhitespace_transform : ∀ (n : Node) {e : Expression}, n.transform = .ok e →
    (e.hasWhitespace = false ↔ n.checkedSpace = [])
  | .expression lead c trail, e, h => by
    obtain ⟨cmp, hcmp, rfl⟩ := Node.transform_expression h
    exact Leaf.hasWhitespace_transform lead trail hcmp
  | .listOperator op sep lead groups trail, e, h => by
    obtain ⟨es, hes, rfl⟩ := Node.transform_listOperator h
    have hgroups := groups.hasWhitespace_transform hes
    rw [Expression.hasWhitespace, Transformer.hasWhitespace_filterItems, Bool.or_eq_false_iff,
      hgroups, Cell.hasWhitespace, Ows.truthy_token, Node.checkedSpace, List.append_eq_nil_iff]
    exact and_comm
  | .notOperator sep lead pre node post trail, e, h => by
    obtain ⟨e', he', -, -, rfl⟩ := Node.transform_notOperator h
    have hnode := node.hasWhitespace_transform he'
    rw [Transformer.notOperator, Expression.hasWhitespace, Transformer.hasWhitespace_filterItems,
      Expressions.hasWhitespace, Expressions.hasWhitespace, Bool.or_false, Bool.or_eq_false_iff,
      hnode, Cell.hasWhitespace, Ows.truthy_token, Node.checkedSpace, List.append_eq_nil_iff]
    exact and_comm

theorem Groups.hasWhitespace_transform : ∀ (gs : Groups) {es : Expressions},
    gs.transform = .ok es → (es.hasWhitespace = false ↔ gs.checkedSpace = [])
  | .nil, es, h => by
    cases h
    exact iff_of_true rfl rfl
  | .cons pre node post rest, es, h => by
    obtain ⟨e, es', he, hes', rfl⟩ := Groups.transform_cons h
    rw [Transformer.hasWhitespace_consToken, Expressions.hasWhitespace,
      Transformer.hasWhitespace_consToken, Bool.or_eq_false_iff, node.hasWhitespace_transform he,
      rest.hasWhitespace_transform hes', Groups.checkedSpace, List.append_eq_nil_iff]

end

/-- The root of an accepted filter holds white space where its text has some that the
check sees. -/
theorem Start.hasWhitespace_transform {d : Start} {root : Expression}
    (h : d.transform = .ok root) : root.hasWhitespace = false ↔ d.checkedSpace = [] := by
  cases d with
  | group pre n post =>
    obtain ⟨e, he, -, -, rfl⟩ := Start.transform_group h
    have hnode := n.hasWhitespace_transform he
    have hstart : (Transformer.start e).hasWhitespace = e.hasWhitespace := by
      cases e with
      | comparison c =>
        show ((Cell.comparison c).hasWhitespace || false || false) = _
        rw [Bool.or_false, Bool.or_false]
        rfl
      | container cls es sep => rfl
    rw [hstart]
    exact hnode
  | bare c =>
    obtain ⟨cmp, hcmp, rfl⟩ := Start.transform_bare h
    have hleaf := Leaf.hasWhitespace_transform none none hcmp
    rw [show Ows.token none = none from rfl, Comparison.expression_none hcmp] at hleaf
    show ((Cell.comparison cmp).hasWhitespace || false || false) = false ↔ _
    rw [Bool.or_false, Bool.or_false, hleaf, Ows.text_none, List.nil_append, List.append_nil]
    rfl

end Grammar

/-! ## What strict parsing accepts -/

/-- A text has no white space but strictly inside its assertion values, between two of
their characters that are none. -/
def SpaceInsideOnly (s : PyStr) : Prop :=
  ∀ d : Grammar.Start, d.text = s → ∀ c ∈ d.outside, isSpace c = false

/-- No white space stands outside the values where the check sees none and misses none. -/
theorem spaceInsideOnly_iff (d : Grammar.Start) :
    SpaceInsideOnly d.text ↔ d.checkedSpace = [] ∧ d.missedSpace = [] := by
  rw [← d.outside_iff, List.any_eq_false]
  constructor
  · intro h c hc
    rw [h d rfl c hc]
    decide
  · intro h d' htext c hc
    rw [Grammar.Start.outside_unique htext] at hc
    exact Bool.eq_false_iff.mpr (h c hc)

/-- Strict parsing of an accepted text ends: without an error where the check sees no
white space, and else with the `FilterError` over the text. -/
theorem Filter.initStrict_cases {lark : LarkParser} {s : PyStr} {f : Filter}
    (h : Filter.init lark (some s) = .ok f) {d : Grammar.Start} (hs : ¬ (s = [] ∨ s = py " "))
    (hd : lark.parse s = some d) :
    ∃ n, ∀ rounds, n ≤ rounds → Filter.initStrict lark (some s) rounds
      = some (if d.checkedSpace = [] then .ok f
          else .error (.filterError (Filter.error (some s)))) := by
  rcases Filter.init_cases h with ⟨hblank, -⟩ | ⟨-, d', root, hparse, -, hroot, rfl⟩
  · exact absurd hblank hs
  · obtain rfl : d' = d := Option.some.inj (hparse.symm.trans hd)
    obtain ⟨n, hn⟩ := Filter.initStrict_eq h rfl
    refine ⟨n, fun rounds hrounds => ?_⟩
    rw [hn rounds hrounds]
    have hspace := Grammar.Start.hasWhitespace_transform hroot
    by_cases hchecked : d'.checkedSpace = []
    · rw [if_pos hchecked, hspace.mpr hchecked]
      rfl
    · rw [if_neg hchecked, if_pos (Bool.not_eq_false _ ▸ mt hspace.mp hchecked)]

theorem strictlyAccepted_iff {lark : LarkParser} {s : PyStr} {f : Filter}
    (h : Filter.init lark (some s) = .ok f) {d : Grammar.Start} (hs : ¬ (s = [] ∨ s = py " "))
    (hd : lark.parse s = some d) : StrictlyAccepted lark s ↔ d.checkedSpace = [] := by
  obtain ⟨n, hn⟩ := Filter.initStrict_cases h hs hd
  constructor
  · rintro ⟨m, hm⟩
    obtain ⟨f', hf'⟩ := hm (max n m) (Nat.le_max_right n m)
    rw [hn (max n m) (Nat.le_max_left n m)] at hf'
    by_contra hchecked
    rw [if_neg hchecked] at hf'
    cases hf'
  · intro hchecked
    refine ⟨n, fun rounds hrounds => ⟨f, ?_⟩⟩
    rw [hn rounds hrounds, if_pos hchecked]

/-- Strict parsing accepts exactly the filters without white space outside their values,
and else raises `FilterError`, exactly if white space that the check misses comes with
some that it sees. -/
theorem strict_rejects_whitespace_iff {lark : LarkParser} {s : PyStr} {f : Filter}
    (h : Filter.init lark (some s) = .ok f) (hs : s ≠ [] ∧ s ≠ py " ") {d : Grammar.Start}
    (hd : lark.parse s = some d) :
    ((StrictlyAccepted lark s ↔ SpaceInsideOnly s) ∧
      (¬ SpaceInsideOnly s → ∃ n, ∀ rounds, n ≤ rounds → Filter.initStrict lark (some s) rounds
        = some (.error (.filterError (Filter.error (some s)))))) ↔
    (d.missedSpace ≠ [] → d.checkedSpace ≠ []) := by
  have hblank : ¬ (s = [] ∨ s = py " ") := not_or.mpr hs
  have hinside : SpaceInsideOnly s ↔ d.checkedSpace = [] ∧ d.missedSpace = [] := by
    rw [← lark.sound s d hd]
    exact spaceInsideOnly_iff d
  rw [strictlyAccepted_iff h hblank hd, hinside]
  constructor
  · rintro ⟨hiff, -⟩ hmissed hchecked
    exact hmissed (hiff.mp hchecked).2
  · intro hseen
    have hboth : d.checkedSpace = [] → d.missedSpace = [] := fun hchecked =>
      not_not.mp fun hmissed => hseen hmissed hchecked
    refine ⟨⟨fun hchecked => ⟨hchecked, hboth hchecked⟩, fun hnone => hnone.1⟩, fun hnone => ?_⟩
    obtain ⟨n, hn⟩ := Filter.initStrict_cases h hblank hd
    refine ⟨n, fun rounds hrounds => ?_⟩
    rw [hn rounds hrounds, if_neg fun hchecked => hnone ⟨hchecked, hboth hchecked⟩]

/-- `(&(cn=John Doe)(sn= x))`, where the check sees the white space in front of a value. -/
theorem strict_rejects_whitespace_margin :
    StrictlyAccepted resolver (py "(&(cn=John Doe)(sn= x))") ↔
      SpaceInsideOnly (py "(&(cn=John Doe)(sn= x))") := by
  obtain ⟨f, hf⟩ : Accepted resolver (py "(&(cn=John Doe)(sn= x))") := .of_isOk (by decide +kernel)
  have hparse : (resolver.parse (py "(&(cn=John Doe)(sn= x))")).any
      (fun d => d.missedSpace.isEmpty) = true := by decide +kernel
  obtain ⟨d, hd, hmissed⟩ := (Option.any_eq_true _ _).mp hparse
  refine ((strict_rejects_whitespace_iff hf ⟨by decide, by decide⟩ hd).mpr fun hne => ?_).1
  exact absurd (List.isEmpty_iff.mp hmissed) hne

/-- `(& (cn=John))` passes the strict check. -/
theorem strict_misses_member_space :
    StrictlyAccepted resolver (py "(& (cn=John))") ∧ ¬ SpaceInsideOnly (py "(& (cn=John))") := by
  obtain ⟨f, hf⟩ : Accepted resolver (py "(& (cn=John))") := .of_isOk (by decide +kernel)
  have hparse : (resolver.parse (py "(& (cn=John))")).any
      (fun d => d.checkedSpace.isEmpty && !d.missedSpace.isEmpty) = true := by decide +kernel
  obtain ⟨d, hd, hspace⟩ := (Option.any_eq_true _ _).mp hparse
  obtain ⟨hchecked, hmissed⟩ := (Bool.and_eq_true _ _).mp hspace
  have hblank : ¬ (py "(& (cn=John))" = [] ∨ py "(& (cn=John))" = py " ") := by decide
  refine ⟨(strictlyAccepted_iff hf hblank hd).mpr (List.isEmpty_iff.mp hchecked), ?_⟩
  rw [← resolver.sound _ d hd, spaceInsideOnly_iff]
  rintro ⟨-, hnone⟩
  rw [hnone] at hmissed
  cases hmissed

end FreeIam.Ldap
