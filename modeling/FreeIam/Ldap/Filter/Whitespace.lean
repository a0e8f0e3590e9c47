import FreeIam.Ldap.Filter.Resolver

/-!
# Optional white space

White space may be inserted after an opening and before a closing bracket, after
an operator symbol, between the members of an operator, and around an assertion
value. The text with the insertions has a derivation with the same operators and
readings, so every accepted parse of it means the same.
-/

namespace FreeIam.Ldap

open FreeIam.Py FreeIam.Scan

namespace Grammar

/-! ## Inserting white space -/

/-- The second run is the first with white space inserted. -/
def Ows.Inserted (old new : Ows) : Prop := (Ows.text old).Sublist (Ows.text new)

mutual

/-- The text of a node with white space inserted. -/
inductive Node.Spaced : Node → PyStr → Prop where
  | expression {lead trail lead' trail' : Ows} {c : Grammar.Comparison} {s : PyStr}
      (hlead : Ows.Inserted lead lead') (htrail : Ows.Inserted trail trail') (hvalue : c.Spaced s) :
      Node.Spaced (.expression lead c trail)
        (py "(" ++ Ows.text lead' ++ s ++ Ows.text trail' ++ py ")")
  | listOperator {op : ListOp} {sep lead trail sep' lead' trail' : Ows} {groups : Groups}
      {s : PyStr} (hsep : Ows.Inserted sep sep') (hlead : Ows.Inserted lead lead')
      (htrail : Ows.Inserted trail trail') (hgroups : Groups.Spaced groups s) :
      Node.Spaced (.listOperator op sep lead groups trail)
        (py "(" ++ Ows.text sep' ++ [op.symbol] ++ Ows.text lead' ++ s ++ Ows.text trail' ++ py ")")
  | notOperator {sep lead pre post trail sep' lead' pre' post' trail' : Ows} {node : Node}
      {s : PyStr} (hsep : Ows.Inserted sep sep') (hlead : Ows.Inserted lead lead')
      (hpre : Ows.Inserted pre pre') (hpost : Ows.Inserted post post')
      (htrail : Ows.Inserted trail trail') (hnode : Node.Spaced node s) :
      Node.Spaced (.notOperator sep lead pre node post trail)
        (py "(" ++ Ows.text sep' ++ py "!" ++ Ows.text lead' ++ Ows.text pre' ++ s
          ++ Ows.text post' ++ Ows.text trail' ++ py ")")

/-- The text of groups with white space inserted around them. -/
inductive Groups.Spaced : Groups → PyStr → Prop where
  | nil : Groups.Spaced .nil []
  | cons {pre post pre' post' : Ows} {node : Node} {rest : Groups} {s t : PyStr}
      (hpre : Ows.Inserted pre pre') (hpost : Ows.Inserted post post')
      (hnode : Node.Spaced node s) (hrest : Groups.Spaced rest t) :
      Groups.Spaced (.cons pre node post rest) (Ows.text pre' ++ s ++ Ows.text post' ++ t)

end

/-- The text of a filter with white space inserted. None is inserted around the
whole filter. -/
inductive Start.Spaced : Start → PyStr → Prop where
  | group {pre post : Ows} {node : Node} {s : PyStr} (hnode : Node.Spaced node s) :
      Start.Spaced (.group pre node post) (Ows.text pre ++ s ++ Ows.text post)
  | bare {c : Grammar.Comparison} {s : PyStr} (hvalue : c.Spaced s) : Start.Spaced (.bare c) s

/-! ## Deriving the inserted white space -/

section

variable {β : Type} (g : Reading → β)

mutual

/-- A text with white space inserted has a derivation of the same outline. -/
theorem Node.exists_spaced : ∀ (n : Node) {s : PyStr}, n.Spaced s →
    ∃ n' : Node, n'.text = s ∧ n'.outline g = n.outline g
  | .expression lead c trail, _, @Node.Spaced.expression _ _ lead' trail' _ _ _ _ hvalue => by
    obtain ⟨c', htext, hreading⟩ := hvalue.exists_comparison
    refine ⟨.expression lead' c' trail', ?_, ?_⟩
    · simp [Node.text, htext]
    · rw [Node.outline, Node.outline, hreading]
  | .listOperator op sep lead groups trail, _,
      @Node.Spaced.listOperator _ _ _ _ sep' lead' trail' _ _ _ _ _ hgroups => by
    obtain ⟨gs', htext, houtline⟩ := groups.exists_spaced hgroups
    refine ⟨.listOperator op sep' lead' gs' trail', ?_, ?_⟩
    · simp [Node.text, htext]
    · rw [Node.outline, Node.outline, houtline]
  | .notOperator sep lead pre node post trail, _,
      @Node.Spaced.notOperator _ _ _ _ _ sep' lead' pre' post' trail' _ _ _ _ _ _ _ hnode => by
    obtain ⟨n', htext, houtline⟩ := node.exists_spaced hnode
    refine ⟨.notOperator sep' lead' pre' n' post' trail', ?_, ?_⟩
    · simp [Node.text, htext]
    · rw [Node.outline, Node.outline, houtline]

theorem Groups.exists_spaced : ∀ (gs : Groups) {s : PyStr}, gs.Spaced s →
    ∃ gs' : Groups, gs'.text = s ∧ gs'.outline g = gs.outline g
  | .nil, _, .nil => ⟨.nil, rfl, rfl⟩
  | .cons pre node post rest, _, @Groups.Spaced.cons _ _ pre' post' _ _ _ _ _ _ hnode hrest => by
    obtain ⟨n', htext₁, houtline₁⟩ := node.exists_spaced hnode
    obtain ⟨gs', htext₂, houtline₂⟩ := rest.exists_spaced hrest
    refine ⟨.cons pre' n' post' gs', ?_, ?_⟩
    · rw [Groups.text, htext₁, htext₂]
    · rw [Groups.outline, Groups.outline, houtline₁, houtline₂]

end

theorem Start.exists_spaced {d : Start} {s : PyStr} (h : d.Spaced s) :
    ∃ d' : Start, d'.text = s ∧ d'.outline g = d.outline g := by
  cases h with
  | @group pre post node s hnode =>
    obtain ⟨n', htext, houtline⟩ := node.exists_spaced g hnode
    exact ⟨.group pre n' post, by rw [Start.text, htext], houtline⟩
  | @bare c s hvalue =>
    obtain ⟨c', htext, hreading⟩ := hvalue.exists_comparison
    exact ⟨.bare c', htext, by rw [Start.outline, Start.outline, hreading]⟩

end

end Grammar

/-! ## White space carries no meaning -/

/-- What a leaf means: its class with the dn flag and the matching rule, its
attribute and its decoded value. -/
def leafMeaning (c : Comparison) : ComparisonClass × PyStr × PyStr := (c.cls, c.attr, c.value)

/-- What a reading means: its class, its attribute and its decoded value. -/
def readingMeaning (r : Reading) : ComparisonClass × PyStr × PyStr :=
  (r.cls, r.attr, unescape r.rawValue)

/-- Inserting optional white space does not change the operators, their nesting,
or the meaning of any leaf. -/
theorem whitespace_insignificant {lark : LarkParser} (hfirst : lark.FirstListed)
    {s s' : PyStr} {f f' : Filter} (h : Filter.init lark (some s) = .ok f)
    (h' : Filter.init lark (some s') = .ok f') {d : Grammar.Start} (hd : d.text = s)
    (hspaced : d.Spaced s') : f.outline leafMeaning = f'.outline leafMeaning := by
  have hobs : ∀ t d', lark.parse t = some d' → ∀ c ∈ d'.comparisons,
      Observes leafMeaning readingMeaning c := by
    intro t d' hparse c hc
    exact observes_meaning (hfirst t d' hparse c hc)
  obtain ⟨d', htext, houtline⟩ := Grammar.Start.exists_spaced readingMeaning hspaced
  rw [Filter.outline_eq h (hobs s) hd, Filter.outline_eq h' (hobs s') htext, houtline]

/-- White space around a comparison, and next to a value that has some. -/
theorem whitespace_insignificant_leaf :
    ∃ f f', Filter.init resolver (some (py "(cn= John)")) = .ok f ∧
      Filter.init resolver (some (py "( cn= \tJohn\n)")) = .ok f' ∧
      f.outline leafMeaning = f'.outline leafMeaning := by
  obtain ⟨f, hf⟩ : Accepted resolver (py "(cn= John)") := .of_isOk (by decide +kernel)
  obtain ⟨f', hf'⟩ : Accepted resolver (py "( cn= \tJohn\n)") := .of_isOk (by decide +kernel)
  let space : Grammar.Ows := some ⟨py " ", by decide, by decide⟩
  let c : Grammar.Comparison := .equality ⟨py "cn", by decide⟩
    ⟨space, some ⟨py "John", by decide, by decide⟩, none⟩
  have hvalue : c.Spaced (py "cn= \tJohn\n") :=
    ⟨py " ", py "John", [], py " \t", py "\n", by decide, by decide, by decide,
      .keep (.insert (by decide) .nil), .insert (by decide) .nil, by decide⟩
  refine ⟨f, f', hf, hf', whitespace_insignificant resolver_firstListed hf hf'
    (d := .group none (.expression none c none) none) (by decide) ?_⟩
  have hspace : Grammar.Ows.Inserted none space := List.nil_sublist _
  have hnone : Grammar.Ows.Inserted none none := List.nil_sublist _
  exact .group (@Grammar.Node.Spaced.expression none none space none c _ hspace hnone hvalue)

end FreeIam.Ldap
