import FreeIam.Ldap.Filter.Layout

/-!
# The class `Filter`

Parsing, printing and pretty-printing of a whole filter. Lark is not part of
the repository: `LarkParser` is a parser for the grammar of which only
soundness and completeness are known. Which derivation it takes of an ambiguous
text is left open; `LarkParser.FirstListed`, `LarkParser.TokenFirst`,
`LarkParser.SpanResolved` and `LarkParser.BlankResolved` name what some results need
of the choice.
-/

namespace FreeIam.Ldap

open FreeIam.Py FreeIam.Scan FreeIam.Bracket Grammar

/-- `Lark(LDAP_FILTER_GRAMMAR)`: `parse` returns a derivation of its argument
and fails only on strings that have none. -/
structure LarkParser where
  parse : PyStr → Option Start
  sound : ∀ s d, parse s = some d → d.text = s
  complete : ∀ d : Start, (parse d.text).isSome = true

/-- Lark resolves an ambiguous comparison to the alternative listed first. -/
def LarkParser.FirstListed (lark : LarkParser) : Prop :=
  ∀ s d, lark.parse s = some d → ∀ c ∈ d.comparisons, c.FirstListed

/-- Of `ows _value? ows` Lark takes the alternative with a value token, listed
first, wherever the text of the value has one. -/
def LarkParser.TokenFirst (lark : LarkParser) : Prop :=
  ∀ s d, lark.parse s = some d → ∀ c ∈ d.comparisons, ∀ cls v, c.valued = some (cls, v) →
    v.body = none → v.text = []

/-- Lark resolves the ambiguities inside an `expression` by the text it spans,
not by what stands around it. -/
def LarkParser.SpanResolved (lark : LarkParser) : Prop :=
  ∀ s s' d d', lark.parse s = some d → lark.parse s' = some d' →
    ∀ l ∈ d.expressions, ∀ l' ∈ d'.expressions, l.text = l'.text → l = l'

/-- Of white space alone between the operator of a comparison and its closing bracket, Lark
leaves that of an equality to the bracket, where `value` derives nothing; every other
comparison with one assertion value takes it as its value token. -/
def LarkParser.BlankResolved (lark : LarkParser) : Prop :=
  ∀ s d, lark.parse s = some d → ∀ l ∈ d.expressions, ∀ cls v, l.comparison.valued = some (cls, v) →
    v.text ++ Ows.text l.trail ≠ [] → All isWS (v.text ++ Ows.text l.trail) →
      (v.body = none ↔ cls = .equalityMatch)

/-- `FilterError`. -/
structure FilterError where
  result : Int
  desc : PyStr
  info : PyStr
  deriving DecidableEq, Repr

/-- A `Filter` object. -/
structure Filter where
  filterExpr : Option PyStr
  ast : Expression
  tree : Option Start

/-- `Filter.error`; `str(None)` is `None`. -/
def Filter.error (filterExpr : Option PyStr) : FilterError where
  result := -7
  desc := py "Bad search filter"
  info := filterExpr.getD (py "None")

/-- `Container(expressions)`. -/
def containerOf (expressions : List Expression) : Expression :=
  .container .container (.ofList expressions) none

/-- `Filter.__init__` with `Filter.parse`, non-strict. -/
def Filter.init (lark : LarkParser) (filterExpr : Option PyStr) : Except FilterError Filter :=
  match filterExpr with
  | none => .ok ⟨none, containerOf [], none⟩
  | some s =>
    if s = [] ∨ s = py " " then .ok ⟨some s, containerOf [], none⟩
    else match lark.parse s with
      | none => .error (Filter.error (some s))
      | some tree => match tree.transform with
        | .error _ => .error (Filter.error (some s))
        | .ok root => .ok ⟨some s, containerOf [root], some tree⟩

/-- The first expression of a list that is no token. -/
def Expressions.first : Expressions → Option Expression
  | .nil => none
  | .token _ rest => rest.first
  | .cons e _ => some e

/-- `Filter.root`. -/
def Filter.root (f : Filter) : Option Expression :=
  match f.tree, f.ast with
  | none, _ => none
  | some _, .comparison _ => none
  | some _, .container _ es _ => es.first

/-- `Filter.__str__`. -/
def Filter.str (f : Filter) : PyStr :=
  match f.tree with
  | none => f.filterExpr.getD []
  | some _ => f.ast.str

/-- `Filter.pretty`. -/
def Filter.pretty (f : Filter) (indent : Nat) : PyStr :=
  match f.root with
  | none => []
  | some e => e.prettyAt indent

/-- The operators of the filter around an observation of its leaves. -/
def Filter.outline {β : Type} (obs : Ldap.Comparison → β) (f : Filter) : List (Outline β) :=
  f.ast.outline obs

/-- `Filter(s)` succeeds. -/
def Accepted (lark : LarkParser) (s : PyStr) : Prop := ∃ f, Filter.init lark (some s) = .ok f

/-- Acceptance can be computed. -/
theorem Accepted.of_isOk {lark : LarkParser} {s : PyStr}
    (h : (Filter.init lark (some s)).isOk = true) : Accepted lark s := by
  cases hf : Filter.init lark (some s) with
  | error e => rw [hf] at h; cases h
  | ok f => exact ⟨f, hf⟩

/-- What an accepted filter is: one of the two empty filters, or the
transformed derivation that Lark found. -/
theorem Filter.init_cases {lark : LarkParser} {s : PyStr} {f : Filter}
    (h : Filter.init lark (some s) = .ok f) :
    ((s = [] ∨ s = py " ") ∧ f = ⟨some s, containerOf [], none⟩) ∨
    (¬ (s = [] ∨ s = py " ") ∧ ∃ d root, lark.parse s = some d ∧ d.text = s ∧
      d.transform = .ok root ∧ f = ⟨some s, containerOf [root], some d⟩) := by
  rw [Filter.init] at h
  split at h
  · rename_i hs
    cases h
    exact .inl ⟨hs, rfl⟩
  · rename_i hs
    right
    refine ⟨hs, ?_⟩
    cases hparse : lark.parse s with
    | none => rw [hparse] at h; cases h
    | some d =>
      rw [hparse] at h
      cases hd : d.transform with
      | error e => simp only [hd] at h; cases h
      | ok root =>
        simp only [hd] at h
        cases h
        exact ⟨d, root, rfl, lark.sound s d hparse, hd, rfl⟩

/-- A derivation derives neither of the two empty filters. -/
theorem Grammar.Start.text_ne_blank (d : Start) : ¬ (d.text = [] ∨ d.text = py " ") := by
  have hgroup : ∀ (pre : Ows) (n : Node) (post : Ows), '('.toNat ∈ (Start.group pre n post).text := by
    intro pre n post
    obtain ⟨s, hs⟩ := n.layout.text_eq_cons (A := filterAlphabet)
    rw [n.text_layout] at hs
    simp [Start.text, hs]
  cases d with
  | group pre n post =>
    rintro (h | h)
    · exact absurd (hgroup pre n post) (by rw [h]; simp)
    · exact absurd (hgroup pre n post) (by rw [h]; decide)
  | bare c =>
    obtain ⟨x, s, hs, hx⟩ := c.text_eq_cons
    have hws := (headChar_spec hx).1
    show ¬ (c.text = [] ∨ c.text = py " ")
    rw [hs]
    rintro (h | h)
    · cases h
    · rw [(List.cons.inj h).1] at hws
      revert hws
      decide

/-- The outline of an accepted filter is the outline of any derivation of its
text, for every observation that the readings determine. -/
theorem Filter.outline_eq {β : Type} {obs : Ldap.Comparison → β} {g : Reading → β}
    {lark : LarkParser} {s : PyStr} {f : Filter} (h : Filter.init lark (some s) = .ok f)
    (hobs : ∀ d, lark.parse s = some d → ∀ c ∈ d.comparisons, Observes obs g c)
    {d : Start} (hd : d.text = s) : f.outline obs = [d.outline g] := by
  rcases Filter.init_cases h with ⟨hblank, -⟩ | ⟨-, d', root, hparse, hd', hroot, rfl⟩
  · exact absurd (hd ▸ hblank) d.text_ne_blank
  · have hroot := d'.outline_transform (hobs d' hparse) hroot
    have hunique := Start.outline_unique g (hd'.trans hd.symm)
    rw [← hunique, ← hroot]
    show (Expressions.cons root .nil).outline obs = _
    simp [Expressions.outline]

/-- A derived string is accepted when the derivation that Lark finds is. -/
theorem Filter.accepted_of_parse (lark : LarkParser) (d : Start)
    (h : ∀ d' : Start, lark.parse d.text = some d' → d'.text = d.text →
      ∃ e, d'.transform = .ok e) : Accepted lark d.text := by
  rw [Accepted]
  by_cases hs : d.text = [] ∨ d.text = py " "
  · exact ⟨_, by rw [Filter.init, if_pos hs]⟩
  · obtain ⟨d', hd'⟩ := Option.isSome_iff_exists.mp (lark.complete d)
    obtain ⟨e, he⟩ := h d' hd' (lark.sound _ _ hd')
    refine ⟨⟨some d.text, containerOf [e], some d'⟩, ?_⟩
    rw [Filter.init, if_neg hs, hd']
    simp only [he]

/-- A failing `Filter(s)` reports the string it was given. -/
theorem Filter.init_error {lark : LarkParser} {s : PyStr} {err : FilterError}
    (h : Filter.init lark (some s) = .error err) : err = Filter.error (some s) := by
  rw [Filter.init] at h
  split at h
  · cases h
  · cases hparse : lark.parse s with
    | none => rw [hparse] at h; cases h; rfl
    | some d =>
      rw [hparse] at h
      cases hd : d.transform with
      | error e => simp only [hd] at h; cases h; rfl
      | ok root => simp only [hd] at h; cases h

end FreeIam.Ldap
