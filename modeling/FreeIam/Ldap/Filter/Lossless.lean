import FreeIam.Ldap.Filter.Acceptance
import FreeIam.Ldap.Filter.Parser

/-!
# Parsing and printing

Printing a transformed derivation never adds anything, and gives back the text
of the derivation exactly when no slot of white space is lost: an operator
prints the white space in front of its symbol behind it, and `value` keeps only
one of two adjoining margins.
-/

namespace FreeIam.Ldap

open FreeIam.Py FreeIam.Scan FreeIam.Bracket

/-! ## Values -/

/-- What a comparison prints for its value. -/
def ValueStr.printed (v : ValueStr) : PyStr := orStr v.pre [] ++ v.text ++ orStr v.suffix []

namespace Grammar

/-- No margin of the value adjoins white space of the token. -/
structure Value.EdgesKept (v : Grammar.Value) : Prop where
  lead : v.lead = none ∨ Stops isSpace (v.body.elim [] ValueTok.text)
  trail : v.trail = none ∨ Stops isSpace (v.body.elim [] ValueTok.text).reverse

theorem Ows.orStr_token (w : Ows) : orStr (Ows.token w) [] = Ows.text w := by
  cases w with
  | none => rfl
  | some w =>
    have : w.text.isEmpty = false := by simp [w.nonempty]
    simp [Ows.token, orStr, this]

/-- A margin that is taken wins over the white space of the token. -/
theorem Ows.orStr_orStr_token (w : Ows) (s : PyStr) :
    orStr (some (orStr (Ows.token w) s)) [] = if w = none then s else Ows.text w := by
  have hsome : ∀ t : PyStr, orStr (some t) [] = t := by
    intro t
    cases t <;> rfl
  rw [hsome]
  cases w with
  | none => rfl
  | some w =>
    have : w.text.isEmpty = false := by simp [w.nonempty]
    simp [Ows.token, orStr, this]

/-- The white space at the front of a text that is not all white space is empty
exactly if the text does not begin with white space. -/
theorem margin_eq_nil_iff {a s : PyStr} (ha : All isSpace a) (hs : Stops isSpace s) :
    a = [] ↔ Stops isSpace (a ++ s) := by
  constructor
  · rintro rfl
    exact hs
  · intro h
    cases a with
    | nil => rfl
    | cons c a =>
      have hc := (all_cons.mp ha).1
      rw [stops_cons.mp h] at hc
      cases hc

/-- Of two adjoining margins on either side of a core, the inner ones are lost. -/
theorem Ows.margins_spec (w w' : Ows) (a core b : PyStr) :
    ((if w = none then a else Ows.text w) ++ core ++ (if w' = none then b else Ows.text w')).length
        ≤ (Ows.text w ++ (a ++ core ++ b ++ Ows.text w')).length ∧
    ((if w = none then a else Ows.text w) ++ core ++ (if w' = none then b else Ows.text w')
        = Ows.text w ++ (a ++ core ++ b ++ Ows.text w') ↔ (w = none ∨ a = []) ∧ (w' = none ∨ b = []))
    := by
  have hshorter : ∀ {s t : PyStr}, s = t → s.length = t.length := fun h => congrArg List.length h
  cases w with
  | none =>
    cases w' with
    | none => simp
    | some t =>
      -- only the right margin can be lost
      refine ⟨by simp, fun h => ?_, ?_⟩
      · have hlen := hshorter h
        simp only [if_true, reduceCtorEq, if_false, Ows.text_none, Ows.text_some, List.nil_append,
          List.length_append] at hlen
        exact ⟨.inl rfl, .inr (List.length_eq_zero_iff.mp (by omega))⟩
      · rintro ⟨-, hb⟩
        simp [hb.resolve_left (by simp)]
  | some r =>
    cases w' with
    | none =>
      -- only the left margin can be lost
      refine ⟨by simp, fun h => ?_, ?_⟩
      · have hlen := hshorter h
        simp only [if_true, reduceCtorEq, if_false, Ows.text_none, Ows.text_some, List.append_nil,
          List.length_append] at hlen
        exact ⟨.inr (List.length_eq_zero_iff.mp (by omega)), .inl rfl⟩
      · rintro ⟨ha, -⟩
        simp [ha.resolve_left (by simp)]
    | some t =>
      -- both margins can be lost
      refine ⟨by simp; omega, fun h => ?_, ?_⟩
      · have hlen := hshorter h
        simp only [reduceCtorEq, if_false, Ows.text_some, List.length_append] at hlen
        exact ⟨.inr (List.length_eq_zero_iff.mp (by omega)),
          .inr (List.length_eq_zero_iff.mp (by omega))⟩
      · rintro ⟨ha, hb⟩
        simp [ha.resolve_left (by simp), hb.resolve_left (by simp)]

/-- The text of the value token. -/
def Value.token (v : Grammar.Value) : PyStr := v.body.elim [] ValueTok.text

theorem Value.text_eq (v : Grammar.Value) :
    v.text = Ows.text v.lead ++ (v.token ++ Ows.text v.trail) := rfl

/-- What an accepted value prints: its text, if the token has nothing to strip,
and else the core of the token between one margin on either side. -/
theorem Value.printed_cases {v : Grammar.Value} {s : ValueStr} (h : v.transform = .ok s) :
    (strip v.token = v.token ∧ s.printed = v.text) ∨
    (∃ a b, v.token = a ++ strip v.token ++ b ∧ All isSpace a ∧ All isSpace b ∧
      strip v.token ≠ [] ∧
      s.printed = (if v.lead = none then a else Ows.text v.lead) ++ strip v.token
        ++ (if v.trail = none then b else Ows.text v.trail)) := by
  change Transformer.value (Ows.token v.lead) v.token (Ows.token v.trail) = .ok s at h
  rcases Transformer.value_cases h with ⟨hstrip, rfl⟩ | ⟨a, b, hsplit, ha, hb, hne, rfl⟩
  · refine .inl ⟨hstrip, ?_⟩
    simp [ValueStr.printed, Ows.orStr_token, v.text_eq]
  · refine .inr ⟨a, b, hsplit, ha, hb, hne, ?_⟩
    simp only [ValueStr.printed, Ows.orStr_orStr_token]

/-- An accepted value prints at most its own text, and all of it exactly when
its edges are kept. -/
theorem Value.printed_spec {v : Grammar.Value} {s : ValueStr} (h : v.transform = .ok s) :
    s.printed.length ≤ v.text.length ∧ (s.printed = v.text ↔ v.EdgesKept) := by
  have hkept : v.EdgesKept ↔ (v.lead = none ∨ Stops isSpace v.token) ∧
      (v.trail = none ∨ Stops isSpace v.token.reverse) :=
    ⟨fun hk => ⟨hk.lead, hk.trail⟩, fun hk => ⟨hk.1, hk.2⟩⟩
  rw [hkept]
  rcases Value.printed_cases h with ⟨hstrip, hprinted⟩ | ⟨a, b, hsplit, ha, hb, hne, hprinted⟩
  · -- nothing to strip: both margins are kept
    refine ⟨by rw [hprinted], iff_of_true hprinted ⟨.inr ?_, .inr ?_⟩⟩
    · rw [← hstrip]
      exact stops_strip v.token
    · rw [← hstrip]
      exact stops_strip_reverse v.token
  · have hlead : a = [] ↔ Stops isSpace v.token := by
      rw [margin_eq_nil_iff ha ((stops_strip v.token).append (r := b) fun he => absurd he hne),
        ← List.append_assoc, ← hsplit]
    have htrail : b = [] ↔ Stops isSpace v.token.reverse := by
      have hstops : Stops isSpace ((strip v.token).reverse ++ a.reverse) :=
        (stops_strip_reverse v.token).append fun he => absurd (List.reverse_eq_nil_iff.mp he) hne
      have hmargin := margin_eq_nil_iff hb.reverse hstops
      rw [List.reverse_eq_nil_iff] at hmargin
      rw [hmargin]
      conv_rhs => rw [hsplit]
      simp
    have hmargins := Ows.margins_spec v.lead v.trail a (strip v.token) b
    rw [← hsplit] at hmargins
    rw [hprinted, ← hlead, ← htrail, v.text_eq]
    exact hmargins

/-! ## Comparisons -/

/-- The edges of the value are kept, where the alternative has one. -/
def Comparison.EdgesKept (c : Grammar.Comparison) : Prop :=
  ∀ cls v, c.valued = some (cls, v) → v.EdgesKept

/-- The value is a single asterisk with white space around it. -/
def Comparison.LoneAsterisk : Grammar.Comparison → Prop
  | .substring _ v => strip v.text = py "*" ∧ v.text ≠ py "*"
  | _ => False

theorem comparisonOf_str (cls : ComparisonClass) (attr : PyStr) (s : ValueStr) :
    (Transformer.comparisonOf cls attr s).str
      = attr ++ (Transformer.comparisonOf cls attr s).prefixText ++ s.printed := by
  simp [Transformer.comparisonOf, Transformer.applyPrefix, Comparison.init, Ldap.Comparison.str,
    Ldap.Comparison.prefixText, Ldap.Comparison.escaped, ValueStr.printed]

/-- The text of a substring that is no lone asterisk is printed as it stands. -/
theorem Transformer_value_printed {text : PyStr} {s : ValueStr}
    (h : Transformer.value none text none = .ok s) : s.printed = text := by
  rcases Transformer.value_cases h with ⟨-, rfl⟩ | ⟨a, b, hsplit, -, -, -, rfl⟩
  · simp [ValueStr.printed, orStr]
  · have hprinted := Ows.orStr_orStr_token none
    simp only [Ows.token, Option.map_none, if_true] at hprinted
    simp only [ValueStr.printed, hprinted]
    exact hsplit.symm

/-- An accepted comparison prints at most its own text, and all of it exactly
when its edges are kept. -/
theorem Comparison.str_spec {c : Grammar.Comparison} {cmp : Ldap.Comparison}
    (h : c.transform = .ok cmp) (hlone : ¬ c.LoneAsterisk) :
    cmp.str.length ≤ c.text.length ∧ (cmp.str = c.text ↔ c.EdgesKept) := by
  rcases transform_cases h with ⟨hop, hval, rfl⟩ | ⟨attr, v, s, rfl, hv, hne, rfl⟩ |
    ⟨cls, v, s, hc, -, hv, rfl⟩
  · -- a presence match prints `=*`, which is all there is unless the asterisk has margins
    have htext : (Ldap.Comparison.init .presenceMatch c.attrText [] true).str = c.text := by
      rw [c.text_eq, hop]
      have hrest : c.rest = py "*" := by
        cases c with
        | presence attr => rfl
        | substring attr v => exact not_not.mp fun hne => hlone ⟨hval, hne⟩
        | _ => exact absurd hval (valued_notMem rfl)
      rw [hrest]
      simp [Ldap.Comparison.str, Comparison.init, ComparisonClass.expression,
        Ldap.Comparison.escaped, py]
    have hkept : c.EdgesKept := by
      intro cls v hc
      exact absurd hval (valued_notMem hc)
    exact ⟨by rw [htext], iff_of_true htext hkept⟩
  -- a substring match prints its value with the margins
  · have htext : (Transformer.comparisonOf .substringMatch attr.text s).str
        = (Comparison.substring attr v).text := by
      rw [comparisonOf_str, Transformer_value_printed hv]
      rfl
    have hkept : (Comparison.substring attr v).EdgesKept := by
      intro cls w hc
      cases hc
    exact ⟨by rw [htext], iff_of_true htext hkept⟩
  -- one assertion value: the comparison loses what its value loses
  · obtain ⟨hlen, hiff⟩ := Value.printed_spec hv
    have hstr : (Transformer.comparisonOf cls c.attrText s).str
        = c.attrText ++ (c.opHead ++ py "=") ++ s.printed := by
      rw [comparisonOf_str, valued_prefixText hc]
    have htext : c.text = c.attrText ++ (c.opHead ++ py "=") ++ v.text := by
      rw [c.text_eq, valued_rest hc]
      simp [py]
    have hkept : c.EdgesKept ↔ v.EdgesKept := by
      constructor
      · exact fun hk => hk cls v hc
      · intro hk cls' v' hc'
        rw [hc] at hc'
        cases hc'
        exact hk
    rw [hstr, htext, hkept, ← hiff]
    refine ⟨?_, ?_⟩
    · simp only [List.length_append]
      omega
    · exact List.append_right_inj _

/-- The margins of a leaf are printed where they were. -/
theorem Comparison.str_expression {c : Grammar.Comparison} {cmp : Ldap.Comparison}
    (h : c.transform = .ok cmp) (lead trail : Ows) :
    (Transformer.expression (Ows.token lead) cmp (Ows.token trail)).str
      = Ows.text lead ++ cmp.str ++ Ows.text trail := by
  have hmargins : cmp.lead = [] ∧ cmp.trail = [] := by
    rcases transform_cases h with ⟨-, -, rfl⟩ | ⟨attr, v, s, -, -, -, rfl⟩ |
      ⟨cls, v, s, -, -, -, rfl⟩ <;> exact ⟨rfl, rfl⟩
  simp [Transformer.expression, Ldap.Comparison.str, Ldap.Comparison.escaped, Ows.orStr_token,
    hmargins.1, hmargins.2]

/-! ## Operators -/

mutual

/-- No white space of the derivation is lost or moved: none stands in front of
an operator symbol, and all values keep their edges. -/
def Node.Kept : Node → Prop
  | .expression _ comparison _ => comparison.EdgesKept
  | .listOperator _ sep _ groups _ => sep = none ∧ groups.Kept
  | .notOperator sep _ _ node _ _ => sep = none ∧ node.Kept

def Groups.Kept : Groups → Prop
  | .nil => True
  | .cons _ node _ rest => node.Kept ∧ rest.Kept

end

def Start.Kept : Start → Prop
  | .group _ node _ => node.Kept
  | .bare comparison => comparison.EdgesKept

theorem groupStr_consToken (w : Ows) (es : Expressions) :
    (Transformer.consToken (Ows.token w) es).groupStr = Ows.text w ++ es.groupStr := by
  cases w <;> rfl

theorem groupStr_filterItems (lead trail : Ows) (es : Expressions) :
    (Transformer.filterItems (Ows.token lead) es (Ows.token trail)).groupStr
      = Ows.text lead ++ es.groupStr ++ Ows.text trail := by
  simp [Transformer.filterItems, groupStr_consToken, Expressions.groupStr]

theorem groupStr_cons (e : Expression) (es : Expressions) :
    (Expressions.cons e es).groupStr = (Expressions.cons e .nil).groupStr ++ es.groupStr :=
  Expressions.groupStr_append (.cons e .nil) es

/-- Two texts that agree as a whole agree in part, when neither part is longer
on the left. -/
theorem append_eq_append_of_length_le {a b r s : PyStr} (hab : a.length ≤ b.length)
    (hrs : r.length ≤ s.length) : a ++ r = b ++ s ↔ a = b ∧ r = s := by
  constructor
  · intro h
    have hlen := congrArg List.length h
    simp only [List.length_append] at hlen
    exact List.append_inj h (by omega)
  · rintro ⟨rfl, rfl⟩
    rfl

/-- An operator prints the white space before its symbol behind it: it prints
its text exactly when there is none and its members print theirs. -/
theorem operator_str_spec {symbol : Nat} (hsymbol : isWS symbol = false) (sep : Ows)
    {items text : PyStr} (hlen : items.length ≤ text.length) :
    ([symbol] ++ Ows.text sep ++ items).length ≤ (Ows.text sep ++ [symbol] ++ text).length ∧
      ([symbol] ++ Ows.text sep ++ items = Ows.text sep ++ [symbol] ++ text ↔
        sep = none ∧ items = text) := by
  cases sep with
  | none => simp [hlen]
  | some w =>
    refine ⟨by simp; omega, fun h => ?_, fun h => by cases h.1⟩
    obtain ⟨c, s, hcs⟩ := List.exists_cons_of_ne_nil w.nonempty
    have hc : isWS c = true := w.chars c (by rw [hcs]; exact List.mem_cons_self)
    rw [Ows.text_some, hcs] at h
    have hfirst : symbol = c := (List.cons.inj h).1
    rw [← hfirst, hsymbol] at hc
    cases hc

theorem ListOp.symbol_not_ws (op : ListOp) : isWS op.symbol = false := by
  cases op <;> decide

mutual

/-- An accepted node prints at most its own text as a member of an operator, and
all of it exactly when nothing is lost. -/
theorem Node.str_spec : ∀ (n : Node) {e : Expression}, n.transform = .ok e →
    (∀ c ∈ n.comparisons, ¬ c.LoneAsterisk) →
    (Expressions.cons e .nil).groupStr.length ≤ n.text.length ∧
      ((Expressions.cons e .nil).groupStr = n.text ↔ n.Kept)
  | .expression lead c trail, e, h, hlone => by
    obtain ⟨cmp, hc, rfl⟩ := Node.transform_expression h
    obtain ⟨hlen, hiff⟩ := Comparison.str_spec hc (hlone c (List.mem_singleton.mpr rfl))
    have hstr : (Expressions.cons (.comparison (Transformer.expression (Ows.token lead) cmp
        (Ows.token trail))) .nil).groupStr
        = py "(" ++ (Ows.text lead ++ cmp.str ++ Ows.text trail) ++ py ")" := by
      simp [Expressions.groupStr, Comparison.str_expression hc]
    rw [hstr, Node.Kept, ← hiff, Node.text]
    refine ⟨by simp only [List.length_append]; omega, ?_⟩
    rw [List.append_left_inj, List.append_right_inj, List.append_left_inj, List.append_right_inj]
  | .listOperator op sep lead groups trail, e, h, hlone => by
    obtain ⟨es, hes, rfl⟩ := Node.transform_listOperator h
    obtain ⟨hlen, hiff⟩ := groups.str_spec hes hlone
    have hitems : (Ows.text lead ++ es.groupStr ++ Ows.text trail).length
        ≤ (Ows.text lead ++ groups.text ++ Ows.text trail).length := by
      simp only [List.length_append]
      omega
    -- the white space in front of the symbol is printed behind it
    obtain ⟨hlen', hiff'⟩ := operator_str_spec op.symbol_not_ws sep hitems
    have hstr : (Expressions.cons (.container (.operator op.operator) (Transformer.filterItems
        (Ows.token lead) es (Ows.token trail)) (Ows.token sep)) .nil).groupStr
        = py "(" ++ ([op.symbol] ++ Ows.text sep ++ (Ows.text lead ++ es.groupStr ++ Ows.text trail))
          ++ py ")" := by
      have hop : op.operator.expression = [op.symbol] := by cases op <;> rfl
      simp [Expressions.groupStr, Expression.str, groupStr_filterItems, Ows.orStr_token, hop]
    have htext : (Node.listOperator op sep lead groups trail).text
        = py "(" ++ (Ows.text sep ++ [op.symbol] ++ (Ows.text lead ++ groups.text
          ++ Ows.text trail)) ++ py ")" := by
      simp [Node.text]
    rw [hstr, htext, Node.Kept, ← hiff]
    refine ⟨by simp only [List.length_append] at hlen' ⊢; omega, ?_⟩
    rw [List.append_left_inj, List.append_right_inj, hiff', List.append_left_inj,
      List.append_right_inj]
  | .notOperator sep lead pre node post trail, e, h, hlone => by
    obtain ⟨e', he', rfl, rfl, rfl⟩ := Node.transform_notOperator h
    obtain ⟨hlen, hiff⟩ := node.str_spec he' hlone
    have hitems : (Ows.text lead ++ (Expressions.cons e' .nil).groupStr ++ Ows.text trail).length
        ≤ (Ows.text lead ++ node.text ++ Ows.text trail).length := by
      simp only [List.length_append]
      omega
    obtain ⟨hlen', hiff'⟩ := operator_str_spec (by decide : isWS '!'.toNat = false) sep hitems
    have hstr : (Expressions.cons (Transformer.notOperator (Ows.token sep) (Ows.token lead) e'
        (Ows.token trail)) .nil).groupStr
        = py "(" ++ (['!'.toNat] ++ Ows.text sep ++ (Ows.text lead
          ++ (Expressions.cons e' .nil).groupStr ++ Ows.text trail)) ++ py ")" := by
      simp only [Transformer.notOperator, Expressions.groupStr, Expression.str,
        groupStr_filterItems, Ows.orStr_token]
      simp [Operator.expression, py]
    have htext : (Node.notOperator sep lead none node none trail).text
        = py "(" ++ (Ows.text sep ++ ['!'.toNat] ++ (Ows.text lead ++ node.text
          ++ Ows.text trail)) ++ py ")" := by
      simp [Node.text, py]
    rw [hstr, htext, Node.Kept, ← hiff]
    refine ⟨by simp only [List.length_append] at hlen' ⊢; omega, ?_⟩
    rw [List.append_left_inj, List.append_right_inj, hiff', List.append_left_inj,
      List.append_right_inj]

theorem Groups.str_spec : ∀ (gs : Groups) {es : Expressions}, gs.transform = .ok es →
    (∀ c ∈ gs.comparisons, ¬ c.LoneAsterisk) →
    es.groupStr.length ≤ gs.text.length ∧ (es.groupStr = gs.text ↔ gs.Kept)
  | .nil, es, h, _ => by
    cases h
    exact ⟨Nat.le_refl _, iff_of_true rfl trivial⟩
  | .cons pre node post rest, es, h, hlone => by
    obtain ⟨e, es', he, hes', rfl⟩ := Groups.transform_cons h
    obtain ⟨hlen₁, hiff₁⟩ := node.str_spec he fun c hc => hlone c (by simp [hc])
    obtain ⟨hlen₂, hiff₂⟩ := rest.str_spec hes' fun c hc => hlone c (by simp [hc])
    rw [groupStr_consToken, groupStr_cons, groupStr_consToken, Groups.text, Groups.Kept, ← hiff₁,
      ← hiff₂]
    simp only [List.append_assoc, List.length_append]
    refine ⟨by omega, ?_⟩
    have hrest : (Ows.text post ++ es'.groupStr).length ≤ (Ows.text post ++ rest.text).length := by
      simp only [List.length_append]
      omega
    rw [List.append_right_inj, append_eq_append_of_length_le hlen₁ hrest, List.append_right_inj]

end

/-- The root prints as a member of an operator does. -/
theorem str_start (e : Expression) :
    (containerOf [Transformer.start e]).str = (Expressions.cons e .nil).groupStr := by
  cases e with
  | comparison c => simp [containerOf, Transformer.start, Expressions.ofList, Expression.str,
      Expressions.str, Expressions.groupStr]
  | container cls es sep => rfl

theorem str_bare (c : Ldap.Comparison) : (containerOf [Transformer.bare c]).str = c.str := by
  simp [containerOf, Transformer.bare, Expressions.ofList, Expression.str, Expressions.str]

/-- Parsing and printing is lossless for exactly the derivations that lose no
white space, a lone asterisk with margins aside. -/
theorem Start.str_eq_text_iff (d : Start) {root : Expression} (h : d.transform = .ok root)
    (hlone : ∀ c ∈ d.comparisons, ¬ c.LoneAsterisk) :
    (containerOf [root]).str = d.text ↔ d.Kept := by
  cases d with
  | group pre node post =>
    obtain ⟨e, he, rfl, rfl, rfl⟩ := Start.transform_group h
    have hstr := (node.str_spec he hlone).2
    rw [str_start]
    simpa [Start.text, Start.Kept] using hstr
  | bare c =>
    obtain ⟨cmp, hc, rfl⟩ := Start.transform_bare h
    have hstr := (Comparison.str_spec hc (hlone c (List.mem_singleton.mpr rfl))).2
    rw [str_bare]
    exact hstr

/-! ## Where white space is lost -/

/-- The only derivation of `(&(a=b))` with given white space before `&`. -/
def andDerivation (sep : Ows) : Start :=
  .group none (.listOperator .and sep none
    (.cons none (.expression none (.equality ⟨py "a", by decide⟩
      ⟨none, some ⟨py "b", by decide, by decide⟩, none⟩) none) none .nil) none) none

theorem str_eq_text_iff_and :
    ∃ root, (andDerivation none).transform = .ok root ∧
      ((containerOf [root]).str = py "(&(a=b))" ↔ (andDerivation none).Kept) :=
  ⟨_, rfl, Start.str_eq_text_iff (andDerivation none) rfl fun c hc => by
    rw [List.mem_singleton.mp hc]
    exact not_false⟩

/-- `( &(a=b))` is printed as `(& (a=b))`. -/
theorem not_lossless :
    ¬ ∀ (d : Start) (root : Expression), d.transform = .ok root →
      (∀ c ∈ d.comparisons, ¬ c.LoneAsterisk) → (containerOf [root]).str = d.text := by
  intro h
  have hstr := h (andDerivation (some ⟨py " ", by decide, by decide⟩)) _ rfl fun c hc => by
    rw [List.mem_singleton.mp hc]
    exact not_false
  revert hstr
  decide

end Grammar

end FreeIam.Ldap
