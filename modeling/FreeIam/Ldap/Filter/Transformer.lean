import FreeIam.Ldap.Filter.Expression
import FreeIam.Ldap.Filter.Grammar

/-!
# The transformer

`_FilterTransformer`: the callbacks that turn a derivation into expressions,
bottom up. A callback that raises makes Lark raise a `VisitError`, whatever it
raised.
-/

namespace FreeIam.Ldap

open FreeIam.Py FreeIam.Scan

/-- A `VisitError`, by what the callback raised. -/
inductive VisitError where
  | valueError
  | typeError
  deriving DecidableEq, Repr

/-- `_Value`: the text of an assertion value and the white space around it. -/
structure ValueStr where
  text : PyStr
  pre : Option PyStr
  suffix : Option PyStr
  deriving DecidableEq, Repr

namespace Transformer

/-! ## Callbacks of values -/

/-- `value`: white space at the edges of the value moves to a margin that is
still empty. -/
def value (ld : Option PyStr) (val : PyStr) (tr : Option PyStr) : Except VisitError ValueStr :=
  if val ≠ strip val then
    match partition val (strip val) with
    | none => .error .valueError
    | some (ld', val, tr') => .ok ⟨val, some (orStr ld ld'), some (orStr tr tr')⟩
  else .ok ⟨val, ld, tr⟩

/-- `_prefix`. -/
def applyPrefix (data : ValueStr) (c : Comparison) : Comparison :=
  { c with mid := orStr data.pre [], fin := orStr data.suffix [] }

/-- `substrings`. -/
def substrings (parts : PyStr) : Except VisitError PyStr :=
  if contains (py "**") parts then .error .valueError else .ok parts

/-! ## Callbacks of comparisons -/

/-- A comparison of a class with a parsed value. -/
def comparisonOf (cls : ComparisonClass) (attr : PyStr) (value : ValueStr) : Comparison :=
  applyPrefix value (.init cls attr value.text true)

def equality (attr : PyStr) (value : ValueStr) : Comparison :=
  comparisonOf .equalityMatch attr value

def presence (attr : PyStr) (text : PyStr) : Except VisitError Comparison := do
  let data ← value none text none
  return applyPrefix data (.init .presenceMatch attr [] true)

def substring (attr : PyStr) (text : PyStr) : Except VisitError Comparison := do
  let data ← value none text none
  if data.text = py "*" then presence attr data.text
  else return comparisonOf .substringMatch attr data

def ge (attr : PyStr) (value : ValueStr) : Comparison :=
  comparisonOf .greaterOrEqual attr value

def le (attr : PyStr) (value : ValueStr) : Comparison :=
  comparisonOf .lessOrEqual attr value

def approx (attr : PyStr) (value : ValueStr) : Comparison :=
  comparisonOf .approximateMatch attr value

def extmatchAttrNodnMatch (attr matchingrule : PyStr) (value : ValueStr) : Comparison :=
  comparisonOf (.extensibleMatch (some []) (some matchingrule)) attr value

def extmatchAttrDnNomatch (attr dn : PyStr) (value : ValueStr) : Comparison :=
  comparisonOf (.extensibleMatch (some dn) (some [])) attr value

def extmatchNoattrNodnMatch (matchingrule : PyStr) (value : ValueStr) :
    Except VisitError Comparison :=
  if lower matchingrule = py "dn" then .error .valueError
  else .ok (comparisonOf (.extensibleMatch (some []) (some matchingrule)) [] value)

def extmatchAttrNodnNomatch (attr : PyStr) (value : ValueStr) : Comparison :=
  comparisonOf (.extensibleMatch (some []) (some [])) attr value

def extmatchAttrDnMatch (attr dn matchingrule : PyStr) (value : ValueStr) : Comparison :=
  comparisonOf (.extensibleMatch (some dn) (some matchingrule)) attr value

def extmatchNoattrDnMatch (dn matchingrule : PyStr) (value : ValueStr) : Comparison :=
  comparisonOf (.extensibleMatch (some dn) (some matchingrule)) [] value

/-! ## Callbacks of expressions and operators -/

/-- `expression`. -/
def expression (ld : Option PyStr) (cmp : Comparison) (tr : Option PyStr) : Comparison :=
  { cmp with lead := orStr ld [], trail := orStr tr [] }

/-- A token or `None` in front of a list from which `None` is filtered. -/
def consToken (token : Option PyStr) (es : Expressions) : Expressions :=
  match token with
  | none => es
  | some t => .token t es

/-- The list `_filter([ld, *exprs, tr])`. -/
def filterItems (ld : Option PyStr) (exprs : Expressions) (tr : Option PyStr) : Expressions :=
  consToken ld (exprs.append (consToken tr .nil))

def andOperator (sep ld : Option PyStr) (exprs : Expressions) (tr : Option PyStr) : Expression :=
  .container (.operator .and) (filterItems ld exprs tr) sep

def orOperator (sep ld : Option PyStr) (exprs : Expressions) (tr : Option PyStr) : Expression :=
  .container (.operator .or) (filterItems ld exprs tr) sep

def notOperator (sep ld : Option PyStr) (expr : Expression) (tr : Option PyStr) : Expression :=
  .container (.operator .not) (filterItems ld (.cons expr .nil) tr) sep

/-- `start`. -/
def start : Expression → Expression
  | .comparison c => .container .group (.ofList [.comparison c]) none
  | e => e

/-- `bare`. -/
def bare (cmp : Comparison) : Expression := .container .container (.ofList [.comparison cmp]) none

end Transformer

/-! ## Transforming a derivation -/

open Grammar

/-- `ws` and `ows`. -/
def Grammar.Ows.token (w : Ows) : Option PyStr := w.map WS.text

def Grammar.Value.transform (v : Grammar.Value) : Except VisitError ValueStr :=
  Transformer.value (Ows.token v.lead) (v.body.elim [] ValueTok.text) (Ows.token v.trail)

def Grammar.Comparison.transform : Grammar.Comparison → Except VisitError Ldap.Comparison
  | .presence attr => Transformer.presence attr.text []
  | .equality attr value => return Transformer.equality attr.text (← value.transform)
  | .substring attr value => do
    let text ← Transformer.substrings value.text
    Transformer.substring attr.text text
  | .ge attr value => return Transformer.ge attr.text (← value.transform)
  | .le attr value => return Transformer.le attr.text (← value.transform)
  | .approx attr value => return Transformer.approx attr.text (← value.transform)
  | .extmatchNoattrDnMatch dn rule value =>
    return Transformer.extmatchNoattrDnMatch dn.text rule.text (← value.transform)
  | .extmatchAttrDnMatch attr dn rule value =>
    return Transformer.extmatchAttrDnMatch attr.text dn.text rule.text (← value.transform)
  | .extmatchAttrDnNomatch attr dn value =>
    return Transformer.extmatchAttrDnNomatch attr.text dn.text (← value.transform)
  | .extmatchNoattrNodnMatch rule value => do
    Transformer.extmatchNoattrNodnMatch rule.text (← value.transform)
  | .extmatchAttrNodnMatch attr rule value =>
    return Transformer.extmatchAttrNodnMatch attr.text rule.text (← value.transform)
  | .extmatchAttrNodnNomatch attr value =>
    return Transformer.extmatchAttrNodnNomatch attr.text (← value.transform)

/-- The callback of an operator over groups. -/
def Grammar.ListOp.callback : ListOp → Option PyStr → Option PyStr → Expressions →
    Option PyStr → Expression
  | .and => Transformer.andOperator
  | .or => Transformer.orOperator

mutual

def Grammar.Node.transform : Node → Except VisitError Expression
  | .expression lead comparison trail => do
    let cmp ← comparison.transform
    return .comparison (Transformer.expression (Ows.token lead) cmp (Ows.token trail))
  | .listOperator op sep lead groups trail => do
    let exprs ← groups.transform
    return op.callback (Ows.token sep) (Ows.token lead) exprs (Ows.token trail)
  | .notOperator sep lead pre node post trail => do
    let expr ← node.transform
    match pre, post with
    | none, none =>
      return Transformer.notOperator (Ows.token sep) (Ows.token lead) expr (Ows.token trail)
    -- the white space of `_group` is an argument that the callback does not take
    | _, _ => .error .typeError

def Grammar.Groups.transform : Groups → Except VisitError Expressions
  | .nil => return .nil
  | .cons pre node post rest => do
    let expr ← node.transform
    let exprs ← rest.transform
    return Transformer.consToken (Ows.token pre)
      (.cons expr (Transformer.consToken (Ows.token post) exprs))

end

/-- `start` takes one argument, so white space around the filter is an error. -/
def Grammar.Start.transform : Start → Except VisitError Expression
  | .group pre node post => do
    let expr ← node.transform
    match pre, post with
    | none, none => return Transformer.start expr
    | _, _ => .error .typeError
  | .bare comparison => do
    let cmp ← comparison.transform
    return Transformer.start (Transformer.bare cmp)

/-- A step in front of an accepted one is accepted. -/
theorem exists_of_bind_ok {ε α β : Type} {x : Except ε α} {f : α → Except ε β} {b : β}
    (h : (x >>= f) = .ok b) : ∃ a, x = .ok a ∧ f a = .ok b := by
  cases x with
  | error e => cases h
  | ok a => exact ⟨a, rfl, h⟩

end FreeIam.Ldap
