import FreeIam.Py.Str

/-!
# Filter expressions

The expression classes of the filter module: `Comparison` and its subclasses,
`Container`, `Group` and the operators `AND`, `OR`, `NOT`, with escaping,
`str()`, pretty-printing and the `Filter.get_*` builders.
-/

namespace FreeIam.Ldap

open FreeIam.Py

/-! ## Escaping -/

/-- `EscapeMode`. -/
inductive EscapeMode where
  | special
  | restricted
  | all
  deriving DecidableEq, Repr

/-- `\` and the two-digit code: how a character is escaped. -/
def hexEscape (c : Nat) : PyStr := '\\'.toNat :: format02x c

/-- `c in "\\*()"`. -/
def isSpecial (c : Nat) : Bool :=
  c == '\\'.toNat || c == '*'.toNat || c == '('.toNat || c == ')'.toNat

/-- What `escape_filter_chars` makes of one character, as `test_escape` records
it for each mode. -/
def escapeChar : EscapeMode → Nat → PyStr
  | .special, c => if isSpecial c || c == 0 then hexEscape c else [c]
  | .restricted, c =>
    if c < '0'.toNat || 'z'.toNat < c || isSpecial c then hexEscape c else [c]
  | .all, c => hexEscape c

/-- `Filter.escape`. -/
def escape (value : PyStr) (mode : EscapeMode) : PyStr := value.flatMap (escapeChar mode)

/-- The value of a hexadecimal digit. -/
def hexValue (c : Nat) : Nat :=
  if isAsciiDigit c then c - 48 else if c < 97 then c - 55 else c - 87

/-- `bytes([b]).decode('utf-8', errors='replace')`. -/
def decodeByte (b : Nat) : Nat := if b < 128 then b else 0xfffd

/-- `Filter.unescape`: every match of `\\([0-9A-Fa-f]{2})` is decoded. -/
def unescape : PyStr → PyStr
  | c :: h₁ :: h₂ :: s =>
    if c = '\\'.toNat ∧ isHexDigit h₁ = true ∧ isHexDigit h₂ = true then
      decodeByte (16 * hexValue h₁ + hexValue h₂) :: unescape s
    else c :: unescape (h₁ :: h₂ :: s)
  | s => s

example : unescape (py "John\\20Doe\\c4") = py "John Doe" ++ [0xfffd] := by decide

/-! ## Comparisons -/

/-- The subclasses of `Comparison`; only `ExtensibleMatch` has the slots `dn`
and `matchingrule`. -/
inductive ComparisonClass where
  | equalityMatch
  | greaterOrEqual
  | lessOrEqual
  | approximateMatch
  | substringMatch
  | presenceMatch
  | extensibleMatch (dn matchingrule : Option PyStr)
  deriving DecidableEq, Repr

/-- The class attribute `expression`. -/
def ComparisonClass.expression : ComparisonClass → PyStr
  | .equalityMatch => py "="
  | .greaterOrEqual => py ">="
  | .lessOrEqual => py "<="
  | .approximateMatch => py "~="
  | .substringMatch => py "="
  | .presenceMatch => py "=*"
  | .extensibleMatch _ _ => py ":="

/-- A `Comparison` object. -/
structure Comparison where
  cls : ComparisonClass
  attr : PyStr
  rawValue : PyStr
  isEscaped : Bool
  extra : PyStr
  lead : PyStr
  mid : PyStr
  trail : PyStr
  fin : PyStr
  deriving DecidableEq, Repr

/-- The truth value of a `str | None`. -/
def truthy : Option PyStr → Bool
  | none => false
  | some s => !s.isEmpty

/-- `a or b` on strings. -/
def orStr (a : Option PyStr) (b : PyStr) : PyStr :=
  match a with
  | none => b
  | some s => if s.isEmpty then b else s

/-- The `_extra` that `ExtensibleMatch.__init__` builds. -/
def extraOf (dn matchingrule : Option PyStr) : PyStr :=
  (if truthy dn then py ":" ++ orStr dn [] else [])
    ++ (if truthy matchingrule then py ":" ++ orStr matchingrule [] else [])

/-- `Comparison.__init__`, and `ExtensibleMatch.__init__` for that class. -/
def Comparison.init (cls : ComparisonClass) (attr value : PyStr) (isEscaped : Bool) :
    Comparison where
  cls := cls
  attr := attr
  rawValue := value
  isEscaped := isEscaped
  extra := match cls with
    | .extensibleMatch dn matchingrule => extraOf dn matchingrule
    | _ => []
  lead := []
  mid := []
  trail := []
  fin := []

/-- `Comparison.value`. -/
def Comparison.value (c : Comparison) : PyStr :=
  if c.isEscaped then unescape c.rawValue else c.rawValue

/-- The setter of `Comparison.value`. -/
def Comparison.setValue (c : Comparison) (v : PyStr) : Comparison := { c with rawValue := v }

/-- `SubstringMatch.values`. -/
def Comparison.values (c : Comparison) : List PyStr := c.value.splitOn '*'.toNat

/-- `Comparison.escaped`. -/
def Comparison.escaped (c : Comparison) : PyStr :=
  if c.isEscaped then c.rawValue
  else if c.rawValue ≠ strip c.rawValue then escape c.rawValue .restricted
  else escape c.rawValue .special

/-- `Comparison.__str__`. -/
def Comparison.str (c : Comparison) : PyStr :=
  c.lead ++ c.attr ++ c.extra ++ c.cls.expression ++ c.mid ++ c.escaped ++ c.fin ++ c.trail

/-- `Comparison.__eq__` of two comparisons. -/
def Comparison.eq (c other : Comparison) : Bool :=
  (c.cls.expression, c.attr, c.value) == (other.cls.expression, other.attr, other.value)

/-! ## Containers -/

/-- `AND`, `OR` and `NOT`. -/
inductive Operator where
  | and
  | or
  | not
  deriving DecidableEq, Repr

/-- The class attribute `expression`. -/
def Operator.expression : Operator → PyStr
  | .and => py "&"
  | .or => py "|"
  | .not => py "!"

/-- `Container` and its subclasses. -/
inductive ContainerClass where
  | container
  | group
  | operator (op : Operator)
  deriving DecidableEq, Repr

mutual

/-- An `Expression`: a comparison or a container. -/
inductive Expression where
  | comparison (c : Comparison)
  | container (cls : ContainerClass) (expressions : Expressions) (sep : Option PyStr)

/-- The list `_expressions` of a container, of expressions and white space
tokens. -/
inductive Expressions where
  | nil
  | token (text : PyStr) (rest : Expressions)
  | cons (e : Expression) (rest : Expressions)

end

/-- List concatenation. -/
def Expressions.append : Expressions → Expressions → Expressions
  | .nil, es => es
  | .token t rest, es => .token t (rest.append es)
  | .cons e rest, es => .cons e (rest.append es)

/-- The list of some expressions. -/
def Expressions.ofList : List Expression → Expressions
  | [] => .nil
  | e :: es => .cons e (Expressions.ofList es)

mutual

/-- `str(expr)`: `Container.__str__` joins its members, `Group.__str__` puts
comparisons in brackets and an operator around the whole. -/
def Expression.str : Expression → PyStr
  | .comparison c => c.str
  | .container .container es _ => es.str
  | .container .group es _ => es.groupStr
  | .container (.operator op) es sep =>
    py "(" ++ op.expression ++ orStr sep [] ++ es.groupStr ++ py ")"

def Expressions.str : Expressions → PyStr
  | .nil => []
  | .token t rest => t ++ rest.str
  | .cons e rest => e.str ++ rest.str

/-- The members as `Group.__str__` prints them. -/
def Expressions.groupStr : Expressions → PyStr
  | .nil => []
  | .token t rest => t ++ rest.groupStr
  | .cons (.comparison c) rest => py "(" ++ c.str ++ py ")" ++ rest.groupStr
  | .cons (.container cls es sep) rest =>
    (Expression.container cls es sep).str ++ rest.groupStr

end

/-! ## Copies -/

/-- `Comparison.copy`, and `ExtensibleMatch.copy` for that class: it takes the
decoded value. -/
def Comparison.copy (c : Comparison) : Comparison :=
  match c.cls with
  | .extensibleMatch _ _ => .init c.cls c.attr c.value c.isEscaped
  | _ => .init c.cls c.attr c.rawValue c.isEscaped

mutual

/-- `Container.copy`; a token is its own copy. -/
def Expression.copy : Expression → Expression
  | .comparison c => .comparison c.copy
  | .container cls es _ => .container cls es.copy none

def Expressions.copy : Expressions → Expressions
  | .nil => .nil
  | .token t rest => .token t rest.copy
  | .cons e rest => .cons e.copy rest.copy

end

/-! ## Pretty-printing -/

/-- `'  ' * level`. -/
def pad : Nat → PyStr
  | 0 => []
  | level + 1 => py "  " ++ pad level

/-- `sep.join(parts)`. -/
def join (sep : PyStr) (parts : List PyStr) : PyStr := List.intercalate sep parts

mutual

/-- The local function `_pretty` of `Filter.pretty`. -/
def Expression.prettyAt : Expression → Nat → PyStr
  | .comparison c, level => pad level ++ py "(" ++ c.str ++ py ")"
  | .container (.operator .not) es _, level =>
    pad level ++ py "(" ++ Operator.not.expression ++ join [] (es.prettyAt 0) ++ py ")"
  | .container (.operator op) es _, level =>
    pad level ++ py "(" ++ op.expression ++ py "\n" ++ join (py "\n") (es.prettyAt (level + 1))
      ++ py "\n" ++ pad level ++ py ")"
  | .container .group es _, level => join (py "\n") (es.prettyAt level)
  | .container .container es _, level => join (py "\n") (es.prettyAt level)

/-- The members that are no tokens, each printed at the given level. -/
def Expressions.prettyAt : Expressions → Nat → List PyStr
  | .nil, _ => []
  | .token _ rest, level => rest.prettyAt level
  | .cons e rest, level => e.prettyAt level :: rest.prettyAt level

end

/-! ## Builders -/

/-- `Filter.get_eq`. -/
def getEq (attr value : PyStr) : Expression :=
  .comparison (.init .equalityMatch attr value false)

/-- `Filter.get_approx`. -/
def getApprox (attr value : PyStr) : Expression :=
  .comparison (.init .approximateMatch attr value false)

/-- `Filter.get_pres`. -/
def getPres (attr : PyStr) : Expression :=
  .comparison (.init .presenceMatch attr [] false)

/-- `Filter.get_substring`. -/
def getSubstring (attr : PyStr) (values : List PyStr) : Expression :=
  .comparison (.init .substringMatch attr values.flatten false)

/-- `Filter.get_gt_eq`. -/
def getGtEq (attr value : PyStr) : Expression :=
  .comparison (.init .greaterOrEqual attr value false)

/-- `Filter.get_lt_eq`. -/
def getLtEq (attr value : PyStr) : Expression :=
  .comparison (.init .lessOrEqual attr value false)

/-- `Filter.get_extensible`. -/
def getExtensible (attr : PyStr) (dn matchingrule : Option PyStr) (value : PyStr) : Expression :=
  .comparison (.init (.extensibleMatch dn matchingrule) attr value false)

/-- `Filter.get_not`. -/
def getNot (e : Expression) : Expression := .container (.operator .not) (.ofList [e]) none

/-- `Filter.get_and`. -/
def getAnd (es : List Expression) : Expression := .container (.operator .and) (.ofList es) none

/-- `Filter.get_or`. -/
def getOr (es : List Expression) : Expression := .container (.operator .or) (.ofList es) none

/-! ## Outlines

What a reader compares between two trees: the operators in their nesting and
some observation of every leaf, in order. -/

/-- Operators over leaves of a type. -/
inductive Outline (β : Type) where
  | leaf (b : β)
  | operator (op : Operator) (members : List (Outline β))

mutual

/-- The outline of an expression; a root container stands for its member. -/
def Expression.outline {β : Type} (f : Comparison → β) : Expression → List (Outline β)
  | .comparison c => [.leaf (f c)]
  | .container (.operator op) es _ => [.operator op (es.outline f)]
  | .container .group es _ => es.outline f
  | .container .container es _ => es.outline f

def Expressions.outline {β : Type} (f : Comparison → β) : Expressions → List (Outline β)
  | .nil => []
  | .token _ rest => rest.outline f
  | .cons e rest => e.outline f ++ rest.outline f

end

/-- The printed operator prefix of a leaf, such as `=`, `>=`, `:dn:rule:=`. -/
def Comparison.prefixText (c : Comparison) : PyStr := c.extra ++ c.cls.expression

@[simp] theorem Expressions.outline_append {β : Type} (f : Comparison → β)
    (es fs : Expressions) : (es.append fs).outline f = es.outline f ++ fs.outline f := by
  match es with
  | .nil => rfl
  | .token t rest =>
    simp [Expressions.append, Expressions.outline, Expressions.outline_append f rest fs]
  | .cons e rest =>
    simp [Expressions.append, Expressions.outline, Expressions.outline_append f rest fs]

@[simp] theorem Expressions.groupStr_append (es fs : Expressions) :
    (es.append fs).groupStr = es.groupStr ++ fs.groupStr := by
  match es with
  | .nil => rfl
  | .token t rest =>
    simp [Expressions.append, Expressions.groupStr, Expressions.groupStr_append rest fs]
  | .cons (.comparison c) rest =>
    simp [Expressions.append, Expressions.groupStr, Expressions.groupStr_append rest fs]
  | .cons (.container cls es sep) rest =>
    simp [Expressions.append, Expressions.groupStr, Expressions.groupStr_append rest fs]

@[simp] theorem Expressions.prettyAt_append (es fs : Expressions) (level : Nat) :
    (es.append fs).prettyAt level = es.prettyAt level ++ fs.prettyAt level := by
  match es with
  | .nil => rfl
  | .token t rest =>
    simp [Expressions.append, Expressions.prettyAt, Expressions.prettyAt_append rest fs]
  | .cons e rest =>
    simp [Expressions.append, Expressions.prettyAt, Expressions.prettyAt_append rest fs]

end FreeIam.Ldap
