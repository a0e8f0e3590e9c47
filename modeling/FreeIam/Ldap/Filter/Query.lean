import Mathlib.Logic.Equiv.Nat
import FreeIam.Ldap.Filter.Attribute
import FreeIam.Ldap.Filter.Builders

/-!
# Comparisons of attributes with numbers

Python's operators over an `Attribute` make a filter, which a server evaluates over all
values of the attribute: a comparison asks for one value, and a negated one for all of
them. `attr > 5` is a comparison with the next number and `attr > '5'` a negation, so
that they differ where an attribute does not have exactly one value.
-/

namespace FreeIam.Ldap

open FreeIam.Py FreeIam.Kleene FreeIam.Scan

/-! ## Operators of expressions -/

/-- `Expression.__or__` -/
def Expression.orOp (self : Expression) (other : List Expression) : Expression := getOr (self :: other)

/-- `Expression.__and__` -/
def Expression.andOp (self : Expression) (other : List Expression) : Expression := getAnd (self :: other)

/-- `Expression.negate` -/
def Expression.negate (self : Expression) : Expression := getNot self

/-! ## Queries -/

/-- Python's comparison operators. -/
inductive Op where
  | eq
  | ne
  | gt
  | ge
  | lt
  | le
  deriving DecidableEq, Repr

/-- What an operator says of two numbers. -/
def Op.rel : Op → Int → Int → Bool
  | .eq, v, n => v = n
  | .ne, v, n => v ≠ n
  | .gt, v, n => n < v
  | .ge, v, n => n ≤ v
  | .lt, v, n => v < n
  | .le, v, n => v ≤ n

/-- A number, given as it is or as a string. -/
def bound (quoted : Bool) (n : Int) : Bound := if quoted then .str (Bound.int n).text else .int n

/-- What the operator of an attribute returns; the two equalities take strings only. -/
def Op.apply (a : Attribute) (quoted : Bool) (n : Int) : Op → Expression
  | .eq => a.opEq (.str (bound quoted n).text)
  | .ne => a.opNe (some (.str (bound quoted n).text))
  | .gt => a.opGt (bound quoted n)
  | .ge => a.opGe (bound quoted n)
  | .lt => a.opLt (bound quoted n)
  | .le => a.opLe (bound quoted n)

/-- A condition written with Python's operators over attributes and numbers. -/
inductive Query where
  | compare (op : Op) (attr : PyStr) (quoted : Bool) (n : Int)
  | present (attr : PyStr)
  | negate (q : Query)
  | and (q q' : Query)
  | or (q q' : Query)
  deriving DecidableEq, Repr

namespace Query

/-- The expression that Python makes of the condition. -/
def build : Query → Except Attribute.Exc Expression
  | .compare op attr quoted n => do
    let a ← Attribute.init attr none none none
    return op.apply a quoted n
  | .present attr => do
    let a ← Attribute.init attr none none none
    return a.opNe none
  | .negate q => do
    let e ← q.build
    return e.negate
  | .and q q' => do
    let e ← q.build
    let e' ← q'.build
    return e.andOp [e']
  | .or q q' => do
    let e ← q.build
    let e' ← q'.build
    return e.orOp [e']

/-- The attributes of a query. -/
def attrs : Query → List PyStr
  | .compare _ attr _ _ => [attr]
  | .present attr => [attr]
  | .negate q => q.attrs
  | .and q q' => q.attrs ++ q'.attrs
  | .or q q' => q.attrs ++ q'.attrs

/-- What the condition says where every attribute is a number. -/
def holds (row : PyStr → Int) : Query → Bool
  | .compare op attr _ n => op.rel (row attr) n
  | .present _ => true
  | .negate q => !q.holds row
  | .and q q' => q.holds row && q'.holds row
  | .or q q' => q.holds row || q'.holds row

end Query

/-- The comparisons that are made as the negation of another: they ask for all values. -/
def Op.asksForAll (quoted : Bool) : Op → Bool
  | .ne => true
  | .gt => quoted
  | .lt => quoted
  | _ => false

/-- What a comparison asks for of the values of an attribute. -/
def Op.sat (op : Op) (quoted : Bool) (values : List Int) (n : Int) : Bool :=
  if op.asksForAll quoted then values.all fun v => op.rel v n else values.any fun v => op.rel v n

/-- What the condition asks for of an entry with these values. -/
def Query.sat (entry : PyStr → List Int) : Query → Bool
  | .compare op attr quoted n => op.sat quoted (entry attr) n
  | .present attr => !(entry attr).isEmpty
  | .negate q => !q.sat entry
  | .and q q' => q.sat entry && q'.sat entry
  | .or q q' => q.sat entry || q'.sat entry

/-! ## The server -/

/-- The answer to a question that can be decided. -/
def ofBool (b : Bool) : Truth := Truth.of b

/-- How a server answers an assertion over an entry whose values are numbers: it compares
with each of the values, if it can read the one that is asserted. -/
def matchInteger (read : List Nat → Option Int) (entry : PyStr → List Int) : Asserted → Truth
  | .value type attr octets =>
    match read octets with
    | none => .undefined
    | some n => match type with
      | .equal | .approx => ofBool ((entry attr).any fun v => v = n)
      | .greaterorequal => ofBool ((entry attr).any fun v => n ≤ v)
      | .lessorequal => ofBool ((entry attr).any fun v => v ≤ n)
  | .present attr => ofBool (!(entry attr).isEmpty)
  | _ => .undefined

/-- A server reads a number that is written in decimal. -/
def ReadsDecimal (read : List Nat → Option Int) : Prop :=
  ∀ n : Int, read (textOctets (Bound.int n).text) = some n

/-! ### Truth values -/

theorem truth_not (b : Bool) : (ofBool b).not = ofBool (!b) := by cases b <;> rfl

theorem truth_and (b b' : Bool) : ofBool b ⊓ ofBool b' = ofBool (b && b') := by
  cases b <;> cases b' <;> rfl

theorem truth_or (b b' : Bool) : ofBool b ⊔ ofBool b' = ofBool (b || b') := by
  cases b <;> cases b' <;> rfl

theorem any_congr {r r' : Int → Bool} (h : ∀ v, r v = r' v) {values : List Int} :
    values.any r = values.any r' := congrArg values.any (funext h)

theorem not_any {r r' : Int → Bool} (h : ∀ v, (!r v) = r' v) {values : List Int} :
    (!values.any r) = values.all r' := by
  rw [List.not_any_eq_all_not, funext h]

/-! ## Queries as templates -/

/-- The text of a number is ASCII. -/
theorem Bound.text_ascii (n : Int) : ∀ c ∈ (Bound.int n).text, c < 128 := by
  have hdigits : ∀ k : Nat, ∀ c ∈ k.repr.toList, c.toNat < 128 := by
    intro k c hc
    rw [Nat.toList_repr] at hc
    have hdigit := Nat.isDigit_of_mem_toDigits (by decide) (by decide) hc
    unfold Char.isDigit at hdigit
    simp only [Bool.and_eq_true, decide_eq_true_eq] at hdigit
    have hle : c.toNat ≤ 57 := hdigit.2
    omega
  intro c hc
  unfold Bound.text py at hc
  obtain ⟨d, hd, rfl⟩ := List.mem_map.mp hc
  rw [Int.toString_eq_repr, Int.repr_eq_if] at hd
  split at hd
  · exact hdigits _ d hd
  · rw [String.toList_append] at hd
    rcases List.mem_append.mp hd with hminus | hd
    · obtain rfl : d = '-' := by simpa using hminus
      decide
    · exact hdigits _ d hd

/-- The hole for a number. -/
def hole (n : Int) : Nat := Equiv.intEquivNat n

/-- What is put into a hole. -/
def number (h : Nat) : PyStr := (Bound.int (Equiv.intEquivNat.symm h)).text

theorem number_hole (n : Int) : number (hole n) = (Bound.int n).text := by
  unfold number hole
  rw [Equiv.symm_apply_apply]

/-- A comparison as a template. -/
def Op.template (attr : PyStr) (quoted : Bool) (n : Int) : Op → Template
  | .eq => .eq attr (hole n)
  | .ne => .not (.eq attr (hole n))
  | .gt => if quoted then .not (.ltEq attr (hole n)) else .gtEq attr (hole (n + 1))
  | .ge => .gtEq attr (hole n)
  | .lt => if quoted then .not (.gtEq attr (hole n)) else .ltEq attr (hole (n - 1))
  | .le => .ltEq attr (hole n)

/-- A query as a template with a hole for each number. -/
def Query.template : Query → Template
  | .compare op attr quoted n => op.template attr quoted n
  | .present attr => .pres attr
  | .negate q => .not q.template
  | .and q q' => .and (.cons q.template (.cons q'.template .nil))
  | .or q q' => .or (.cons q.template (.cons q'.template .nil))

/-- An attribute that is made of a name alone. -/
theorem init_name_eq {attr : PyStr} {a : Attribute} (h : Attribute.init attr none none none = .ok a) :
    a = ⟨attr, none, none, .getEq⟩ := by
  unfold Attribute.init at h
  cases hcheck : Attribute.check attr with
  | error e => rw [hcheck] at h; cases h
  | ok u =>
    rw [hcheck] at h
    cases h
    rfl

theorem bound_text (quoted : Bool) (n : Int) : (bound quoted n).text = (Bound.int n).text := by
  cases quoted <;> rfl

theorem Op.apply_eq (attr : PyStr) (quoted : Bool) (n : Int) (op : Op) :
    op.apply ⟨attr, none, none, .getEq⟩ quoted n = (op.template attr quoted n).build number := by
  cases op with
  | eq =>
    show getEq attr (bound quoted n).text = getEq attr (number (hole n))
    rw [bound_text, number_hole]
  | ne =>
    show getNot (getEq attr (bound quoted n).text) = getNot (getEq attr (number (hole n)))
    rw [bound_text, number_hole]
  | gt =>
    cases quoted with
    | false =>
      show getGtEq attr (Bound.int (n + 1)).text = getGtEq attr (number (hole (n + 1)))
      rw [number_hole]
    | true =>
      show getNot (getLtEq attr (Bound.int n).text) = getNot (getLtEq attr (number (hole n)))
      rw [number_hole]
  | ge =>
    show getGtEq attr (bound quoted n).text = getGtEq attr (number (hole n))
    rw [bound_text, number_hole]
  | lt =>
    cases quoted with
    | false =>
      show getLtEq attr (Bound.int (n - 1)).text = getLtEq attr (number (hole (n - 1)))
      rw [number_hole]
    | true =>
      show getNot (getGtEq attr (Bound.int n).text) = getNot (getGtEq attr (number (hole n)))
      rw [number_hole]
  | le =>
    show getLtEq attr (bound quoted n).text = getLtEq attr (number (hole n))
    rw [bound_text, number_hole]

/-- Python makes of a query what the builders make of its template. -/
theorem Query.build_eq {q : Query} {e : Expression} (h : q.build = .ok e) :
    e = q.template.build number := by
  induction q generalizing e with
  | compare op attr quoted n =>
    unfold Query.build at h
    cases ha : Attribute.init attr none none none with
    | error x => rw [ha] at h; cases h
    | ok a =>
      rw [ha] at h
      cases h
      rw [init_name_eq ha]
      exact op.apply_eq attr quoted n
  | present attr =>
    unfold Query.build at h
    cases ha : Attribute.init attr none none none with
    | error x => rw [ha] at h; cases h
    | ok a =>
      rw [ha] at h
      cases h
      rw [init_name_eq ha]
      rfl
  | negate q ih =>
    unfold Query.build at h
    cases hq : q.build with
    | error x => rw [hq] at h; cases h
    | ok e =>
      rw [hq] at h
      cases h
      rw [ih hq]
      rfl
  | and q q' ih ih' =>
    unfold Query.build at h
    cases hq : q.build with
    | error x => rw [hq] at h; cases h
    | ok e =>
      cases hq' : q'.build with
      | error x => rw [hq, hq'] at h; cases h
      | ok e' =>
        rw [hq, hq'] at h
        cases h
        rw [ih hq, ih' hq']
        rfl
  | or q q' ih ih' =>
    unfold Query.build at h
    cases hq : q.build with
    | error x => rw [hq] at h; cases h
    | ok e =>
      cases hq' : q'.build with
      | error x => rw [hq, hq'] at h; cases h
      | ok e' =>
        rw [hq, hq'] at h
        cases h
        rw [ih hq, ih' hq']
        rfl

/-- The names of a query are those of its template. -/
theorem Query.standard (q : Query) (hq : ∀ attr ∈ q.attrs, Rfc4515.Describes attr) :
    q.template.Standard := by
  induction q with
  | compare op attr quoted n =>
    have hattr := hq attr (List.mem_singleton_self _)
    cases op <;> cases quoted <;> exact hattr
  | present attr => exact hq attr (List.mem_singleton_self _)
  | negate q ih => exact ih hq
  | and q q' ih ih' =>
    exact ⟨ih fun attr ha => hq attr (List.mem_append_left _ ha),
      ih' fun attr ha => hq attr (List.mem_append_right _ ha), trivial⟩
  | or q q' ih ih' =>
    exact ⟨ih fun attr ha => hq attr (List.mem_append_left _ ha),
      ih' fun attr ha => hq attr (List.mem_append_right _ ha), trivial⟩

/-! ## The answer of the server -/

section Server

variable {read : List Nat → Option Int} (hread : ReadsDecimal read) (entry : PyStr → List Int)

include hread

/-- The comparisons that are no negations ask for one value. -/
theorem matchInteger_hole (type : Rfc4515.FilterType) (attr : PyStr) (n : Int) :
    matchInteger read entry (.value type attr (textOctets (number (hole n)))) =
      match type with
      | .equal | .approx => ofBool ((entry attr).any fun v => v = n)
      | .greaterorequal => ofBool ((entry attr).any fun v => n ≤ v)
      | .lessorequal => ofBool ((entry attr).any fun v => v ≤ n) := by
  rw [number_hole]
  unfold matchInteger
  simp only [hread n]

theorem Op.eval_template (attr : PyStr) (quoted : Bool) (n : Int) (op : Op) :
    ((op.template attr quoted n).assertions textOctets number).eval (matchInteger read entry) =
      ofBool (op.sat quoted (entry attr) n) := by
  have hleaf := matchInteger_hole hread entry
  have hnot : ∀ t b, t = ofBool b → (Truth.all [t]).not = ofBool (!b) := by
    intro t b ht
    rw [Truth.all_singleton, ht, truth_not]
  cases op with
  | eq => exact hleaf .equal attr n
  | ne =>
    exact (hnot _ _ (hleaf .equal attr n)).trans (congrArg ofBool (not_any fun v => (decide_not).symm))
  | gt =>
    cases quoted with
    | false =>
      refine (hleaf .greaterorequal attr (n + 1)).trans ?_
      exact congrArg ofBool (any_congr fun v => decide_eq_decide.mpr Int.add_one_le_iff)
    | true =>
      refine (hnot _ _ (hleaf .lessorequal attr n)).trans (congrArg ofBool (not_any fun v => ?_))
      rw [← decide_not]
      exact decide_eq_decide.mpr Int.not_le
  | ge => exact hleaf .greaterorequal attr n
  | lt =>
    cases quoted with
    | false =>
      refine (hleaf .lessorequal attr (n - 1)).trans ?_
      exact congrArg ofBool (any_congr fun v => decide_eq_decide.mpr Int.le_sub_one_iff)
    | true =>
      refine (hnot _ _ (hleaf .greaterorequal attr n)).trans (congrArg ofBool (not_any fun v => ?_))
      rw [← decide_not]
      exact decide_eq_decide.mpr Int.not_le
  | le => exact hleaf .lessorequal attr n

/-- The server answers the filter of a query with what the query asks for. -/
theorem Query.eval_template (q : Query) :
    (q.template.assertions textOctets number).eval (matchInteger read entry) = ofBool (q.sat entry) := by
  induction q with
  | compare op attr quoted n => exact op.eval_template hread entry attr quoted n
  | present attr => rfl
  | negate q ih =>
    show (Truth.all [_]).not = _
    rw [Truth.all_singleton, ih, truth_not]
    rfl
  | and q q' ih ih' =>
    show _ ⊓ (_ ⊓ ⊤) = _
    rw [ih, ih', inf_top_eq, truth_and]
    rfl
  | or q q' ih ih' =>
    show _ ⊔ (_ ⊔ ⊥) = _
    rw [ih, ih', sup_bot_eq, truth_or]
    rfl

end Server

/-! ## One value and several -/

/-- An attribute has this value and no other. -/
def Single (values : List Int) (v : Int) : Prop := ∀ x, x ∈ values ↔ x = v

/-- With a single value it does not matter how many values a comparison asks for. -/
theorem Op.sat_single {values : List Int} {v : Int} (h : Single values v) (op : Op) (quoted : Bool)
    (n : Int) : op.sat quoted values n = op.rel v n := by
  have hall : (values.all fun x => op.rel x n) = op.rel v n := by
    rw [Bool.eq_iff_iff, List.all_eq_true]
    exact ⟨fun hall => hall v ((h v).mpr rfl), fun hv x hx => (h x).mp hx ▸ hv⟩
  have hany : (values.any fun x => op.rel x n) = op.rel v n := by
    rw [Bool.eq_iff_iff, List.any_eq_true]
    exact ⟨fun ⟨x, hx, hrel⟩ => (h x).mp hx ▸ hrel, fun hv => ⟨v, (h v).mpr rfl, hv⟩⟩
  unfold Op.sat
  split
  · exact hall
  · exact hany

theorem Query.sat_single {entry : PyStr → List Int} {row : PyStr → Int} (q : Query)
    (h : ∀ attr ∈ q.attrs, Single (entry attr) (row attr)) : q.sat entry = q.holds row := by
  induction q with
  | compare op attr quoted n => exact op.sat_single (h attr (List.mem_singleton_self _)) quoted n
  | present attr =>
    have hmem := (h attr (List.mem_singleton_self _) (row attr)).mpr rfl
    show (!(entry attr).isEmpty) = true
    rw [List.isEmpty_eq_false_iff.mpr (List.ne_nil_of_mem hmem)]
    rfl
  | negate q ih => exact congrArg (! ·) (ih h)
  | and q q' ih ih' =>
    show (q.sat entry && q'.sat entry) = _
    rw [ih fun attr ha => h attr (List.mem_append_left _ ha),
      ih' fun attr ha => h attr (List.mem_append_right _ ha)]
    rfl
  | or q q' ih ih' =>
    show (q.sat entry || q'.sat entry) = _
    rw [ih fun attr ha => h attr (List.mem_append_left _ ha),
      ih' fun attr ha => h attr (List.mem_append_right _ ha)]
    rfl

/-- The two ways to give a number to `>` come to the same for every number exactly where
there is one value. -/
theorem quoted_agrees_iff (values : List Int) :
    (∀ n, Op.gt.sat true values n = Op.gt.sat false values n) ↔ ∃ v, Single values v := by
  constructor
  · intro h
    have hiff : ∀ n, (∀ v ∈ values, n < v) ↔ ∃ v ∈ values, n < v := by
      intro n
      have hn : (values.all fun v => decide (n < v)) = values.any fun v => decide (n < v) := h n
      rw [Bool.eq_iff_iff, List.all_eq_true, List.any_eq_true] at hn
      simpa using hn
    cases values with
    | nil => exact absurd ((hiff 0).mp fun v hv => absurd hv List.not_mem_nil) (by simp)
    | cons v values =>
      -- below a value there are all of them, so that none is less
      have hle : ∀ x ∈ v :: values, ∀ y ∈ v :: values, x ≤ y := by
        intro x hx y hy
        have hlt := (hiff (x - 1)).mpr ⟨x, hx, by omega⟩ y hy
        omega
      refine ⟨v, fun x => ⟨fun hx => ?_, fun hx => hx ▸ List.mem_cons_self⟩⟩
      exact le_antisymm (hle x hx v List.mem_cons_self) (hle v List.mem_cons_self x hx)
  · rintro ⟨v, hv⟩ n
    rw [Op.gt.sat_single hv, Op.gt.sat_single hv]

/-! ## Queries and servers -/

/-- A natural number in decimal. -/
def readNat (cs : List Char) : Option Nat :=
  if cs ≠ [] ∧ cs.all Char.isDigit = true then some (Nat.ofDigitChars 10 cs 0) else none

/-- A number in decimal, with a minus sign if it is negative. -/
def readDecimal (octets : List Nat) : Option Int :=
  if (octets.map Char.ofNat).head? = some '-' then
    (readNat (octets.map Char.ofNat).tail).map fun n => -(n : Int)
  else (readNat (octets.map Char.ofNat)).map Int.ofNat

theorem readNat_toDigits (n : Nat) : readNat (Nat.toDigits 10 n) = some n := by
  have hdigits : (Nat.toDigits 10 n).all Char.isDigit = true :=
    List.all_eq_true.mpr fun c hc => Nat.isDigit_of_mem_toDigits (by decide) (by decide) hc
  unfold readNat
  rw [if_pos ⟨Nat.toDigits_ne_nil, hdigits⟩, Nat.ofDigitChars_ten_toDigits]

theorem head_toDigits_ne_minus (n : Nat) : (Nat.toDigits 10 n).head? ≠ some '-' := by
  intro h
  have hdigit := Nat.isDigit_of_mem_toDigits (b := 10) (by decide) (by decide) (List.mem_of_head? h)
  exact absurd hdigit (by decide)

/-- Each octet of an ASCII text is its character. -/
theorem textOctets_ascii {s : PyStr} (hs : ∀ c ∈ s, c < 128) : textOctets s = s := by
  induction s with
  | nil => rfl
  | cons c s ih =>
    have hc : utf8 c = [c] := if_pos (hs c List.mem_cons_self)
    show utf8 c ++ textOctets s = _
    rw [hc, ih fun d hd => hs d (List.mem_cons_of_mem _ hd)]
    rfl

theorem readDecimal_reads : ReadsDecimal readDecimal := by
  intro n
  have hchars : (Bound.int n).text.map Char.ofNat = n.repr.toList := by
    unfold Bound.text py
    rw [List.map_map, Int.toString_eq_repr]
    exact (List.map_congr_left fun c _ => Char.ofNat_toNat c).trans (List.map_id _)
  unfold readDecimal
  rw [textOctets_ascii (Bound.text_ascii n), hchars, Int.repr_eq_if]
  by_cases hn : 0 ≤ n
  · rw [if_pos hn, Nat.toList_repr, if_neg (head_toDigits_ne_minus _), readNat_toDigits]
    exact congrArg some (Int.toNat_of_nonneg hn)
  · have hminus : ("-" ++ (-n).toNat.repr).toList = '-' :: Nat.toDigits 10 (-n).toNat := by
      rw [String.toList_append, Nat.toList_repr]
      rfl
    rw [if_neg hn, hminus, List.head?_cons, if_pos rfl, List.tail_cons, readNat_toDigits]
    show some (-((-n).toNat : Int)) = some n
    rw [Int.toNat_of_nonneg (by omega), neg_neg]

/-- `(uidNumber > 1000) & (uidNumber < '2000')`, where the second is a negation. -/
def userQuery : Query :=
  .and (.compare .gt (py "uidNumber") false 1000) (.compare .lt (py "uidNumber") true 2000)

end FreeIam.Ldap
