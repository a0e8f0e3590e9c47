import FreeIam.Ldap.Environment
import Mathlib.Data.List.Lex
import Mathlib.Data.List.Sort
import Mathlib.Data.Multiset.Basic
import Mathlib.Data.Prod.Lex
import Mathlib.Logic.Equiv.List

/-!
# Distinguished names

The class `DN`: equality through the hash of a normal form, and the operations
that cut a name into pieces, print a piece and parse it again. Names that are
equal differ in the order inside their RDNs and in letter case only, and no
operation tells them apart.
-/

namespace FreeIam.Py

/-! ## Slices -/

/-- A slice bound as an index into a sequence of a length. -/
def sliceIndex (length : Nat) (i : Int) : Nat :=
  if i < 0 then (i + length).toNat else min i.toNat length

/-- `l[i:j]` -/
def slice {α : Type} (l : List α) (i j : Option Int) : List α :=
  (l.take (j.elim l.length (sliceIndex l.length))).drop (i.elim 0 (sliceIndex l.length))

theorem mem_of_mem_slice {α : Type} {l : List α} {i j : Option Int} {x : α}
    (h : x ∈ slice l i j) : x ∈ l :=
  List.mem_of_mem_take (List.mem_of_mem_drop h)

theorem map_slice {α β : Type} (f : α → β) (l : List α) (i j : Option Int) :
    (slice l i j).map f = slice (l.map f) i j := by
  simp [slice, List.map_drop, List.map_take]

theorem slice_from {α : Type} (l : List α) (i : Nat) : slice l (some (i : Int)) none = l.drop i := by
  have hindex : sliceIndex l.length (i : Int) = min i l.length := by
    unfold sliceIndex
    rw [if_neg (by omega), Int.toNat_natCast]
  unfold slice
  show (l.take l.length).drop (sliceIndex l.length (i : Int)) = _
  rw [hindex, List.take_length]
  rcases Nat.le_total i l.length with hle | hge
  · rw [Nat.min_eq_left hle]
  · rw [Nat.min_eq_right hge, List.drop_length, List.drop_eq_nil_of_le hge]

theorem slice_to {α : Type} (l : List α) (i : Nat) : slice l none (some (i : Int)) = l.take i := by
  have hindex : sliceIndex l.length (i : Int) = min i l.length := by
    unfold sliceIndex
    rw [if_neg (by omega), Int.toNat_natCast]
  unfold slice
  show (l.take (sliceIndex l.length (i : Int))).drop 0 = _
  rw [hindex, List.drop_zero]
  exact (List.take_eq_take_min).symm

theorem slice_last {α : Type} (l : List α) {n : Nat} (hn : 0 < n) :
    slice l (some (-(n : Int))) none = l.drop (l.length - n) := by
  have hindex : sliceIndex l.length (-(n : Int)) = l.length - n := by
    unfold sliceIndex
    rw [if_pos (by omega)]
    omega
  unfold slice
  show (l.take l.length).drop (sliceIndex l.length (-(n : Int))) = _
  rw [hindex, List.take_length]

example : slice [1, 2, 3] (some (-2)) none = [2, 3] ∧ slice [1, 2, 3] none (some (-5)) = [] := by
  decide

/-! ## Sorting -/

/-- `sorted` of a list, by a key into a linear order. -/
def sortedBy {α κ : Type} [LinearOrder κ] (key : α → κ) (l : List α) : List α :=
  l.insertionSort fun a b => key a ≤ key b

/-- Two lists are sorted alike exactly when they hold the same elements. -/
theorem sortedBy_eq_iff {α κ : Type} [LinearOrder κ] {key : α → κ} (hkey : Function.Injective key)
    {l l' : List α} : sortedBy key l = sortedBy key l' ↔ (l : Multiset α) = l' := by
  rw [Multiset.coe_eq_coe]
  constructor
  · intro h
    have hl := List.perm_insertionSort (fun a b => key a ≤ key b) l
    have hl' := List.perm_insertionSort (fun a b => key a ≤ key b) l'
    exact hl.symm.trans ((List.Perm.of_eq h).trans hl')
  · intro h
    have htotal : Std.Total fun a b => key a ≤ key b := ⟨fun a b => le_total _ _⟩
    have htrans : IsTrans α fun a b => key a ≤ key b := ⟨fun _ _ _ => le_trans⟩
    have hperm : (sortedBy key l).Perm (sortedBy key l') :=
      (List.perm_insertionSort _ l).trans (h.trans (List.perm_insertionSort _ l').symm)
    exact hperm.eq_of_pairwise (fun a b _ _ hab hba => hkey (le_antisymm hab hba))
      (List.pairwise_insertionSort _ l) (List.pairwise_insertionSort _ l')

end FreeIam.Py

namespace FreeIam.Ldap

open FreeIam.Py FreeIam.Errors

/-! ## The class `DN` -/

/-- What `DN` uses besides `str2dn`: `ldap.dn.dn2str`, `str.lower` and the hash
of a tuple. -/
structure Names (ω : Type) extends Env ω where
  dn2str : List (List Ava) → PyStr
  lower : PyStr → PyStr
  hash : List (List Ava) → Int

/-- `Self | str` -/
inductive DnArg
  | dn (dn : DN)
  | text (text : PyStr)

/-- `_CASE_INSENSITIVE_ATTRIBUTES` -/
def caseInsensitiveAttributes : List PyStr :=
  [py "c", py "cn", py "dc", py "l", py "o", py "ou", py "uid"]

/-- Tuples are compared component by component, texts by their code points. -/
def avaKey (ava : Ava) : PyStr ×ₗ PyStr ×ₗ Nat := toLex (ava.1, toLex (ava.2.1, ava.2.2))

/-- `AVA.Binary`: the type of a value that was written `#hex`. -/
def avaBinary : Nat := 2

variable {ω : Type} (names : Names ω)

/-- The triple that `DN.__hash__` makes of an attribute value assertion. -/
def Names.normalAva (ava : Ava) : Ava :=
  (names.lower ava.1,
    if names.lower ava.1 ∈ caseInsensitiveAttributes then names.lower ava.2.1 else ava.2.1, ava.2.2)

namespace DN

/-- The tuple of sorted tuples that `DN.__hash__` hashes. -/
def normalized (self : DN) : List (List Ava) :=
  self.rdns.map fun rdn => sortedBy avaKey (rdn.map names.normalAva)

/-- `DN.__hash__` -/
def hash (self : DN) : Int := names.hash (self.normalized names)

/-- `DN.__eq__` of two names. -/
def eq (self other : DN) : Bool := self.hash names == other.hash names

/-- `DN.get` -/
def get : DnArg → Except PyExc DN
  | .dn dn => .ok dn
  | .text text => DN.init names.toEnv text

/-- `DN.__len__` -/
def len (self : DN) : Nat := self.rdns.length

/-- `DN.__getitem__` of a slice. -/
def getSlice (self : DN) (i j : Option Int) : Except PyExc DN :=
  DN.init names.toEnv (names.dn2str (slice self.rdns i j))

/-- `DN.parent` -/
def parent (self : DN) : Except PyExc (Option DN) :=
  if 1 < self.len then (self.getSlice names (some 1) none).map some else .ok none

/-- `-len(other) or len(self)` -/
def suffixStart (self other : DN) : Int := if other.len = 0 then self.len else -other.len

/-- `DN.endswith` -/
def endswith (self : DN) (other : DnArg) : Except PyExc Bool := do
  let other ← DN.get names other
  let suffix ← self.getSlice names (some (self.suffixStart other)) none
  return suffix.eq names other

/-- `DN.startswith` -/
def startswith (self : DN) (other : DnArg) : Except PyExc Bool := do
  let other ← DN.get names other
  let start ← self.getSlice names none (some other.len)
  return start.eq names other

/-- `DN.get_parent` -/
def getParent (self : DN) (fin : DnArg) : Except PyExc (Option DN) := do
  if !(← self.endswith names fin) then return none
  if self.eq names (← DN.get names fin) then return none
  self.parent names

/-- The names that a loop of `yield self[i:]` yields, and what it raises. -/
def yields (self : DN) : List Nat → List DN × Option PyExc
  | [] => ([], none)
  | i :: is =>
    match self.getSlice names (some i) none with
    | .error e => ([], some e)
    | .ok dn => (dn :: (self.yields is).1, (self.yields is).2)

/-- `base or ''`: the empty name is false. -/
def orEmpty : Option DnArg → DnArg
  | none => .text []
  | some (.text text) => .text text
  | some (.dn dn) => if dn.len = 0 then .text [] else .dn dn

/-- `DN.walk`: what the generator yields, and what it raises. -/
def walk (self : DN) (base : Option DnArg) : List DN × Option PyExc :=
  match DN.get names (orEmpty base) with
  | .error e => ([], some e)
  | .ok base =>
    match self.endswith names (.dn base) with
    | .error e => ([], some e)
    | .ok false => ([], some (.valueError "DN does not end with given base"))
    | .ok true =>
      self.yields names (List.range (self.len + 1 - (if base.len = 0 then 1 else base.len))).reverse

end DN

/-! ## Assumptions -/

/-- The RDN was parsed, and no value of it was written `#hex`. -/
def Names.ParsedRdn (rdn : List Ava) : Prop :=
  (∃ s rdns, names.str2dn s = .ok rdns ∧ rdn ∈ rdns) ∧ ∀ ava ∈ rdn, ava.2.2 ≠ avaBinary

/-- Printed lists of parsed RDNs are parsed back. -/
def Names.RoundTrips : Prop :=
  ∀ rdns : List (List Ava), (∀ rdn ∈ rdns, names.ParsedRdn rdn) →
    names.str2dn (names.dn2str rdns) = .ok rdns

/-- The hash does not collide on the normal forms of names. -/
def Names.NoCollision : Prop :=
  ∀ dn dn' : DN, names.hash (dn.normalized names) = names.hash (dn'.normalized names) →
    dn.normalized names = dn'.normalized names

/-- A name that the constructor made, without `#hex` values. -/
structure Names.Plain (dn : DN) : Prop where
  made : ∃ text, DN.init names.toEnv text = .ok dn
  noHex : ∀ rdn ∈ dn.rdns, ∀ ava ∈ rdn, ava.2.2 ≠ avaBinary

/-- The same number of RDNs, and at each position the same attributes, values and
types up to letter case. -/
def Names.SameRdns (a b : DN) : Prop :=
  List.Forall₂ (fun r s => (r.map names.normalAva : Multiset Ava) = s.map names.normalAva)
    a.rdns b.rdns

/-- The name that a text is read as. -/
def Names.reading (names : Names ω) (text : PyStr) : List (List Ava) :=
  match names.str2dn text with
  | .ok rdns => rdns
  | .error _ => []

variable {names}

/-- The RDNs of a name were parsed, from its text or from the one corrected for
Samba. -/
theorem DN.init_parsed {text : PyStr} {dn : DN} (h : DN.init names.toEnv text = .ok dn) :
    ∃ s, names.str2dn s = .ok dn.rdns := by
  rw [DN.init] at h
  cases htext : names.str2dn text with
  | ok rdns =>
    rw [htext] at h
    cases h
    exact ⟨text, htext⟩
  | error e =>
    rw [htext] at h
    simp only at h
    split at h
    · cases hfixed : names.str2dn (unquoteQuestionMark text) with
      | ok rdns =>
        rw [hfixed] at h
        cases h
        exact ⟨_, hfixed⟩
      | error e' =>
        rw [hfixed] at h
        simp only at h
        split at h <;> cases h
    · cases h

theorem Names.Plain.parsed {dn : DN} (h : names.Plain dn) : ∀ rdn ∈ dn.rdns, names.ParsedRdn rdn := by
  intro rdn hrdn
  obtain ⟨text, htext⟩ := h.made
  obtain ⟨s, hs⟩ := DN.init_parsed htext
  exact ⟨⟨s, dn.rdns, hs, hrdn⟩, h.noHex rdn hrdn⟩

/-! ## Equality -/

theorem avaKey_injective : Function.Injective avaKey := by
  intro a b h
  have h₁ := congrArg (fun k => (ofLex k).1) h
  have h₂ := congrArg (fun k => (ofLex (ofLex k).2).1) h
  have h₃ := congrArg (fun k => (ofLex (ofLex k).2).2) h
  exact Prod.ext h₁ (Prod.ext h₂ h₃)

theorem DN.eq_iff (hhash : names.NoCollision) {a b : DN} :
    a.eq names b = true ↔ a.normalized names = b.normalized names := by
  rw [DN.eq, beq_iff_eq]
  exact ⟨hhash a b, fun h => congrArg names.hash h⟩

/-- Sorting makes the normal form forget the order inside the RDNs, and nothing
else. -/
theorem DN.normalized_eq_iff {a b : DN} :
    a.normalized names = b.normalized names ↔ names.SameRdns a b := by
  have hsorted : ∀ r s : List Ava,
      sortedBy avaKey (r.map names.normalAva) = sortedBy avaKey (s.map names.normalAva) ↔
        (r.map names.normalAva : Multiset Ava) = s.map names.normalAva :=
    fun r s => sortedBy_eq_iff avaKey_injective
  rw [DN.normalized, DN.normalized, ← List.forall₂_eq_eq_eq, List.forall₂_map_left_iff,
    List.forall₂_map_right_iff]
  exact ⟨fun h => h.imp fun r s => (hsorted r s).mp, fun h => h.imp fun r s => (hsorted r s).mpr⟩

theorem DN.len_eq {a b : DN} (h : a.normalized names = b.normalized names) : a.len = b.len := by
  have hlength := congrArg List.length h
  rwa [DN.normalized, DN.normalized, List.length_map, List.length_map] at hlength

/-! ## Slices of equal names -/

theorem DN.get_dn (dn : DN) : DN.get names (.dn dn) = .ok dn := rfl

/-- Parsed RDNs, printed and read again. -/
theorem DN.init_dn2str (hprint : names.RoundTrips) {rdns : List (List Ava)}
    (hparsed : ∀ rdn ∈ rdns, names.ParsedRdn rdn) :
    DN.init names.toEnv (names.dn2str rdns) = .ok ⟨names.dn2str rdns, rdns⟩ := by
  rw [DN.init, hprint rdns hparsed]

theorem Names.plain_dn2str (hprint : names.RoundTrips) {rdns : List (List Ava)}
    (hparsed : ∀ rdn ∈ rdns, names.ParsedRdn rdn) : names.Plain ⟨names.dn2str rdns, rdns⟩ :=
  ⟨⟨_, DN.init_dn2str hprint hparsed⟩, fun rdn hrdn => (hparsed rdn hrdn).2⟩

/-- A slice of a plain name is the plain name of the sliced RDNs. -/
theorem DN.getSlice_plain (hprint : names.RoundTrips) {a : DN} (ha : names.Plain a)
    (i j : Option Int) :
    a.getSlice names i j = .ok ⟨names.dn2str (slice a.rdns i j), slice a.rdns i j⟩ ∧
      names.Plain ⟨names.dn2str (slice a.rdns i j), slice a.rdns i j⟩ := by
  have hparsed : ∀ rdn ∈ slice a.rdns i j, names.ParsedRdn rdn :=
    fun rdn hrdn => ha.parsed rdn (mem_of_mem_slice hrdn)
  exact ⟨DN.init_dn2str hprint hparsed, Names.plain_dn2str hprint hparsed⟩

/-- A slice of a plain name has the slice of its normal form. -/
theorem DN.getSlice_spec (hprint : names.RoundTrips) {a : DN} (ha : names.Plain a)
    (i j : Option Int) :
    ∃ x, a.getSlice names i j = .ok x ∧ x.normalized names = slice (a.normalized names) i j :=
  ⟨_, (DN.getSlice_plain hprint ha i j).1, map_slice _ _ _ _⟩

/-- Two names with the same normal form: the values that make no operation tell
them apart. -/
structure Names.Alike (names : Names ω) (a b : DN) : Prop where
  left : names.Plain a
  right : names.Plain b
  normalized : a.normalized names = b.normalized names

/-- As the suffix that is asked for, equal names are the same: nothing of them is
printed. -/
theorem Names.Alike.endswith_of {a b : DN} (h : names.Alike a b) (c : DN) :
    c.endswith names (.dn a) = c.endswith names (.dn b) := by
  have hstart : c.suffixStart a = c.suffixStart b := by
    rw [DN.suffixStart, DN.suffixStart, DN.len_eq h.normalized]
  have heq : ∀ x : DN, x.eq names a = x.eq names b := by
    intro x
    rw [DN.eq, DN.eq, DN.hash, DN.hash, DN.hash, h.normalized]
  have hof : ∀ d : DN, c.endswith names (.dn d)
      = (c.getSlice names (some (c.suffixStart d)) none).map fun x => x.eq names d := by
    intro d
    rw [DN.endswith, DN.get]
    cases hslice : c.getSlice names (some (c.suffixStart d)) none <;>
      simp only [hslice, bind, Except.bind, pure, Except.pure, Except.map]
  rw [hof, hof, hstart, funext heq]

section

variable (hprint : names.RoundTrips) (hhash : names.NoCollision) {a b : DN}
  (h : names.Alike a b)

include hprint hhash h

theorem Names.Alike.getSlice (i j : Option Int) :
    ∃ x y, a.getSlice names i j = .ok x ∧ b.getSlice names i j = .ok y ∧ x.eq names y = true := by
  obtain ⟨x, hx, hnx⟩ := DN.getSlice_spec hprint h.left i j
  obtain ⟨y, hy, hny⟩ := DN.getSlice_spec hprint h.right i j
  refine ⟨x, y, hx, hy, (DN.eq_iff hhash).mpr ?_⟩
  rw [hnx, hny, h.normalized]

/-- A slice of the one equals a name exactly when the slice of the other does. -/
theorem Names.Alike.getSlice_eq (i j : Option Int) (c : DN) :
    ∃ x y, a.getSlice names i j = .ok x ∧ b.getSlice names i j = .ok y ∧
      x.eq names c = y.eq names c := by
  obtain ⟨x, y, hx, hy, hxy⟩ := h.getSlice hprint hhash i j
  have hhash : x.hash names = y.hash names := beq_iff_eq.mp hxy
  exact ⟨x, y, hx, hy, by rw [DN.eq, DN.eq, hhash]⟩

theorem Names.Alike.parent :
    (a.parent names = .ok none ∧ b.parent names = .ok none) ∨
      ∃ x y, a.parent names = .ok (some x) ∧ b.parent names = .ok (some y) ∧
        x.eq names y = true := by
  have hlen := DN.len_eq h.normalized
  by_cases hone : 1 < a.len
  · obtain ⟨x, y, hx, hy, hxy⟩ := h.getSlice hprint hhash (some 1) none
    refine .inr ⟨x, y, ?_, ?_, hxy⟩
    · rw [DN.parent, if_pos hone, hx]
      rfl
    · rw [DN.parent, if_pos (hlen ▸ hone), hy]
      rfl
  · refine .inl ⟨?_, ?_⟩
    · rw [DN.parent, if_neg hone]
    · rw [DN.parent, if_neg (hlen ▸ hone)]

theorem Names.Alike.startswith (c : DN) :
    ∃ r, a.startswith names (.dn c) = .ok r ∧ b.startswith names (.dn c) = .ok r := by
  obtain ⟨x, y, hx, hy, hxy⟩ := h.getSlice_eq hprint hhash none (some c.len) c
  refine ⟨x.eq names c, ?_, ?_⟩
  · rw [DN.startswith, DN.get]
    simp only [hx, bind, Except.bind, pure, Except.pure]
  · rw [DN.startswith, DN.get]
    simp only [hy, hxy, bind, Except.bind, pure, Except.pure]

theorem Names.Alike.endswith (c : DN) :
    ∃ r, a.endswith names (.dn c) = .ok r ∧ b.endswith names (.dn c) = .ok r := by
  have hstart : a.suffixStart c = b.suffixStart c := by
    rw [DN.suffixStart, DN.suffixStart, DN.len_eq h.normalized]
  obtain ⟨x, y, hx, hy, hxy⟩ := h.getSlice_eq hprint hhash (some (a.suffixStart c)) none c
  refine ⟨x.eq names c, ?_, ?_⟩
  · rw [DN.endswith, DN.get]
    simp only [hx, bind, Except.bind, pure, Except.pure]
  · rw [DN.endswith, DN.get]
    simp only [← hstart, hy, hxy, bind, Except.bind, pure, Except.pure]

theorem Names.Alike.yields (is : List Nat) :
    List.Forall₂ (fun x y => x.eq names y = true) (a.yields names is).1 (b.yields names is).1 ∧
      (a.yields names is).2 = none ∧ (b.yields names is).2 = none := by
  induction is with
  | nil => exact ⟨.nil, rfl, rfl⟩
  | cons i is ih =>
    obtain ⟨hyields, hleft, hright⟩ := ih
    obtain ⟨x, y, hx, hy, hxy⟩ := h.getSlice hprint hhash (some i) none
    rw [DN.yields, DN.yields, hx, hy]
    exact ⟨.cons hxy hyields, hleft, hright⟩

/-- The two walks yield equal names, or both raise before the first. -/
theorem Names.Alike.walk (c : DN) :
    List.Forall₂ (fun x y => x.eq names y = true) (a.walk names (some (.dn c))).1
        (b.walk names (some (.dn c))).1 ∧
      (a.walk names (some (.dn c))).2 = (b.walk names (some (.dn c))).2 := by
  cases hbase : DN.get names (DN.orEmpty (some (.dn c))) with
  | error e =>
    rw [DN.walk, DN.walk, hbase]
    exact ⟨.nil, rfl⟩
  | ok base =>
    obtain ⟨r, hr, hr'⟩ := h.endswith hprint hhash base
    have hlen := DN.len_eq h.normalized
    cases r with
    | false =>
      rw [DN.walk, DN.walk, hbase]
      simp only [hr, hr']
      exact ⟨.nil, trivial⟩
    | true =>
      obtain ⟨hyields, hleft, hright⟩ := h.yields hprint hhash
        (List.range (a.len + 1 - (if base.len = 0 then 1 else base.len))).reverse
      rw [DN.walk, DN.walk, hbase]
      simp only [hr, hr', ← hlen]
      exact ⟨hyields, hleft.trans hright.symm⟩

end

/-! ## The law -/

/-- No operation tells the names `a` and `b` apart, with `c` as the other name. -/
structure Names.Congruent (names : Names ω) (a b c : DN) : Prop where
  getSlice : ∀ i j, ∃ x y, a.getSlice names i j = .ok x ∧ b.getSlice names i j = .ok y ∧
    x.eq names y = true
  parent : (a.parent names = .ok none ∧ b.parent names = .ok none) ∨
    ∃ x y, a.parent names = .ok (some x) ∧ b.parent names = .ok (some y) ∧ x.eq names y = true
  startswith : ∃ r, a.startswith names (.dn c) = .ok r ∧ b.startswith names (.dn c) = .ok r
  endswith : ∃ r, a.endswith names (.dn c) = .ok r ∧ b.endswith names (.dn c) = .ok r
  endswith_of : c.endswith names (.dn a) = c.endswith names (.dn b)
  walk : List.Forall₂ (fun x y => x.eq names y = true) (a.walk names (some (.dn c))).1
      (b.walk names (some (.dn c))).1 ∧
    (a.walk names (some (.dn c))).2 = (b.walk names (some (.dn c))).2

/-- Equality of names is equality of their RDNs up to order and letter case, and
a congruence of slices, parents, prefix and suffix tests, and walks. -/
theorem dn_eq_congruence (hprint : names.RoundTrips) (hhash : names.NoCollision) {a b : DN}
    (ha : names.Plain a) (hb : names.Plain b) :
    (a.eq names b = true ↔ names.SameRdns a b) ∧
      (a.eq names b = true → ∀ c, names.Congruent a b c) := by
  refine ⟨(DN.eq_iff hhash).trans DN.normalized_eq_iff, fun heq c => ?_⟩
  have h : names.Alike a b := ⟨ha, hb, (DN.eq_iff hhash).mp heq⟩
  exact ⟨h.getSlice hprint hhash, h.parent hprint hhash, h.startswith hprint hhash c,
    h.endswith hprint hhash c, h.endswith_of c, h.walk hprint hhash c⟩

/-! ## Names without escapes -/

/-- `attr=value` -/
def printAva (ava : Ava) : PyStr := ava.1 ++ '='.toNat :: ava.2.1

/-- Letters and digits, which need no escape. -/
def isSimple (s : PyStr) : Bool := s.all fun c => isAsciiLetter c || isAsciiDigit c

/-- Read `attr=value`. -/
def readAva (s : PyStr) : Option Ava :=
  let attr := s.takeWhile (· != '='.toNat)
  let value := (s.dropWhile (· != '='.toNat)).drop 1
  if attr ++ '='.toNat :: value = s ∧ isSimple attr = true ∧ isSimple value = true then
    some (attr, value, 1)
  else none

/-- `dn2str` of names that need no escapes. -/
def printRdns (rdns : List (List Ava)) : PyStr :=
  List.intercalate (py ",") (rdns.map fun rdn => List.intercalate (py "+") (rdn.map printAva))

/-- `str2dn` of names without escapes and white space. -/
def readRdns (s : PyStr) : Except LdapError (List (List Ava)) :=
  if s = [] then .ok []
  else match (s.splitOn ','.toNat).mapM fun rdn => (rdn.splitOn '+'.toNat).mapM readAva with
    | none => .error { cls := .decodingError }
    | some rdns => .ok rdns

/-- The names of letters and digits. -/
def simpleNames : Names Unit :=
  { Env.idle Unit with
    str2dn := readRdns
    dn2str := printRdns
    lower := lower
    hash := fun x => Encodable.encode x }

/-- What `readAva` returns. -/
structure SimpleAva (ava : Ava) : Prop where
  attr : isSimple ava.1 = true
  value : isSimple ava.2.1 = true
  type : ava.2.2 = 1

theorem notMem_of_isSimple {s : PyStr} (hs : isSimple s = true) {c : Nat}
    (hc : (isAsciiLetter c || isAsciiDigit c) = false) : c ∉ s := by
  intro hmem
  have hin := List.all_eq_true.mp hs c hmem
  rw [hc] at hin
  cases hin

theorem readAva_simple {s : PyStr} {ava : Ava} (h : readAva s = some ava) : SimpleAva ava := by
  rw [readAva] at h
  split at h
  · rename_i hsimple
    cases h
    exact ⟨hsimple.2.1, hsimple.2.2, rfl⟩
  · cases h

theorem readAva_printAva {ava : Ava} (h : SimpleAva ava) : readAva (printAva ava) = some ava := by
  have hattr : ∀ c ∈ ava.1, (c != '='.toNat) = true := by
    intro c hc
    have hnot := notMem_of_isSimple h.attr (c := '='.toNat) (by decide)
    simp only [bne_iff_ne]
    rintro rfl
    exact hnot hc
  have htake : (printAva ava).takeWhile (· != '='.toNat) = ava.1 := by
    rw [printAva, List.takeWhile_append_of_pos hattr]
    simp
  have hdrop : (printAva ava).dropWhile (· != '='.toNat) = '='.toNat :: ava.2.1 := by
    rw [printAva, List.dropWhile_append_of_pos hattr]
    simp
  rw [readAva]
  simp only [htake, hdrop, List.drop_succ_cons, List.drop_zero]
  rw [if_pos ⟨rfl, h.attr, h.value⟩, ← h.type]

theorem notMem_printAva {ava : Ava} (h : SimpleAva ava) {c : Nat} (hne : c ≠ '='.toNat)
    (hc : (isAsciiLetter c || isAsciiDigit c) = false) : c ∉ printAva ava := by
  intro hmem
  rcases List.mem_append.mp hmem with hmem | hmem
  · exact notMem_of_isSimple h.attr hc hmem
  · rcases List.mem_cons.mp hmem with rfl | hmem
    · exact hne rfl
    · exact notMem_of_isSimple h.value hc hmem

/-- Reading what is read back from its own printed form. -/
theorem mapM_map {α β : Type} {f : α → Option β} {g : β → α} {bs : List β}
    (h : ∀ b ∈ bs, f (g b) = some b) : (bs.map g).mapM f = some bs := by
  induction bs with
  | nil => rfl
  | cons b bs ih =>
    have ih := ih fun b hb => h b (List.mem_cons_of_mem _ hb)
    rw [List.map_cons, List.mapM_cons, h b List.mem_cons_self, ih]
    rfl

theorem mem_of_mapM {α β : Type} {f : α → Option β} : ∀ {as : List α} {bs : List β},
    as.mapM f = some bs → (∀ b ∈ bs, ∃ a, f a = some b) ∧ bs.length = as.length
  | [], bs, h => by
    cases h
    exact ⟨fun b hb => (List.not_mem_nil hb).elim, rfl⟩
  | a :: as, bs, h => by
    rw [List.mapM_cons] at h
    cases ha : f a with
    | none => rw [ha] at h; cases h
    | some b =>
      cases has : as.mapM f with
      | none => rw [ha, has] at h; cases h
      | some bs' =>
        rw [ha, has] at h
        cases h
        obtain ⟨hmem, hlength⟩ := mem_of_mapM has
        refine ⟨fun c hc => ?_, by rw [List.length_cons, hlength, List.length_cons]⟩
        rcases List.mem_cons.mp hc with rfl | hc
        · exact ⟨a, ha⟩
        · exact hmem c hc

/-- An RDN that was read has an assertion, and simple ones only. -/
theorem readRdns_simple {s : PyStr} {rdns : List (List Ava)} (hread : readRdns s = .ok rdns)
    {rdn : List Ava} (hrdn : rdn ∈ rdns) : rdn ≠ [] ∧ ∀ ava ∈ rdn, SimpleAva ava := by
  rw [readRdns] at hread
  split at hread
  · cases hread
    cases hrdn
  · split at hread
    · cases hread
    · rename_i hrdns
      cases hread
      obtain ⟨r, hr⟩ := (mem_of_mapM hrdns).1 rdn hrdn
      obtain ⟨havas, hlength⟩ := mem_of_mapM hr
      constructor
      · rintro rfl
        exact List.splitOn_ne_nil _ r (List.eq_nil_of_length_eq_zero hlength.symm)
      · intro ava hava
        obtain ⟨t, ht⟩ := havas ava hava
        exact readAva_simple ht

theorem simpleNames_parsed {rdn : List Ava} (h : simpleNames.ParsedRdn rdn) :
    rdn ≠ [] ∧ ∀ ava ∈ rdn, SimpleAva ava := by
  obtain ⟨⟨s, rdns, hread, hrdn⟩, -⟩ := h
  exact readRdns_simple hread hrdn

theorem mem_intercalate {sep : PyStr} {texts : List PyStr} {c : Nat}
    (h : c ∈ List.intercalate sep texts) : c ∈ sep ∨ ∃ text ∈ texts, c ∈ text := by
  induction texts with
  | nil => cases h
  | cons text texts ih =>
    cases texts with
    | nil =>
      rw [List.intercalate_singleton] at h
      exact .inr ⟨text, List.mem_cons_self, h⟩
    | cons text' texts =>
      rw [List.intercalate_cons_cons] at h
      rcases List.mem_append.mp h with h | h
      · rcases List.mem_append.mp h with h | h
        · exact .inr ⟨text, List.mem_cons_self, h⟩
        · exact .inl h
      · rcases ih h with h | ⟨t, ht, h⟩
        · exact .inl h
        · exact .inr ⟨t, List.mem_cons_of_mem _ ht, h⟩

/-- RDNs of simple assertions are read back. -/
theorem readRdns_printRdns {rdns : List (List Ava)}
    (hsimple : ∀ rdn ∈ rdns, rdn ≠ [] ∧ ∀ ava ∈ rdn, SimpleAva ava) :
    readRdns (printRdns rdns) = .ok rdns := by
  have hplus : ∀ rdn ∈ rdns, ((List.intercalate (py "+") (rdn.map printAva)).splitOn '+'.toNat)
      = rdn.map printAva := by
    intro rdn hrdn
    obtain ⟨hne, havas⟩ := hsimple rdn hrdn
    refine List.splitOn_intercalate '+'.toNat ?_ (by simpa using hne)
    intro text htext
    obtain ⟨ava, hava, rfl⟩ := List.mem_map.mp htext
    exact notMem_printAva (havas ava hava) (by decide) (by decide)
  have hrdn : ∀ rdn ∈ rdns, ((List.intercalate (py "+") (rdn.map printAva)).splitOn
      '+'.toNat).mapM readAva = some rdn := by
    intro rdn hmem
    rw [hplus rdn hmem]
    exact mapM_map fun ava hava => readAva_printAva ((hsimple rdn hmem).2 ava hava)
  by_cases hnil : rdns = []
  · rw [hnil]
    rfl
  have hcomma : (printRdns rdns).splitOn ','.toNat
      = rdns.map fun rdn => List.intercalate (py "+") (rdn.map printAva) := by
    refine List.splitOn_intercalate ','.toNat ?_ (by simpa using hnil)
    intro text htext hmem
    obtain ⟨rdn, hrdn, rfl⟩ := List.mem_map.mp htext
    rcases mem_intercalate hmem with hmem | ⟨text, htext, hmem⟩
    · revert hmem
      decide
    · obtain ⟨ava, hava, rfl⟩ := List.mem_map.mp htext
      exact notMem_printAva ((hsimple rdn hrdn).2 ava hava) (by decide) (by decide) hmem
  have hne : printRdns rdns ≠ [] := by
    intro hempty
    rw [hempty] at hcomma
    -- an empty text would be read as one empty RDN
    have hmem : [] ∈ rdns.map fun rdn => List.intercalate (py "+") (rdn.map printAva) :=
      hcomma ▸ List.mem_singleton_self []
    obtain ⟨rdn, hmem, hrdnNil⟩ := List.mem_map.mp hmem
    have hread := hrdn rdn hmem
    rw [hrdnNil] at hread
    cases hread
  have hread : (rdns.map fun rdn => List.intercalate (py "+") (rdn.map printAva)).mapM
      (fun rdn => (rdn.splitOn '+'.toNat).mapM readAva) = some rdns := mapM_map hrdn
  rw [readRdns, if_neg hne, hcomma, hread]

theorem simpleNames_roundTrips : simpleNames.RoundTrips :=
  fun _ hparsed => readRdns_printRdns fun rdn hrdn => simpleNames_parsed (hparsed rdn hrdn)

theorem simpleNames_noCollision : simpleNames.NoCollision := by
  intro dn dn' h
  exact Encodable.encode_injective (Int.ofNat.inj h)

/-- Two names with the RDNs and the letter case of one RDN swapped. -/
theorem dn_eq_congruence_swapped :
    ∃ a b, DN.init simpleNames.toEnv (py "cn=bar+Cn=foo,dc=Org") = .ok a ∧
      DN.init simpleNames.toEnv (py "cn=foo+Cn=bar,dc=org") = .ok b ∧
      a.eq simpleNames b = true ∧ ∀ c, simpleNames.Congruent a b c := by
  let a : DN := ⟨py "cn=bar+Cn=foo,dc=Org",
    [[(py "cn", py "bar", 1), (py "Cn", py "foo", 1)], [(py "dc", py "Org", 1)]]⟩
  let b : DN := ⟨py "cn=foo+Cn=bar,dc=org",
    [[(py "cn", py "foo", 1), (py "Cn", py "bar", 1)], [(py "dc", py "org", 1)]]⟩
  have hinit : DN.init simpleNames.toEnv (py "cn=bar+Cn=foo,dc=Org") = .ok a := by rfl
  have hinit' : DN.init simpleNames.toEnv (py "cn=foo+Cn=bar,dc=org") = .ok b := by rfl
  have ha : simpleNames.Plain a := ⟨⟨_, hinit⟩, by decide⟩
  have hb : simpleNames.Plain b := ⟨⟨_, hinit'⟩, by decide⟩
  obtain ⟨hiff, hcongr⟩ := dn_eq_congruence simpleNames_roundTrips simpleNames_noCollision ha hb
  have hsame : simpleNames.SameRdns a b := by
    refine .cons (Multiset.coe_eq_coe.mpr ?_) (.cons (Multiset.coe_eq_coe.mpr ?_) .nil)
    · exact List.Perm.swap _ _ _
    · exact List.Perm.refl _
  exact ⟨a, b, hinit, hinit', hiff.mpr hsame, hcongr (hiff.mpr hsame)⟩

end FreeIam.Ldap
