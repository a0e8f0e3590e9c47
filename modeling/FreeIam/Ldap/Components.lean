import FreeIam.Ldap.Concatenation

/-!
# Components of names

`rdn`, `attribute` and `value` show the first value of the first RDN, `multi_rdn`,
`attributes` and `values` all of its values. So a name can be taken apart on its way up to the
root and composed again, as long as no RDN on the way has more than one value.
-/

namespace FreeIam.Ldap

open FreeIam.Py FreeIam.Errors

/-! ## The properties -/

namespace DN

/-- `DN.multi_rdn` -/
def multiRdn (self : DN) : List (PyStr × PyStr) :=
  match self.rdns with
  | [] => []
  | rdn :: _ => rdn.map fun ava => (ava.1, ava.2.1)

/-- `DN.rdn`: without a first value `()`. -/
def rdn (self : DN) : Option (PyStr × PyStr) := self.multiRdn.head?

/-- `DN.attribute` -/
def attribute_ (self : DN) : Option PyStr := self.rdn.map Prod.fst

/-- `DN.value` -/
def value (self : DN) : Option PyStr := self.rdn.map Prod.snd

/-- `DN.attributes` -/
def attributes (self : DN) : List PyStr :=
  match self.rdns with
  | [] => []
  | rdn :: _ => rdn.map Prod.fst

/-- `DN.values` -/
def values (self : DN) : List PyStr :=
  match self.rdns with
  | [] => []
  | rdn :: _ => rdn.map fun ava => ava.2.1

/-- `attribute` and `value` are the first of `attributes` and `values`. -/
theorem components_head (self : DN) :
    self.attribute_ = self.attributes.head? ∧ self.value = self.values.head? := by
  unfold attribute_ value attributes values rdn multiRdn
  cases self.rdns with
  | nil => exact ⟨rfl, rfl⟩
  | cons rdn rest => cases rdn <;> exact ⟨rfl, rfl⟩

end DN

variable {ω : Type}

/-- What is relied on of `str2dn` and `dn2str` for one value of an RDN: the type of a value is
not printed, and a value of an RDN that was parsed is an RDN of its own. -/
structure Names.PrintsValues (names : Names ω) : Prop where
  types : ∀ rdns rdns' : List (List Ava),
    (rdns.map fun rdn => rdn.map fun ava => (ava.1, ava.2.1)) =
      (rdns'.map fun rdn => rdn.map fun ava => (ava.1, ava.2.1)) → names.dn2str rdns = names.dn2str rdns'
  parsed : ∀ rdn, names.ParsedRdn rdn → rdn ≠ []
  single : ∀ rdn, names.ParsedRdn rdn → ∀ ava ∈ rdn, names.ParsedRdn [ava]

/-- `DN.rdn` of these names, as parts for `DN.compose`. -/
def rdnParts (dns : List DN) : List NamePart :=
  dns.filterMap fun dn => dn.rdn.map fun rdn => .pair rdn.1 rdn.2

/-- The first value of each RDN. -/
def firstValues (rdns : List (List Ava)) : List (List Ava) := rdns.map (List.take 1)

/-! ## Composing the first values -/

section

variable {lib : Modlists ω}

theorem DN.rdn_cons {dn : DN} {ava : Ava} {rdn : List Ava} {rest : List (List Ava)}
    (h : dn.rdns = (ava :: rdn) :: rest) : dn.rdn = some (ava.1, ava.2.1) := by
  unfold DN.rdn DN.multiRdn
  rw [h]
  rfl

theorem rdnParts_cons {dn : DN} {ava : Ava} {rdn : List Ava} {rest : List (List Ava)}
    (h : dn.rdns = (ava :: rdn) :: rest) (dns : List DN) :
    rdnParts (dn :: dns) = .pair ava.1 ava.2.1 :: rdnParts dns := by
  unfold rdnParts
  rw [List.filterMap_cons, DN.rdn_cons h]
  rfl

/-- An RDN is its first value exactly if it has no other. -/
theorem take_one_iff (names : Names ω) {rdn : List Ava} (hne : rdn ≠ []) :
    ((rdn.take 1).map names.normalAva : Multiset Ava) = rdn.map names.normalAva ↔ rdn.length = 1 := by
  cases rdn with
  | nil => exact absurd rfl hne
  | cons ava rdn =>
    constructor
    · intro hsame
      have hcard := congrArg Multiset.card hsame
      simp only [List.take_succ_cons, List.take_zero, Multiset.coe_card, List.length_map,
        List.length_cons, List.length_nil] at hcard
      rw [List.length_cons]
      omega
    · intro hlength
      rw [List.length_cons, Nat.add_eq_right] at hlength
      rw [List.length_eq_zero_iff.mp hlength]
      rfl

theorem sameRdns_firstValues_iff (names : Names ω) {text text' : PyStr} {rdns : List (List Ava)}
    (hne : ∀ rdn ∈ rdns, rdn ≠ []) :
    names.SameRdns ⟨text, firstValues rdns⟩ ⟨text', rdns⟩ ↔ ∀ rdn ∈ rdns, rdn.length = 1 := by
  unfold Names.SameRdns firstValues
  show List.Forall₂ _ (rdns.map (List.take 1)) rdns ↔ _
  rw [List.forall₂_map_left_iff, List.forall₂_same]
  exact forall₂_congr fun rdn hrdn => take_one_iff names (hne rdn hrdn)

/-- The name of these RDNs, its parent, and so on up to the last RDN. -/
def upwards (names : Names ω) (rdns : List (List Ava)) : List DN :=
  (List.range rdns.length).map fun i => ⟨names.dn2str (rdns.drop i), rdns.drop i⟩

theorem upwards_cons (names : Names ω) (rdn : List Ava) (rdns : List (List Ava)) :
    upwards names (rdn :: rdns) = ⟨names.dn2str (rdn :: rdns), rdn :: rdns⟩ :: upwards names rdns := by
  unfold upwards
  rw [List.length_cons, List.range_succ_eq_map, List.map_cons, List.map_map]
  rfl

/-- The first values, as `compose` takes them from pairs. -/
def pairValues (rdns : List (List Ava)) : List (List Ava) :=
  (firstValues rdns).map (List.map fun ava => (ava.1, ava.2.1, avaString))

theorem pairValues_types (rdns : List (List Ava)) :
    ((pairValues rdns).map fun rdn => rdn.map fun ava => (ava.1, ava.2.1)) =
      (firstValues rdns).map fun rdn => rdn.map fun ava => (ava.1, ava.2.1) := by
  unfold pairValues
  rw [List.map_map]
  refine List.map_congr_left fun rdn _ => ?_
  rw [Function.comp_apply, List.map_map]
  rfl

theorem composeRdns_upwards {rdns : List (List Ava)} (hne : ∀ rdn ∈ rdns, rdn ≠ []) :
    composeRdns lib (rdnParts (upwards lib.toNames rdns)) = .ok (pairValues rdns) := by
  induction rdns with
  | nil => rfl
  | cons rdn rdns ih =>
    cases rdn with
    | nil => exact absurd rfl (hne [] List.mem_cons_self)
    | cons ava rdn =>
      have hrest := ih fun rdn hrdn => hne rdn (List.mem_cons_of_mem _ hrdn)
      rw [upwards_cons, rdnParts_cons rfl, composeRdns, hrest]
      rfl

/-- A walk from the root comes to the name, its parent, and so on, the other way round. -/
theorem DN.walk_reverse (hprint : lib.RoundTrips) (hhash : lib.NoCollision)
    (hempty : lib.str2dn [] = .ok []) {dn : DN} (hdn : lib.Plain dn) :
    (dn.walk lib.toNames none).2 = none ∧
      (dn.walk lib.toNames none).1.reverse = upwards lib.toNames dn.rdns := by
  have hroot : DN.get lib.toNames (.text []) = .ok ⟨[], []⟩ := by
    rw [DN.get, DN.init, hempty]
  have hends : (lib.suffix dn 0).eq lib.toNames ⟨[], []⟩ = true := by
    apply DN.eq_of_rdns
    exact List.drop_length
  by_cases hlen : 0 < dn.len
  · have hwalk : dn.walk lib.toNames none = dn.walk lib.toNames (some (.text [])) := rfl
    rw [hwalk, DN.walk_suffixes hprint hhash hempty hdn hroot hlen]
    rw [show (⟨[], []⟩ : DN).len = 0 from rfl, if_pos hends]
    refine ⟨rfl, ?_⟩
    unfold Names.suffixes upwards
    rw [← List.map_reverse, List.reverse_range', List.map_map]
    refine List.map_congr_left fun i hi => ?_
    rw [List.mem_range] at hi
    have hdrop : dn.len - (max 1 0 + (dn.len + 1 - max 1 0) - 1 - i) = i := by omega
    unfold Names.suffix
    simp only [Function.comp_apply, hdrop]
  · have hnil : dn.rdns = [] := List.length_eq_zero_iff.mp (by unfold DN.len at hlen; omega)
    have hzero : dn.len = 0 := by omega
    unfold DN.walk
    rw [show DN.orEmpty none = .text [] from rfl, hroot]
    have hsuffix : dn.endswith lib.toNames (.dn ⟨[], []⟩) = .ok true := by
      rw [DN.endswith_eq hprint hdn (DN.get_dn _), show (⟨[], []⟩ : DN).len = 0 from rfl, hends]
    simp only [hsuffix]
    rw [hzero, hnil]
    exact ⟨rfl, rfl⟩

/-- The first value of an RDN that was parsed is an RDN of its own. -/
theorem Names.PrintsValues.take_one (hvalues : lib.PrintsValues) {rdn : List Ava}
    (hrdn : lib.ParsedRdn rdn) : lib.ParsedRdn (rdn.take 1) := by
  cases rdn with
  | nil => exact absurd rfl (hvalues.parsed [] hrdn)
  | cons ava rdn => exact hvalues.single _ hrdn ava List.mem_cons_self

/-- What is composed of RDNs that were parsed has these RDNs, whatever types it is composed with. -/
theorem DN.compose_ok (hprint : lib.RoundTrips) (hvalues : lib.PrintsValues) {parts : List NamePart}
    {composed rdns : List (List Ava)} (hparts : composeRdns lib parts = .ok composed)
    (htypes : (composed.map fun rdn => rdn.map fun ava => (ava.1, ava.2.1)) =
      rdns.map fun rdn => rdn.map fun ava => (ava.1, ava.2.1))
    (hparsed : ∀ rdn ∈ rdns, lib.ParsedRdn rdn) :
    DN.compose lib parts = .ok ⟨lib.dn2str rdns, rdns⟩ := by
  unfold DN.compose
  rw [hparts]
  show DN.init lib.toEnv (lib.dn2str composed) = _
  rw [hvalues.types composed rdns htypes, DN.init_dn2str hprint hparsed]

/-- The names on the way up have one value each exactly if all RDNs do. -/
theorem attributes_upwards_iff (names : Names ω) (rdns : List (List Ava)) :
    (∀ x ∈ upwards names rdns, x.attributes.length = 1) ↔ ∀ rdn ∈ rdns, rdn.length = 1 := by
  induction rdns with
  | nil => exact ⟨fun _ _ h => absurd h List.not_mem_nil, fun _ _ h => absurd h List.not_mem_nil⟩
  | cons rdn rdns ih =>
    rw [upwards_cons, List.forall_mem_cons, List.forall_mem_cons, ih]
    have hlength : (⟨names.dn2str (rdn :: rdns), rdn :: rdns⟩ : DN).attributes.length = rdn.length :=
      List.length_map _
    rw [hlength]

end

/-! ## Taking apart and composing -/

section

variable {lib : Modlists ω} (hprint : lib.RoundTrips) (hhash : lib.NoCollision) (hvalues : lib.PrintsValues)
  {dn : DN} (hdn : lib.Plain dn)
include hprint hhash hvalues hdn

/-- On the way up: the pairs of the walk are the first values of all RDNs. -/
theorem DN.compose_walk (hempty : lib.str2dn [] = .ok []) :
    ∃ walked composed, dn.walk lib.toNames none = (walked, none) ∧
      DN.compose lib (rdnParts walked.reverse) = .ok composed ∧
      (composed.eq lib.toNames dn = true ↔ ∀ x ∈ walked, x.attributes.length = 1) := by
  have hne : ∀ rdn ∈ dn.rdns, rdn ≠ [] := fun rdn hrdn => hvalues.parsed rdn (hdn.parsed rdn hrdn)
  obtain ⟨hend, hwalk⟩ := DN.walk_reverse hprint hhash hempty hdn
  have hparts : composeRdns lib (rdnParts (upwards lib.toNames dn.rdns)) = .ok (pairValues dn.rdns) :=
    composeRdns_upwards hne
  rw [← hwalk] at hparts
  have hparsed : ∀ rdn ∈ firstValues dn.rdns, lib.ParsedRdn rdn := by
    intro first hfirst
    obtain ⟨rdn, hrdn, rfl⟩ := List.mem_map.mp hfirst
    exact hvalues.take_one (hdn.parsed rdn hrdn)
  have hcompose := DN.compose_ok hprint hvalues hparts (pairValues_types dn.rdns) hparsed
  have hone : (∀ x ∈ (dn.walk lib.toNames none).1, x.attributes.length = 1) ↔
      ∀ rdn ∈ dn.rdns, rdn.length = 1 := by
    rw [← attributes_upwards_iff lib.toNames, ← hwalk]
    simp only [List.mem_reverse]
  refine ⟨_, _, Prod.ext rfl hend, hcompose, ?_⟩
  rw [hone, DN.eq_iff hhash, DN.normalized_eq_iff]
  exact sameRdns_firstValues_iff lib.toNames hne

/-- One step up: the parent keeps all values of its RDNs. -/
theorem DN.compose_parent {ava : Ava} {rdn : List Ava} {rest : List (List Ava)}
    (hrdns : dn.rdns = (ava :: rdn) :: rest) (hlen : 1 < dn.len) :
    ∃ parent composed, dn.parent lib.toNames = .ok (some parent) ∧
      DN.compose lib [.pair ava.1 ava.2.1, .dn parent] = .ok composed ∧
      (composed.eq lib.toNames dn = true ↔ dn.attributes.length = 1) := by
  have hparent := DN.parent_eq hprint hdn
  rw [if_pos hlen] at hparent
  have hrest : (lib.suffix dn (dn.len - 1)).rdns = rest := by
    unfold Names.suffix
    rw [show dn.len - (dn.len - 1) = 1 by omega, hrdns]
    rfl
  have hparts : composeRdns lib [.pair ava.1 ava.2.1, .dn (lib.suffix dn (dn.len - 1))] =
      .ok ([(ava.1, ava.2.1, avaString)] :: rest) := by
    rw [composeRdns, composeRdns, composeRdns, NamePart.rdns, hrest]
    show Except.ok ([(ava.1, ava.2.1, avaString)] :: (rest ++ [])) = _
    rw [List.append_nil]
  have hfirst : lib.ParsedRdn (ava :: rdn) := hdn.parsed _ (by rw [hrdns]; exact List.mem_cons_self)
  have hparsed : ∀ r ∈ [ava] :: rest, lib.ParsedRdn r := by
    intro r hr
    rcases List.mem_cons.mp hr with rfl | hr
    · exact hvalues.single _ hfirst ava List.mem_cons_self
    · exact hdn.parsed r (by rw [hrdns]; exact List.mem_cons_of_mem _ hr)
  have hcompose : DN.compose lib _ = .ok ⟨lib.dn2str ([ava] :: rest), [ava] :: rest⟩ :=
    DN.compose_ok hprint hvalues hparts rfl hparsed
  have hlength : dn.attributes.length = (ava :: rdn).length := by
    unfold DN.attributes
    rw [hrdns]
    exact List.length_map _
  refine ⟨_, _, hparent, hcompose, ?_⟩
  rw [hlength, DN.eq_iff hhash, DN.normalized_eq_iff, ← take_one_iff lib.toNames (List.cons_ne_nil _ _)]
  unfold Names.SameRdns
  rw [hrdns, List.forall₂_cons, List.forall₂_same]
  exact and_iff_left fun _ _ => rfl

end

/-- A name is composed again from the `rdn` of each name that its walk yields, the longest first,
exactly if each of these names has one attribute; and it is composed from its own `attribute` and
`value` and from its parent exactly if it has one attribute itself. -/
theorem dn_components {lib : Modlists ω} (hprint : lib.RoundTrips) (hhash : lib.NoCollision)
    (hempty : lib.str2dn [] = .ok []) (hvalues : lib.PrintsValues) {dn : DN} (hdn : lib.Plain dn) :
    (∃ walked composed, dn.walk lib.toNames none = (walked, none) ∧
      DN.compose lib (rdnParts walked.reverse) = .ok composed ∧
      (composed.eq lib.toNames dn = true ↔ ∀ x ∈ walked, x.attributes.length = 1)) ∧
    (1 < dn.len → ∃ attr value parent composed, dn.attribute_ = some attr ∧ dn.value = some value ∧
      dn.parent lib.toNames = .ok (some parent) ∧
      DN.compose lib [.pair attr value, .dn parent] = .ok composed ∧
      (composed.eq lib.toNames dn = true ↔ dn.attributes.length = 1)) := by
  refine ⟨DN.compose_walk hprint hhash hvalues hdn hempty, fun hlen => ?_⟩
  obtain ⟨rdn, rest, hrdns⟩ := List.exists_cons_of_length_pos (show 0 < dn.rdns.length from by
    show 0 < dn.len
    omega)
  have hrdn : lib.ParsedRdn rdn := hdn.parsed rdn (by rw [hrdns]; exact List.mem_cons_self)
  obtain ⟨ava, values, rfl⟩ := List.exists_cons_of_ne_nil (hvalues.parsed rdn hrdn)
  obtain ⟨parent, composed, hparent, hcompose, hiff⟩ :=
    DN.compose_parent hprint hhash hvalues hdn hrdns hlen
  obtain ⟨hattribute, hvalue⟩ := dn.components_head
  refine ⟨ava.1, ava.2.1, parent, composed, ?_, ?_, hparent, hcompose, hiff⟩
  · rw [hattribute, DN.attributes, hrdns]
    rfl
  · rw [hvalue, DN.values, hrdns]
    rfl

theorem simpleLib_printsValues : simpleLib.PrintsValues where
  types rdns rdns' h := by
    have hprint (rdns : List (List Ava)) : printRdns rdns =
        List.intercalate (py ",") ((rdns.map fun rdn => rdn.map fun ava => (ava.1, ava.2.1)).map fun rdn =>
          List.intercalate (py "+") (rdn.map fun pair => pair.1 ++ '='.toNat :: pair.2)) := by
      unfold printRdns
      rw [List.map_map]
      simp only [Function.comp_def, List.map_map]
      rfl
    show printRdns rdns = printRdns rdns'
    rw [hprint, hprint, h]
  parsed rdn hrdn := (simpleNames_parsed hrdn).1
  single rdn hrdn ava hava := by
    have hsimple := (simpleNames_parsed hrdn).2 ava hava
    refine ⟨⟨printRdns [[ava]], [[ava]], ?_, List.mem_cons_self⟩, fun ava' hava' => ?_⟩
    · refine readRdns_printRdns fun rdn hrdn => ?_
      rw [List.mem_singleton.mp hrdn]
      refine ⟨List.cons_ne_nil _ _, fun ava' hava' => ?_⟩
      rw [List.mem_singleton.mp hava']
      exact hsimple
    · rw [List.mem_singleton.mp hava', hsimple.type]
      decide

/-- A name whose first RDN has two values is composed otherwise from its components. -/
theorem dn_components_two_values : ∃ dn attr value parent composed,
    DN.init simpleLib.toEnv (py "cn=foo+uid=bar,dc=org") = .ok dn ∧ dn.attribute_ = some attr ∧
      dn.value = some value ∧ dn.parent simpleLib.toNames = .ok (some parent) ∧
      DN.compose simpleLib [.pair attr value, .dn parent] = .ok composed ∧
      composed.eq simpleLib.toNames dn = false := by
  let dn : DN := ⟨py "cn=foo+uid=bar,dc=org",
    [[(py "cn", py "foo", 1), (py "uid", py "bar", 1)], [(py "dc", py "org", 1)]]⟩
  have hdn : simpleLib.Plain dn := ⟨⟨py "cn=foo+uid=bar,dc=org", rfl⟩, by decide⟩
  obtain ⟨-, hhead⟩ := dn_components simpleNames_roundTrips simpleNames_noCollision rfl
    simpleLib_printsValues hdn
  obtain ⟨attr, value, parent, composed, hattr, hvalue, hparent, hcompose, hiff⟩ := hhead (by decide)
  refine ⟨dn, attr, value, parent, composed, rfl, hattr, hvalue, hparent, hcompose, ?_⟩
  rw [Bool.eq_false_iff, Ne, hiff]
  decide

end FreeIam.Ldap
