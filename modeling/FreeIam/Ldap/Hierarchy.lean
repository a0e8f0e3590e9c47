import FreeIam.Ldap.Dn

/-!
# The hierarchy of names

`endswith`, `walk` and `get_parent` are three ways up the same tree. On a name
that was parsed each of them comes to its suffixes: the names of its last `n`
RDNs.
-/

namespace FreeIam.Ldap

open FreeIam.Py FreeIam.Errors

variable {ω : Type} {names : Names ω}

/-! ## Suffixes -/

/-- The name of the last `n` RDNs. -/
def Names.suffix (names : Names ω) (dn : DN) (n : Nat) : DN :=
  ⟨names.dn2str (dn.rdns.drop (dn.len - n)), dn.rdns.drop (dn.len - n)⟩

theorem Names.suffix_len (dn : DN) {n : Nat} (hn : n ≤ dn.len) : (names.suffix dn n).len = n := by
  show (dn.rdns.drop (dn.len - n)).length = n
  rw [List.length_drop]
  exact Nat.sub_sub_self hn

/-- A suffix of a suffix is one of the name. -/
theorem Names.suffix_suffix (dn : DN) {m n : Nat} (hm : m ≤ n) (hn : n ≤ dn.len) :
    names.suffix (names.suffix dn n) m = names.suffix dn m := by
  have hrdns : (names.suffix dn n).rdns.drop ((names.suffix dn n).len - m)
      = dn.rdns.drop (dn.len - m) := by
    rw [Names.suffix_len dn hn]
    show (dn.rdns.drop (dn.len - n)).drop (n - m) = _
    rw [List.drop_drop]
    congr 1
    omega
  rw [Names.suffix, hrdns, Names.suffix]

/-- All of the RDNs. -/
theorem Names.suffix_self (dn : DN) : (names.suffix dn dn.len).rdns = dn.rdns := by
  show dn.rdns.drop (dn.len - dn.len) = dn.rdns
  rw [Nat.sub_self, List.drop_zero]

/-- Equal names are of one length. -/
theorem DN.len_of_eq (hhash : names.NoCollision) {a b : DN} (h : a.eq names b = true) :
    a.len = b.len :=
  DN.len_eq ((DN.eq_iff hhash).mp h)

/-- The hash looks at the RDNs only. -/
theorem DN.eq_of_rdns {a b : DN} (h : a.rdns = b.rdns) : a.eq names b = true := by
  rw [DN.eq, DN.hash, DN.hash, DN.normalized, DN.normalized, h]
  exact beq_self_eq_true _

/-- The suffixes of a name from a length on, the shortest first. -/
def Names.suffixes (names : Names ω) (dn : DN) (least : Nat) : List DN :=
  (List.range' least (dn.len + 1 - least)).map (names.suffix dn)

theorem Names.suffixes_length (dn : DN) (least : Nat) :
    (names.suffixes dn least).length = dn.len + 1 - least := by
  rw [Names.suffixes, List.length_map, List.length_range']

theorem Names.suffixes_getElem (dn : DN) (least i : Nat) (hi : i < (names.suffixes dn least).length) :
    (names.suffixes dn least)[i] = names.suffix dn (least + i) := by
  simp [Names.suffixes]

/-- A base that the name ends with is not longer. -/
theorem DN.le_of_suffix_eq (hhash : names.NoCollision) {dn b : DN}
    (h : (names.suffix dn b.len).eq names b = true) : b.len ≤ dn.len := by
  have hlen := DN.len_of_eq hhash h
  have hdrop : (names.suffix dn b.len).len = dn.len - (dn.len - b.len) := List.length_drop
  omega

section

variable (hprint : names.RoundTrips)

include hprint

theorem DN.getSlice_drop {dn : DN} (hdn : names.Plain dn) (i : Nat) :
    dn.getSlice names (some (i : Int)) none = .ok ⟨names.dn2str (dn.rdns.drop i), dn.rdns.drop i⟩ := by
  rw [(DN.getSlice_plain hprint hdn _ _).1, slice_from]

/-- What is parsed from the printed suffix is a plain name. -/
theorem Names.Plain.suffix {dn : DN} (hdn : names.Plain dn) (n : Nat) :
    names.Plain (names.suffix dn n) :=
  Names.plain_dn2str hprint fun rdn hrdn => hdn.parsed rdn (List.mem_of_mem_drop hrdn)

/-- The slice that `endswith` takes, with its `or` for the empty name. -/
theorem DN.getSlice_suffixStart {dn : DN} (hdn : names.Plain dn) (other : DN) :
    dn.getSlice names (some (dn.suffixStart other)) none = .ok (names.suffix dn other.len) := by
  have hslice : slice dn.rdns (some (dn.suffixStart other)) none
      = dn.rdns.drop (dn.len - other.len) := by
    unfold DN.suffixStart
    split
    · rename_i hzero
      rw [hzero]
      exact slice_from dn.rdns dn.len
    · exact slice_last dn.rdns (by omega)
  rw [(DN.getSlice_plain hprint hdn _ _).1, hslice]
  rfl

theorem DN.endswith_eq {dn b : DN} {base : DnArg} (hdn : names.Plain dn)
    (hbase : DN.get names base = .ok b) :
    dn.endswith names base = .ok ((names.suffix dn b.len).eq names b) := by
  rw [DN.endswith, hbase]
  simp only [DN.getSlice_suffixStart hprint hdn b, bind, Except.bind, pure, Except.pure]

/-- The parent of a suffix is the next shorter one, down to the last RDN. -/
theorem DN.parent_eq {dn : DN} (hdn : names.Plain dn) :
    dn.parent names = .ok (if 1 < dn.len then some (names.suffix dn (dn.len - 1)) else none) := by
  unfold DN.parent
  by_cases hone : 1 < dn.len
  · have hindex : dn.len - (dn.len - 1) = 1 := by omega
    have hslice := DN.getSlice_drop hprint hdn 1
    rw [if_pos hone, if_pos hone]
    rw [Names.suffix, hindex]
    exact congrArg (Except.map some) hslice
  · rw [if_neg hone, if_neg hone]

/-! ## Climbing -/

variable (hhash : names.NoCollision)

include hhash

/-- From a suffix at or below the base the next step is the next shorter suffix, and
there is none from the base itself, or from the last RDN. -/
theorem DN.getParent_eq {dn b : DN} {base : DnArg} (hdn : names.Plain dn)
    (hbase : DN.get names base = .ok b) (hle : max 1 b.len ≤ dn.len)
    (hends : (names.suffix dn b.len).eq names b = true) :
    dn.getParent names base =
      .ok (if dn.len = max 1 b.len then none else some (names.suffix dn (dn.len - 1))) := by
  have hends' : dn.endswith names base = .ok true := by
    rw [DN.endswith_eq hprint hdn hbase, hends]
  have hparent := DN.parent_eq hprint hdn
  rw [DN.getParent, hends', hbase]
  simp only [bind, Except.bind, Bool.not_true, Bool.false_eq_true, if_false]
  by_cases hself : dn.eq names b = true
  · -- the base itself: it is not empty, as the name is not
    have hlen := DN.len_of_eq hhash hself
    have htop : dn.len = max 1 b.len := by omega
    rw [if_pos hself, if_pos htop]
    rfl
  · rw [if_neg hself, hparent]
    by_cases htop : dn.len = max 1 b.len
    · -- the base is empty: else the name would be its own suffix that equals the base
      have hone : ¬ 1 < dn.len := by
        intro hlt
        have hlen : b.len = dn.len := by omega
        rw [hlen] at hends
        refine hself ((DN.eq_iff hhash).mpr ?_)
        rw [← (DN.eq_iff hhash).mp hends, DN.normalized, DN.normalized, Names.suffix_self]
      rw [if_neg hone, if_pos htop]
    · rw [if_pos (by omega), if_neg htop]

omit hprint hhash in
/-- The suffixes of the next shorter suffix. -/
theorem Names.suffixes_pred (dn : DN) {least : Nat} (hlt : least < dn.len) :
    names.suffixes dn least
      = names.suffixes (names.suffix dn (dn.len - 1)) least ++ [names.suffix dn dn.len] := by
  have hcount : dn.len + 1 - least = (dn.len - 1 + 1 - least) + 1 := by omega
  have hlast : least + (dn.len - 1 + 1 - least) = dn.len := by omega
  have hsame : (List.range' least (dn.len - 1 + 1 - least)).map (names.suffix dn)
      = (List.range' least (dn.len - 1 + 1 - least)).map
          (names.suffix (names.suffix dn (dn.len - 1))) := by
    apply List.map_congr_left
    intro n hn
    have hbound := List.mem_range'_1.mp hn
    exact (Names.suffix_suffix dn (by omega) (by omega)).symm
  rw [Names.suffixes, hcount, List.range'_1_concat, List.map_append, hlast, hsame, Names.suffixes,
    Names.suffix_len dn (by omega)]
  rfl

end

/-- The chain of `get_parent` from a name to where it returns `None`. -/
inductive DN.Climb (names : Names ω) (base : DnArg) : DN → List DN → Prop
  | top {dn} : dn.getParent names base = .ok none → Climb names base dn [dn]
  | up {dn parent rest} : dn.getParent names base = .ok (some parent) →
      Climb names base parent rest → Climb names base dn (dn :: rest)

section

variable (hprint : names.RoundTrips) (hhash : names.NoCollision)

include hprint hhash

/-- The chain steps through the suffixes, from the name to the base. -/
theorem DN.climb_suffixes {b : DN} {base : DnArg} (hbase : DN.get names base = .ok b) :
    ∀ (k : Nat) (dn : DN), names.Plain dn → dn.len = max 1 b.len + k →
      (names.suffix dn b.len).eq names b = true →
      ∃ chain, DN.Climb names base dn chain ∧
        List.Forall₂ (fun x y => x.eq names y = true) chain
          (names.suffixes dn (max 1 b.len)).reverse := by
  intro k
  induction k with
  | zero =>
    intro dn hdn hlen hends
    have hstep := DN.getParent_eq hprint hhash hdn hbase (by omega) hends
    rw [if_pos (by omega)] at hstep
    refine ⟨[dn], .top hstep, ?_⟩
    have hcount : dn.len + 1 - max 1 b.len = 1 := by omega
    have hleast : max 1 b.len = dn.len := by omega
    rw [Names.suffixes, hcount, hleast]
    exact .cons (DN.eq_of_rdns (Names.suffix_self dn).symm) .nil
  | succ k ih =>
    intro dn hdn hlen hends
    have hstep := DN.getParent_eq hprint hhash hdn hbase (by omega) hends
    rw [if_neg (by omega)] at hstep
    have hshorter : (names.suffix dn (dn.len - 1)).len = max 1 b.len + k := by
      rw [Names.suffix_len dn (by omega)]
      omega
    obtain ⟨rest, hclimb, hsame⟩ := ih (names.suffix dn (dn.len - 1)) (hdn.suffix hprint _) hshorter
      (by rw [Names.suffix_suffix dn (by omega) (by omega)]; exact hends)
    refine ⟨dn :: rest, .up hstep hclimb, ?_⟩
    rw [Names.suffixes_pred dn (by omega), List.reverse_append]
    exact .cons (DN.eq_of_rdns (Names.suffix_self dn).symm) hsame

/-! ## The walk -/

omit hhash in
/-- The loop over the offsets yields the suffixes, the shortest first. -/
theorem DN.yields_suffixes {dn : DN} (hdn : names.Plain dn) :
    ∀ k, k ≤ dn.len + 1 → dn.yields names (List.range k).reverse
      = ((List.range' (dn.len + 1 - k) k).map (names.suffix dn), none) := by
  intro k
  induction k with
  | zero =>
    intro _
    rfl
  | succ k ih =>
    intro hk
    have hindex : dn.len - (dn.len + 1 - (k + 1)) = k := by omega
    have hnext : dn.len + 1 - (k + 1) + 1 = dn.len + 1 - k := by omega
    rw [List.range_succ, List.reverse_append, List.reverse_singleton, List.singleton_append, DN.yields,
      DN.getSlice_drop hprint hdn k, List.range'_succ, List.map_cons, hnext, Names.suffix, hindex,
      ih (by omega)]

omit hprint hhash in
/-- `base or ''` replaces an empty name by the one of the empty text. -/
theorem DN.get_orEmpty (hempty : names.str2dn [] = .ok []) {base : DnArg} {b : DN}
    (hbase : DN.get names base = .ok b) :
    ∃ b', DN.get names (DN.orEmpty (some base)) = .ok b' ∧ b'.rdns = b.rdns := by
  cases base with
  | text text => exact ⟨b, hbase, rfl⟩
  | dn dn =>
    cases hbase
    by_cases hzero : b.len = 0
    · refine ⟨⟨[], []⟩, ?_, (List.eq_nil_of_length_eq_zero hzero).symm⟩
      rw [DN.orEmpty, if_pos hzero, DN.get, DN.init, hempty]
    · refine ⟨b, ?_, rfl⟩
      rw [DN.orEmpty, if_neg hzero, DN.get]

theorem DN.walk_suffixes (hempty : names.str2dn [] = .ok []) {dn b : DN} {base : DnArg}
    (hdn : names.Plain dn) (hbase : DN.get names base = .ok b) (hne : 0 < dn.len) :
    dn.walk names (some base) =
      if (names.suffix dn b.len).eq names b then (names.suffixes dn (max 1 b.len), none)
      else ([], some (.valueError "DN does not end with given base")) := by
  obtain ⟨b', hget, hrdns⟩ := DN.get_orEmpty hempty hbase
  have hlen : b'.len = b.len := congrArg List.length hrdns
  have hends : dn.endswith names (.dn b') = .ok ((names.suffix dn b.len).eq names b) := by
    rw [DN.endswith_eq hprint hdn (b := b') rfl, hlen]
    rw [DN.eq, DN.eq, DN.hash, DN.hash, DN.hash, DN.normalized, DN.normalized, DN.normalized, hrdns]
  rw [DN.walk, hget]
  simp only [hends]
  cases hsuffix : (names.suffix dn b.len).eq names b with
  | false => simp only [Bool.false_eq_true, if_false]
  | true =>
    simp only [if_true]
    -- `len(base) or 1`
    have hleast : (if b'.len = 0 then 1 else b'.len) = max 1 b.len := by
      rw [hlen]
      split <;> omega
    have hle := DN.le_of_suffix_eq hhash hsuffix
    have hfirst : dn.len + 1 - (dn.len + 1 - max 1 b.len) = max 1 b.len := by omega
    rw [hleast, DN.yields_suffixes hprint hdn _ (by omega), hfirst, Names.suffixes]

end

/-! ## The law -/

/-- What a walk up to a base comes to, where the name ends with the base. -/
structure DN.Walked (names : Names ω) (dn b : DN) (base : DnArg) : Prop where
  suffixes : dn.walk names (some base) = (names.suffixes dn (max 1 b.len), none)
  parents : (dn.walk names (some base)).1.IsChain fun x y =>
    ∃ parent, y.parent names = .ok (some parent) ∧ parent.eq names x = true
  first : 0 < b.len → ∃ x, (dn.walk names (some base)).1.head? = some x ∧ x.eq names b = true
  last : ∃ x, (dn.walk names (some base)).1.getLast? = some x ∧ x.eq names dn = true
  climb : ∃ chain, DN.Climb names base dn chain ∧
    List.Forall₂ (fun x y => x.eq names y = true) chain (dn.walk names (some base)).1.reverse

theorem DN.walked (hprint : names.RoundTrips) (hhash : names.NoCollision)
    (hempty : names.str2dn [] = .ok []) {dn b : DN} {base : DnArg} (hdn : names.Plain dn)
    (hbase : DN.get names base = .ok b) (hne : 0 < dn.len)
    (hends : (names.suffix dn b.len).eq names b = true) : DN.Walked names dn b base := by
  have hwalk := DN.walk_suffixes hprint hhash hempty hdn hbase hne
  rw [if_pos hends] at hwalk
  have hle := DN.le_of_suffix_eq hhash hends
  have hlist : (dn.walk names (some base)).1 = names.suffixes dn (max 1 b.len) := by rw [hwalk]
  refine ⟨hwalk, ?_, ?_, ?_, ?_⟩
  · rw [hlist, List.isChain_iff_getElem]
    intro i hi
    rw [Names.suffixes_length] at hi
    rw [Names.suffixes_getElem, Names.suffixes_getElem]
    -- the suffix at the next place has one RDN more
    have hlen : (names.suffix dn (max 1 b.len + (i + 1))).len = max 1 b.len + (i + 1) :=
      Names.suffix_len dn (by omega)
    have hparent := DN.parent_eq hprint (hdn.suffix hprint (max 1 b.len + (i + 1)))
    rw [hlen, if_pos (by omega), Names.suffix_suffix dn (by omega) (by omega)] at hparent
    exact ⟨_, hparent, DN.eq_of_rdns rfl⟩
  · intro hb
    refine ⟨names.suffix dn b.len, ?_, hends⟩
    have hleast : max 1 b.len = b.len := by omega
    rw [hlist, List.head?_eq_getElem?, List.getElem?_eq_getElem (by rw [Names.suffixes_length]; omega),
      Names.suffixes_getElem, hleast]
    rfl
  · refine ⟨names.suffix dn dn.len, ?_, DN.eq_of_rdns (Names.suffix_self dn)⟩
    have hlast : max 1 b.len + (dn.len + 1 - max 1 b.len - 1) = dn.len := by omega
    rw [hlist, List.getLast?_eq_getElem?, Names.suffixes_length,
      List.getElem?_eq_getElem (by rw [Names.suffixes_length]; omega), Names.suffixes_getElem, hlast]
  · rw [hlist]
    exact DN.climb_suffixes hprint hhash hbase (dn.len - max 1 b.len) dn hdn (by omega) hends

/-- The suffix test holds of the bases that equal the last RDNs. A walk raises exactly
without it, and else yields the suffixes from the base to the name, which
`get_parent` climbs the other way. -/
theorem dn_hierarchy_agrees (hprint : names.RoundTrips) (hhash : names.NoCollision)
    (hempty : names.str2dn [] = .ok []) {dn b : DN} {base : DnArg} (hdn : names.Plain dn)
    (hbase : DN.get names base = .ok b) (hne : 0 < dn.len) :
    ∃ ends, dn.endswith names base = .ok ends ∧
      (ends = true ↔ names.SameRdns (names.suffix dn b.len) b) ∧
      (b.len = 0 → ends = true) ∧
      (ends = false ↔ (dn.walk names (some base)).2 =
        some (.valueError "DN does not end with given base")) ∧
      (ends = false → (dn.walk names (some base)).1 = []) ∧
      (ends = true → DN.Walked names dn b base) := by
  have hwalk := DN.walk_suffixes hprint hhash hempty hdn hbase hne
  refine ⟨(names.suffix dn b.len).eq names b, DN.endswith_eq hprint hdn hbase,
    (DN.eq_iff hhash).trans DN.normalized_eq_iff, ?_, ?_, ?_,
    DN.walked hprint hhash hempty hdn hbase hne⟩
  · intro hzero
    apply DN.eq_of_rdns
    rw [List.eq_nil_of_length_eq_zero hzero]
    show dn.rdns.drop (dn.len - b.len) = []
    rw [hzero]
    exact List.drop_length
  · rw [hwalk]
    cases (names.suffix dn b.len).eq names b <;> simp
  · intro hends
    rw [hwalk, hends]
    rfl

/-- Two steps to a base that is spelled otherwise. -/
theorem dn_hierarchy_agrees_two :
    ∃ dn b, DN.init simpleNames.toEnv (py "cn=foo,ou=bar,dc=org") = .ok dn ∧
      DN.get simpleNames (.text (py "DC=Org")) = .ok b ∧
      DN.Walked simpleNames dn b (.text (py "DC=Org")) := by
  let dn : DN := ⟨py "cn=foo,ou=bar,dc=org",
    [[(py "cn", py "foo", 1)], [(py "ou", py "bar", 1)], [(py "dc", py "org", 1)]]⟩
  let b : DN := ⟨py "DC=Org", [[(py "DC", py "Org", 1)]]⟩
  have hdn : simpleNames.Plain dn := ⟨⟨py "cn=foo,ou=bar,dc=org", rfl⟩, by decide⟩
  have hbase : DN.get simpleNames (.text (py "DC=Org")) = .ok b := by rfl
  obtain ⟨ends, -, hiff, -, -, -, hwalked⟩ := dn_hierarchy_agrees simpleNames_roundTrips
    simpleNames_noCollision rfl hdn hbase (by decide)
  have hsame : simpleNames.SameRdns (simpleNames.suffix dn b.len) b := by
    exact .cons (Multiset.coe_eq_coe.mpr (List.Perm.refl _)) .nil
  exact ⟨dn, b, rfl, hbase, hwalked (hiff.mpr hsame)⟩

end FreeIam.Ldap
