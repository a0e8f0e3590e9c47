import FreeIam.Ldap.Concatenation
import FreeIam.Lib.KeyedSet

/-!
# Sets of names

`DN.get_unique` collects the names of texts in a Python set, and `DN.get_unique_str`
prints the members of one. Names of one set differ in more than the order inside their
RDNs and letter case.
-/

namespace FreeIam.Ldap

open FreeIam.Py FreeIam.Errors

variable {ω : Type}

/-! ## The class methods -/

/-- A Python set of names: they are equal when their hashes are. -/
abbrev DnSet (names : Names ω) : Type := KeyedSet fun dn : DN => dn.hash names

section

variable (lib : Modlists ω)

/-- `DN.get_unique` -/
def DN.getUnique (dns : List PyStr) : Except PyExc (DnSet lib.toNames) :=
  dns.foldlM (fun set dn => return set.add (← DN.init lib.toEnv dn)) KeyedSet.empty

/-- `DN.get_unique_str` -/
def DN.getUniqueStr (dns : List DN) : KeyedSet (id : PyStr → PyStr) :=
  KeyedSet.ofList (dns.map fun dn => DN.str lib (.dn dn))

/-- `DN.normalize` -/
def DN.normalize (dn : DnArg) : Except PyExc PyStr := do
  let dn ← DN.get lib.toNames dn
  return DN.str lib (.dn dn)

/-- The first of the texts that is no name, and what is raised for it. -/
def FirstInvalid (texts : List PyStr) (e : PyExc) : Prop :=
  ∃ valid text rest, texts = valid ++ text :: rest ∧
    (∀ t ∈ valid, ∃ dn, DN.init lib.toEnv t = .ok dn) ∧ DN.init lib.toEnv text = .error e

/-- One member for each of the names that the texts are read as, up to the order inside
the RDNs and letter case. -/
structure OneOfEach (texts : List PyStr) (set : DnSet lib.toNames) : Prop where
  read : ∀ dn ∈ set.members, ∃ text ∈ texts, DN.init lib.toEnv text = .ok dn
  one : ∀ text ∈ texts, ∃ dn, DN.init lib.toEnv text = .ok dn ∧
    ∃ m ∈ set.members, lib.SameRdns m dn ∧ ∀ m' ∈ set.members, lib.SameRdns m' dn → m' = m

end

variable {lib : Modlists ω}

/-! ## Reading the texts -/

/-- The texts and the names that they are read as. -/
def ReadAs (lib : Modlists ω) : List PyStr → List DN → Prop :=
  List.Forall₂ fun text dn => DN.init lib.toEnv text = .ok dn

/-- Reading goes on with the set that there is. -/
theorem foldlM_ok_iff {texts : List PyStr} {set set' : DnSet lib.toNames} :
    texts.foldlM (fun set dn => return set.add (← DN.init lib.toEnv dn)) set = .ok set' ↔
      ∃ dns, ReadAs lib texts dns ∧ set' = dns.foldl KeyedSet.add set := by
  induction texts generalizing set with
  | nil =>
    constructor
    · intro h
      cases h
      exact ⟨[], .nil, rfl⟩
    · rintro ⟨dns, hdns, rfl⟩
      cases hdns
      rfl
  | cons text texts ih =>
    rw [List.foldlM_cons]
    cases hinit : DN.init lib.toEnv text with
    | error e =>
      constructor
      · intro h
        cases h
      · rintro ⟨dns, hdns, -⟩
        cases hdns with
        | cons hdn _ => rw [hinit] at hdn; cases hdn
    | ok dn =>
      refine Iff.trans ih ⟨?_, ?_⟩
      · rintro ⟨dns, hdns, rfl⟩
        exact ⟨dn :: dns, .cons hinit hdns, rfl⟩
      · rintro ⟨dns, hdns, rfl⟩
        cases hdns with
        | cons hdn hdns =>
          rw [hinit] at hdn
          cases hdn
          exact ⟨_, hdns, rfl⟩

theorem foldlM_error_iff {texts : List PyStr} {set : DnSet lib.toNames} {e : PyExc} :
    texts.foldlM (fun set dn => return set.add (← DN.init lib.toEnv dn)) set = .error e ↔
      FirstInvalid lib texts e := by
  induction texts generalizing set with
  | nil =>
    constructor
    · intro h
      cases h
    · rintro ⟨valid, text, rest, h, -⟩
      exact absurd h.symm (List.append_ne_nil_of_right_ne_nil _ (List.cons_ne_nil _ _))
  | cons text texts ih =>
    rw [List.foldlM_cons]
    cases hinit : DN.init lib.toEnv text with
    | error e' =>
      constructor
      · intro h
        cases h
        exact ⟨[], text, texts, rfl, fun t ht => absurd ht List.not_mem_nil, hinit⟩
      · rintro ⟨valid, text', rest, h, hvalid, herror⟩
        cases valid with
        | nil =>
          cases h
          rw [hinit] at herror
          cases herror
          rfl
        | cons t valid =>
          cases h
          obtain ⟨dn, hdn⟩ := hvalid text List.mem_cons_self
          rw [hinit] at hdn
          cases hdn
    | ok dn =>
      refine Iff.trans ih ⟨?_, ?_⟩
      · rintro ⟨valid, text', rest, rfl, hvalid, herror⟩
        refine ⟨text :: valid, text', rest, rfl, fun t ht => ?_, herror⟩
        rcases List.mem_cons.mp ht with rfl | ht
        · exact ⟨dn, hinit⟩
        · exact hvalid t ht
      · rintro ⟨valid, text', rest, h, hvalid, herror⟩
        cases valid with
        | nil =>
          cases h
          rw [hinit] at herror
          cases herror
        | cons t valid =>
          cases h
          exact ⟨valid, text', rest, rfl, fun t ht => hvalid t (List.mem_cons_of_mem _ ht), herror⟩

/-- The set of the texts is the set of the names that they are read as. -/
theorem DN.getUnique_ok_iff {texts : List PyStr} {set : DnSet lib.toNames} :
    DN.getUnique lib texts = .ok set ↔ ∃ dns, ReadAs lib texts dns ∧ set = KeyedSet.ofList dns :=
  foldlM_ok_iff

theorem ReadAs.mem_left {texts : List PyStr} {dns : List DN} (h : ReadAs lib texts dns) {text : PyStr}
    (htext : text ∈ texts) : ∃ dn ∈ dns, DN.init lib.toEnv text = .ok dn := by
  induction h with
  | nil => cases htext
  | cons hdn _ ih =>
    rcases List.mem_cons.mp htext with rfl | htext
    · exact ⟨_, List.mem_cons_self, hdn⟩
    · obtain ⟨dn, hmem, hinit⟩ := ih htext
      exact ⟨dn, List.mem_cons_of_mem _ hmem, hinit⟩

theorem ReadAs.mem_right {texts : List PyStr} {dns : List DN} (h : ReadAs lib texts dns) {dn : DN}
    (hdn : dn ∈ dns) : ∃ text ∈ texts, DN.init lib.toEnv text = .ok dn := by
  induction h with
  | nil => cases hdn
  | cons hinit _ ih =>
    rcases List.mem_cons.mp hdn with rfl | hdn
    · exact ⟨_, List.mem_cons_self, hinit⟩
    · obtain ⟨text, hmem, hinit⟩ := ih hdn
      exact ⟨text, List.mem_cons_of_mem _ hmem, hinit⟩

/-- The same texts in another order are read as the same names in that order. -/
theorem ReadAs.perm {texts texts' : List PyStr} {dns : List DN} (h : ReadAs lib texts dns)
    (hperm : texts'.Perm texts) : ∃ dns', ReadAs lib texts' dns' ∧ dns'.Perm dns := by
  obtain ⟨dns', hperm', hread⟩ := List.perm_comp_forall₂ hperm h
  exact ⟨dns', hperm', hread⟩

/-! ## The members -/

theorem DN.hash_eq_iff (hhash : lib.NoCollision) {a b : DN} :
    a.hash lib.toNames = b.hash lib.toNames ↔ lib.SameRdns a b := by
  rw [← DN.normalized_eq_iff, ← DN.eq_iff hhash]
  exact beq_iff_eq.symm

theorem ReadAs.oneOfEach (hhash : lib.NoCollision) {texts : List PyStr} {dns : List DN}
    (h : ReadAs lib texts dns) : OneOfEach lib texts (KeyedSet.ofList dns) where
  read dn hdn := h.mem_right (KeyedSet.mem_of_mem_ofList hdn)
  one text htext := by
    obtain ⟨dn, hmem, hinit⟩ := h.mem_left htext
    refine ⟨dn, hinit, ?_⟩
    have hkey : dn.hash lib.toNames ∈ (KeyedSet.ofList dns : DnSet lib.toNames).keys :=
      (KeyedSet.mem_keys_ofList dns _).mpr (List.mem_map_of_mem hmem)
    obtain ⟨m, hm, hsame⟩ := KeyedSet.mem_keys.mp hkey
    refine ⟨m, hm, (DN.hash_eq_iff hhash).mp hsame, fun m' hm' hsame' => ?_⟩
    exact KeyedSet.member_unique hm' hm (((DN.hash_eq_iff hhash).mpr hsame').trans hsame.symm)

/-- The keys of a set are the hashes of the names that the texts are read as. -/
theorem ReadAs.mem_keys (hhash : lib.NoCollision) {texts : List PyStr} {dns : List DN}
    (h : ReadAs lib texts dns) (dn : DN) :
    dn.hash lib.toNames ∈ (KeyedSet.ofList dns : DnSet lib.toNames).keys ↔
      ∃ text ∈ texts, ∃ dn', DN.init lib.toEnv text = .ok dn' ∧ lib.SameRdns dn dn' := by
  rw [KeyedSet.mem_keys_ofList, List.mem_map]
  constructor
  · rintro ⟨dn', hmem, hsame⟩
    obtain ⟨text, htext, hinit⟩ := h.mem_right hmem
    exact ⟨text, htext, dn', hinit, (DN.hash_eq_iff hhash).mp hsame.symm⟩
  · rintro ⟨text, htext, dn', hinit, hsame⟩
    obtain ⟨dn'', hmem, hinit'⟩ := h.mem_left htext
    rw [hinit] at hinit'
    cases hinit'
    exact ⟨dn', hmem, ((DN.hash_eq_iff hhash).mpr hsame).symm⟩

/-! ## Printing the members -/

/-- A plain name is read back from its own text. -/
theorem DN.init_str (hprint : lib.RoundTrips) {dn : DN} (hdn : lib.Plain dn) :
    DN.init lib.toEnv (DN.str lib (.dn dn)) = .ok ⟨DN.str lib (.dn dn), dn.rdns⟩ :=
  DN.init_dn2str hprint hdn.parsed

/-- What is printed is normal already. -/
theorem DN.normalize_str (hprint : lib.RoundTrips) {dn : DN} (hdn : lib.Plain dn) :
    DN.normalize lib (.text (DN.str lib (.dn dn))) = .ok (DN.str lib (.dn dn)) := by
  unfold DN.normalize
  show (do
    let read ← DN.init lib.toEnv (DN.str lib (.dn dn))
    return DN.str lib (.dn read) : Except PyExc PyStr) = _
  rw [DN.init_str hprint hdn]
  rfl

/-- The same RDNs are printed alike, and no others. -/
theorem DN.str_inj (hprint : lib.RoundTrips) {a b : DN} (ha : lib.Plain a) (hb : lib.Plain b) :
    DN.str lib (.dn a) = DN.str lib (.dn b) ↔ a.rdns = b.rdns := by
  constructor
  · intro h
    have hinit := DN.init_str hprint ha
    rw [h, DN.init_str hprint hb] at hinit
    injection hinit with hdn
    exact (congrArg DN.rdns hdn).symm
  · intro h
    show lib.dn2str a.rdns = lib.dn2str b.rdns
    rw [h]

section Printed

variable (hprint : lib.RoundTrips) {set : DnSet lib.toNames} (hplain : ∀ dn ∈ set.members, lib.Plain dn)

include hprint hplain

/-- No two members are printed alike. -/
theorem DN.nodup_str : ((set.members.map fun dn => DN.str lib (.dn dn)).map id).Nodup := by
  rw [List.map_id]
  have hmembers : set.members.Nodup := List.Nodup.of_map _ set.distinct
  refine hmembers.map_on fun a ha b hb h => KeyedSet.member_unique ha hb ?_
  have hrdns := (DN.str_inj hprint (hplain a ha) (hplain b hb)).mp h
  unfold DN.hash DN.normalized
  rw [hrdns]

theorem DN.members_getUniqueStr :
    (DN.getUniqueStr lib set.members).members = set.members.map fun dn => DN.str lib (.dn dn) :=
  KeyedSet.members_ofList (DN.nodup_str hprint hplain)

/-- The printed members are read back as an equal set. -/
theorem DN.getUnique_getUniqueStr :
    ∃ set', DN.getUnique lib (DN.getUniqueStr lib set.members).members = .ok set' ∧ set'.Same set := by
  rw [DN.members_getUniqueStr hprint hplain]
  refine ⟨_, DN.getUnique_ok_iff.mpr
    ⟨set.members.map fun dn => ⟨DN.str lib (.dn dn), dn.rdns⟩, ?_, rfl⟩, fun k => ?_⟩
  · unfold ReadAs
    rw [List.forall₂_map_left_iff, List.forall₂_map_right_iff, List.forall₂_same]
    exact fun dn hdn => DN.init_str hprint (hplain dn hdn)
  · rw [KeyedSet.mem_keys_ofList, List.map_map]
    rfl

end Printed

/-! ## The law -/

/-- A set of names has one member for each name that is meant, in whatever order the
texts come; a difference leaves those that no text of the other means; and its texts
are read back as the set. -/
theorem unique_dns (hprint : lib.RoundTrips) (hhash : lib.NoCollision) (texts : List PyStr) :
    (∀ e, DN.getUnique lib texts = .error e ↔ FirstInvalid lib texts e) ∧
      ∀ set, DN.getUnique lib texts = .ok set →
        OneOfEach lib texts set ∧
        (∀ texts', texts'.Perm texts →
          ∃ set', DN.getUnique lib texts' = .ok set' ∧ set'.Same set) ∧
        (∀ texts' other, DN.getUnique lib texts' = .ok other → ∀ dn, dn ∈ (set.diff other).members ↔
          dn ∈ set.members ∧ ∀ text ∈ texts', ∀ dn', DN.init lib.toEnv text = .ok dn' →
            ¬lib.SameRdns dn dn') ∧
        ((∀ dn ∈ set.members, lib.Plain dn) →
          (DN.getUniqueStr lib set.members).members = set.members.map (fun dn => DN.str lib (.dn dn)) ∧
          (∀ text ∈ (DN.getUniqueStr lib set.members).members, DN.normalize lib (.text text) = .ok text) ∧
          ∃ set', DN.getUnique lib (DN.getUniqueStr lib set.members).members = .ok set' ∧
            set'.Same set) := by
  refine ⟨fun e => foldlM_error_iff, fun set hset => ?_⟩
  obtain ⟨dns, hread, rfl⟩ := DN.getUnique_ok_iff.mp hset
  refine ⟨hread.oneOfEach hhash, fun texts' hperm => ?_, fun texts' other hother dn => ?_, fun hplain => ?_⟩
  · obtain ⟨dns', hread', hperm'⟩ := hread.perm hperm
    refine ⟨_, DN.getUnique_ok_iff.mpr ⟨dns', hread', rfl⟩, KeyedSet.same_ofList_iff.mpr fun k => ?_⟩
    exact (hperm'.map _).mem_iff
  · obtain ⟨dns', hread', rfl⟩ := DN.getUnique_ok_iff.mp hother
    rw [KeyedSet.mem_diff, hread'.mem_keys hhash]
    simp only [not_exists, not_and]
  · have hmembers := DN.members_getUniqueStr hprint hplain
    refine ⟨hmembers, fun text htext => ?_, DN.getUnique_getUniqueStr hprint hplain⟩
    rw [hmembers] at htext
    obtain ⟨dn, hdn, rfl⟩ := List.mem_map.mp htext
    exact DN.normalize_str hprint (hplain dn hdn)

/-- A user written in two ways, and the parent. -/
theorem unique_dns_users :
    ∃ set, DN.getUnique simpleLib [py "CN=Users,dc=org", py "cn=users,dc=org", py "dc=org"] = .ok set ∧
      OneOfEach simpleLib [py "CN=Users,dc=org", py "cn=users,dc=org", py "dc=org"] set ∧
      ∃ set', DN.getUnique simpleLib [py "dc=org", py "cn=users,dc=org", py "CN=Users,dc=org"] = .ok set' ∧
        set'.Same set := by
  let user : DN := ⟨py "CN=Users,dc=org", [[(py "CN", py "Users", 1)], [(py "dc", py "org", 1)]]⟩
  let user' : DN := ⟨py "cn=users,dc=org", [[(py "cn", py "users", 1)], [(py "dc", py "org", 1)]]⟩
  let base : DN := ⟨py "dc=org", [[(py "dc", py "org", 1)]]⟩
  have hread : ReadAs simpleLib [py "CN=Users,dc=org", py "cn=users,dc=org", py "dc=org"]
      [user, user', base] := .cons rfl (.cons rfl (.cons rfl .nil))
  have hprint : simpleLib.RoundTrips := simpleNames_roundTrips
  have hhash : simpleLib.NoCollision := simpleNames_noCollision
  obtain ⟨-, hset⟩ := unique_dns hprint hhash
    [py "CN=Users,dc=org", py "cn=users,dc=org", py "dc=org"]
  have hunique := DN.getUnique_ok_iff.mpr ⟨_, hread, rfl⟩
  obtain ⟨hone, hperm, -⟩ := hset _ hunique
  exact ⟨_, hunique, hone, hperm _ (List.reverse_perm [py "CN=Users,dc=org", py "cn=users,dc=org", py "dc=org"])⟩

end FreeIam.Ldap
