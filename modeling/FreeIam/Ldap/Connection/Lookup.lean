import FreeIam.Ldap.Connection.Schema

/-!
# Lookup of attributes

`Attributes` looks for a name as it is written, then for the name that the table of
aliases gives for it, in lower case. The table leads from the further names of a type to
the first one, and only from the letter case of the schema. So the type that a name means
does not decide what is found: the spelling of the name does, and the name under which the
mapping has the type.
-/

namespace FreeIam.Ldap

open FreeIam.Py FreeIam.Errors

section

variable {ω : Type} (lib : Schemata ω)

/-! ## Names of a type -/

/-- One of the names, in any letter case. -/
def Spells (names : List PyStr) (key : PyStr) : Prop :=
  ∃ name ∈ names, lib.lower key = lib.lower name

/-- The keys name different attribute types. -/
def Attributes.Distinct (schema : Schema) (self : Attributes) : Prop :=
  ∀ names ∈ schema.attributes, ∀ item ∈ self.items, ∀ item' ∈ self.items,
    Spells lib names item.1 → Spells lib names item'.1 → item.1 = item'.1

/-- `Attributes.set_schema`, on `Attributes.ALIASES`. -/
def Attributes.setSchema (aliases : List (PyStr × PyStr)) (schema : Schema) : List (PyStr × PyStr) :=
  aliases ++ schema.getAttributeAliases

/-- `ALIASES.get(key, key)` -/
def unalias (aliases : List (PyStr × PyStr)) (key : PyStr) : PyStr := (dictGet aliases key).getD key

/-- What the lookup compares the name with: the key itself, or, with the alias resolved,
the key in lower case. -/
def Meets (aliases : List (PyStr × PyStr)) (name key : PyStr) : Prop :=
  name = key ∨ lib.lower (unalias aliases name) = lib.lower key

variable {lib}

theorem Spells.of_lower {names : List PyStr} {key key' : PyStr} (h : Spells lib names key)
    (hlower : lib.lower key' = lib.lower key) : Spells lib names key' := by
  obtain ⟨name, hname, hkey⟩ := h
  exact ⟨name, hname, hlower.trans hkey⟩

/-! ## One lookup -/

theorem Attributes.getItem_key {self : Attributes} {key : PyStr} {value : AttributeValue}
    (h : dictGet self.items key = some value) (aliases : List (PyStr × PyStr)) :
    self.getItem lib aliases key = .ok value := by
  unfold Attributes.getItem
  rw [h]

/-- A name that is no key is looked for in lower case. -/
theorem Attributes.getItem_other {self : Attributes} {key : PyStr}
    (h : dictGet self.items key = none) (aliases : List (PyStr × PyStr)) :
    self.getItem lib aliases key =
      match dictGet (self.items.map fun item => (lib.lower item.1, item.2))
        (lib.lower (unalias aliases key)) with
      | none => .error .keyError
      | some value => .ok value := by
  unfold Attributes.getItem
  rw [h]
  rfl

/-- A name that meets no key of its type gets nothing, as long as the table keeps it within
the type. -/
theorem Attributes.getItem_of_not_meets {names : List PyStr} {self : Attributes}
    {aliases : List (PyStr × PyStr)} {name : PyStr} (hname : Spells lib names name)
    (hwithin : Spells lib names (unalias aliases name))
    (hmeets : ∀ item ∈ self.items, Spells lib names item.1 → ¬ Meets lib aliases name item.1) :
    self.getItem lib aliases name = .error .keyError := by
  have hown : dictGet self.items name = none := by
    refine dictGet_eq_none fun item hitem heq => ?_
    exact hmeets item hitem (heq ▸ hname) (.inl heq.symm)
  have hnone : dictGet (self.items.map fun item => (lib.lower item.1, item.2))
      (lib.lower (unalias aliases name)) = none := by
    refine dictGet_eq_none fun item hitem heq => ?_
    obtain ⟨item', hitem', rfl⟩ := List.mem_map.mp hitem
    exact hmeets item' hitem' (hwithin.of_lower heq) (.inr heq.symm)
  rw [Attributes.getItem_other hown, hnone]

section Found

variable {schema : Schema} {names : List PyStr} (hnames : names ∈ schema.attributes)
  {self : Attributes} (hdistinct : self.Distinct lib schema) {aliases : List (PyStr × PyStr)}
  {name : PyStr} (hname : Spells lib names name)
include hnames hdistinct hname

/-- A name that meets the key of its type gets what is under it. -/
theorem Attributes.getItem_of_meets {key : PyStr} {value : AttributeValue}
    (hvalue : dictGet self.items key = some value) (hkey : Spells lib names key)
    (hmeets : Meets lib aliases name key) : self.getItem lib aliases name = .ok value := by
  have hmem : (key, value) ∈ self.items := dictGet_mem hvalue
  cases hown : dictGet self.items name with
  | some other =>
    have hsame : name = key :=
      hdistinct names hnames (name, other) (dictGet_mem hown) (key, value) hmem hname hkey
    rw [hsame]
    exact Attributes.getItem_key hvalue aliases
  | none =>
    have hlower : lib.lower (unalias aliases name) = lib.lower key := by
      rcases hmeets with rfl | hlower
      · rw [hown] at hvalue
        cases hvalue
      · exact hlower
    -- the key is the only one in its letter case
    have honly : ∀ item ∈ self.items, lib.lower item.1 = lib.lower key → item.1 = key :=
      fun item hitem heq =>
        hdistinct names hnames item hitem (key, value) hmem (hkey.of_lower heq) hkey
    rw [Attributes.getItem_other hown, hlower, dictGet_mapKey lib.lower honly, hvalue]

end Found

/-! ## Two lookups -/

section Pair

variable {schema : Schema} {names : List PyStr} (hnames : names ∈ schema.attributes)
  {self : Attributes} (hdistinct : self.Distinct lib schema) {aliases : List (PyStr × PyStr)}
  {name name' : PyStr} (hname : Spells lib names name) (hname' : Spells lib names name')
include hnames hdistinct hname hname'

/-- Where one name meets a key of the type and the results are the same, the other
one meets it too. -/
theorem Attributes.meets_of_eq (hwithin' : Spells lib names (unalias aliases name'))
    (heq : self.getItem lib aliases name = self.getItem lib aliases name')
    {item : PyStr × AttributeValue} (hitem : item ∈ self.items) (hkey : Spells lib names item.1)
    (hmeets : Meets lib aliases name item.1) : Meets lib aliases name' item.1 := by
  obtain ⟨value, hvalue⟩ := Option.isSome_iff_exists.mp (dictGet_isSome (k := item.1) (a := item.2) hitem)
  have hok := Attributes.getItem_of_meets hnames hdistinct hname hvalue hkey hmeets
  by_contra hnot
  have herror : self.getItem lib aliases name' = .error .keyError := by
    refine Attributes.getItem_of_not_meets hname' hwithin' fun item' hitem' hkey' => ?_
    rw [hdistinct names hnames item' hitem' item hitem hkey' hkey]
    exact hnot
  rw [heq, herror] at hok
  cases hok

/-- Two names of a type have one result exactly if they meet the same key of the type. -/
theorem Attributes.getItem_eq_iff (hwithin : Spells lib names (unalias aliases name))
    (hwithin' : Spells lib names (unalias aliases name')) :
    self.getItem lib aliases name = self.getItem lib aliases name' ↔
      ∀ item ∈ self.items, Spells lib names item.1 →
        (Meets lib aliases name item.1 ↔ Meets lib aliases name' item.1) := by
  constructor
  · intro heq item hitem hkey
    exact ⟨Attributes.meets_of_eq hnames hdistinct hname hname' hwithin' heq hitem hkey,
      Attributes.meets_of_eq hnames hdistinct hname' hname hwithin heq.symm hitem hkey⟩
  · intro hiff
    by_cases hfound : ∃ item ∈ self.items, Spells lib names item.1 ∧ Meets lib aliases name item.1
    · obtain ⟨item, hitem, hkey, hmeets⟩ := hfound
      obtain ⟨value, hvalue⟩ :=
        Option.isSome_iff_exists.mp (dictGet_isSome (k := item.1) (a := item.2) hitem)
      rw [Attributes.getItem_of_meets hnames hdistinct hname hvalue hkey hmeets,
        Attributes.getItem_of_meets hnames hdistinct hname' hvalue hkey ((hiff item hitem hkey).mp hmeets)]
    · have hnone : ∀ item ∈ self.items, Spells lib names item.1 → ¬ Meets lib aliases name item.1 :=
        fun item hitem hkey hmeets => hfound ⟨item, hitem, hkey, hmeets⟩
      rw [Attributes.getItem_of_not_meets hname hwithin hnone,
        Attributes.getItem_of_not_meets hname' hwithin' fun item hitem hkey hmeets =>
          hnone item hitem hkey ((hiff item hitem hkey).mpr hmeets)]

end Pair

/-! ## All mappings -/

variable (lib) in
/-- In every mapping, what is found depends on the type only. -/
def Alike (schema : Schema) (aliases : List (PyStr × PyStr)) (names : List PyStr) : Prop :=
  ∀ self : Attributes, self.Distinct lib schema → ∀ name name', Spells lib names name →
    Spells lib names name' → self.getItem lib aliases name = self.getItem lib aliases name'

/-- So it is exactly if the table makes of each spelling every other one, up to case. -/
theorem alike_iff {schema : Schema} {names : List PyStr} (hnames : names ∈ schema.attributes)
    (aliases : List (PyStr × PyStr)) :
    Alike lib schema aliases names ↔
      ∀ name name', Spells lib names name → Spells lib names name' → name ≠ name' →
        lib.lower (unalias aliases name) = lib.lower name' := by
  constructor
  · intro halike name name' hname hname' hne
    -- a mapping that has the other spelling only
    let self : Attributes := ⟨[(name', .text [])]⟩
    have hdistinct : self.Distinct lib schema := by
      intro names _ item hitem item' hitem' _ _
      rw [List.mem_singleton.mp hitem, List.mem_singleton.mp hitem']
    have hvalue : dictGet self.items name' = some (.text []) := by
      show dictGet [(name', AttributeValue.text [])] name' = _
      rw [dictGet_cons, if_pos rfl]
      rfl
    have hfound : self.getItem lib aliases name = .ok (.text []) := by
      rw [halike self hdistinct name name' hname hname', Attributes.getItem_key hvalue]
    by_contra hlower
    have hnone : dictGet self.items name = none :=
      dictGet_eq_none fun item hitem heq => by
        rw [List.mem_singleton.mp hitem] at heq
        exact hne heq.symm
    have hmissing : dictGet (self.items.map fun item => (lib.lower item.1, item.2))
        (lib.lower (unalias aliases name)) = none :=
      dictGet_eq_none fun item hitem heq => by
        rw [List.mem_singleton.mp hitem] at heq
        exact hlower heq.symm
    rw [Attributes.getItem_other hnone, hmissing] at hfound
    cases hfound
  · intro hcond self hdistinct name name' hname hname'
    by_cases hne : name = name'
    · rw [hne]
    have hlower := hcond name name' hname hname' hne
    have hlower' := hcond name' name hname' hname (Ne.symm hne)
    have hmeets : ∀ x, Spells lib names x → ∀ key, Spells lib names key → Meets lib aliases x key := by
      intro x hx key hkey
      by_cases heq : x = key
      · exact .inl heq
      · exact .inr (hcond x key hx hkey heq)
    refine (Attributes.getItem_eq_iff hnames hdistinct hname hname' (hname'.of_lower hlower)
      (hname.of_lower hlower')).mpr fun item _ hkey => ?_
    exact iff_of_true (hmeets name hname item.1 hkey) (hmeets name' hname' item.1 hkey)

/-! ## The table of a schema -/

theorem Schema.mem_getAttributeAliases {schema : Schema} {other first : PyStr} :
    (other, first) ∈ schema.getAttributeAliases ↔
      ∃ further, first :: further ∈ schema.attributes ∧ other ∈ further := by
  unfold Schema.getAttributeAliases
  rw [List.mem_flatMap]
  constructor
  · rintro ⟨names, hnames, hmem⟩
    cases names with
    | nil => cases hmem
    | cons name further =>
      obtain ⟨other', hother, heq⟩ := List.mem_map.mp hmem
      cases heq
      exact ⟨further, hnames, hother⟩
  · rintro ⟨further, hnames, hother⟩
    exact ⟨first :: further, hnames, List.mem_map.mpr ⟨other, hother, rfl⟩⟩

variable (lib) in
/-- No other type of the schema has a name of the type, and the table so far has none. -/
structure Schema.Owns (schema : Schema) (earlier : List (PyStr × PyStr)) (names : List PyStr) :
    Prop where
  others : ∀ names' ∈ schema.attributes, ∀ name ∈ names', Spells lib names name → names' = names
  earlier : ∀ item ∈ earlier, ¬ Spells lib names item.1

variable (lib) in
/-- The name is the key. Or it is a further name of the type as the schema spells it, and
the key is the first name up to case. Or else it is the key up to case. -/
def Finds (first : PyStr) (further : List PyStr) (name key : PyStr) : Prop :=
  name = key ∨ (name ∈ further ∧ lib.lower first = lib.lower key) ∨
    (name ∉ further ∧ lib.lower name = lib.lower key)

section Owned

variable {schema : Schema} {first : PyStr} {further : List PyStr}
  (htype : first :: further ∈ schema.attributes) {earlier : List (PyStr × PyStr)}
  (howns : schema.Owns lib earlier (first :: further))
include htype howns

/-- A further name in the letter case of the schema becomes the first one, everything else
stays. -/
theorem Schema.Owns.unalias_eq {name : PyStr} (hname : Spells lib (first :: further) name) :
    unalias (Attributes.setSchema earlier schema) name = if name ∈ further then first else name := by
  have hearlier : dictGet earlier name = none := by
    refine dictGet_eq_none fun item hitem heq => howns.earlier item hitem ?_
    rw [heq]
    exact hname
  have htable : ∀ first', (name, first') ∈ schema.getAttributeAliases → first' = first ∧ name ∈ further := by
    intro first' hmem
    obtain ⟨further', htype', hother⟩ := Schema.mem_getAttributeAliases.mp hmem
    have hsame := howns.others _ htype' name (List.mem_cons_of_mem _ hother) hname
    cases hsame
    exact ⟨rfl, hother⟩
  unfold unalias Attributes.setSchema
  rw [dictGet_append, hearlier, Option.or_none]
  by_cases hfurther : name ∈ further
  · rw [if_pos hfurther]
    have hmem : (name, first) ∈ schema.getAttributeAliases :=
      Schema.mem_getAttributeAliases.mpr ⟨further, htype, hfurther⟩
    obtain ⟨first', hget⟩ := Option.isSome_iff_exists.mp (dictGet_isSome hmem)
    rw [hget]
    exact (htable first' (dictGet_mem hget)).1
  · rw [if_neg hfurther, dictGet_eq_none]
    · rfl
    · rintro ⟨other, first'⟩ hmem rfl
      exact hfurther (htable first' hmem).2

theorem Schema.Owns.within {name : PyStr} (hname : Spells lib (first :: further) name) :
    Spells lib (first :: further) (unalias (Attributes.setSchema earlier schema) name) := by
  rw [howns.unalias_eq htype hname]
  split
  · exact ⟨first, List.mem_cons_self, rfl⟩
  · exact hname

theorem Schema.Owns.meets_iff {name : PyStr} (hname : Spells lib (first :: further) name)
    (key : PyStr) :
    Meets lib (Attributes.setSchema earlier schema) name key ↔ Finds lib first further name key := by
  unfold Meets Finds
  rw [howns.unalias_eq htype hname]
  by_cases hfurther : name ∈ further
  · simp [hfurther]
  · simp [hfurther]

/-- All mappings are looked up alike exactly if the type has one name, up to case. -/
theorem Schema.Owns.alike_iff :
    Alike lib schema (Attributes.setSchema earlier schema) (first :: further) ↔
      ∀ other ∈ further, lib.lower other = lib.lower first := by
  have hfirst : Spells lib (first :: further) first := ⟨first, List.mem_cons_self, rfl⟩
  rw [FreeIam.Ldap.alike_iff htype]
  constructor
  · intro hcond other hother
    by_cases hne : other = first
    · rw [hne]
    · have hlower := hcond first other hfirst ⟨other, List.mem_cons_of_mem _ hother, rfl⟩ (Ne.symm hne)
      rw [howns.unalias_eq htype hfirst, ite_self] at hlower
      exact hlower.symm
  · intro hone name name' hname hname' _
    have hlower : ∀ x, Spells lib (first :: further) x → lib.lower x = lib.lower first := by
      rintro x ⟨y, hy, hx⟩
      rcases List.mem_cons.mp hy with rfl | hy
      · exact hx
      · exact hx.trans (hone y hy)
    rw [hlower _ (howns.within htype hname), hlower _ hname']

end Owned

end

/-- What is found under a name depends on the type only, in every mapping exactly if the
table makes of each spelling of the type every other one up to case. Where the type has its
names for itself, two of its spellings find the same in a mapping exactly if they find the
same key of the type, and in every mapping exactly if it has one name up to case. -/
theorem lookup_alike_iff {ω : Type} (lib : Schemata ω) {schema : Schema} {first : PyStr}
    {further : List PyStr} (htype : first :: further ∈ schema.attributes)
    (earlier : List (PyStr × PyStr)) :
    (Alike lib schema (Attributes.setSchema earlier schema) (first :: further) ↔
      ∀ name name', Spells lib (first :: further) name → Spells lib (first :: further) name' →
        name ≠ name' →
        lib.lower (unalias (Attributes.setSchema earlier schema) name) = lib.lower name') ∧
    (schema.Owns lib earlier (first :: further) →
      (Alike lib schema (Attributes.setSchema earlier schema) (first :: further) ↔
        ∀ other ∈ further, lib.lower other = lib.lower first) ∧
      ∀ self : Attributes, self.Distinct lib schema → ∀ name name',
        Spells lib (first :: further) name → Spells lib (first :: further) name' →
        (self.getItem lib (Attributes.setSchema earlier schema) name =
            self.getItem lib (Attributes.setSchema earlier schema) name' ↔
          ∀ item ∈ self.items, Spells lib (first :: further) item.1 →
            (Finds lib first further name item.1 ↔ Finds lib first further name' item.1))) := by
  refine ⟨alike_iff htype _, fun howns => ⟨howns.alike_iff htype, ?_⟩⟩
  intro self hdistinct name name' hname hname'
  rw [Attributes.getItem_eq_iff htype hdistinct hname hname' (howns.within htype hname)
    (howns.within htype hname')]
  simp only [howns.meets_iff htype hname, howns.meets_iff htype hname']

/-! ## A common name -/

/-- Names of ASCII letters, without a server. -/
def simpleSchemata : Schemata Unit :=
  { simpleNames with
    modifyModlist := fun _ _ => []
    isReconnectLDAPObject := fun _ => false
    reconnectsDone := fun _ _ => 0
    subSchema := fun _ => .ok []
    schemaAttrs := [] }

/-- `cn`, with the alias `commonName`, and `uid`, with the alias `userid`. -/
def personSchema : Schema where
  identity := 0
  session := { connects := 0, reconnects := 0 }
  attributes := [[py "cn", py "commonName"], [py "uid", py "userid"]]

/-- A mapping with one key. -/
def single (key : PyStr) : Attributes := ⟨[(key, .values [[102, 111, 111]])]⟩

theorem single_distinct (key : PyStr) : (single key).Distinct simpleSchemata personSchema := by
  intro names _ item hitem item' hitem' _ _
  rw [List.mem_singleton.mp hitem, List.mem_singleton.mp hitem']

theorem personSchema_owns :
    personSchema.Owns simpleSchemata [] [py "cn", py "commonName"] where
  others := by unfold Spells; decide
  earlier := fun item hitem => by cases hitem

/-- Where `cn` is the key, `CN` and `commonName` find the same. But the type has two names,
so that a mapping with another key tells them apart. -/
theorem lookup_alike_cn :
    (single (py "cn")).getItem simpleSchemata (Attributes.setSchema [] personSchema) (py "CN") =
      (single (py "cn")).getItem simpleSchemata (Attributes.setSchema [] personSchema) (py "commonName") ∧
    ¬ Alike simpleSchemata personSchema (Attributes.setSchema [] personSchema)
      [py "cn", py "commonName"] := by
  have htype : py "cn" :: [py "commonName"] ∈ personSchema.attributes := by decide
  obtain ⟨-, howned⟩ := lookup_alike_iff simpleSchemata htype []
  obtain ⟨hall, hpair⟩ := howned personSchema_owns
  constructor
  · refine (hpair _ (single_distinct _) (py "CN") (py "commonName") (by unfold Spells; decide)
      (by unfold Spells; decide)).mpr fun item hitem _ => ?_
    rw [List.mem_singleton.mp hitem]
    unfold Finds
    decide
  · intro halike
    have hlower := hall.mp halike (py "commonName") List.mem_cons_self
    revert hlower
    decide

/-- Where `commonName` is the key, `cn` finds nothing, and where `cn` is, `COMMONNAME` finds
nothing. -/
theorem lookup_not_alike :
    ((single (py "commonName")).Distinct simpleSchemata personSchema ∧
      (single (py "commonName")).getItem simpleSchemata (Attributes.setSchema [] personSchema)
          (py "commonName") = .ok (.values [[102, 111, 111]]) ∧
      (single (py "commonName")).getItem simpleSchemata (Attributes.setSchema [] personSchema)
          (py "cn") = .error .keyError) ∧
    ((single (py "cn")).Distinct simpleSchemata personSchema ∧
      (single (py "cn")).getItem simpleSchemata (Attributes.setSchema [] personSchema)
          (py "commonName") = .ok (.values [[102, 111, 111]]) ∧
      (single (py "cn")).getItem simpleSchemata (Attributes.setSchema [] personSchema)
          (py "COMMONNAME") = .error .keyError) :=
  ⟨⟨single_distinct _, by rfl, by rfl⟩, ⟨single_distinct _, by rfl, by rfl⟩⟩

end FreeIam.Ldap
