import FreeIam.Ldap.Connection.GetAttr

/-!
# Tables of several schemata

All connections of a process share one table of aliases, and every schema that is fetched
overwrites what earlier ones have said of a name. Where two schemata disagree about a name,
what a lookup finds depends on which of them was fetched last.
-/

namespace FreeIam.Ldap

open FreeIam.Py FreeIam.Errors FreeIam.Exec

variable {ω : Type}

/-- What `Schema.get_attribute_aliases` gives for a name. -/
def Schema.alias (self : Schema) (name : PyStr) : Option PyStr := dictGet self.getAttributeAliases name

/-- The schemata that declare the name as a further one agree on the first name, up to case. -/
def AgreeOn (lib : Schemata ω) (schemata : List Schema) (name : PyStr) : Prop :=
  ∀ a ∈ schemata, ∀ b ∈ schemata, ∀ first first', a.alias name = some first →
    b.alias name = some first' → lib.lower first = lib.lower first'

/-! ## The table -/

theorem loadAll_concat (aliases : List (PyStr × PyStr)) (earlier : List Schema) (last : Schema) :
    loadAll aliases (earlier ++ [last]) = Attributes.setSchema (loadAll aliases earlier) last :=
  loadAll_append aliases earlier [last]

/-- The schema that is fetched last has the last word. -/
theorem unalias_last {aliases : List (PyStr × PyStr)} {schemata : List Schema} {last : Schema}
    {name first : PyStr} (h : last.alias name = some first) :
    unalias (loadAll aliases (schemata ++ [last])) name = first := by
  unfold Schema.alias at h
  rw [loadAll_concat, unalias_setSchema, h]
  rfl

/-- A name is left alone, or means what one of the schemata says. -/
theorem unalias_loadAll (aliases : List (PyStr × PyStr)) (schemata : List Schema) (name : PyStr) :
    ((∀ schema ∈ schemata, schema.alias name = none) ∧
        unalias (loadAll aliases schemata) name = unalias aliases name) ∨
      ∃ schema ∈ schemata, schema.alias name = some (unalias (loadAll aliases schemata) name) := by
  induction schemata using List.reverseRecOn with
  | nil => exact .inl ⟨fun schema hmem => absurd hmem List.not_mem_nil, rfl⟩
  | append_singleton earlier last ih =>
    cases hlast : last.alias name with
    | some first =>
      refine .inr ⟨last, List.mem_append_right _ List.mem_cons_self, ?_⟩
      rw [hlast, unalias_last hlast]
    | none =>
      have hsame : unalias (loadAll aliases (earlier ++ [last])) name =
          unalias (loadAll aliases earlier) name := by
        rw [loadAll_concat, unalias_setSchema, show dictGet last.getAttributeAliases name = none from hlast]
        rfl
      rw [hsame]
      rcases ih with ⟨hnone, hleft⟩ | ⟨schema, hmem, hschema⟩
      · refine .inl ⟨fun schema hmem => ?_, hleft⟩
        rcases List.mem_append.mp hmem with hmem | hmem
        · exact hnone schema hmem
        · rw [List.mem_singleton.mp hmem]
          exact hlast
      · exact .inr ⟨schema, List.mem_append_left _ hmem, hschema⟩

/-! ## Lookups -/

/-- A mapping with one key is found by what meets the key. -/
theorem Attributes.getItem_singleton_iff {lib : Schemata ω} {aliases : List (PyStr × PyStr)}
    {name key : PyStr} (value : AttributeValue) :
    (⟨[(key, value)]⟩ : Attributes).getItem lib aliases name = .ok value ↔ Meets lib aliases name key := by
  unfold Meets
  by_cases hkey : name = key
  · subst hkey
    refine iff_of_true (Attributes.getItem_key ?_ aliases) (.inl rfl)
    rw [dictGet_cons, if_pos rfl]
    rfl
  · have hnone : dictGet [(key, value)] name = none := by
      rw [dictGet_cons, if_neg (Ne.symm hkey)]
      rfl
    rw [Attributes.getItem_other hnone, List.map_cons, List.map_nil, dictGet_cons, or_iff_right hkey]
    by_cases hlower : lib.lower (unalias aliases name) = lib.lower key
    · rw [if_pos hlower.symm]
      exact iff_of_true rfl hlower
    · rw [if_neg (Ne.symm hlower)]
      exact iff_of_false (fun h => by cases h) hlower

/-- A lookup needs of the table only what it makes of the name, up to case. -/
theorem Attributes.getItem_congr {lib : Schemata ω} {aliases aliases' : List (PyStr × PyStr)} {name : PyStr}
    (h : lib.lower (unalias aliases name) = lib.lower (unalias aliases' name)) (self : Attributes) :
    self.getItem lib aliases name = self.getItem lib aliases' name := by
  cases hown : dictGet self.items name with
  | some value => rw [Attributes.getItem_key hown, Attributes.getItem_key hown]
  | none => rw [Attributes.getItem_other hown, Attributes.getItem_other hown, h]

/-- Two tables in which all mappings are looked up alike. -/
theorem Attributes.lower_eq_of_getItem {lib : Schemata ω} {aliases aliases' : List (PyStr × PyStr)}
    {name : PyStr}
    (h : ∀ self : Attributes, self.getItem lib aliases name = self.getItem lib aliases' name) :
    lib.lower (unalias aliases name) = lib.lower (unalias aliases' name) := by
  have hmeets (key : PyStr) : Meets lib aliases name key ↔ Meets lib aliases' name key := by
    rw [← Attributes.getItem_singleton_iff (.text []), h, Attributes.getItem_singleton_iff]
  -- one of the two first names is not the name itself, and is met as a key
  by_cases hname : name = unalias aliases name
  · by_cases hname' : name = unalias aliases' name
    · rw [← hname, ← hname']
    · exact ((hmeets _).mpr (.inr rfl)).resolve_left hname'
  · exact (((hmeets _).mp (.inr rfl)).resolve_left hname).symm

/-- The lookups of a name are the same in whatever order the schemata are fetched, exactly if
the schemata agree on it. -/
theorem getItem_perm_iff (lib : Schemata ω) (aliases : List (PyStr × PyStr)) (schemata : List Schema)
    (name : PyStr) :
    (∀ schemata', schemata'.Perm schemata → ∀ self : Attributes,
      self.getItem lib (loadAll aliases schemata') name = self.getItem lib (loadAll aliases schemata) name) ↔
      AgreeOn lib schemata name := by
  constructor
  · intro hperm a ha b hb first first' hfirst hfirst'
    have hlast (c : Schema) (hc : c ∈ schemata) (f : PyStr) (hf : c.alias name = some f) :
        lib.lower f = lib.lower (unalias (loadAll aliases schemata) name) := by
      have hlower := Attributes.lower_eq_of_getItem fun self => hperm (schemata.erase c ++ [c])
        (List.perm_append_comm.trans (List.perm_cons_erase hc).symm) self
      rwa [unalias_last hf] at hlower
    rw [hlast a ha first hfirst, hlast b hb first' hfirst']
  · intro hagree schemata' hperm self
    refine Attributes.getItem_congr ?_ self
    rcases unalias_loadAll aliases schemata' name with ⟨hnone, hleft⟩ | ⟨a, ha, hfirst⟩ <;>
      rcases unalias_loadAll aliases schemata name with ⟨hnone', hleft'⟩ | ⟨b, hb, hfirst'⟩
    · rw [hleft, hleft']
    · rw [hnone b (hperm.mem_iff.mpr hb)] at hfirst'
      cases hfirst'
    · rw [hnone' a (hperm.mem_iff.mp ha)] at hfirst
      cases hfirst
    · exact hagree a (hperm.mem_iff.mp ha) b hb _ _ hfirst hfirst'

/-- Whatever is called, the table is made of the schemata that have been fetched, one after the
other; `get_schema` returns what is in the cache or what it has fetched. What the lookups of a
name find is the same in all orders of fetching exactly if the schemata that declare the name as
a further one agree on the first name, up to case. -/
theorem alias_tables (lib : Schemata ω) (polls : Nat) (s : SchemaState ω) :
    (∀ calls, let s' := after (AttributeCall.step lib polls) s calls
      s'.aliases = loadAll s.aliases (AttributeCall.fetchedAll lib polls s calls) ∧
      (∀ schema ∈ AttributeCall.fetchedAll lib polls s calls, ∃ subentry,
        lib.subSchema subentry = .ok schema.attributes) ∧
      ∀ key schema t, (SchemaMethod.getSchema lib polls key).run s' = .ok schema t →
        schema ∈ s'.cached ∨ (AttributeCall.getSchema key).fetched lib polls s' = [schema]) ∧
    ∀ schemata name, (∀ schemata', schemata'.Perm schemata → ∀ self : Attributes,
        self.getItem lib (loadAll s.aliases schemata') name =
          self.getItem lib (loadAll s.aliases schemata) name) ↔ AgreeOn lib schemata name := by
  refine ⟨fun calls => ?_, fun schemata name => getItem_perm_iff lib s.aliases schemata name⟩
  obtain ⟨haliases, hparsed⟩ := AttributeCall.after_aliases lib polls calls s
  exact ⟨haliases, hparsed, fun key schema t hrun => AttributeCall.returned_fetched hrun⟩

end FreeIam.Ldap
