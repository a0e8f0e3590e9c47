import FreeIam.Ldap.Connection.Lookup
import FreeIam.Ldap.Connection.Pickle

/-!
# get_attr

`get_attr` looks its attribute up in what the server has sent and, where there is no such
key, once more after `get_schema`. The table of aliases belongs to the process and is never
emptied, so that what `get_attr` finds depends on whether a schema has been loaded before:
with the table, a further name of a type no longer finds a key that is this name in another
letter case.
-/

namespace FreeIam.Ldap

open FreeIam.Py FreeIam.Errors FreeIam.Exec

variable {ω : Type}

/-- `[x.decode('UTF-8') for x in value]` -/
def AttributeValue.texts : AttributeValue → Except PyExc (List PyStr)
  | .values raw => raw.mapM fun value =>
    match decodeUtf8 value with
    | none => .error (.raised "UnicodeDecodeError")
    | some decoded => .ok decoded
  | .text [] => .ok []
  | .text _ => .error (.attributeError "'str' object has no attribute 'decode'")

namespace SchemaMethod

variable (lib : Schemata ω) (polls : Nat)

/-- `attributes[attr]`, and once more after `get_schema()` where there is no such key. -/
def lookupOrLoad (attributes : Attributes) (attr : PyStr) : SchemaMethod ω AttributeValue := do
  match attributes.getItem lib (← get).aliases attr with
  | .ok value => pure value
  | .error .keyError => do
    let _ ← getSchema lib polls none
    onState (ofExcept (attributes.getItem lib (← get).aliases attr))
  | .error e => throw e

/-- `Connection.get_attr` -/
def getAttr (dn attr : PyStr) (filterExpr : PyStr := py "(objectClass=*)") (unique : Bool := false)
    (controls : Option Controls := none) : SchemaMethod ω AttributeValue := do
  let result ← onState (Method.getObject lib.toEnv polls dn (some [attr]) filterExpr unique controls)
  match ← onState (ofExcept (Result.attributes result)) with
  | none => throw .assertionError
  | some attributes => lookupOrLoad lib polls attributes attr

/-- `Connection.get_naming_contexts` -/
def getNamingContexts : SchemaMethod ω (List PyStr) := do
  let result ← getAttr lib polls [] (py "namingContexts")
  onState (ofExcept result.texts)

end SchemaMethod

/-! ## Histories -/

/-- A call of a method; `other` is any that leaves the schema and the table alone. -/
inductive AttributeCall (ω : Type)
  | getSchema (key : SchemaKey)
  | getAttr (dn attr filterExpr : PyStr) (unique : Bool) (controls : Option Controls)
  | getNamingContexts
  | connect (fileno : Option Int)
  | disconnect
  | other (m : Method ω Unit)

namespace AttributeCall

variable (lib : Schemata ω) (polls : Nat)

def run : AttributeCall ω → SchemaMethod ω Unit
  | getSchema key => discard (SchemaMethod.getSchema lib polls key)
  | getAttr dn attr filterExpr unique controls =>
    discard (SchemaMethod.getAttr lib polls dn attr filterExpr unique controls)
  | getNamingContexts => discard (SchemaMethod.getNamingContexts lib polls)
  | connect fileno => SchemaMethod.connect lib fileno
  | disconnect => SchemaMethod.disconnect lib
  | other m => SchemaMethod.onState m

/-- The state after a call, also one that has raised. -/
def step (s : SchemaState ω) (call : AttributeCall ω) : SchemaState ω :=
  final ((call.run lib polls).run s)

end AttributeCall

/-! ## What a history fetches -/

/-- The schemata that are in the cache. -/
def SchemaState.cached (s : SchemaState ω) : List Schema := (s.schema.getD []).map Prod.snd

namespace AttributeCall

variable (lib : Schemata ω) (polls : Nat)

/-- The schema that a call fetches: where it has made one, the one that was put into the
cache last. -/
def fetched (s : SchemaState ω) (call : AttributeCall ω) : List Schema :=
  if s.made < (call.step lib polls s).made then (call.step lib polls s).cached.getLast?.toList else []

/-- The schemata that a history fetches, one after the other. -/
def fetchedAll : SchemaState ω → List (AttributeCall ω) → List Schema
  | _, [] => []
  | s, call :: calls => fetched lib polls s call ++ fetchedAll (call.step lib polls s) calls

end AttributeCall

/-- The table after these schemata have been fetched, one after the other. -/
def loadAll (aliases : List (PyStr × PyStr)) (schemata : List Schema) : List (PyStr × PyStr) :=
  schemata.foldl Attributes.setSchema aliases

theorem loadAll_append (aliases : List (PyStr × PyStr)) (earlier later : List Schema) :
    loadAll aliases (earlier ++ later) = loadAll (loadAll aliases earlier) later :=
  List.foldl_append

/-- Nothing has been fetched since a state. -/
structure Unfetched (s₀ s : SchemaState ω) : Prop where
  made : s.made = s₀.made
  aliases : s.aliases = s₀.aliases
  cached : ∀ schema ∈ s.cached, schema ∈ s₀.cached

/-- This schema has been fetched since a state, and no other one. -/
structure Fetched (lib : Schemata ω) (s₀ : SchemaState ω) (schema : Schema) (s : SchemaState ω) : Prop where
  parsed : ∃ subentry, lib.subSchema subentry = .ok schema.attributes
  made : s.made = s₀.made + 1
  aliases : s.aliases = Attributes.setSchema s₀.aliases schema
  cached : s.cached.getLast? = some schema

/-- What `get_schema` returns was in the cache, or it has been fetched. -/
def Obtained (lib : Schemata ω) (s₀ : SchemaState ω) (schema : Schema) (s : SchemaState ω) : Prop :=
  (Unfetched s₀ s ∧ schema ∈ s₀.cached) ∨ Fetched lib s₀ schema s

/-- One schema has been fetched at most. -/
def Settled (lib : Schemata ω) (s₀ s : SchemaState ω) : Prop :=
  Unfetched s₀ s ∨ ∃ schema, Fetched lib s₀ schema s

theorem Unfetched.refl (s : SchemaState ω) : Unfetched s s := ⟨rfl, rfl, fun _ h => h⟩

theorem Obtained.settled {lib : Schemata ω} {s₀ s : SchemaState ω} {schema : Schema}
    (h : Obtained lib s₀ schema s) : Settled lib s₀ s :=
  h.imp And.left fun hfetched => ⟨schema, hfetched⟩

/-- The key is not in the cache. -/
def Absent (lib : Schemata ω) (key : SchemaKey) (s : SchemaState ω) : Prop :=
  ∀ items, s.schema = some items → Dict.get (SchemaKey.same lib) items key = none

/-- A predicate that only a new schema in the cache may end. -/
structure Undisturbed (lib : Schemata ω) (J : SchemaState ω → Prop) : Prop where
  state : ∀ s state, J s → J { s with state := state }
  counter : ∀ s counter, J s → J { s with reconnectsCounter := counter }
  del : ∀ s items key, s.schema = some items → J s →
    J { s with schema := some (Dict.del (SchemaKey.same lib) items key) }

theorem unfetched_undisturbed (lib : Schemata ω) (s₀ : SchemaState ω) : Undisturbed lib (Unfetched s₀) where
  state := fun _ _ hs => ⟨hs.made, hs.aliases, hs.cached⟩
  counter := fun _ _ hs => ⟨hs.made, hs.aliases, hs.cached⟩
  del := fun s items key hitems hs => by
    refine ⟨hs.made, hs.aliases, fun schema hmem => hs.cached schema ?_⟩
    obtain ⟨item, hitem, rfl⟩ := List.mem_map.mp hmem
    unfold SchemaState.cached
    rw [hitems]
    exact List.mem_map_of_mem (List.mem_filter.mp hitem).1

theorem absent_undisturbed (lib : Schemata ω) (key : SchemaKey) : Undisturbed lib (Absent lib key) where
  state := fun _ _ hs => hs
  counter := fun _ _ hs => hs
  del := fun s items other hitems hs items' hitems' => by
    cases hitems'
    have hnone := (Dict.get_eq_none_iff items key).mp (hs items hitems)
    exact (Dict.get_eq_none_iff _ key).mpr fun item hitem => hnone item (List.mem_filter.mp hitem).1

theorem Undisturbed.and {lib : Schemata ω} {J K : SchemaState ω → Prop} (hJ : Undisturbed lib J)
    (hK : Undisturbed lib K) : Undisturbed lib fun s => J s ∧ K s where
  state := fun s state hs => ⟨hJ.state s state hs.1, hK.state s state hs.2⟩
  counter := fun s counter hs => ⟨hJ.counter s counter hs.1, hK.counter s counter hs.2⟩
  del := fun s items key hitems hs => ⟨hJ.del s items key hitems hs.1, hK.del s items key hitems hs.2⟩

namespace SchemaMethod

variable {lib : Schemata ω} {J : SchemaState ω → Prop} (h : Undisturbed lib J)
include h

theorem onState_undisturbed {α : Type} (m : Method ω α) : Keeps J (onState m) := onState_keeps h.state m

omit h in
/-- Reading the slots leaves the state alone. -/
theorem schema_reads : Spec J (schema : SchemaMethod ω _) (fun items s => J s ∧ s.schema = some items)
    (fun _ => J) := by
  unfold schema
  refine Spec.bind (Q := fun s₀ s => s = s₀ ∧ J s) (Spec.get fun s hs => ⟨rfl, hs⟩) fun s₀ => ?_
  cases hschema : s₀.schema with
  | none => exact Spec.throw fun s hs => hs.2
  | some items =>
    refine Spec.pure ?_
    rintro s ⟨rfl, hs⟩
    exact ⟨hs, hschema⟩

theorem invalidate_undisturbed (o : Obj) (key : SchemaKey) : Keeps J (invalidate lib o key) := by
  have hcounter : Keeps J (reconnectsCounter : SchemaMethod ω _) := by
    unfold reconnectsCounter
    refine Keeps.bind Keeps.get fun s => ?_
    split
    · exact Keeps.throw _
    · exact Keeps.pure _
  unfold invalidate reconnected delSchema
  refine Keeps.bind (Keeps.ite ?_ (Keeps.pure _)) fun outdated => ?_
  · exact Keeps.bind Keeps.get fun s => Keeps.bind hcounter fun counter => Keeps.pure _
  · refine Keeps.ite ?_ (Keeps.pure _)
    refine Keeps.bind (Spec.bind schema_reads fun items => ?_) fun _ => ?_
    · split
      · exact Spec.throw fun s hs => hs.1
      · exact Spec.modify fun s hs => h.del s items key hs.2 hs.1
    · exact Keeps.bind (onState_undisturbed h _) fun _ => Keeps.modify fun s hs => h.counter s _ hs

variable {s₀ : SchemaState ω} (hJ : ∀ s, J s → Unfetched s₀ s)
include hJ

omit h in
/-- A schema that is stored under a new key is the last one in the cache. -/
theorem storeSchema_fetched (key : SchemaKey) (subschema : Option Attributes) :
    Spec (fun s => J s ∧ Absent lib key s) (storeSchema lib key subschema) (Fetched lib s₀) (fun _ => J) := by
  rintro s ⟨hs, habsent⟩
  cases htypes : lib.subSchema subschema with
  | error e =>
    unfold storeSchema
    rw [htypes, EStateM.run_bind, onState_error (Method.ofExcept_error _ _)]
    exact hs
  | ok types =>
    cases hschema : s.schema with
    | none =>
      have hslot : schema.run s = .error (.attributeError "_Connection__schema") s := by
        unfold schema
        rw [EStateM.run_bind, EStateM.run_get]
        simp only [hschema]
        rfl
      unfold storeSchema
      rw [htypes, EStateM.run_bind, onState_ok (Method.ofExcept_ok _ _)]
      simp only
      rw [EStateM.run_bind, hslot]
      exact hs
    | some items =>
      rw [storeSchema_run hschema htypes]
      refine ⟨⟨subschema, htypes⟩, congrArg (· + 1) (hJ s hs).made, ?_, ?_⟩
      · exact congrArg (· ++ _) (hJ s hs).aliases
      · show ((Dict.set (SchemaKey.same lib) items key _).map Prod.snd).getLast? = _
        rw [Dict.set_of_get_none (habsent items hschema), List.map_append]
        exact List.getLast?_concat

variable {polls : Nat} {delegate : SchemaMethod ω Schema} {key : SchemaKey}

theorem fetchSchema_returned
    (hdelegate : Spec (fun s => J s ∧ Absent lib key s) delegate (Obtained lib s₀)
      (fun _ s => J s ∧ Absent lib key s)) :
    Spec (fun s => J s ∧ Absent lib key s) (fetchSchema lib polls delegate key) (Obtained lib s₀) (fun _ => J) := by
  have hundisturbed : Undisturbed lib fun s => J s ∧ Absent lib key s := h.and (absent_undisturbed lib key)
  -- only the delegate may fetch, and then it is what `get_schema` returns
  have hfind : Spec (fun s => J s ∧ Absent lib key s) (findSubentry lib polls delegate key)
      (fun found s => match found with
        | .returned schema => Obtained lib s₀ schema s
        | _ => J s ∧ Absent lib key s)
      (fun _ s => J s ∧ Absent lib key s) := by
    unfold findSubentry
    refine Spec.tryCatch (Spec.bind (onState_undisturbed hundisturbed _) fun result =>
      Spec.bind Keeps.get fun s => ?_) fun e => ?_
    · split
      · exact Spec.pure fun s hs => hs
      · exact Spec.ite (fun _ => Spec.map hdelegate fun _ _ hs => hs) fun _ => Spec.throw fun s hs => hs
      · exact Spec.throw fun s hs => hs
    · exact Spec.ite (fun _ => Spec.pure fun s hs => hs) fun _ => Spec.throw fun s hs => hs
  have hstore (subschema : Option Attributes) : Spec (fun s => J s ∧ Absent lib key s)
      (storeSchema lib key subschema) (Obtained lib s₀) (fun _ => J) :=
    Spec.conseq (storeSchema_fetched hJ key subschema) (fun _ hs => hs) (fun _ _ hs => .inr hs) fun _ _ hs => hs
  unfold fetchSchema
  refine Spec.bind (Spec.conseq hfind (fun _ hs => hs) (fun _ _ hs => hs) fun _ _ hs => hs.1) fun found => ?_
  cases found with
  | returned schema => exact Spec.pure fun s hs => hs
  | unavailable => exact hstore none
  | entry dn =>
    refine Spec.bind (Q := fun _ s => J s ∧ Absent lib key s) ?_ fun subschema => hstore subschema
    have hread : Keeps (fun s => J s ∧ Absent lib key s) (readSubschema lib polls dn) := by
      unfold readSubschema
      refine Keeps.tryCatch (Keeps.bind (onState_undisturbed hundisturbed _) fun _ =>
        onState_undisturbed hundisturbed _) fun e => ?_
      exact Keeps.ite (Keeps.pure _) (Keeps.throw _)
    exact Spec.conseq hread (fun _ hs => hs) (fun _ _ hs => hs) fun _ _ hs => hs.1

theorem getSchemaOr_returned
    (hdelegate : Spec (fun s => J s ∧ Absent lib key s) delegate (Obtained lib s₀)
      (fun _ s => J s ∧ Absent lib key s)) :
    Spec J (getSchemaOr lib polls delegate key) (Obtained lib s₀) (fun _ => J) := by
  unfold getSchemaOr
  refine Spec.bind (onState_undisturbed h _) fun o => Spec.bind (invalidate_undisturbed h o key) fun _ => ?_
  refine Spec.bind schema_reads fun items => ?_
  cases hget : Dict.get (SchemaKey.same lib) items key with
  | some cached =>
    refine Spec.pure fun s hs => .inl ⟨hJ s hs.1, (hJ s hs.1).cached cached ?_⟩
    obtain ⟨item, hitem, rfl⟩ := Option.map_eq_some_iff.mp hget
    unfold SchemaState.cached
    rw [hs.2]
    exact List.mem_map_of_mem (List.mem_of_find?_eq_some hitem)
  | none =>
    refine Spec.conseq (fetchSchema_returned h hJ hdelegate) (fun s hs => ⟨hs.1, fun items' hitems' => ?_⟩)
      (fun _ _ hs => hs) fun _ _ hs => hs
    rw [hs.2] at hitems'
    cases hitems'
    exact hget

omit h hJ in
/-- What `get_schema` does: it returns what is in the cache or fetches, and where it raises
it has fetched nothing. -/
theorem getSchema_returned (s₀ : SchemaState ω) (polls : Nat) (key : SchemaKey) :
    Spec (Unfetched s₀) (getSchema lib polls key) (Obtained lib s₀) (fun _ => Unfetched s₀) := by
  have hunfetched := unfetched_undisturbed lib s₀
  refine getSchemaOr_returned hunfetched (fun _ hs => hs) ?_
  exact getSchemaOr_returned (hunfetched.and (absent_undisturbed lib key)) (fun _ hs => hs.1)
    (Spec.throw fun s hs => hs)

omit h hJ in
/-- What is done to the connection itself fetches nothing. -/
theorem settled_onState (s₀ : SchemaState ω) {α : Type} (m : Method ω α) :
    Keeps (Settled lib s₀) (onState m) := by
  refine onState_keeps (fun s state hs => ?_) m
  rcases hs with hsame | ⟨schema, hschema⟩
  · exact .inl ((unfetched_undisturbed lib s₀).state s state hsame)
  · exact .inr ⟨schema, hschema.parsed, hschema.made, hschema.aliases, hschema.cached⟩

omit h hJ in
theorem getAttr_settled (s₀ : SchemaState ω) (polls : Nat) (dn attr filterExpr : PyStr) (unique : Bool)
    (controls : Option Controls) :
    Spec (Unfetched s₀) (getAttr lib polls dn attr filterExpr unique controls) (fun _ => Settled lib s₀)
      (fun _ => Settled lib s₀) := by
  have honState {α : Type} (m : Method ω α) :
      Spec (Unfetched s₀) (onState m) (fun _ => Unfetched s₀) (fun _ => Settled lib s₀) :=
    Spec.conseq (onState_undisturbed (unfetched_undisturbed lib s₀) m) (fun _ hs => hs) (fun _ _ hs => hs)
      fun _ _ hs => .inl hs
  unfold getAttr
  refine Spec.bind (honState _) fun result => Spec.bind (honState _) fun attributes => ?_
  cases attributes with
  | none => exact Spec.throw fun s hs => .inl hs
  | some attributes =>
    refine Spec.bind (Q := fun _ => Unfetched s₀) (Spec.get fun s hs => hs) fun s => ?_
    split
    · exact Spec.pure fun s hs => .inl hs
    · refine Spec.bind (Q := fun _ => Settled lib s₀) ?_ fun schema => ?_
      · exact Spec.conseq (getSchema_returned s₀ polls none) (fun _ hs => hs) (fun _ _ hs => hs.settled)
          fun _ _ hs => .inl hs
      · exact Keeps.bind Keeps.get fun _ => settled_onState s₀ _
    · exact Spec.throw fun s hs => .inl hs

end SchemaMethod

namespace AttributeCall

variable {lib : Schemata ω} {polls : Nat}

open SchemaMethod in
/-- Every call fetches one schema at most. -/
theorem run_settled (s₀ : SchemaState ω) (call : AttributeCall ω) :
    Spec (Unfetched s₀) (call.run lib polls) (fun _ => Settled lib s₀) (fun _ => Settled lib s₀) := by
  have hquiet {m : SchemaMethod ω Unit} (hm : Keeps (Unfetched s₀) m) :
      Spec (Unfetched s₀) m (fun _ => Settled lib s₀) (fun _ => Settled lib s₀) :=
    Spec.conseq hm (fun _ hs => hs) (fun _ _ hs => .inl hs) fun _ _ hs => .inl hs
  have honState {α : Type} (m : Method ω α) : Keeps (Unfetched s₀) (onState m) :=
    onState_undisturbed (unfetched_undisturbed lib s₀) m
  cases call with
  | getSchema key =>
    exact Spec.map (Spec.conseq (getSchema_returned s₀ polls key) (fun _ hs => hs) (fun _ _ hs => hs.settled)
      fun _ _ hs => .inl hs) fun _ _ hs => hs
  | getAttr dn attr filterExpr unique controls =>
    exact Spec.map (getAttr_settled s₀ polls dn attr filterExpr unique controls) fun _ _ hs => hs
  | getNamingContexts =>
    refine Spec.map (Spec.bind (getAttr_settled s₀ polls _ _ _ _ _) fun result => ?_) fun _ _ hs => hs
    exact settled_onState s₀ _
  | connect fileno =>
    refine hquiet (Keeps.bind (honState _) fun _ => Keeps.bind (Keeps.modify fun _ hs => ?_) fun _ => honState _)
    exact ⟨hs.made, hs.aliases, hs.cached⟩
  | disconnect =>
    refine hquiet (Keeps.bind (honState _) fun _ => Keeps.modify fun _ hs => ?_)
    exact ⟨hs.made, hs.aliases, hs.cached⟩
  | other m => exact hquiet (honState m)

variable (lib polls) in
/-- What a call adds to the table are the aliases of the schema it has fetched. -/
theorem step_aliases (s : SchemaState ω) (call : AttributeCall ω) :
    (call.step lib polls s).aliases = loadAll s.aliases (call.fetched lib polls s) ∧
      ∀ schema ∈ call.fetched lib polls s, ∃ subentry, lib.subSchema subentry = .ok schema.attributes := by
  have hsettled : Settled lib s (call.step lib polls s) := (run_settled s call).final (Unfetched.refl s)
  unfold fetched
  rcases hsettled with hsame | ⟨schema, hschema⟩
  · rw [if_neg (by rw [hsame.made]; exact Nat.lt_irrefl _)]
    exact ⟨hsame.aliases, fun schema hmem => absurd hmem List.not_mem_nil⟩
  · rw [if_pos (by rw [hschema.made]; exact Nat.lt_succ_self _), hschema.cached]
    refine ⟨hschema.aliases, fun schema' hmem => ?_⟩
    rw [List.mem_singleton.mp hmem]
    exact hschema.parsed

variable (lib polls) in
/-- And so for a whole history. -/
theorem after_aliases (calls : List (AttributeCall ω)) (s : SchemaState ω) :
    (after (step lib polls) s calls).aliases = loadAll s.aliases (fetchedAll lib polls s calls) ∧
      ∀ schema ∈ fetchedAll lib polls s calls, ∃ subentry, lib.subSchema subentry = .ok schema.attributes := by
  induction calls generalizing s with
  | nil => exact ⟨rfl, fun schema hmem => absurd hmem List.not_mem_nil⟩
  | cons call calls ih =>
    obtain ⟨haliases, hparsed⟩ := step_aliases lib polls s call
    obtain ⟨hrest, hparsed'⟩ := ih (call.step lib polls s)
    constructor
    · show (after (step lib polls) (call.step lib polls s) calls).aliases = _
      rw [hrest, haliases, fetchedAll, loadAll_append]
    · intro schema hmem
      exact (List.mem_append.mp hmem).elim (hparsed schema) (hparsed' schema)

/-- What `get_schema` returns was in the cache, or is what it has fetched. -/
theorem returned_fetched {s s' : SchemaState ω} {key : SchemaKey} {schema : Schema}
    (hrun : (SchemaMethod.getSchema lib polls key).run s = .ok schema s') :
    schema ∈ s.cached ∨ (getSchema key).fetched lib polls s = [schema] := by
  have hstep : (getSchema key).step lib polls s = s' := by
    show final ((discard (SchemaMethod.getSchema lib polls key)).run s) = s'
    show final ((_ <$> SchemaMethod.getSchema lib polls key).run s) = s'
    rw [run_map, hrun]
    rfl
  rcases (SchemaMethod.getSchema_returned s polls key).ok (Unfetched.refl s) hrun with hcached | hfetched
  · exact .inl hcached.2
  · refine .inr ?_
    unfold fetched
    rw [hstep, if_pos (by rw [hfetched.made]; exact Nat.lt_succ_self _), hfetched.cached]
    rfl

end AttributeCall

/-! ## The table -/

section Table

variable (lib : Schemata ω) (first : PyStr) (further : List PyStr)

/-- The table says nothing of the type. -/
def Blank (aliases : List (PyStr × PyStr)) : Prop :=
  ∀ name, Spells lib (first :: further) name → unalias aliases name = name

/-- The table has the further names of the type, as they are spelled. -/
def Loaded (aliases : List (PyStr × PyStr)) : Prop :=
  ∀ name, Spells lib (first :: further) name →
    (name ∈ further → unalias aliases name = first) ∧ (name ∉ further → unalias aliases name = name)

/-- The schemata declare the type alike, or none of its names. -/
def DeclaredAlike (schemata : List Schema) : Prop :=
  ∀ schema ∈ schemata, ∀ names ∈ schema.attributes, ∀ name ∈ names,
    Spells lib (first :: further) name → names = first :: further

end Table

theorem unalias_setSchema (aliases : List (PyStr × PyStr)) (schema : Schema) (name : PyStr) :
    unalias (Attributes.setSchema aliases schema) name =
      ((dictGet schema.getAttributeAliases name).getD (unalias aliases name)) := by
  unfold unalias Attributes.setSchema
  rw [dictGet_append]
  cases dictGet schema.getAttributeAliases name <;> rfl

section Table

variable {lib : Schemata ω} {first : PyStr} {further : List PyStr}

theorem DeclaredAlike.mono {schemata schemata' : List Schema} (h : DeclaredAlike lib first further schemata)
    (hsub : ∀ schema ∈ schemata', schema ∈ schemata) : DeclaredAlike lib first further schemata' :=
  fun schema hmem => h schema (hsub schema hmem)

/-- A schema makes a further name the first one, or leaves the names of the type alone. -/
theorem DeclaredAlike.unalias_eq {schema : Schema} (h : DeclaredAlike lib first further [schema])
    (aliases : List (PyStr × PyStr)) {name : PyStr} (hname : Spells lib (first :: further) name) :
    unalias (Attributes.setSchema aliases schema) name =
      if first :: further ∈ schema.attributes ∧ name ∈ further then first else unalias aliases name := by
  have htable : ∀ first', (name, first') ∈ schema.getAttributeAliases →
      first' = first ∧ first :: further ∈ schema.attributes ∧ name ∈ further := by
    intro first' hmem
    obtain ⟨further', htype, hother⟩ := Schema.mem_getAttributeAliases.mp hmem
    cases h schema List.mem_cons_self _ htype name (List.mem_cons_of_mem _ hother) hname
    exact ⟨rfl, htype, hother⟩
  rw [unalias_setSchema]
  by_cases hdeclared : first :: further ∈ schema.attributes ∧ name ∈ further
  · rw [if_pos hdeclared]
    have hmem : (name, first) ∈ schema.getAttributeAliases :=
      Schema.mem_getAttributeAliases.mpr ⟨further, hdeclared.1, hdeclared.2⟩
    obtain ⟨first', hget⟩ := Option.isSome_iff_exists.mp (dictGet_isSome hmem)
    rw [hget]
    exact (htable first' (dictGet_mem hget)).1
  · rw [if_neg hdeclared, dictGet_eq_none]
    · rfl
    · rintro ⟨other, first'⟩ hmem rfl
      exact hdeclared (htable first' hmem).2

/-- A loaded table stays as it is. -/
theorem DeclaredAlike.loaded {schemata : List Schema} (h : DeclaredAlike lib first further schemata)
    {aliases : List (PyStr × PyStr)} (hloaded : Loaded lib first further aliases) :
    Loaded lib first further (loadAll aliases schemata) := by
  induction schemata generalizing aliases with
  | nil => exact hloaded
  | cons schema schemata ih =>
    refine ih (h.mono fun _ => List.mem_cons_of_mem _) fun name hname => ?_
    have hone : DeclaredAlike lib first further [schema] :=
      h.mono fun _ hmem => List.mem_singleton.mp hmem ▸ List.mem_cons_self
    obtain ⟨hfirst, hself⟩ := hloaded name hname
    rw [hone.unalias_eq aliases hname]
    constructor
    · intro hfurther
      rw [hfirst hfurther, ite_self]
    · intro hfurther
      rw [if_neg fun hboth => hfurther hboth.2, hself hfurther]

/-- A blank one is loaded by a schema that has the type, and stays blank otherwise. -/
theorem DeclaredAlike.blank_or_loaded {schemata : List Schema} (h : DeclaredAlike lib first further schemata)
    {aliases : List (PyStr × PyStr)} (hblank : Blank lib first further aliases) :
    Blank lib first further (loadAll aliases schemata) ∨ Loaded lib first further (loadAll aliases schemata) := by
  induction schemata generalizing aliases with
  | nil => exact .inl hblank
  | cons schema schemata ih =>
    have hrest : DeclaredAlike lib first further schemata := h.mono fun _ => List.mem_cons_of_mem _
    have hone : DeclaredAlike lib first further [schema] :=
      h.mono fun _ hmem => List.mem_singleton.mp hmem ▸ List.mem_cons_self
    by_cases hdeclared : first :: further ∈ schema.attributes
    · refine .inr (hrest.loaded fun name hname => ?_)
      rw [hone.unalias_eq aliases hname, hblank name hname]
      exact ⟨fun hfurther => if_pos ⟨hdeclared, hfurther⟩, fun hfurther => if_neg fun hboth => hfurther hboth.2⟩
    · refine ih hrest fun name hname => ?_
      rw [hone.unalias_eq aliases hname, hblank name hname, if_neg fun hboth => hdeclared hboth.1]

end Table

/-! ## What get_attr finds -/

section Answer

variable (lib : Schemata ω) (polls : Nat) (dn attr filterExpr : PyStr) (unique : Bool)
  (controls : Option Controls)

/-- The search of `get_attr` finds an object with these attributes. -/
def Fetches (state : State ω) (attributes : Attributes) (state' : State ω) : Prop :=
  ∃ result, (Method.getObject lib.toEnv polls dn (some [attr]) filterExpr unique controls).run state =
    .ok (some result) state' ∧ result.attr = some attributes

variable {lib polls dn attr filterExpr unique controls}

theorem Fetches.getAttr_run {s : SchemaState ω} {attributes : Attributes} {state' : State ω}
    (h : Fetches lib polls dn attr filterExpr unique controls s.state attributes state') :
    (SchemaMethod.getAttr lib polls dn attr filterExpr unique controls).run s =
      (SchemaMethod.lookupOrLoad lib polls attributes attr).run { s with state := state' } := by
  obtain ⟨result, hrun, hattr⟩ := h
  have hattributes : Result.attributes (some result) = .ok (some attributes) := congrArg Except.ok hattr
  unfold SchemaMethod.getAttr
  rw [EStateM.run_bind, SchemaMethod.onState_ok hrun]
  simp only [hattributes]
  rw [EStateM.run_bind, SchemaMethod.onState_ok (Method.ofExcept_ok _ _)]

theorem SchemaMethod.lookupOrLoad_found {s : SchemaState ω} {attributes : Attributes}
    {value : AttributeValue} (h : attributes.getItem lib s.aliases attr = .ok value) :
    (lookupOrLoad lib polls attributes attr).run s = .ok value s := by
  unfold lookupOrLoad
  rw [EStateM.run_bind, EStateM.run_get]
  simp only [h]
  rfl

/-- A key that is missing is looked up in the table that `get_schema` leaves. -/
theorem SchemaMethod.lookupOrLoad_missing {s s' : SchemaState ω} {attributes : Attributes}
    {value : AttributeValue} (h : attributes.getItem lib s.aliases attr = .error .keyError) :
    (lookupOrLoad lib polls attributes attr).run s = .ok value s' ↔
      ∃ schema, (getSchema lib polls none).run s = .ok schema s' ∧
        attributes.getItem lib s'.aliases attr = .ok value := by
  unfold lookupOrLoad
  rw [EStateM.run_bind, EStateM.run_get]
  simp only [h]
  rw [EStateM.run_bind]
  cases hload : (getSchema lib polls none).run s with
  | error e t =>
    constructor
    · intro hrun
      cases hrun
    · rintro ⟨schema, hschema, -⟩
      cases hschema
  | ok schema t =>
    simp only
    rw [EStateM.run_bind, EStateM.run_get]
    simp only
    cases hitem : attributes.getItem lib t.aliases attr with
    | error e =>
      rw [onState_error (Method.ofExcept_error _ _)]
      constructor
      · intro hrun
        cases hrun
      · rintro ⟨schema', hschema, hfound⟩
        cases hschema
        rw [hitem] at hfound
        cases hfound
    | ok other =>
      rw [onState_ok (Method.ofExcept_ok _ _)]
      constructor
      · intro hrun
        cases hrun
        exact ⟨schema, rfl, hitem⟩
      · rintro ⟨schema', hschema, hfound⟩
        cases hschema
        rw [hitem] at hfound
        cases hfound
        rfl

end Answer

section Lookup

variable {lib : Schemata ω} {first : PyStr} {further : List PyStr} {aliases : List (PyStr × PyStr)}
  {name : PyStr}

theorem Blank.meets_iff (h : Blank lib first further aliases)
    (hname : Spells lib (first :: further) name) (key : PyStr) :
    Meets lib aliases name key ↔ lib.lower name = lib.lower key := by
  unfold Meets
  rw [h name hname]
  exact or_iff_right_of_imp (congrArg lib.lower)

theorem Loaded.meets_iff (h : Loaded lib first further aliases)
    (hname : Spells lib (first :: further) name) (key : PyStr) :
    Meets lib aliases name key ↔ Finds lib first further name key := by
  unfold Meets Finds
  by_cases hfurther : name ∈ further
  · simp [hfurther, (h name hname).1 hfurther]
  · simp [hfurther, (h name hname).2 hfurther]

theorem Blank.within (h : Blank lib first further aliases) (hname : Spells lib (first :: further) name) :
    Spells lib (first :: further) (unalias aliases name) := by
  rw [h name hname]
  exact hname

theorem Loaded.within (h : Loaded lib first further aliases) (hname : Spells lib (first :: further) name) :
    Spells lib (first :: further) (unalias aliases name) := by
  by_cases hfurther : name ∈ further
  · rw [(h name hname).1 hfurther]
    exact ⟨first, List.mem_cons_self, rfl⟩
  · rw [(h name hname).2 hfurther]
    exact hname

end Lookup

/-! ## One type -/

/-- A mapping with different keys for different types, which has the type under the key. -/
structure Attributes.Holds (lib : Schemata ω) (schema : Schema) (first : PyStr) (further : List PyStr)
    (attributes : Attributes) (key : PyStr) (value : AttributeValue) : Prop where
  distinct : attributes.Distinct lib schema
  value : dictGet attributes.items key = some value
  key : Spells lib (first :: further) key

namespace Attributes.Holds

variable {lib : Schemata ω} {schema : Schema} {first : PyStr} {further : List PyStr} {self : Attributes}
  {key : PyStr} {value : AttributeValue} (h : self.Holds lib schema first further key value)
  (htype : first :: further ∈ schema.attributes) {name : PyStr} (hname : Spells lib (first :: further) name)
include h htype hname

theorem found {aliases : List (PyStr × PyStr)} (hmeets : Meets lib aliases name key) :
    self.getItem lib aliases name = .ok value :=
  Attributes.getItem_of_meets htype h.distinct hname h.value h.key hmeets

theorem missing {aliases : List (PyStr × PyStr)}
    (hwithin : Spells lib (first :: further) (unalias aliases name)) (hmeets : ¬ Meets lib aliases name key) :
    self.getItem lib aliases name = .error .keyError := by
  refine Attributes.getItem_of_not_meets hname hwithin fun item hitem hitemKey => ?_
  rw [h.distinct _ htype item hitem (key, value) (dictGet_mem h.value) hitemKey h.key]
  exact hmeets

theorem missing_loaded {aliases : List (PyStr × PyStr)} (htable : Loaded lib first further aliases)
    (hfinds : ¬ Finds lib first further name key) : self.getItem lib aliases name = .error .keyError :=
  h.missing htype hname (htable.within hname) (mt (htable.meets_iff hname key).mp hfinds)

theorem missing_blank {aliases : List (PyStr × PyStr)} (htable : Blank lib first further aliases)
    (hlower : lib.lower name ≠ lib.lower key) : self.getItem lib aliases name = .error .keyError :=
  h.missing htype hname (htable.within hname) (mt (htable.meets_iff hname key).mp hlower)

variable {s : SchemaState ω} {polls : Nat}
  (hdeclared : self.getItem lib s.aliases name = .error .keyError → ∀ loaded s',
    (SchemaMethod.getSchema lib polls none).run s = .ok loaded s' →
    ∃ schemata, DeclaredAlike lib first further schemata ∧ s'.aliases = loadAll s.aliases schemata)
include hdeclared

/-- With the names of the type in the table, a second lookup finds no more than the first. -/
theorem lookup_loaded (htable : Loaded lib first further s.aliases) :
    (Finds lib first further name key →
      (SchemaMethod.lookupOrLoad lib polls self name).run s = .ok value s) ∧
    (¬ Finds lib first further name key → ∀ v s',
      (SchemaMethod.lookupOrLoad lib polls self name).run s ≠ .ok v s') := by
  constructor
  · intro hfinds
    exact SchemaMethod.lookupOrLoad_found (h.found htype hname ((htable.meets_iff hname key).mpr hfinds))
  · intro hfinds v s' hok
    have hmissing := h.missing_loaded htype hname htable hfinds
    obtain ⟨schema', hload, hitem⟩ := (SchemaMethod.lookupOrLoad_missing hmissing).mp hok
    obtain ⟨schemata, halike, haliases⟩ := hdeclared hmissing schema' s' hload
    -- the table is as loaded after `get_schema` as before
    have htable' : Loaded lib first further s'.aliases := by
      rw [haliases]
      exact halike.loaded htable
    rw [h.missing_loaded htype hname htable' hfinds] at hitem
    cases hitem

/-- Without them, a second lookup finds a further name if they have been loaded for it. -/
theorem lookup_blank (htable : Blank lib first further s.aliases) :
    (lib.lower name = lib.lower key →
      (SchemaMethod.lookupOrLoad lib polls self name).run s = .ok value s) ∧
    (lib.lower name ≠ lib.lower key → ∀ v s',
      (SchemaMethod.lookupOrLoad lib polls self name).run s = .ok v s' ↔
        v = value ∧ name ∈ further ∧ lib.lower first = lib.lower key ∧
        ∃ loaded, (SchemaMethod.getSchema lib polls none).run s = .ok loaded s' ∧
          Loaded lib first further s'.aliases) := by
  constructor
  · intro hlower
    exact SchemaMethod.lookupOrLoad_found (h.found htype hname ((htable.meets_iff hname key).mpr hlower))
  · intro hlower v s'
    have hmissing := h.missing_blank htype hname htable hlower
    rw [SchemaMethod.lookupOrLoad_missing hmissing]
    constructor
    · rintro ⟨loaded, hload, hitem⟩
      obtain ⟨schemata, halike, haliases⟩ := hdeclared hmissing loaded s' hload
      have htable' : Blank lib first further s'.aliases ∨ Loaded lib first further s'.aliases := by
        rw [haliases]
        exact halike.blank_or_loaded htable
      rcases htable' with hblank | hloaded
      · rw [h.missing_blank htype hname hblank hlower] at hitem
        cases hitem
      · by_cases hfinds : Finds lib first further name key
        · rw [h.found htype hname ((hloaded.meets_iff hname key).mpr hfinds)] at hitem
          cases hitem
          rcases hfinds with rfl | ⟨hfurther, hfirst⟩ | ⟨-, hsame⟩
          · exact absurd rfl hlower
          · exact ⟨rfl, hfurther, hfirst, loaded, hload, hloaded⟩
          · exact absurd hsame hlower
        · rw [h.missing_loaded htype hname hloaded hfinds] at hitem
          cases hitem
    · rintro ⟨rfl, hfurther, hfirst, loaded, hload, hloaded⟩
      have hfinds : Finds lib first further name key := .inr (.inl ⟨hfurther, hfirst⟩)
      exact ⟨loaded, hload, h.found htype hname ((hloaded.meets_iff hname key).mpr hfinds)⟩

end Attributes.Holds

/-- The schema that `get_attr` loads for a key that is missing is what the call fetches. -/
theorem Fetches.aliases_of_missing {lib : Schemata ω} {polls : Nat} {dn attr filterExpr : PyStr} {unique : Bool}
    {controls : Option Controls} {s s' : SchemaState ω} {attributes : Attributes} {state' : State ω}
    {loaded : Schema} (h : Fetches lib polls dn attr filterExpr unique controls s.state attributes state')
    (hmissing : attributes.getItem lib s.aliases attr = .error .keyError)
    (hload : (SchemaMethod.getSchema lib polls none).run { s with state := state' } = .ok loaded s') :
    s'.aliases = loadAll s.aliases
      ((AttributeCall.getAttr dn attr filterExpr unique controls).fetched lib polls s) := by
  have hstep : (AttributeCall.getAttr dn attr filterExpr unique controls).step lib polls s = s' := by
    show final ((_ <$> SchemaMethod.getAttr lib polls dn attr filterExpr unique controls).run s) = s'
    rw [run_map, h.getAttr_run]
    unfold SchemaMethod.lookupOrLoad
    rw [EStateM.run_bind, EStateM.run_get]
    simp only [hmissing]
    rw [EStateM.run_bind, hload]
    simp only
    rw [EStateM.run_bind, EStateM.run_get]
    simp only
    cases hitem : attributes.getItem lib s'.aliases attr with
    | error e =>
      rw [SchemaMethod.onState_error (Method.ofExcept_error _ _)]
      rfl
    | ok value =>
      rw [SchemaMethod.onState_ok (Method.ofExcept_ok _ _)]
      rfl
  rw [← hstep]
  exact (AttributeCall.step_aliases _ _ s _).1

/-- Where the schemata that a history fetches declare a type alike, the table has its further
names as soon as one of them has been loaded, and keeps them through all calls. Then `get_attr`
finds a name exactly if the table says so, without a request for the schema; before, it finds
the name in any letter case, and a further name also under the first one if `get_schema` loads
the type. -/
theorem get_attr_history {lib : Schemata ω} {schema : Schema} {first : PyStr} {further : List PyStr}
    (htype : first :: further ∈ schema.attributes) (polls : Nat) (s₀ : SchemaState ω)
    (hblank : Blank lib first further s₀.aliases) (calls : List (AttributeCall ω))
    (hdeclared : DeclaredAlike lib first further (AttributeCall.fetchedAll lib polls s₀ calls)) :
    let s := after (AttributeCall.step lib polls) s₀ calls
    (Blank lib first further s.aliases ∨ Loaded lib first further s.aliases) ∧
    (Loaded lib first further s.aliases → ∀ later,
      DeclaredAlike lib first further (AttributeCall.fetchedAll lib polls s later) →
      Loaded lib first further (after (AttributeCall.step lib polls) s later).aliases) ∧
    ∀ dn name filterExpr unique controls attributes state' key value,
      Fetches lib polls dn name filterExpr unique controls s.state attributes state' →
      attributes.Holds lib schema first further key value → Spells lib (first :: further) name →
      DeclaredAlike lib first further
        ((AttributeCall.getAttr dn name filterExpr unique controls).fetched lib polls s) →
      let run := (SchemaMethod.getAttr lib polls dn name filterExpr unique controls).run s
      (Loaded lib first further s.aliases →
        (Finds lib first further name key → run = .ok value { s with state := state' }) ∧
        (¬ Finds lib first further name key → ∀ v s', run ≠ .ok v s')) ∧
      (Blank lib first further s.aliases →
        (lib.lower name = lib.lower key → run = .ok value { s with state := state' }) ∧
        (lib.lower name ≠ lib.lower key → ∀ v s', run = .ok v s' ↔
          v = value ∧ name ∈ further ∧ lib.lower first = lib.lower key ∧
          ∃ loaded, (SchemaMethod.getSchema lib polls none).run { s with state := state' } = .ok loaded s' ∧
            Loaded lib first further s'.aliases)) := by
  intro s
  have htable : Blank lib first further s.aliases ∨ Loaded lib first further s.aliases := by
    rw [(AttributeCall.after_aliases _ _ calls s₀).1]
    exact hdeclared.blank_or_loaded hblank
  refine ⟨htable, fun hloaded later hlater => ?_, ?_⟩
  · rw [(AttributeCall.after_aliases _ _ later s).1]
    exact hlater.loaded hloaded
  intro dn name filterExpr unique controls attributes state' key value hfetches hholds hname halike run
  have hrun : run = _ := hfetches.getAttr_run
  have hloads : attributes.getItem lib s.aliases name = .error .keyError → ∀ loaded s',
      (SchemaMethod.getSchema lib polls none).run { s with state := state' } = .ok loaded s' →
      ∃ schemata, DeclaredAlike lib first further schemata ∧ s'.aliases = loadAll s.aliases schemata :=
    fun hmissing loaded s' hload => ⟨_, halike, hfetches.aliases_of_missing hmissing hload⟩
  rw [hrun]
  exact ⟨fun hloaded => hholds.lookup_loaded htype hname hloads hloaded,
    fun hblank => hholds.lookup_blank htype hname hloads hblank⟩

/-! ### A name before and after loading -/

/-- The definition of `cn` that a subschema has. -/
def commonNameDefinition : Bytes := (encodeUtf8 (py "( 2.5.4.3 NAME ( 'cn' 'commonName' ) )")).getD []

/-- The names of a definition: what stands between quotes. -/
def quotedNames (definition : List PyStr) : List PyStr :=
  match definition with
  | _ :: name :: rest => name :: quotedNames rest
  | _ => []

/-- The names of the attribute types that an entry defines. -/
def definedNames (subschema : Option Attributes) : List (List PyStr) :=
  match subschema.bind fun attributes => dictGet attributes.items (py "attributeTypes") with
  | some (.values definitions) => definitions.map fun definition =>
    quotedNames ((definition.map UInt8.toNat).splitOn 39)
  | _ => []

/-- Objects have their common name under `commonname`; the subschema defines it. -/
def commonNameAnswer (op : Operation) : List Entry :=
  match op.request with
  | .searchExt base _ filterstr (some [attr]) _ _ _ =>
    if filterstr = py "(objectClass=subschema)" then [(base, [(attr, [commonNameDefinition])])]
    else if attr = py "commonName" then [(base, [(py "commonname", [[102]])])]
    else schemaDeskAnswer op
  | _ => []

/-- A server with one type, of two names. -/
def commonNameDesk : Schemata SchemaDesk :=
  { schemaDesk with
    lower := simpleSchemata.lower
    schemaAttrs := [py "attributeTypes"]
    subSchema := fun subschema => .ok (definedNames subschema)
    request := fun _ op w => .ok (some 1) { w with reply := commonNameAnswer op } }

/-- The connection after these calls. -/
def commonNameAfter (calls : List (AttributeCall SchemaDesk)) : SchemaState SchemaDesk :=
  after (AttributeCall.step commonNameDesk 1) (.init schemaState []) calls

/-- The attributes that the server sends. -/
def commonNameAttributes : Attributes := ⟨[(py "commonname", .values [[102]])]⟩

/-- The schema that the server has, as the first session reads it. -/
def commonNameSchema : Schema where
  identity := 0
  session := { connects := 1, reconnects := 0 }
  attributes := [[py "cn", py "commonName"]]

theorem commonNameSchema_declares :
    DeclaredAlike commonNameDesk (py "cn") [py "commonName"] [commonNameSchema] := by
  intro schema hmem names hnames name _ _
  cases List.mem_singleton.mp hmem
  exact List.mem_singleton.mp hnames

theorem commonName_loaded : Loaded commonNameDesk (py "cn") [py "commonName"]
    (commonNameAfter [.connect none, .getSchema none]).aliases := by
  intro name _
  rw [show (commonNameAfter [.connect none, .getSchema none]).aliases = [(py "commonName", py "cn")] from rfl]
  unfold unalias
  rw [dictGet_cons, List.mem_singleton]
  constructor
  · intro hname
    rw [if_pos hname.symm]
    rfl
  · intro hname
    rw [if_neg (Ne.symm hname)]
    rfl

/-- `commonName` finds `commonname`, until the schema has been loaded. -/
theorem get_attr_history_commonName :
    AttributeCall.fetchedAll commonNameDesk 1 (.init schemaState []) [.connect none, .getSchema none] =
      [commonNameSchema] ∧
    (∃ s', (SchemaMethod.getAttr commonNameDesk 1 (py "cn=a") (py "commonName")).run
      (commonNameAfter [.connect none]) = .ok (.values [[102]]) s') ∧
    ∀ v s', (SchemaMethod.getAttr commonNameDesk 1 (py "cn=a") (py "commonName")).run
      (commonNameAfter [.connect none, .getSchema none]) ≠ .ok v s' := by
  have hfetched : AttributeCall.fetchedAll commonNameDesk 1 (.init schemaState [])
      [.connect none, .getSchema none] = [commonNameSchema] := rfl
  have htype : py "cn" :: [py "commonName"] ∈ commonNameSchema.attributes := List.mem_cons_self
  have hblank : Blank commonNameDesk (py "cn") [py "commonName"] (SchemaState.init schemaState []).aliases :=
    fun name _ => rfl
  have hdistinct : commonNameAttributes.Distinct commonNameDesk commonNameSchema := by
    intro names _ item hitem item' hitem' _ _
    rw [List.mem_singleton.mp hitem, List.mem_singleton.mp hitem']
  have hname : Spells commonNameDesk (py "cn" :: [py "commonName"]) (py "commonName") :=
    ⟨_, List.mem_cons_of_mem _ List.mem_cons_self, rfl⟩
  have hkey : Spells commonNameDesk (py "cn" :: [py "commonName"]) (py "commonname") :=
    ⟨_, List.mem_cons_of_mem _ List.mem_cons_self, by decide⟩
  have hholds : commonNameAttributes.Holds commonNameDesk commonNameSchema (py "cn") [py "commonName"]
      (py "commonname") (.values [[102]]) := ⟨hdistinct, rfl, hkey⟩
  have hnone : DeclaredAlike commonNameDesk (py "cn") [py "commonName"] [] :=
    fun schema hmem => absurd hmem List.not_mem_nil
  refine ⟨hfetched, ?_, ?_⟩
  · obtain ⟨-, -, hbefore⟩ := get_attr_history htype 1 (.init schemaState []) hblank [.connect none] hnone
    have hanswer := hbefore (py "cn=a") (py "commonName") (py "(objectClass=*)") false none commonNameAttributes
      _ _ _ ⟨_, rfl, rfl⟩ hholds hname hnone
    exact ⟨_, (hanswer.2 fun name _ => rfl).1 (by decide)⟩
  · obtain ⟨-, -, hafter⟩ := get_attr_history htype 1 (.init schemaState []) hblank
      [.connect none, .getSchema none] (by rw [hfetched]; exact commonNameSchema_declares)
    have hanswer := hafter (py "cn=a") (py "commonName") (py "(objectClass=*)") false none commonNameAttributes
      _ _ _ ⟨_, rfl, rfl⟩ hholds hname hnone
    exact (hanswer.1 commonName_loaded).2 (by unfold Finds; decide)

end FreeIam.Ldap
