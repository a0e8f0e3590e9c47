import FreeIam.Ldap.Connection.PagingServer
import FreeIam.Ldap.Connection.Schema

/-!
# Coherence of the schema cache

One counter guards a dictionary with many keys. After a reconnect, the first
`get_schema` deletes the one key it is asked for, which may not be there, and sets the
counter; the other keys keep what an earlier session has fetched, and so do all keys
when `connect` resets the counter. The cache is coherent exactly along the sequences of
calls that ask for no such key.
-/

namespace FreeIam.Ldap

open FreeIam.Py FreeIam.Errors FreeIam.Exec

variable {ω α β : Type}

/-! ## Keys -/

/-- Keys that are the same are so up to equality of names. -/
theorem SchemaKey.same_equivalence (lib : Schemata ω) :
    Equivalence fun a b => SchemaKey.same lib a b = true where
  refl := fun a => by
    cases a with
    | none => rfl
    | some arg =>
      cases arg with
      | dn dn => exact beq_self_eq_true _
      | text text => exact beq_self_eq_true _
  symm := fun {a b} h => by
    rcases a with _ | ⟨a | a⟩ <;> rcases b with _ | ⟨b | b⟩ <;> 
      first | rfl | exact absurd h Bool.false_ne_true | skip
    · exact beq_iff_eq.mpr (beq_iff_eq.mp h).symm
    · exact beq_iff_eq.mpr (beq_iff_eq.mp h).symm
  trans := fun {a b c} h h' => by
    rcases a with _ | ⟨a | a⟩ <;> rcases b with _ | ⟨b | b⟩ <;> rcases c with _ | ⟨c | c⟩ <;>
      first | rfl | exact absurd h Bool.false_ne_true | exact absurd h' Bool.false_ne_true | skip
    · exact beq_iff_eq.mpr ((beq_iff_eq.mp h).trans (beq_iff_eq.mp h'))
    · exact beq_iff_eq.mpr ((beq_iff_eq.mp h).trans (beq_iff_eq.mp h'))

/-! ## Attributes of an entry -/

theorem attributeValues_eq {items : List (PyStr × AttributeValue)}
    {attributes : List (PyStr × List Bytes)} (h : attributeValues items = some attributes) :
    items = attributes.map fun item => (item.1, .values item.2) := by
  induction items generalizing attributes with
  | nil =>
    cases h
    rfl
  | cons item items ih =>
    obtain ⟨name, value⟩ := item
    cases value with
    | text text => cases h
    | values values =>
      obtain ⟨rest, hrest, rfl⟩ := Option.map_eq_some_iff.mp h
      rw [List.map_cons, ← ih hrest]

/-- The mapping that a search result has of an entry. -/
def Entry.attributes (entry : Entry) : Attributes :=
  ⟨entry.2.map fun item => (item.1, .values item.2)⟩

/-- An attribute under the name that the entry has it by. -/
theorem Entry.getItem {lib : Schemata ω} {entry : Entry} {key : PyStr} {values : List Bytes}
    (h : dictGet entry.2 key = some values) (aliases : List (PyStr × PyStr)) :
    entry.attributes.getItem lib aliases key = .ok (.values values) := by
  unfold Attributes.getItem Entry.attributes
  rw [dictGet_map, h]
  rfl

/-- A result that is an entry has its attributes. -/
theorem Result.attr_of_entry {result : Result} {entry : Entry} (h : result.entry? = some entry) :
    result.attr = some entry.attributes := by
  unfold Result.entry? at h
  cases hdn : result.dn with
  | none =>
    rw [hdn] at h
    cases h
  | some dn =>
    cases hattr : result.attr with
    | none =>
      rw [hdn, hattr] at h
      cases h
    | some attr =>
      rw [hdn, hattr] at h
      obtain ⟨attributes, hattributes, rfl⟩ := Option.map_eq_some_iff.mp h
      exact congrArg some (congrArg Attributes.mk (attributeValues_eq hattributes))

/-! ## Objects that a server has -/

section Objects

variable {env : Env ω} {s : State ω} {o : Obj} {args : SearchArgs} {K : ω → Prop} {entry : Entry}

/-- A search without controls is answered by one entry. -/
def AnsweredBy (env : Env ω) (slots : Slots) (o : Obj) (args : SearchArgs) (K : ω → Prop)
    (entry : Entry) (w : ω) : Prop :=
  ∃ number w' r, (env.request o (args.operation slots.timeout none)).run w = .ok (some number) w' ∧
    DeliveredTo env slots o number true K [r] w' ∧ r.type = some .searchResult ∧
    r.data = some ((messages [entry]).map SearchMessage.datum)

/-- It returns the entry. -/
theorem search_single (hconn : s.self.conn = some o) (hattempts : 0 < s.self.maxConnectionAttempts)
    (hsorting : args.sorting = []) (hcontrols : args.controls = none)
    (hnamed : Named env [entry]) (hanswered : AnsweredBy env s.self.toSlots o args K entry s.world) :
    ∃ n result w' log, K w' ∧ result.attr = some entry.attributes ∧
      ∀ polls, n ≤ polls →
        (Method.search env polls args).run s = .ok [result] ⟨s.self, w', s.calls ++ log⟩ := by
  obtain ⟨number, w, r, hsent, hdel, htype, hdata⟩ := hanswered
  have hset : (Shared.setSorting args false : Shared ω Unit).run (s, none) = .ok () (s, none) := by
    unfold Shared.setSorting
    rw [hsorting]
    rfl
  obtain ⟨n, results, w', log, hK, hall, hlength, hrun⟩ := Shared.search_answered hconn hattempts hset
    hsent hdel htype hdata (messages_valid hnamed) messages_isReference
  obtain ⟨result, rfl⟩ := List.length_eq_one_iff.mp hlength
  refine ⟨n, result, w', log, hK, Result.attr_of_entry ?_, fun polls hpolls => ?_⟩
  · unfold AreEntries at hall
    rw [entries_messages] at hall
    exact (List.cons.inj hall).1
  · rw [← Shared.forget_search, hcontrols, hrun polls hpolls, if_neg (by simp)]
    rfl

/-- With no attempts there is no search. -/
theorem search_unattempted (hconn : s.self.conn = some o) (hattempts : s.self.maxConnectionAttempts = 0)
    (hsorting : args.sorting = []) (polls : Nat) :
    (Method.search env polls args).run s = .error (.runtimeError "") s := by
  have hretry : ∀ op : Operation, (Method.execute env polls o op).run s = .error (.runtimeError "") s := by
    intro op
    unfold Method.execute Method.retry
    rw [EStateM.run_bind, EStateM.run_bind, EStateM.run_get]
    simp only [hattempts]
    rfl
  have hcontrols : args.searchControls false = .ok args.controls := by
    unfold SearchArgs.searchControls
    rw [hsorting]
    rfl
  unfold Method.search
  rw [EStateM.run_bind, Method.conn_ok hconn]
  simp only [hcontrols]
  rw [EStateM.run_bind, Method.ofExcept_ok]
  unfold Method.searchedFor
  simp only [run_tryCatch, EStateM.run_bind, EStateM.run_get, hretry]
  rfl

end Objects

/-! ## A server that serves a schema -/

/-- A program outside keeps LDAP objects `live` and undoes no reconnect. -/
def Sustains (lib : Schemata ω) (live : ω → Obj → Prop) (m : EStateM PyExc ω α) : Prop :=
  ∀ w o, live w o → live (final (m.run w)) o ∧
    lib.reconnectsDone w o ≤ lib.reconnectsDone (final (m.run w)) o

/-- The arguments of the search for the subschema subentry. -/
def subentryArgs (base : PyStr) : SearchArgs :=
  { base := base, scope := .base, attrs := some [py "subschemaSubentry"] }

/-- The arguments of the search for the schema. -/
def schemaArgs (lib : Schemata ω) (dn : PyStr) : SearchArgs :=
  { base := dn, scope := .base, filterExpr := py "(objectClass=subschema)", attrs := some lib.schemaAttrs }

/-- A server that always serves a schema: on an object that is live it answers the
search for the subschema subentry of every name by one that names an entry with a
schema, and the search for that entry by the schema, without a reconnect. What
`connect` makes is live, and no call ends that. -/
structure SchemaServer (lib : Schemata ω) where
  live : ω → Obj → Prop
  holds : PyStr → Prop
  subentry : ∀ w o slots base, live w o → ∃ entry value values text,
    AnsweredBy lib.toEnv slots o (subentryArgs base)
      (fun w' => live w' o ∧ lib.reconnectsDone w' o = lib.reconnectsDone w o) entry w ∧
    Named lib.toEnv [entry] ∧ dictGet entry.2 (py "subschemaSubentry") = some (value :: values) ∧
    decodeUtf8 value = some text ∧ holds text
  schema : ∀ w o slots dn, live w o → holds dn → ∃ entry types,
    AnsweredBy lib.toEnv slots o (schemaArgs lib dn)
      (fun w' => live w' o ∧ lib.reconnectsDone w' o = lib.reconnectsDone w o) entry w ∧
    Named lib.toEnv [entry] ∧ lib.subSchema (some entry.attributes) = .ok types
  loop : Sustains lib live lib.getRunningLoop
  setOption : ∀ o x v, Sustains lib live (lib.setOption o x v)
  getOption : ∀ o x, Sustains lib live (lib.getOption o x)
  reconnect : ∀ o uri n force, Sustains lib live (lib.reconnect o uri n force)
  simpleBindS : ∀ o bind, Sustains lib live (lib.simpleBindS o bind)
  startTlsS : ∀ o, Sustains lib live (lib.startTlsS o)
  reconnectLDAPObject : ∀ uri fileno n, Sustains lib live (lib.reconnectLDAPObject uri fileno n)
  simpleLDAPObject : ∀ uri fileno, Sustains lib live (lib.simpleLDAPObject uri fileno)
  reconnectLDAPObject_live : ∀ uri fileno n w o w',
    (lib.reconnectLDAPObject uri fileno n).run w = .ok o w' → live w' o
  simpleLDAPObject_live : ∀ uri fileno w o w',
    (lib.simpleLDAPObject uri fileno).run w = .ok o w' → live w' o

/-! ## Running get_schema -/

namespace SchemaMethod

variable {lib : Schemata ω} {s : SchemaState ω}

theorem run_onState (m : Method ω α) (s : SchemaState ω) :
    (onState m).run s =
      match m.run s.state with
      | .ok a state => .ok a { s with state := state }
      | .error e state => .error e { s with state := state } := by
  unfold onState
  rw [run_zoom]
  cases m.run s.state <;> rfl

theorem onState_ok {m : Method ω α} {a : α} {state : State ω} (h : m.run s.state = .ok a state) :
    (onState m).run s = .ok a { s with state := state } := by
  rw [run_onState, h]

theorem onState_error {m : Method ω α} {e : PyExc} {state : State ω}
    (h : m.run s.state = .error e state) : (onState m).run s = .error e { s with state := state } := by
  rw [run_onState, h]

theorem schema_run {items : List (SchemaKey × Schema)} (h : s.schema = some items) :
    schema.run s = .ok items s := by
  unfold schema
  rw [EStateM.run_bind, EStateM.run_get]
  simp only [h]
  rfl

theorem reconnectsCounter_run {counter : Nat} (h : s.reconnectsCounter = some counter) :
    reconnectsCounter.run s = .ok counter s := by
  unfold reconnectsCounter
  rw [EStateM.run_bind, EStateM.run_get]
  simp only [h]
  rfl

/-- The LDAP object has been reconnected since the counter was set. -/
def Outdated (lib : Schemata ω) (counter : Nat) (w : ω) (o : Obj) : Prop :=
  lib.isReconnectLDAPObject o = true ∧ counter < lib.reconnectsDone w o

instance (lib : Schemata ω) (counter : Nat) (w : ω) (o : Obj) : Decidable (Outdated lib counter w o) :=
  inferInstanceAs (Decidable (_ ∧ _))

/-- The state with the key dropped and the counter set. -/
def invalidated (lib : Schemata ω) (s : SchemaState ω) (o : Obj)
    (items : List (SchemaKey × Schema)) (key : SchemaKey) : SchemaState ω :=
  { s with
    schema := some (Dict.del (SchemaKey.same lib) items key)
    reconnectsCounter := some (lib.reconnectsDone s.state.world o) }

variable {o : Obj} {items : List (SchemaKey × Schema)} {counter : Nat}

theorem reconnected_run (hcounter : s.reconnectsCounter = some counter) :
    (reconnected lib o).run s = .ok (decide (Outdated lib counter s.state.world o)) s := by
  unfold reconnected
  by_cases hclass : lib.isReconnectLDAPObject o = true
  · rw [if_pos hclass, EStateM.run_bind, EStateM.run_get]
    simp only [EStateM.run_bind, reconnectsCounter_run hcounter, EStateM.run_pure, Outdated, hclass,
      true_and]
  · rw [if_neg hclass]
    rw [decide_eq_false fun hout => hclass hout.1]
    rfl

theorem invalidate_run (hconn : s.state.self.conn = some o) (hitems : s.schema = some items)
    (hcounter : s.reconnectsCounter = some counter) (key : SchemaKey) :
    (invalidate lib o key).run s =
      if Outdated lib counter s.state.world o then
        match Dict.get (SchemaKey.same lib) items key with
        | none => .error .keyError s
        | some _ => .ok () (invalidated lib s o items key)
      else .ok () s := by
  unfold invalidate
  rw [EStateM.run_bind, reconnected_run hcounter]
  by_cases hout : Outdated lib counter s.state.world o
  · rw [if_pos hout]
    simp only [hout, decide_true, if_true]
    rw [EStateM.run_bind]
    unfold delSchema
    rw [EStateM.run_bind, schema_run hitems]
    cases hget : Dict.get (SchemaKey.same lib) items key with
    | none =>
      simp only [hget]
      rfl
    | some cached =>
      simp only [hget]
      have hconn' : Method.conn.run s.state = .ok o s.state := Method.conn_ok hconn
      rw [EStateM.run_modify]
      simp only [EStateM.run_bind, run_onState, hconn']
      rfl
  · rw [if_neg hout]
    simp only [hout, decide_false]
    rfl

/-- The text that the subschema subentry of a key is searched with. -/
def base (lib : Schemata ω) (key : SchemaKey) : PyStr :=
  match key with
  | none => []
  | some dn => if key.isTrue then DN.str lib.toModlists dn else []

theorem searchSubentry_eq (lib : Schemata ω) (polls : Nat) (key : SchemaKey) :
    searchSubentry lib polls key =
      Method.getObject lib.toEnv polls (base lib key) (some [py "subschemaSubentry"]) := by
  unfold searchSubentry base
  cases key with
  | none => rfl
  | some dn =>
    simp only
    split <;> rfl

/-- The name that an entry gives for its schema. -/
theorem subschemaSubentryDn_of_entry {result : Result} {entry : Entry} {value : Bytes}
    {values : List Bytes} {text : PyStr} (hattr : result.attr = some entry.attributes)
    (hget : dictGet entry.2 (py "subschemaSubentry") = some (value :: values))
    (htext : decodeUtf8 value = some text) (aliases : List (PyStr × PyStr)) :
    subschemaSubentryDn lib aliases (some result) = .ok text := by
  have hitem : entry.attributes.getItem lib aliases (py "subschemaSubentry") = _ :=
    Entry.getItem hget aliases
  have hfirst : (AttributeValue.values (value :: values)).firstText = .ok text := by
    simp only [AttributeValue.firstText, htext]
  have hattributes : Result.attributes (some result) = .ok (some entry.attributes) :=
    congrArg Except.ok hattr
  unfold subschemaSubentryDn
  rw [hattributes]
  show (entry.attributes.getItem lib aliases (py "subschemaSubentry") >>= fun value =>
    value.firstText) = _
  rw [hitem]
  exact hfirst

/-- An object that is found. -/
theorem getObject_run {dn : PyStr} {attrs : Option (List PyStr)} {filterExpr : PyStr} {K : ω → Prop}
    {entry : Entry} {s : State ω} (hconn : s.self.conn = some o)
    (hattempts : 0 < s.self.maxConnectionAttempts) (hnamed : Named lib.toEnv [entry])
    (hanswered : AnsweredBy lib.toEnv s.self.toSlots o
      { base := dn, scope := .base, filterExpr := filterExpr, attrs := attrs } K entry s.world) :
    ∃ n result w' log, K w' ∧ result.attr = some entry.attributes ∧
      ∀ polls, n ≤ polls → (Method.getObject lib.toEnv polls dn attrs filterExpr).run s =
        .ok (some result) ⟨s.self, w', s.calls ++ log⟩ := by
  obtain ⟨n, result, w', log, hK, hattr, hrun⟩ := search_single hconn hattempts rfl rfl hnamed hanswered
  refine ⟨n, result, w', log, hK, hattr, fun polls hpolls => ?_⟩
  unfold Method.getObject
  rw [EStateM.run_bind, hrun polls hpolls]
  rfl

theorem getObject_unattempted {dn : PyStr} {attrs : Option (List PyStr)} {filterExpr : PyStr}
    {s : State ω} (hconn : s.self.conn = some o)
    (hattempts : s.self.maxConnectionAttempts = 0) (polls : Nat) :
    (Method.getObject lib.toEnv polls dn attrs filterExpr).run s =
      .error (.runtimeError "") s := by
  unfold Method.getObject
  rw [EStateM.run_bind, search_unattempted hconn hattempts rfl polls]

/-- With no attempts nothing is fetched. -/
theorem fetchSchema_unattempted (hconn : s.state.self.conn = some o)
    (hattempts : s.state.self.maxConnectionAttempts = 0) (polls : Nat)
    (delegate : SchemaMethod ω Schema) (key : SchemaKey) :
    (fetchSchema lib polls delegate key).run s = .error (.runtimeError "") s := by
  have hobject : (onState (searchSubentry lib polls key)).run s = .error (.runtimeError "") s := by
    rw [searchSubentry_eq]
    exact onState_error (getObject_unattempted hconn hattempts polls)
  unfold fetchSchema findSubentry
  rw [EStateM.run_bind, run_tryCatch, EStateM.run_bind, hobject]
  rfl

theorem storeSchema_run (hitems : s.schema = some items) {subschema : Option Attributes}
    {types : List (List PyStr)} (htypes : lib.subSchema subschema = .ok types) (key : SchemaKey) :
    (storeSchema lib key subschema).run s = .ok ⟨s.made, s.session lib, types⟩
      { s with
        schema := some (Dict.set (SchemaKey.same lib) items key ⟨s.made, s.session lib, types⟩)
        aliases := s.aliases ++ Schema.getAttributeAliases ⟨s.made, s.session lib, types⟩
        made := s.made + 1 } := by
  unfold storeSchema
  rw [htypes, EStateM.run_bind, onState_ok (Method.ofExcept_ok _ _)]
  simp only
  rw [EStateM.run_bind, schema_run hitems]
  rfl

/-- What a server that always serves a schema has answered: the object stored, the
one returned, and what the connection is left with. -/
theorem fetchSchema_run (server : SchemaServer lib) (hconn : s.state.self.conn = some o)
    (hlive : server.live s.state.world o) (hitems : s.schema = some items)
    (hattempts : 0 < s.state.self.maxConnectionAttempts) (key : SchemaKey) :
    ∃ n fetched w log aliases, server.live w o ∧
      lib.reconnectsDone w o = lib.reconnectsDone s.state.world o ∧ fetched.session = s.session lib ∧
      ∀ polls delegate, n ≤ polls → (fetchSchema lib polls delegate key).run s = .ok fetched
        { s with
          state := ⟨s.state.self, w, log⟩
          schema := some (Dict.set (SchemaKey.same lib) items key fetched)
          aliases := aliases
          made := s.made + 1 } := by
  obtain ⟨entry, value, values, text, hentry, hnamed, hget, htext, hholds⟩ :=
    server.subentry s.state.world o s.state.self.toSlots (base lib key) hlive
  obtain ⟨n₁, result₁, w₁, log₁, ⟨hlive₁, hdone₁⟩, hattr₁, hrun₁⟩ :=
    getObject_run hconn hattempts hnamed hentry
  obtain ⟨entry', types, hentry', hnamed', htypes⟩ :=
    server.schema w₁ o s.state.self.toSlots text hlive₁ hholds
  obtain ⟨n₂, result₂, w₂, log₂, ⟨hlive₂, hdone₂⟩, hattr₂, hrun₂⟩ :=
    getObject_run (s := ⟨s.state.self, w₁, s.state.calls ++ log₁⟩) hconn hattempts hnamed' hentry'
  have hdone : lib.reconnectsDone w₂ o = lib.reconnectsDone s.state.world o := hdone₂.trans hdone₁
  let fetched : Schema := { identity := s.made, session := s.session lib, attributes := types }
  refine ⟨max n₁ n₂, fetched, w₂, s.state.calls ++ log₁ ++ log₂,
    s.aliases ++ fetched.getAttributeAliases, hlive₂, hdone, rfl, fun polls delegate hpolls => ?_⟩
  -- the first search names the subschema, the second one reads it
  have hfind : (findSubentry lib polls delegate key).run s =
      .ok (.entry text) { s with state := ⟨s.state.self, w₁, s.state.calls ++ log₁⟩ } := by
    have hname : subschemaSubentryDn lib s.aliases (some result₁) = .ok text :=
      subschemaSubentryDn_of_entry hattr₁ hget htext s.aliases
    have hsearch : (onState (searchSubentry lib polls key)).run s =
        .ok (some result₁) { s with state := ⟨s.state.self, w₁, s.state.calls ++ log₁⟩ } := by
      rw [searchSubentry_eq]
      exact onState_ok (hrun₁ polls (le_trans (Nat.le_max_left ..) hpolls))
    unfold findSubentry
    rw [run_tryCatch, EStateM.run_bind, hsearch]
    simp only [EStateM.run_bind, EStateM.run_get, hname]
    rfl
  have hread : (readSubschema lib polls text).run
      { s with state := ⟨s.state.self, w₁, s.state.calls ++ log₁⟩ } =
      .ok (some entry'.attributes)
        { s with state := ⟨s.state.self, w₂, s.state.calls ++ log₁ ++ log₂⟩ } := by
    have hobject : (onState (Method.getObject lib.toEnv polls text (some lib.schemaAttrs)
        (py "(objectClass=subschema)"))).run
        { s with state := ⟨s.state.self, w₁, s.state.calls ++ log₁⟩ } =
        .ok (some result₂) { s with state := ⟨s.state.self, w₂, s.state.calls ++ log₁ ++ log₂⟩ } :=
      onState_ok (hrun₂ polls (le_trans (Nat.le_max_right ..) hpolls))
    unfold readSubschema
    rw [run_tryCatch, EStateM.run_bind, hobject]
    simp only [Result.attributes, hattr₂]
    rfl
  unfold fetchSchema
  rw [EStateM.run_bind, hfind]
  simp only
  rw [EStateM.run_bind, hread]
  simp only
  have hsession : ({ s with state := ⟨s.state.self, w₂, s.state.calls ++ log₁ ++ log₂⟩ } :
      SchemaState ω).session lib = s.session lib := by
    unfold SchemaState.session
    simp only [hconn, Option.map_some, hdone]
  rw [storeSchema_run (s := { s with state := ⟨s.state.self, w₂, s.state.calls ++ log₁ ++ log₂⟩ })
    hitems htypes, hsession]

/-- Without a connection there is no schema. -/
theorem getSchemaOr_none (hconn : s.state.self.conn = none) (polls : Nat)
    (delegate : SchemaMethod ω Schema) (key : SchemaKey) :
    (getSchemaOr lib polls delegate key).run s = .error (.runtimeError "not connected") s := by
  unfold getSchemaOr
  rw [EStateM.run_bind, onState_error (Method.conn_none hconn)]

/-- The key is to be dropped and is not there. -/
theorem getSchemaOr_missing (hconn : s.state.self.conn = some o) (hitems : s.schema = some items)
    (hcounter : s.reconnectsCounter = some counter) {key : SchemaKey}
    (hout : Outdated lib counter s.state.world o)
    (hget : Dict.get (SchemaKey.same lib) items key = none) (polls : Nat)
    (delegate : SchemaMethod ω Schema) :
    (getSchemaOr lib polls delegate key).run s = .error .keyError s := by
  unfold getSchemaOr
  rw [EStateM.run_bind, onState_ok (Method.conn_ok hconn)]
  simp only
  rw [EStateM.run_bind, invalidate_run (s := { s with state := s.state }) hconn hitems hcounter,
    if_pos hout, hget]

/-- After the invalidation the key is looked up, and fetched where it is not there. -/
theorem getSchemaOr_invalidated (hconn : s.state.self.conn = some o) {key : SchemaKey}
    {t : SchemaState ω} (hinvalidate : (invalidate lib o key).run s = .ok () t)
    (hitems : t.schema = some items) (polls : Nat) (delegate : SchemaMethod ω Schema) :
    (∀ cached, Dict.get (SchemaKey.same lib) items key = some cached →
      (getSchemaOr lib polls delegate key).run s = .ok cached t) ∧
    (Dict.get (SchemaKey.same lib) items key = none →
      (getSchemaOr lib polls delegate key).run s = (fetchSchema lib polls delegate key).run t) := by
  unfold getSchemaOr
  rw [EStateM.run_bind, onState_ok (Method.conn_ok hconn)]
  simp only
  rw [EStateM.run_bind, hinvalidate]
  simp only
  rw [EStateM.run_bind, schema_run hitems]
  constructor
  · intro cached hget
    simp only [hget]
    rfl
  · intro hget
    simp only [hget]

theorem invalidate_current (hconn : s.state.self.conn = some o) (hitems : s.schema = some items)
    (hcounter : s.reconnectsCounter = some counter) (hout : ¬Outdated lib counter s.state.world o)
    (key : SchemaKey) : (invalidate lib o key).run s = .ok () s := by
  rw [invalidate_run hconn hitems hcounter, if_neg hout]

/-- The key is there. -/
theorem getSchemaOr_cached (hconn : s.state.self.conn = some o) (hitems : s.schema = some items)
    (hcounter : s.reconnectsCounter = some counter) {key : SchemaKey} {cached : Schema}
    (hout : ¬Outdated lib counter s.state.world o)
    (hget : Dict.get (SchemaKey.same lib) items key = some cached) (polls : Nat)
    (delegate : SchemaMethod ω Schema) :
    (getSchemaOr lib polls delegate key).run s = .ok cached s :=
  (getSchemaOr_invalidated hconn (invalidate_current hconn hitems hcounter hout key) hitems
    polls delegate).1 cached hget

/-- The key has been dropped. -/
theorem getSchemaOr_dropped (hconn : s.state.self.conn = some o) (hitems : s.schema = some items)
    (hcounter : s.reconnectsCounter = some counter) {key : SchemaKey} {cached : Schema}
    (hout : Outdated lib counter s.state.world o)
    (hget : Dict.get (SchemaKey.same lib) items key = some cached) (polls : Nat)
    (delegate : SchemaMethod ω Schema) :
    (getSchemaOr lib polls delegate key).run s =
      (fetchSchema lib polls delegate key).run (invalidated lib s o items key) := by
  have hinvalidate : (invalidate lib o key).run s = .ok () (invalidated lib s o items key) := by
    rw [invalidate_run hconn hitems hcounter, if_pos hout, hget]
  exact (getSchemaOr_invalidated hconn hinvalidate rfl polls delegate).2 (Dict.get_del_self items key)

/-- The key is not there. -/
theorem getSchemaOr_absent (hconn : s.state.self.conn = some o) (hitems : s.schema = some items)
    (hcounter : s.reconnectsCounter = some counter) {key : SchemaKey}
    (hout : ¬Outdated lib counter s.state.world o)
    (hget : Dict.get (SchemaKey.same lib) items key = none) (polls : Nat)
    (delegate : SchemaMethod ω Schema) :
    (getSchemaOr lib polls delegate key).run s = (fetchSchema lib polls delegate key).run s :=
  (getSchemaOr_invalidated hconn (invalidate_current hconn hitems hcounter hout key) hitems
    polls delegate).2 hget

end SchemaMethod

/-! ## Sequences of calls -/

/-- A call that the cache has to do with. -/
inductive SchemaCall
  | getSchema (key : SchemaKey)
  | reconnect (force : Bool)
  | disconnect
  | connect (fileno : Option Int)

/-- A schema that `get_schema` has returned for a key in a session. -/
structure Returned where
  key : SchemaKey
  session : Session
  schema : Schema

/-- A connection and what its `get_schema` has returned so far. -/
structure SchemaClient (ω : Type) where
  state : SchemaState ω
  returned : List Returned

namespace SchemaClient

open SchemaMethod

variable (lib : Schemata ω) (polls : Nat)

/-- The connection after `get_schema` has run. -/
def answered (c : SchemaClient ω) (key : SchemaKey) :
    EStateM.Result PyExc (SchemaState ω) Schema → SchemaClient ω
  | .ok schema s =>
    { state := s
      returned := c.returned ++ [{ key := key, session := c.state.session lib, schema := schema }] }
  | .error _ s => { c with state := s }

/-- The connection after a call. -/
def step (c : SchemaClient ω) : SchemaCall → SchemaClient ω
  | .getSchema key => c.answered lib key ((getSchema lib polls key).run c.state)
  | .reconnect force =>
    { c with state := final ((onState (Method.reconnect lib.toEnv force)).run c.state) }
  | .disconnect => { c with state := final ((SchemaMethod.disconnect lib).run c.state) }
  | .connect fileno => { c with state := final ((SchemaMethod.connect lib fileno).run c.state) }

/-- It raises no `KeyError`, and what it returns has been fetched in the session that
the connection is in and is the object it has returned before for that key in this
session. -/
def CoherentAnswer (c : SchemaClient ω) (key : SchemaKey) :
    EStateM.Result PyExc (SchemaState ω) Schema → Prop
  | .ok schema _ => schema.session = c.state.session lib ∧
      ∀ r ∈ c.returned, SchemaKey.same lib r.key key = true → r.session = c.state.session lib →
        r.schema = schema
  | .error e _ => e ≠ .keyError

/-- What is required of a call. -/
def Coherent (c : SchemaClient ω) : SchemaCall → Prop
  | .getSchema key => c.CoherentAnswer lib key ((getSchema lib polls key).run c.state)
  | _ => True

instance (c : SchemaClient ω) (key : SchemaKey) :
    ∀ result, Decidable (c.CoherentAnswer lib key result)
  | .ok schema _ => inferInstanceAs (Decidable (schema.session = c.state.session lib ∧
      ∀ r ∈ c.returned, SchemaKey.same lib r.key key = true → r.session = c.state.session lib →
        r.schema = schema))
  | .error e _ => inferInstanceAs (Decidable (e ≠ .keyError))

instance (c : SchemaClient ω) : ∀ call, Decidable (Coherent lib polls c call)
  | .getSchema _ => inferInstanceAs (Decidable (CoherentAnswer ..))
  | .reconnect _ => isTrue trivial
  | .disconnect => isTrue trivial
  | .connect _ => isTrue trivial

/-- After a reconnect that the counter does not know of, the key is cached; otherwise
what is cached for it has been fetched in the session that the connection is in. -/
def Usable (c : SchemaClient ω) : SchemaCall → Prop
  | .getSchema key => ∀ o items counter, c.state.state.self.conn = some o →
      c.state.schema = some items → c.state.reconnectsCounter = some counter →
      if Outdated lib counter c.state.state.world o then
        (Dict.get (SchemaKey.same lib) items key).isSome = true
      else
        ∀ cached, Dict.get (SchemaKey.same lib) items key = some cached →
          cached.session = c.state.session lib
  | _ => True

end SchemaClient

/-! ## What the calls leave alone -/

section Stays

variable {lib : Schemata ω} (server : SchemaServer lib)

/-- Since `s₀` the object of the connection has stayed, live, and no reconnect is undone. -/
structure Stays (s₀ s : State ω) : Prop where
  conn : s.self.conn = s₀.self.conn
  object : ∀ o, s₀.self.conn = some o →
    server.live s.world o ∧ lib.reconnectsDone s₀.world o ≤ lib.reconnectsDone s.world o

theorem Stays.refl {s : State ω} (hlive : ∀ o, s.self.conn = some o → server.live s.world o) :
    Stays server s s :=
  ⟨rfl, fun o ho => ⟨hlive o ho, le_refl _⟩⟩

theorem Stays.call {s₀ s : State ω} {m : EStateM PyExc ω α} (hs : Stays server s₀ s)
    (hm : Sustains lib server.live m) : Stays server s₀ { s with world := final (m.run s.world) } where
  conn := hs.conn
  object := fun o ho => by
    obtain ⟨hlive, hle⟩ := hs.object o ho
    obtain ⟨hlive', hle'⟩ := hm s.world o hlive
    exact ⟨hlive', le_trans hle hle'⟩

theorem stays_reconnecting (s₀ : State ω) : Method.Reconnecting lib.toEnv (Stays server s₀) where
  startTls := fun _ _ hs => ⟨hs.conn, hs.object⟩
  loop := Method.onWorld_rule fun _ hs => hs.call server server.loop
  setOption := fun o x v => Method.onWorld_rule fun _ hs => hs.1.call server (server.setOption o x v)
  getOption := fun o x => Method.onWorld_rule fun _ hs => hs.1.call server (server.getOption o x)
  reconnect := fun o uri n force =>
    Method.onWorld_rule fun _ hs => hs.1.call server (server.reconnect o uri n force)
  simpleBindS := fun o bind =>
    Method.onWorld_rule fun _ hs => hs.1.call server (server.simpleBindS o bind)

theorem startTls_stays (s₀ : State ω) : Keeps (Stays server s₀) (Method.startTls lib.toEnv) := by
  unfold Method.startTls
  refine Keeps.bind (Keeps.modify fun s hs => ⟨hs.conn, hs.object⟩) fun _ => ?_
  exact Method.wrap_keeps (Method.onConn_keeps fun o => Method.onWorld_rule fun s hs =>
    hs.1.call server (server.startTlsS o))

theorem disconnect_spec (s₀ : State ω) :
    Spec (Stays server s₀) (Method.disconnect lib.toEnv) (fun _ s => s.self.conn = none)
      (fun _ => Stays server s₀) := by
  unfold Method.disconnect
  refine Spec.bind (Q := fun _ => Stays server s₀) (Spec.get fun _ hs => hs) fun s₁ => ?_
  refine Spec.bind (Q := fun _ => Stays server s₀) ?_ fun _ => Spec.modify fun _ _ => rfl
  exact Keeps.onlyIf (stays_reconnecting server s₀).toCalm.removeReader_keeps

/-- A new object is live, and if there is none the connection is as before. -/
theorem openObject_spec (s₀ : State ω) (fileno : Option Int) :
    Spec (Stays server s₀) (Method.openObject lib.toEnv fileno)
      (fun _ s => ∀ o, s.self.conn = some o → server.live s.world o) (fun _ => Stays server s₀) := by
  unfold Method.openObject
  refine Spec.bind (Q := fun _ => Stays server s₀) (Spec.get fun _ hs => hs) fun s₁ => ?_
  refine Spec.bind (Q := fun _ => Stays server s₀) (Keeps.onlyIf (Keeps.throw _)) fun _ => ?_
  refine Spec.bind (Q := fun _ => Stays server s₀) (Spec.get fun _ hs => hs) fun s₂ => ?_
  refine Spec.bind (Q := fun o s => server.live s.world o) ?_ fun o => Spec.modify fun s hs o' ho' => ?_
  · unfold Method.newLdapObject
    refine Spec.ite (fun _ => ?_) fun _ => ?_
    · refine Method.onWorld_spec fun s hs => ?_
      have hcall := hs.call server
        (server.reconnectLDAPObject s₂.self.uri fileno s₂.self.maxConnectionAttempts)
      cases hrun : (lib.reconnectLDAPObject s₂.self.uri fileno s₂.self.maxConnectionAttempts).run s.world with
      | ok o w => exact server.reconnectLDAPObject_live _ _ _ _ _ _ hrun
      | error e w =>
        rw [hrun] at hcall
        exact hcall
    · refine Method.onWorld_spec fun s hs => ?_
      have hcall := hs.call server (server.simpleLDAPObject s₂.self.uri fileno)
      cases hrun : (lib.simpleLDAPObject s₂.self.uri fileno).run s.world with
      | ok o w => exact server.simpleLDAPObject_live _ _ _ _ _ hrun
      | error e w =>
        rw [hrun] at hcall
        exact hcall
  · rw [← Option.some.inj ho']
    exact hs

/-- What a call other than `get_schema` does to the connection: the object stays, is
given up or is a new one; the dictionary stays. -/
structure Moved (s s' : SchemaState ω) : Prop where
  schema : s'.schema = s.schema
  live : ∀ o, s'.state.self.conn = some o → server.live s'.state.world o
  object : (s'.connects = s.connects ∧ s'.reconnectsCounter = s.reconnectsCounter ∧
      (Stays server s.state s'.state ∨ s'.state.self.conn = none)) ∨
    (s'.connects = s.connects + 1 ∧ s'.reconnectsCounter = some 0)

theorem Moved.of_stays {s : SchemaState ω} {state : State ω} (h : Stays server s.state state) :
    Moved server s { s with state := state } where
  schema := rfl
  live := fun o ho => (h.object o (h.conn.symm.trans ho)).1
  object := .inl ⟨rfl, rfl, .inl h⟩

variable {server}

theorem reconnect_moved {s : SchemaState ω}
    (hlive : ∀ o, s.state.self.conn = some o → server.live s.state.world o) (force : Bool) :
    Moved server s (final ((SchemaMethod.onState (Method.reconnect lib.toEnv force)).run s)) := by
  have hstays := ((stays_reconnecting server s.state).reconnect_keeps force).final (Stays.refl server hlive)
  rw [SchemaMethod.run_onState]
  cases hrun : (Method.reconnect lib.toEnv force).run s.state with
  | ok a state =>
    rw [hrun] at hstays
    exact Moved.of_stays server hstays
  | error e state =>
    rw [hrun] at hstays
    exact Moved.of_stays server hstays

theorem disconnect_moved {s : SchemaState ω}
    (hlive : ∀ o, s.state.self.conn = some o → server.live s.state.world o) :
    Moved server s (final ((SchemaMethod.disconnect lib).run s)) := by
  have hspec := disconnect_spec server s.state s.state (Stays.refl server hlive)
  unfold SchemaMethod.disconnect
  rw [EStateM.run_bind, SchemaMethod.run_onState]
  cases hrun : (Method.disconnect lib.toEnv).run s.state with
  | ok a state =>
    rw [hrun] at hspec
    exact ⟨rfl, fun o ho => (by cases hspec.symm.trans ho), .inl ⟨rfl, rfl, .inr hspec⟩⟩
  | error e state =>
    rw [hrun] at hspec
    exact Moved.of_stays server hspec

theorem connect_moved {s : SchemaState ω}
    (hlive : ∀ o, s.state.self.conn = some o → server.live s.state.world o) (fileno : Option Int) :
    Moved server s (final ((SchemaMethod.connect lib fileno).run s)) := by
  have hspec := openObject_spec server s.state fileno s.state (Stays.refl server hlive)
  unfold SchemaMethod.connect
  rw [EStateM.run_bind, SchemaMethod.run_onState]
  cases hrun : (Method.openObject lib.toEnv fileno).run s.state with
  | error e state =>
    rw [hrun] at hspec
    exact Moved.of_stays server hspec
  | ok a state =>
    rw [hrun] at hspec
    have hsecure : Keeps (Stays server state) (Method.secure lib.toEnv) :=
      Keeps.bind Keeps.get fun _ => Keeps.onlyIf (startTls_stays server state)
    have hstays := hsecure.final (Stays.refl server hspec)
    simp only [EStateM.run_bind, EStateM.run_modify, SchemaMethod.run_onState]
    cases hrun' : (Method.secure lib.toEnv).run state with
    | ok a' state' =>
      rw [hrun'] at hstays
      exact ⟨rfl, fun o ho => (hstays.object o (hstays.conn.symm.trans ho)).1, .inr ⟨rfl, rfl⟩⟩
    | error e state' =>
      rw [hrun'] at hstays
      exact ⟨rfl, fun o ho => (hstays.object o (hstays.conn.symm.trans ho)).1, .inr ⟨rfl, rfl⟩⟩

end Stays

/-! ## The cache along sequences of calls -/

namespace SchemaClient

open SchemaMethod

variable {lib : Schemata ω} (server : SchemaServer lib)

/-- The slots of the cache are assigned, the object is live, and what has been
returned in the session that the connection is in is still cached, with no reconnect
that the counter does not know of. -/
structure Ready (c : SchemaClient ω) : Prop where
  schema : c.state.schema.isSome = true
  counter : c.state.reconnectsCounter.isSome = true
  live : ∀ o, c.state.state.self.conn = some o → server.live c.state.state.world o
  past : ∀ r ∈ c.returned, r.session.connects ≤ c.state.connects
  kept : ∀ r ∈ c.returned, ∀ o items counter, c.state.state.self.conn = some o →
    c.state.schema = some items → c.state.reconnectsCounter = some counter →
    r.session.connects = c.state.connects →
    r.session.reconnects ≤ lib.reconnectsDone c.state.state.world o ∧
      (r.session.reconnects = lib.reconnectsDone c.state.state.world o →
        Dict.get (SchemaKey.same lib) items r.key = some r.schema ∧
          ¬Outdated lib counter c.state.state.world o)

variable {server}

/-- A call other than `get_schema` keeps what is known: it leaves the session or keeps
the cache for it. -/
theorem Ready.moved {c : SchemaClient ω} (hc : Ready server c) {s' : SchemaState ω}
    (h : Moved server c.state s') : Ready server { c with state := s' } where
  schema := (congrArg Option.isSome h.schema).trans hc.schema
  counter := by
    rcases h.object with ⟨-, hcounter, -⟩ | ⟨-, hcounter⟩
    · exact (congrArg Option.isSome hcounter).trans hc.counter
    · exact congrArg Option.isSome hcounter
  live := h.live
  past := fun r hr => by
    rcases h.object with ⟨hconnects, -⟩ | ⟨hconnects, -⟩
    · exact le_of_le_of_eq (hc.past r hr) hconnects.symm
    · exact le_trans (hc.past r hr) (by rw [hconnects]; exact Nat.le_succ _)
  kept := fun r hr o items counter hconn hitems hcounter hsession => by
    have hpast := hc.past r hr
    rcases h.object with ⟨hconnects, hcounter', hstays | hnone⟩ | ⟨hconnects, -⟩
    · -- the object has stayed
      have hconn' : c.state.state.self.conn = some o := hstays.conn.symm.trans hconn
      have hle := (hstays.object o hconn').2
      obtain ⟨hreconnects, hcached⟩ := hc.kept r hr o items counter hconn'
        (h.schema.symm.trans hitems) (hcounter'.symm.trans hcounter) (hsession.trans hconnects)
      refine ⟨le_trans hreconnects hle, fun heq => ?_⟩
      have hdone : lib.reconnectsDone c.state.state.world o = lib.reconnectsDone s'.state.world o :=
        le_antisymm hle (heq ▸ hreconnects)
      obtain ⟨hget, hout⟩ := hcached (heq.trans hdone.symm)
      refine ⟨hget, fun hout' => hout ⟨hout'.1, ?_⟩⟩
      rw [hdone]
      exact hout'.2
    · -- there is no object
      cases hnone.symm.trans hconn
    · -- the session is new
      have hsession' : r.session.connects = c.state.connects + 1 := hsession.trans hconnects
      omega

/-- The session of a connection with an object. -/
theorem session_of_conn {s : SchemaState ω} {o : Obj} (hconn : s.state.self.conn = some o) :
    s.session lib = ⟨s.connects, lib.reconnectsDone s.state.world o⟩ := by
  unfold SchemaState.session
  rw [hconn]
  rfl

/-- What has been returned in the session of the connection is cached. -/
theorem Ready.cached {c : SchemaClient ω} (hc : Ready server c) {r : Returned} (hr : r ∈ c.returned)
    {o : Obj} {items : List (SchemaKey × Schema)} {counter : Nat}
    (hconn : c.state.state.self.conn = some o) (hitems : c.state.schema = some items)
    (hcounter : c.state.reconnectsCounter = some counter) (hsession : r.session = c.state.session lib) :
    Dict.get (SchemaKey.same lib) items r.key = some r.schema ∧
      ¬Outdated lib counter c.state.state.world o := by
  rw [session_of_conn hconn] at hsession
  exact (hc.kept r hr o items counter hconn hitems hcounter (congrArg (·.connects) hsession)).2
    (congrArg (·.reconnects) hsession)

/-- Dropping a key that no schema of this session has been returned for. -/
theorem Ready.invalidated {c : SchemaClient ω} (hc : Ready server c) {o : Obj}
    {items : List (SchemaKey × Schema)} {counter : Nat} (hconn : c.state.state.self.conn = some o)
    (hitems : c.state.schema = some items) (hcounter : c.state.reconnectsCounter = some counter)
    (hout : Outdated lib counter c.state.state.world o) (key : SchemaKey) :
    Ready server { c with state := SchemaMethod.invalidated lib c.state o items key } where
  schema := rfl
  counter := rfl
  live := hc.live
  past := hc.past
  kept := fun r hr o' items' counter' hconn' _ _ hsession => by
    obtain ⟨hreconnects, hcached⟩ := hc.kept r hr o' items counter hconn' hitems hcounter hsession
    have ho : o' = o := Option.some.inj (hconn'.symm.trans hconn)
    subst ho
    exact ⟨hreconnects, fun heq => absurd hout (hcached heq).2⟩

/-- Fetching a key that is not cached. -/
theorem Ready.fetch {c : SchemaClient ω} (hc : Ready server c) {o : Obj}
    {items : List (SchemaKey × Schema)} {counter : Nat} (hconn : c.state.state.self.conn = some o)
    (hitems : c.state.schema = some items) (hcounter : c.state.reconnectsCounter = some counter)
    (hout : ¬Outdated lib counter c.state.state.world o) {key : SchemaKey}
    (hget : Dict.get (SchemaKey.same lib) items key = none) :
    ∃ n result, (∀ polls delegate, n ≤ polls →
        (fetchSchema lib polls delegate key).run c.state = result) ∧
      c.CoherentAnswer lib key result ∧ Ready server (c.answered lib key result) := by
  by_cases hattempts : c.state.state.self.maxConnectionAttempts = 0
  · -- nothing is fetched
    refine ⟨0, .error (.runtimeError "") c.state, fun polls delegate _ => ?_, ?_, hc⟩
    · exact fetchSchema_unattempted hconn hattempts polls delegate key
    · exact fun h => by cases h
  · have hsame := SchemaKey.same_equivalence lib
    -- no schema of this session was returned for such a key: it would be cached
    have hnot : ∀ r ∈ c.returned, r.session = c.state.session lib →
        SchemaKey.same lib r.key key = false := by
      intro r hr hsession
      have hcached := (hc.cached hr hconn hitems hcounter hsession).1
      refine Bool.eq_false_iff.mpr fun hkey => ?_
      rw [Dict.get_congr hsame hkey, hget] at hcached
      cases hcached
    obtain ⟨n, fetched, w, log, aliases, hlive, hdone, hfetched, hrun⟩ :=
      fetchSchema_run server hconn (hc.live o hconn) hitems (Nat.pos_of_ne_zero hattempts) key
    refine ⟨n, _, fun polls delegate hpolls => hrun polls delegate hpolls,
      ⟨hfetched, fun r hr hkey hsession => ?_⟩, ?_⟩
    · rw [hnot r hr hsession] at hkey
      cases hkey
    · have hobject : ∀ o', c.state.state.self.conn = some o' → o' = o := fun o' ho' =>
        Option.some.inj (ho'.symm.trans hconn)
      refine ⟨rfl, hc.counter, fun o' ho' => ?_, fun r hr => ?_, fun r hr o' items' counter' ho' hitems'
        hcounter' hsession => ?_⟩
      · rw [hobject o' ho']
        exact hlive
      · rcases List.mem_append.mp hr with hr | hr
        · exact hc.past r hr
        · rw [List.mem_singleton.mp hr]
          exact le_refl _
      · have ho := hobject o' ho'
        subst ho
        obtain rfl : Dict.set (SchemaKey.same lib) items key fetched = items' := Option.some.inj hitems'
        obtain rfl : counter = counter' := Option.some.inj (hcounter.symm.trans hcounter')
        have hout' : ¬Outdated lib counter w o' := fun h => hout ⟨h.1, hdone ▸ h.2⟩
        show r.session.reconnects ≤ lib.reconnectsDone w o' ∧
          (r.session.reconnects = lib.reconnectsDone w o' → _ ∧ ¬Outdated lib counter w o')
        rw [Dict.get_set hsame, hdone]
        rcases List.mem_append.mp hr with hr | hr
        · obtain ⟨hreconnects, hcached⟩ := hc.kept r hr o' items counter hconn hitems hcounter hsession
          refine ⟨hreconnects, fun heq => ⟨?_, hout'⟩⟩
          -- an earlier schema has another key, and stays cached
          have hkey : SchemaKey.same lib r.key key = false :=
            hnot r hr (by rw [session_of_conn hconn, ← heq, ← show _ = c.state.connects from hsession])
          have hkey' : ¬SchemaKey.same lib key r.key = true := fun h => by
            rw [hsame.symm h] at hkey
            cases hkey
          rw [if_neg hkey']
          exact (hcached heq).1
        · rw [List.mem_singleton.mp hr]
          rw [session_of_conn hconn]
          refine ⟨le_refl _, fun _ => ⟨?_, hout'⟩⟩
          rw [if_pos (hsame.refl key)]

/-- A call of `get_schema`, given rounds enough. -/
theorem getSchema_step {c : SchemaClient ω} (hc : Ready server c) (key : SchemaKey) :
    ∃ n result, (∀ polls, n ≤ polls → (getSchema lib polls key).run c.state = result) ∧
      (c.CoherentAnswer lib key result ↔ Usable lib c (.getSchema key)) ∧
        Ready server (c.answered lib key result) := by
  obtain ⟨items, hitems⟩ := Option.isSome_iff_exists.mp hc.schema
  obtain ⟨counter, hcounter⟩ := Option.isSome_iff_exists.mp hc.counter
  cases hconn : c.state.state.self.conn with
  | none =>
    refine ⟨0, .error (.runtimeError "not connected") c.state, fun polls _ => ?_, ?_, hc⟩
    · exact getSchemaOr_none hconn polls _ key
    · refine ⟨fun _ o items counter ho => ?_, fun _ h => by cases h⟩
      cases hconn.symm.trans ho
  | some o =>
    have husable : Usable lib c (.getSchema key) ↔
        if Outdated lib counter c.state.state.world o then
          (Dict.get (SchemaKey.same lib) items key).isSome = true
        else
          ∀ cached, Dict.get (SchemaKey.same lib) items key = some cached →
            cached.session = c.state.session lib := by
      constructor
      · exact fun h => h o items counter hconn hitems hcounter
      · intro h o' items' counter' ho' hitems' hcounter'
        obtain rfl : o = o' := Option.some.inj (hconn.symm.trans ho')
        obtain rfl : items = items' := Option.some.inj (hitems.symm.trans hitems')
        obtain rfl : counter = counter' := Option.some.inj (hcounter.symm.trans hcounter')
        exact h
    rw [husable]
    by_cases hout : Outdated lib counter c.state.state.world o
    · rw [if_pos hout]
      cases hget : Dict.get (SchemaKey.same lib) items key with
      | none =>
        -- the key cannot be dropped
        refine ⟨0, .error .keyError c.state, fun polls _ => ?_, ?_, hc⟩
        · exact getSchemaOr_missing hconn hitems hcounter hout hget polls _
        · exact ⟨fun h => absurd rfl h, fun h => by cases h⟩
      | some cached =>
        -- the key is dropped and fetched again
        have hc' := hc.invalidated hconn hitems hcounter hout key
        obtain ⟨n, result, hrun, hcoherent, hready⟩ := hc'.fetch hconn rfl rfl
          (fun h => absurd h.2 (lt_irrefl _)) (Dict.get_del_self items key)
        refine ⟨n, result, fun polls hpolls => ?_, ?_, ?_⟩
        · unfold getSchema
          rw [getSchemaOr_dropped hconn hitems hcounter hout hget]
          exact hrun polls _ hpolls
        · refine iff_of_true ?_ rfl
          cases result with
          | ok schema s => exact hcoherent
          | error e s => exact hcoherent
        · cases result with
          | ok schema s => exact hready
          | error e s => exact hready
    · rw [if_neg hout]
      cases hget : Dict.get (SchemaKey.same lib) items key with
      | none =>
        obtain ⟨n, result, hrun, hcoherent, hready⟩ := hc.fetch hconn hitems hcounter hout hget
        refine ⟨n, result, fun polls hpolls => ?_, ?_, hready⟩
        · unfold getSchema
          rw [getSchemaOr_absent hconn hitems hcounter hout hget]
          exact hrun polls _ hpolls
        · exact iff_of_true hcoherent fun cached h => by cases h
      | some cached =>
        refine ⟨0, .ok cached c.state, fun polls _ => ?_, ?_, ?_⟩
        · exact getSchemaOr_cached hconn hitems hcounter hout hget polls _
        · constructor
          · intro h cached' hcached'
            rw [← Option.some.inj hcached']
            exact h.1
          · intro h
            refine ⟨h cached rfl, fun r hr hkey hsession => ?_⟩
            have hcached := (hc.cached hr hconn hitems hcounter hsession).1
            rw [Dict.get_congr (SchemaKey.same_equivalence lib) hkey, hget] at hcached
            exact (Option.some.inj hcached).symm
        · refine ⟨hc.schema, hc.counter, hc.live, fun r hr => ?_,
            fun r hr o' items' counter' ho' hitems' hcounter' hsession => ?_⟩
          · rcases List.mem_append.mp hr with hr | hr
            · exact hc.past r hr
            · rw [List.mem_singleton.mp hr]
              exact le_refl _
          · rcases List.mem_append.mp hr with hr | hr
            · exact hc.kept r hr o' items' counter' ho' hitems' hcounter' hsession
            · obtain rfl : o = o' := Option.some.inj (hconn.symm.trans ho')
              obtain rfl : items = items' := Option.some.inj (hitems.symm.trans hitems')
              obtain rfl : counter = counter' := Option.some.inj (hcounter.symm.trans hcounter')
              rw [List.mem_singleton.mp hr, session_of_conn hconn]
              exact ⟨le_refl _, fun _ => ⟨hget, hout⟩⟩

/-- Over any sequence of calls, given rounds enough for each: every `get_schema` is
coherent exactly if it is made in a state in which the cache is usable for its key. -/
theorem coherent_iff {c : SchemaClient ω} (hc : Ready server c) (calls : List SchemaCall) :
    ∃ n, ∀ polls, n ≤ polls →
      (Along (step lib polls) (Coherent lib polls) c calls ↔
        Along (step lib polls) (Usable lib) c calls) := by
  induction calls generalizing c with
  | nil => exact ⟨0, fun _ _ => Iff.rfl⟩
  | cons call calls ih =>
    have hcall : ∃ n c', Ready server c' ∧ ∀ polls, n ≤ polls →
        step lib polls c call = c' ∧ (Coherent lib polls c call ↔ Usable lib c call) := by
      cases call with
      | getSchema key =>
        obtain ⟨n, result, hrun, hiff, hready⟩ := getSchema_step hc key
        refine ⟨n, _, hready, fun polls hpolls => ⟨?_, ?_⟩⟩
        · show c.answered lib key ((getSchema lib polls key).run c.state) = _
          rw [hrun polls hpolls]
        · show c.CoherentAnswer lib key ((getSchema lib polls key).run c.state) ↔ _
          rw [hrun polls hpolls]
          exact hiff
      | reconnect force =>
        exact ⟨0, _, hc.moved (reconnect_moved hc.live force), fun _ _ => ⟨rfl, Iff.rfl⟩⟩
      | disconnect => exact ⟨0, _, hc.moved (disconnect_moved hc.live), fun _ _ => ⟨rfl, Iff.rfl⟩⟩
      | connect fileno =>
        exact ⟨0, _, hc.moved (connect_moved hc.live fileno), fun _ _ => ⟨rfl, Iff.rfl⟩⟩
    obtain ⟨n, c', hc', hstep⟩ := hcall
    obtain ⟨n', hrest⟩ := ih hc'
    refine ⟨max n n', fun polls hpolls => ?_⟩
    obtain ⟨heq, hiff⟩ := hstep polls (le_trans (Nat.le_max_left ..) hpolls)
    have htail := hrest polls (le_trans (Nat.le_max_right ..) hpolls)
    show (_ ∧ Along _ _ (step lib polls c call) calls) ↔ (_ ∧ Along _ _ (step lib polls c call) calls)
    rw [heq]
    exact and_congr hiff htail

end SchemaClient

/-- A connection that has not been asked for a schema yet: along any sequence of
calls, every `get_schema` is coherent exactly if each is made in a state in which the
cache is usable for its key. -/
theorem schema_coherent_iff {lib : Schemata ω} (server : SchemaServer lib) (state : State ω)
    (aliases : List (PyStr × PyStr))
    (hlive : ∀ o, state.self.conn = some o → server.live state.world o) (calls : List SchemaCall) :
    ∃ n, ∀ polls, n ≤ polls →
      (Along (SchemaClient.step lib polls) (SchemaClient.Coherent lib polls)
          { state := .init state aliases, returned := [] } calls ↔
        Along (SchemaClient.step lib polls) (SchemaClient.Usable lib)
          { state := .init state aliases, returned := [] } calls) :=
  SchemaClient.coherent_iff ⟨rfl, rfl, hlive, fun _ hr => (by cases hr), fun _ hr => (by cases hr)⟩ calls

/-! ## A server with one schema -/

/-- How often each LDAP object has been reconnected, and the reply to come. -/
structure SchemaDesk where
  reconnects : List Nat
  reply : List Entry

/-- The entry with the schema is `cn=s`, and every entry names it. -/
def schemaDeskAnswer (op : Operation) : List Entry :=
  match op.request with
  | .searchExt base _ filterstr _ _ _ _ =>
    if filterstr = py "(objectClass=subschema)" then [(base, [])]
    else [(base, [(py "subschemaSubentry", [[99, 110, 61, 115]])])]
  | _ => []

/-- Every search is answered at once. -/
def schemaDesk : Schemata SchemaDesk :=
  { Env.idle SchemaDesk with
    reconnectLDAPObject := fun _ _ _ w =>
      .ok w.reconnects.length { w with reconnects := w.reconnects ++ [0] }
    simpleLDAPObject := fun _ _ w =>
      .ok w.reconnects.length { w with reconnects := w.reconnects ++ [0] }
    reconnect := fun o _ _ _ w =>
      .ok () { w with reconnects := w.reconnects.modify o (· + 1) }
    request := fun _ op w => .ok (some 1) { w with reply := schemaDeskAnswer op }
    result4 := fun _ _ _ _ w =>
      .ok { type := some .searchResult, data := some ((messages w.reply).map SearchMessage.datum)
            msgid := some 1, ctrls := none } w
    dn2str := fun _ => []
    lower := id
    hash := fun _ => 0
    modifyModlist := fun _ _ => []
    isReconnectLDAPObject := fun _ => true
    reconnectsDone := fun w o => w.reconnects.getD o 0
    subSchema := fun _ => .ok []
    schemaAttrs := [] }

theorem schemaDesk_answered {slots : Slots} {o : Obj} {args : SearchArgs} {entry : Entry}
    {w : SchemaDesk} (hanswer : schemaDeskAnswer (args.operation slots.timeout none) = [entry])
    {K : SchemaDesk → Prop} (hK : K { w with reply := [entry] }) :
    AnsweredBy schemaDesk.toEnv slots o args K entry w := by
  refine ⟨1, { w with reply := [entry] },
    { type := some .searchResult, data := some ((messages [entry]).map SearchMessage.datum)
      msgid := some 1, ctrls := none }, ?_, .next ?_ (fun h => by cases h) (.done hK), rfl, rfl⟩
  · rw [← hanswer]
    rfl
  · unfold Received
    split
    · exact ⟨_, rfl, rfl⟩
    · rfl

/-- A new LDAP object leaves the others alone. -/
theorem schemaDesk_new : Sustains schemaDesk (fun w o => o < w.reconnects.length)
    (fun w => .ok w.reconnects.length { w with reconnects := w.reconnects ++ [0] }) := by
  intro w o h
  show o < (w.reconnects ++ [0]).length ∧ w.reconnects.getD o 0 ≤ (w.reconnects ++ [0]).getD o 0
  rw [List.length_append, List.getD_eq_getElem?_getD, List.getD_eq_getElem?_getD,
    List.getElem?_append_left h]
  exact ⟨Nat.lt_add_right _ h, le_refl _⟩

/-- The server on its side, for the objects it has made. -/
def schemaDeskServer : SchemaServer schemaDesk where
  live := fun w o => o < w.reconnects.length
  holds := fun _ => True
  subentry := fun w o slots base hlive =>
    ⟨(base, [(py "subschemaSubentry", [[99, 110, 61, 115]])]), [99, 110, 61, 115], [], py "cn=s",
      schemaDesk_answered rfl ⟨hlive, rfl⟩, fun entry hentry => ⟨_, rfl⟩, rfl, by decide, trivial⟩
  schema := fun w o slots dn hlive _ =>
    ⟨(dn, []), [], schemaDesk_answered rfl ⟨hlive, rfl⟩, fun entry hentry => ⟨_, rfl⟩, rfl⟩
  loop := fun _ _ h => ⟨h, le_refl _⟩
  setOption := fun _ _ _ _ _ h => ⟨h, le_refl _⟩
  getOption := fun _ _ _ _ h => ⟨h, le_refl _⟩
  reconnect := fun o uri n force w o' h => by
    show o' < (w.reconnects.modify o (· + 1)).length ∧
      w.reconnects.getD o' 0 ≤ (w.reconnects.modify o (· + 1)).getD o' 0
    rw [List.length_modify, List.getD_eq_getElem?_getD, List.getD_eq_getElem?_getD,
      List.getElem?_modify, List.getElem?_eq_getElem h]
    refine ⟨h, ?_⟩
    show w.reconnects[o'] ≤ if o = o' then w.reconnects[o'] + 1 else w.reconnects[o']
    split
    · exact Nat.le_succ _
    · exact le_refl _
  simpleBindS := fun _ _ _ _ h => ⟨h, le_refl _⟩
  startTlsS := fun _ _ _ h => ⟨h, le_refl _⟩
  reconnectLDAPObject := fun _ _ _ => schemaDesk_new
  simpleLDAPObject := fun _ _ => schemaDesk_new
  reconnectLDAPObject_live := fun uri fileno n w o w' h => by
    cases h
    simp
  simpleLDAPObject_live := fun uri fileno w o w' h => by
    cases h
    simp

/-- A connection of its own class that has not been connected. -/
def schemaState : State SchemaDesk :=
  { self := Connection.init true [], world := ⟨[], []⟩, calls := [] }

/-- Its client, whose only object has been reconnected so often and has this in its cache. -/
def deskClient (log : List (Call SchemaDesk)) (reply : List Entry) (returned : List Returned)
    (reconnects counter made : Nat) (items : List (SchemaKey × Schema)) : SchemaClient SchemaDesk where
  state :=
    { state := ⟨{ schemaState.self with conn := some 0 }, ⟨[reconnects], reply⟩, log⟩
      schema := some items, reconnectsCounter := some counter, connSAssigned := true, aliases := []
      connects := 1, made := made }
  returned := returned

/-- The schema as it is read when the object has been reconnected so often. -/
def deskSchema (reconnects : Nat) : Schema := ⟨reconnects, ⟨1, reconnects⟩, []⟩

/-- A schema asked for again after a reconnect, and another one only then. -/
theorem schema_coherent_two_keys :
    ∃ n, ∀ polls, n ≤ polls →
      Along (SchemaClient.step schemaDesk polls) (SchemaClient.Coherent schemaDesk polls)
        { state := .init schemaState [], returned := [] }
        [.connect none, .getSchema none, .reconnect true, .getSchema none,
          .getSchema (some (.text (py "cn=a")))] := by
  obtain ⟨n, hiff⟩ := schema_coherent_iff schemaDeskServer schemaState [] (fun _ h => by cases h)
    [.connect none, .getSchema none, .reconnect true, .getSchema none, .getSchema (some (.text (py "cn=a")))]
  refine ⟨n + 1, fun polls hpolls => (hiff polls (Nat.le_of_succ_le hpolls)).mpr ?_⟩
  obtain ⟨polls, rfl⟩ : ∃ k, polls = k + 1 := ⟨polls - 1, by omega⟩
  have husable {log reply returned reconnects counter made items} {key : SchemaKey}
      (h : if counter < reconnects then (Dict.get (SchemaKey.same schemaDesk) items key).isSome = true
        else ∀ cached, Dict.get (SchemaKey.same schemaDesk) items key = some cached →
          cached.session = ⟨1, reconnects⟩) :
      SchemaClient.Usable schemaDesk (deskClient log reply returned reconnects counter made items)
        (.getSchema key) := by
    intro o items' counter' ho hitems hcounter
    cases ho
    cases hitems
    cases hcounter
    by_cases hout : counter < reconnects
    · rw [if_pos hout] at h
      rwa [if_pos ⟨rfl, hout⟩]
    · rw [if_neg hout] at h
      rwa [if_neg fun hout' => hout hout'.2]
  have hnone {items : List (SchemaKey × Schema)} {key : SchemaKey}
      (h : Dict.get (SchemaKey.same schemaDesk) items key = none) (session : Session) :
      ∀ cached, Dict.get (SchemaKey.same schemaDesk) items key = some cached → cached.session = session := by
    rw [h]
    exact fun _ h => by cases h
  refine ⟨trivial, ?_⟩
  show Along _ _ (deskClient [] [] [] 0 0 0 []) _
  refine ⟨husable (hnone rfl _), ?_⟩
  obtain ⟨log, reply, returned, hfetched⟩ : ∃ log reply returned,
      SchemaClient.step schemaDesk (polls + 1) (deskClient [] [] [] 0 0 0 []) (.getSchema none) =
        deskClient log reply returned 0 0 1 [(none, deskSchema 0)] := ⟨_, _, _, rfl⟩
  rw [hfetched]
  refine ⟨trivial, ?_⟩
  show Along _ _ (deskClient log reply returned 1 0 1 [(none, deskSchema 0)]) _
  refine ⟨husable (by rw [if_pos Nat.zero_lt_one]; rfl), ?_⟩
  obtain ⟨log', reply', returned', hagain⟩ : ∃ log' reply' returned',
      SchemaClient.step schemaDesk (polls + 1) (deskClient log reply returned 1 0 1 [(none, deskSchema 0)])
        (.getSchema none) = deskClient log' reply' returned' 1 1 2 [(none, deskSchema 1)] := ⟨_, _, _, rfl⟩
  rw [hagain]
  exact ⟨husable (hnone rfl _), trivial⟩

/-- The first key asked for after a reconnect has to be cached; a second one is as it
was before the reconnect; and after `connect` every key is. -/
theorem schema_cache_incoherent :
    ¬Along (SchemaClient.step schemaDesk 1) (SchemaClient.Coherent schemaDesk 1)
      { state := .init schemaState [], returned := [] }
      [.connect none, .getSchema none, .reconnect true, .getSchema (some (.text (py "cn=a")))] ∧
    ¬Along (SchemaClient.step schemaDesk 1) (SchemaClient.Coherent schemaDesk 1)
      { state := .init schemaState [], returned := [] }
      [.connect none, .getSchema none, .getSchema (some (.text (py "cn=a"))), .reconnect true,
        .getSchema none, .getSchema (some (.text (py "cn=a")))] ∧
    ¬Along (SchemaClient.step schemaDesk 1) (SchemaClient.Coherent schemaDesk 1)
      { state := .init schemaState [], returned := [] }
      [.connect none, .getSchema none, .disconnect, .connect none, .getSchema none] := by
  decide +kernel

end FreeIam.Ldap
