import FreeIam.Lib.Dict
import FreeIam.Ldap.Connection.Write

/-!
# The schema

`get_schema` keeps the schemata it has fetched in a dictionary, one for each name
it was asked for. A counter tells it that the LDAP object has been reconnected since.
Both are private slots of the connection, which `connect` assigns only in part.
-/

namespace FreeIam.Ldap

open FreeIam.Py FreeIam.Errors FreeIam.Exec

/-! ## get -/

namespace Method

variable {ω : Type} (env : Env ω) (polls : Nat)

/-- `Connection.get`: the first object of a search for the name itself. -/
def getObject (dn : PyStr) (attrs : Option (List PyStr) := none)
    (filterExpr : PyStr := py "(objectClass=*)") (unique : Bool := false)
    (controls : Option Controls := none) : Method ω (Option Result) := do
  let results ← search env polls
    { base := dn, scope := .base, filterExpr := filterExpr, attrs := attrs, unique := unique
      controls := controls }
  pure results.head?

/-- `Connection.exists` -/
def existsObject (dn : PyStr) (unique : Bool := false) (controls : Option Controls := none) :
    Method ω Bool :=
  tryCatch
    (do
      let _ ← getObject env polls dn (some [py "1.1"]) (py "(objectClass=*)") unique controls
      pure true)
    fun e => if e.is .noSuchObject then pure false else throw e

/-- `Connection.get_root_dse` -/
def getRootDse (attrs : Option (List PyStr)) (filterExpr : PyStr := py "(objectClass=*)") :
    Method ω (Option Result) :=
  getObject env polls []
    (match attrs with
    | some (attr :: attrs) => some (attr :: attrs)
    | _ => some [py "*", py "+"])
    filterExpr

end Method

/-! ## Schemata -/

/-- A session of a connection: how many LDAP objects `connect` has made, and how
often the last of them has been reconnected. -/
structure Session where
  connects : Nat
  reconnects : Nat
  deriving DecidableEq

/-- `Schema`: the names of each attribute type. Besides, which object it is and in
which session it was read, which no code reads. -/
structure Schema where
  identity : Nat
  session : Session
  attributes : List (List PyStr)
  deriving DecidableEq

/-- `Schema.get_attribute_aliases` -/
def Schema.getAttributeAliases (self : Schema) : List (PyStr × PyStr) :=
  self.attributes.flatMap fun names =>
    match names with
    | [] => []
    | name :: aliases => aliases.map fun other => (other, name)

/-- What the schema needs besides: the class and the counter of an LDAP object,
`ldap.schema.SubSchema` and `ldap.schema.SCHEMA_ATTRS`. -/
structure Schemata (ω : Type) extends Modlists ω where
  /-- `isinstance(conn, ldap.ldapobject.ReconnectLDAPObject)` -/
  isReconnectLDAPObject : Obj → Bool
  /-- `conn._reconnects_done` -/
  reconnectsDone : ω → Obj → Nat
  /-- The names of the attribute types of `SubSchema(_, 0)`. -/
  subSchema : Option Attributes → Except PyExc (List (List PyStr))
  schemaAttrs : List PyStr

/-- The key of the cache: `DN | str | None`. -/
abbrev SchemaKey := Option DnArg

/-- The connection with its private slots, which may be unassigned, and
`Attributes.ALIASES`. The two numbers are read by no code. -/
structure SchemaState (ω : Type) where
  state : State ω
  schema : Option (List (SchemaKey × Schema))
  reconnectsCounter : Option Nat
  /-- `__conn_s` is assigned, by what `state` has of it. -/
  connSAssigned : Bool
  aliases : List (PyStr × PyStr)
  /-- The LDAP objects that `connect` has made. -/
  connects : Nat
  /-- The `Schema` objects that have been made. -/
  made : Nat

/-- A method that reads the cache. -/
abbrev SchemaMethod (ω α : Type) := EStateM PyExc (SchemaState ω) α

variable {ω α : Type} (lib : Schemata ω)

/-- Keys of a dictionary: names are the same if they are equal, texts and names have
different hashes. -/
def SchemaKey.same : SchemaKey → SchemaKey → Bool
  | none, none => true
  | some (.text a), some (.text b) => a == b
  | some (.dn a), some (.dn b) => a.eq lib.toNames b
  | _, _ => false

/-- `bool(subschema_dn)` -/
def SchemaKey.isTrue : SchemaKey → Bool
  | none => false
  | some (.text text) => !text.isEmpty
  | some (.dn dn) => dn.len != 0

/-- `Attributes.__missing__` -/
def Attributes.missing (aliases : List (PyStr × PyStr)) (self : Attributes) (key : PyStr) :
    Except PyExc AttributeValue :=
  let key := (dictGet aliases key).getD key
  match dictGet (self.items.map fun item => (lib.lower item.1, item.2)) (lib.lower key) with
  | none => .error .keyError
  | some value => .ok value

/-- `Attributes.__getitem__` -/
def Attributes.getItem (aliases : List (PyStr × PyStr)) (self : Attributes) (key : PyStr) :
    Except PyExc AttributeValue :=
  match dictGet self.items key with
  | some value => .ok value
  | none => self.missing lib aliases key

/-- `value[0].decode('UTF-8')` -/
def AttributeValue.firstText : AttributeValue → Except PyExc PyStr
  | .values [] => .error .indexError
  | .values (value :: _) =>
    match decodeUtf8 value with
    | none => .error (.raised "UnicodeDecodeError")
    | some decoded => .ok decoded
  | .text [] => .error .indexError
  | .text _ => .error (.attributeError "'str' object has no attribute 'decode'")

/-- `result.attr`, where `get` may have found nothing. -/
def Result.attributes : Option Result → Except PyExc (Option Attributes)
  | none => .error (.attributeError "'NoneType' object has no attribute 'attr'")
  | some result => .ok result.attr

/-- `subschemasubentry.attr['subschemaSubentry'][0].decode('UTF-8')` -/
def subschemaSubentryDn (aliases : List (PyStr × PyStr)) (result : Option Result) :
    Except PyExc PyStr := do
  match ← Result.attributes result with
  | none => .error (.raised "TypeError")
  | some attributes =>
    let value ← attributes.getItem lib aliases (py "subschemaSubentry")
    value.firstText

/-- `errors.NoSuchObject, errors.NoSuchAttribute, errors.InsufficientAccess, errors.UndefinedType` -/
def hidesSchema (e : PyExc) : Bool :=
  e.is .noSuchObject || e.is (.other "NoSuchAttribute") || e.is (.other "InsufficientAccess") ||
    e.is (.other "UndefinedType")

/-- What the search for the subschema subentry comes to. -/
inductive Subentry
  /-- `return await self.get_schema()` -/
  | returned (schema : Schema)
  /-- `subschema = None` -/
  | unavailable
  /-- The name of the entry to read. -/
  | entry (dn : PyStr)

namespace SchemaState

/-- The private slots as `Connection.__init__` assigns them. -/
def init (state : State ω) (aliases : List (PyStr × PyStr)) : SchemaState ω :=
  { state := state, schema := some [], reconnectsCounter := some 0, connSAssigned := true
    aliases := aliases, connects := 0, made := 0 }

/-- The session that the connection is in. -/
def session (s : SchemaState ω) : Session :=
  { connects := s.connects
    reconnects := (s.state.self.conn.map fun o => lib.reconnectsDone s.state.world o).getD 0 }

end SchemaState

namespace SchemaMethod

/-- A method that leaves the cache alone. -/
def onState (m : Method ω α) : SchemaMethod ω α :=
  zoom SchemaState.state (fun state s => { s with state := state }) m

/-- `self.__schema` -/
def schema : SchemaMethod ω (List (SchemaKey × Schema)) := do
  match (← get).schema with
  | none => throw (.attributeError "_Connection__schema")
  | some items => pure items

/-- `self.__reconnects_counter` -/
def reconnectsCounter : SchemaMethod ω Nat := do
  match (← get).reconnectsCounter with
  | none => throw (.attributeError "_Connection__reconnects_counter")
  | some counter => pure counter

/-! ## get_schema -/

/-- `isinstance(conn, ReconnectLDAPObject) and conn._reconnects_done > self.__reconnects_counter` -/
def reconnected (o : Obj) : SchemaMethod ω Bool :=
  if lib.isReconnectLDAPObject o then do
    let s ← get
    let counter ← reconnectsCounter
    pure (counter < lib.reconnectsDone s.state.world o)
  else pure false

/-- `del self.__schema[subschema_dn]` -/
def delSchema (key : SchemaKey) : SchemaMethod ω Unit := do
  let items ← schema
  match Dict.get (SchemaKey.same lib) items key with
  | none => throw .keyError
  | some _ => modify fun s => { s with schema := some (Dict.del (SchemaKey.same lib) items key) }

/-- The part of `get_schema` that looks after reconnects. -/
def invalidate (o : Obj) (key : SchemaKey) : SchemaMethod ω Unit := do
  if ← reconnected lib o then do
    delSchema lib key
    let o ← onState Method.conn
    modify fun s => { s with reconnectsCounter := some (lib.reconnectsDone s.state.world o) }
  else pure ()

/-- `self.get(subschema_dn, …) if subschema_dn else self.get_root_dse(…)` -/
def searchSubentry (polls : Nat) (key : SchemaKey) : Method ω (Option Result) :=
  match key with
  | none => Method.getRootDse lib.toEnv polls (some [py "subschemaSubentry"])
  | some dn =>
    if key.isTrue then
      Method.getObject lib.toEnv polls (DN.str lib.toModlists dn) (some [py "subschemaSubentry"])
    else Method.getRootDse lib.toEnv polls (some [py "subschemaSubentry"])

/-- The search for the subschema subentry. Without the attribute, the entry's is
that of the root DSE; if it is the root DSE's that is missing, the name of the entry
is unbound where it is used. -/
def findSubentry (polls : Nat) (delegate : SchemaMethod ω Schema) (key : SchemaKey) :
    SchemaMethod ω Subentry :=
  tryCatch
    (do
      let result ← onState (searchSubentry lib polls key)
      let s ← get
      match subschemaSubentryDn lib s.aliases result with
      | .ok dn => pure (.entry dn)
      | .error .keyError =>
        if key.isTrue then Subentry.returned <$> delegate else throw (.raised "UnboundLocalError")
      | .error e => throw e)
    fun e => if hidesSchema e then pure .unavailable else throw e

/-- The entry of the schema. -/
def readSubschema (polls : Nat) (dn : PyStr) : SchemaMethod ω (Option Attributes) :=
  tryCatch
    (do
      let result ← onState
        (Method.getObject lib.toEnv polls dn (some lib.schemaAttrs) (py "(objectClass=subschema)"))
      onState (ofExcept (Result.attributes result)))
    fun e => if e.is .noSuchObject then pure none else throw e

/-- `self.__schema[subschema_dn] = Schema(ldap.schema.SubSchema(subschema, 0))`, with
`Attributes.set_schema` and what is returned. -/
def storeSchema (key : SchemaKey) (subschema : Option Attributes) : SchemaMethod ω Schema := do
  let attributes ← onState (ofExcept (lib.subSchema subschema))
  let items ← schema
  let s ← get
  let made : Schema := { identity := s.made, session := s.session lib, attributes := attributes }
  set { s with
    schema := some (Dict.set (SchemaKey.same lib) items key made)
    aliases := s.aliases ++ made.getAttributeAliases
    made := s.made + 1 }
  pure made

/-- The part of `get_schema` that fetches and stores. -/
def fetchSchema (polls : Nat) (delegate : SchemaMethod ω Schema) (key : SchemaKey) :
    SchemaMethod ω Schema := do
  match ← findSubentry lib polls delegate key with
  | .returned schema => pure schema
  | .unavailable => storeSchema lib key none
  | .entry dn => do
    let subschema ← readSubschema lib polls dn
    storeSchema lib key subschema

/-- `get_schema`, where `delegate` is `get_schema()`. -/
def getSchemaOr (polls : Nat) (delegate : SchemaMethod ω Schema) (key : SchemaKey) :
    SchemaMethod ω Schema := do
  let o ← onState Method.conn
  invalidate lib o key
  let items ← schema
  match Dict.get (SchemaKey.same lib) items key with
  | some cached => pure cached
  | none => fetchSchema lib polls delegate key

/-- `Connection.get_schema`. It calls itself without a name only where it has one. -/
def getSchema (polls : Nat) (key : SchemaKey) : SchemaMethod ω Schema :=
  getSchemaOr lib polls (getSchemaOr lib polls (throw .polling) none) key

end SchemaMethod

/-! ## Connecting -/

namespace Method

variable (env : Env ω)

/-- `Connection.connect` up to the point where it resets the counter. -/
def openObject (fileno : Option Int) : Method ω Unit := do
  onlyIf (connected env (← get)) (throw (.runtimeError "already connected"))
  let o ← newLdapObject env (← get).self fileno
  modifySelf fun self => { self with conn := some o, connS := none }

/-- `if self._start_tls: self.start_tls()` -/
def secure : Method ω Unit := do
  onlyIf (← get).self.startTls (startTls env)

theorem connect_eq (fileno : Option Int) :
    connect env fileno = openObject env fileno >>= fun _ => secure env := by
  unfold connect openObject secure
  simp only [bind_assoc]

end Method

namespace SchemaMethod

/-- `Connection.connect`, with the private slots. -/
def connect (fileno : Option Int) : SchemaMethod ω Unit := do
  onState (Method.openObject lib.toEnv fileno)
  modify fun s =>
    { s with reconnectsCounter := some 0, connSAssigned := true, connects := s.connects + 1 }
  onState (Method.secure lib.toEnv)

/-- `Connection.disconnect`, with the private slots. -/
def disconnect : SchemaMethod ω Unit := do
  onState (Method.disconnect lib.toEnv)
  modify fun s => { s with connSAssigned := true }

/-- `self._sync_connection` -/
def syncConnection : SchemaMethod ω Slots := do
  let s ← get
  if s.connSAssigned then
    let inner := Method.syncConnection s.state.self
    onState (Method.modifySelf fun self => { self with connS := some inner })
    pure inner
  else throw (.attributeError "_Connection__conn_s")

end SchemaMethod

end FreeIam.Ldap
