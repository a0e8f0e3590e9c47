import FreeIam.Ldap.Environment

/-!
# The connection object

`connection.py` has the asynchronous `Connection`; `create_sync.sh` makes
`sync_connection.py` from it by textual substitution. The two classes are one
definition here, and a connection says of which class it is where the
substitution leaves a difference: no reader to remove, another way to wait for a
result, no synchronous connection inside.
-/

namespace FreeIam.Ldap

open FreeIam.Py FreeIam.Errors FreeIam.Exec

/-! ## State -/

/-- The slots that both classes have. -/
structure Slots where
  /-- `connection.Connection`, otherwise `sync_connection.Connection`. -/
  asynchronous : Bool
  uri : PyStr
  timeout : Int
  automaticReconnect : Bool
  maxConnectionAttempts : Nat
  conn : Option Obj
  startTls : Bool
  /-- `('simple_bind_s', authzid, password)` -/
  lastAuthState : Option SimpleBind
  options : List (LdapOption × OptionValue)
  deriving DecidableEq

/-- A connection, with the `__conn_s` that only the asynchronous class fills. -/
structure Connection extends Slots where
  connS : Option Slots
  deriving DecidableEq

/-- `Connection.__init__`, with the defaults of the source. -/
def Connection.init (asynchronous : Bool) (uri : PyStr) (startTls : Bool := false)
    (timeout : Int := -1) (automaticReconnect : Bool := true) (maxConnectionAttempts : Nat := 10)
    (conn : Option Obj := none) : Connection :=
  { asynchronous := asynchronous, uri := uri, timeout := timeout
    automaticReconnect := automaticReconnect, maxConnectionAttempts := maxConnectionAttempts
    conn := conn, startTls := startTls, lastAuthState := none, options := [], connS := none }

/-- A message ID. With the number that the code holds it has the place in the log
of calls at which it was issued, which no code reads. -/
structure MsgId where
  number : Nat
  call : Nat
  deriving DecidableEq

/-- A call by which a request was handed to python-ldap, with the state right
after it, or by which a result was asked for, with the state right before it. -/
inductive Call (ω : Type)
  | request (o : Obj) (op : Operation) (outcome : Except PyExc (Option Nat)) (after : ω)
  | result (o : Obj) (msgid : MsgId) (before : ω) (outcome : Except PyExc Response)

/-- The state of the modelled code: the connection, everything outside, and the
log of the calls made so far. -/
structure State (ω : Type) where
  self : Connection
  world : ω
  calls : List (Call ω)

/-- A method of the connection. -/
abbrev Method (ω α : Type) := EStateM PyExc (State ω) α

namespace Method

variable {ω α : Type} (env : Env ω)

/-- A call that leaves the connection's own slots alone. -/
def onWorld (m : EStateM PyExc ω α) : Method ω α :=
  zoom State.world (fun w s => { s with world := w }) m

/-- Assign to slots of the connection. -/
def modifySelf (f : Connection → Connection) : Method ω Unit :=
  modify fun s => { s with self := f s.self }

/-- `with errors.LdapError.wrap(…)` -/
def wrap (m : Method ω α) : Method ω α := tryCatch m fun e => throw e.wrap

/-! ## Properties -/

/-- `Connection.conn`: the underlying connection. -/
def conn : Method ω Obj := do
  match (← get).self.conn with
  | none => throw (.runtimeError "not connected")
  | some o => pure o

/-- `Connection.fileno` -/
def fileno (s : State ω) : Int :=
  match s.self.conn with
  | none => -1
  | some o => if env.hasL s.world o then env.fileno s.world o else -1

/-- `Connection.connected` -/
def connected (s : State ω) : Bool := fileno env s != -1

/-- `Connection._sync_connection`: the synchronous connection inside. A new one
is built from the slots, `start_tls` left at its default. -/
def syncConnection (self : Connection) : Slots :=
  match self.connS with
  | some inner => inner
  | none =>
    (Connection.init false self.uri false self.timeout self.automaticReconnect
      self.maxConnectionAttempts self.conn).toSlots

/-- Run a method on the synchronous connection inside. -/
def onSyncConnection (m : Method ω α) : Method ω α :=
  zoom (fun s => { s with self := { toSlots := syncConnection s.self, connS := none } })
    (fun inner s => { inner with self := { s.self with connS := some inner.self.toSlots } }) m

/-! ## Options -/

/-- `Connection.set_option` -/
def setOption (option : LdapOption) (value : OptionValue) (append : Bool := true) :
    Method ω Unit := do
  onlyIf append
    (modifySelf fun self => { self with options := self.options ++ [(option, value)] })
  wrap do
    let o ← conn
    onWorld (env.setOption o option value)

/-- `Connection.get_option` -/
def getOption (option : LdapOption) : Method ω OptionValue :=
  wrap do
    let o ← conn
    onWorld (env.getOption o option)

/-- `Connection.set_controls` -/
def setControls (controls : Controls) : Method ω Unit := do
  controls.server.forM fun server => setOption env .serverControls (.controls server)
  controls.client.forM fun client => setOption env .clientControls (.controls client)

/-- `Connection._restore_options` -/
def restoreOptions : Method ω Unit := do
  (← get).self.options.forM fun item => setOption env item.1 item.2 false

/-! ## Connecting -/

/-- `Connection._remove_reader`: without a descriptor of its own there is nothing
to remove, otherwise the loop has to be running. -/
def removeReader : Method ω Unit := do
  onlyIf (fileno env (← get) ≠ -1) (onWorld env.getRunningLoop)

/-- `Connection.start_tls` -/
def startTls : Method ω Unit := do
  modifySelf fun self => { self with startTls := true }
  wrap do
    let o ← conn
    onWorld (env.startTlsS o)

/-- The LDAP object that `Connection.connect` stores. -/
def newLdapObject (self : Connection) (fileno : Option Int) : Method ω Obj :=
  if self.automaticReconnect then
    onWorld (env.reconnectLDAPObject self.uri fileno self.maxConnectionAttempts)
  else
    onWorld (env.simpleLDAPObject self.uri fileno)

/-- `Connection.connect` -/
def connect (fileno : Option Int := none) : Method ω Unit := do
  onlyIf (connected env (← get)) (throw (.runtimeError "already connected"))
  let o ← newLdapObject env (← get).self fileno
  modifySelf fun self => { self with conn := some o, connS := none }
  onlyIf (← get).self.startTls (startTls env)

/-- `Connection.disconnect` -/
def disconnect : Method ω Unit := do
  onlyIf (← get).self.asynchronous (removeReader env)
  modifySelf fun self => { self with conn := none, connS := none }

/-- `Connection._restore_auth_state` -/
def restoreAuthState : Method ω Unit := do
  match (← get).self.lastAuthState with
  | none => pure ()
  | some bind =>
    wrap do
      let o ← conn
      onWorld (env.simpleBindS o bind)

/-- `Connection.reconnect` -/
def reconnect (force : Bool := true) : Method ω Unit := do
  onlyIf (← get).self.asynchronous (removeReader env)
  wrap do
    let o ← conn
    let self := (← get).self
    onWorld (env.reconnect o self.uri self.maxConnectionAttempts force)
    restoreOptions env
    restoreAuthState env

end Method

end FreeIam.Ldap
