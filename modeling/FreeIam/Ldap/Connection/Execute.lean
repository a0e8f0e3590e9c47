import FreeIam.Ldap.Connection.State

/-!
# Executing operations

An operation is a request and the wait for its result. `_retry` repeats a step
after a lost connection, `_poll` waits. The number of rounds that a polling loop
may take is a parameter: a loop of the source that never ends shows as
`PyExc.polling` for every number of rounds.
-/

namespace FreeIam.Ldap.Method

open FreeIam.Py FreeIam.Errors FreeIam.Exec

variable {ω α : Type} (env : Env ω)

/-! ## Requests and results -/

/-- A call to python-ldap that the log records. -/
def logged (m : EStateM PyExc ω α) (entry : ω → Except PyExc α → ω → Call ω) : Method ω α := fun s =>
  match m.run s.world with
  | .ok a w => .ok a { s with world := w, calls := s.calls ++ [entry s.world (.ok a) w] }
  | .error e w => .error e { s with world := w, calls := s.calls ++ [entry s.world (.error e) w] }

/-- `Connection.request` -/
def request (o : Obj) (op : Operation) : Method ω (Option MsgId) := do
  let call := (← get).calls.length
  let number ← wrap (logged (env.request o op) fun _ outcome after => .request o op outcome after)
  pure (number.map fun number => ⟨number, call⟩)

/-- `Connection.get_result` -/
def getResult (o : Obj) (msgid : MsgId) (all : Bool) (timeout : Int) : Method ω Response :=
  wrap (logged (env.result4 o msgid.number all timeout) fun before outcome _ =>
    .result o msgid before outcome)

/-! ## Retrying -/

/-- The loop of `Connection._retry` with `attempts` left of `maxAttempts`. -/
def retryLoop (maxAttempts : Nat) (func : Method ω α) : Nat → Method ω α
  | 0 => throw (.runtimeError "")
  | attempts + 1 =>
    tryCatch
      (do
        onlyIf (attempts + 1 ≠ maxAttempts) (reconnect env)
        func)
      fun e =>
        if e.lost then
          if attempts = 0 then throw e else retryLoop maxAttempts func attempts
        else throw e

/-- `Connection._retry` -/
def retry (func : Method ω α) : Method ω α := do
  let maxAttempts := (← get).self.maxConnectionAttempts
  retryLoop env maxAttempts func maxAttempts

/-! ## Waiting -/

/-- The wait of the synchronous `_poll`: `self._retry(self.get_result, …)`. -/
def awaitSync (o : Obj) (msgid : MsgId) (all : Bool) : Method ω Response := do
  let timeout := (← get).self.timeout
  retry env (getResult env o msgid all timeout)

/-- One call of `_ready`, once the descriptor is readable: an error that is
neither an `LdapError` nor an `OSError` ends the callback and completes nothing. -/
def ready (o : Obj) (msgid : MsgId) (all : Bool) : Method ω (Option Response) :=
  tryCatch
    (do
      let response ← getResult env o msgid all 0
      pure (if response.type = none then none else some response))
    fun e =>
      match e with
      | .lib _ => throw e
      | .osError => throw e
      | _ => pure none

/-- The wait of the asynchronous `_poll`: until a call of `_ready` completes the future. -/
def awaitAsync (o : Obj) (msgid : MsgId) (all : Bool) : Nat → Method ω Response
  | 0 => throw .polling
  | polls + 1 => do
    let timeout := (← get).self.timeout
    onWorld (env.readable o timeout)
    match ← ready env o msgid all with
    | some response => pure response
    | none => awaitAsync o msgid all polls

/-- The rounds of `_poll` up to the next response that it yields, `none` where
the loop ends without one. -/
def poll (o : Obj) (msgid : MsgId) (all : Bool) : Nat → Method ω (Option Response)
  | 0 => throw .polling
  | polls + 1 => do
    let response ← tryCatch
      (do
        if (← get).self.asynchronous then
          some <$> awaitAsync env o msgid all (polls + 1)
        else
          some <$> awaitSync env o msgid all)
      fun e => if e.is .noResultsReturned then pure none else throw e
    match response with
    | none => pure none
    | some response =>
      if response.type = none then poll o msgid all polls else pure (some response)

/-- Whether `_poll` goes on after it has yielded a response: only after an entry. -/
def goesOn (response : Response) : Bool := response.type = some .searchEntry

/-! ## Executing -/

/-- `Connection._execute` -/
def execute (polls : Nat) (o : Obj) (op : Operation) : Method ω Response := do
  match ← retry env (request env o op) with
  | none => pure { type := none, data := none, msgid := none, ctrls := some [] }
  | some msgid =>
    match ← poll env o msgid true polls with
    | none => throw .assertionError
    | some response =>
      if goesOn response then
        match ← poll env o msgid true polls with
        | some _ => throw (.runtimeError "Wrong method used! Use _execute_iter instead!")
        | none => pure response
      else pure response

/-- An operation with its controls, executed and wrapped. -/
def executeResult (polls : Nat) (request : Request) (controls : Option Controls)
    (dn : Option PyStr := none) : Method ω Result := do
  let o ← conn
  let response ← execute env polls o (request.with controls)
  ofExcept (Result.fromResponse env dn none controls response)

/-! ## Binding -/

/-- `Connection.bind` -/
def bind (polls : Nat) (authzid password : Option PyStr) (controls : Option Controls := none) :
    Method ω Result := do
  let o ← conn
  modifySelf fun self => { self with lastAuthState := some ⟨authzid, password⟩ }
  let response ← execute env polls o ((Request.simpleBind ⟨authzid, password⟩).with controls)
  ofExcept (Result.fromResponse env none none controls response)

/-- The SASL binds are one call with their mechanism. -/
def saslBind (mechanism : Sasl) : Method ω Unit :=
  wrap do
    let o ← conn
    onWorld (env.saslInteractiveBindS o mechanism)

/-- `Connection.bind_external` -/
def bindExternal : Method ω Unit := saslBind env .external

/-- `Connection.bind_sasl_gssapi` -/
def bindSaslGssapi : Method ω Unit := saslBind env .gssapi

/-- `Connection.bind_oauthbearer` -/
def bindOauthbearer (authzid : Option PyStr) (token : PyStr) : Method ω Unit :=
  saslBind env (.oauthbearer authzid token)

/-- The message of the error that a second unbind raises. -/
def duplicatedUnbind : PyExc := .attributeError "ReconnectLDAPObject has no attribute '_l'"

/-- `Connection.unbind` -/
def unbind (polls : Nat) (controls : Option Controls := none) : Method ω (Option Result) := do
  modifySelf fun self => { self with lastAuthState := none }
  match (← get).self.conn with
  | none => pure none
  | some o =>
    let response ← tryCatch (some <$> execute env polls o (Request.unbindExt.with controls))
      fun e => if e = duplicatedUnbind then pure none else throw e
    match response with
    | none => pure none
    | some response => some <$> ofExcept (Result.fromResponse env none none controls response)

/-- `Connection.whoami` -/
def whoami (controls : Option Controls := none) : Method ω (Option AuthzId) := do
  let dn ← tryCatch
    (some <$> wrap do
      let o ← conn
      onWorld (env.whoamiS o (Controls.expand controls)))
    fun e => match e with
      | .runtimeError _ => pure none
      | _ => throw e
  match dn with
  | none => pure none
  | some dn =>
    if (py "dn:").isPrefixOf dn then
      (some ∘ AuthzId.dn) <$> ofExcept (DN.init env (dn.drop 3))
    else pure (some (.text dn))

/-! ## Context managers -/

/-- `Connection.__aenter__`, and `__enter__` of the synchronous class. -/
def aenter : Method ω Unit := connect env

/-- `Connection.__aexit__`, and `__exit__` of the synchronous class. -/
def aexit (polls : Nat) : Method ω Unit := do
  let _ ← unbind env polls
  disconnect env

/-- `Connection.__enter__` of the asynchronous class: the synchronous connection inside. -/
def enter : Method ω Unit := onSyncConnection (aenter env)

/-- `Connection.__exit__` of the asynchronous class. -/
def exit (polls : Nat) : Method ω Unit := do
  onSyncConnection (aexit env polls)
  disconnect env

/-! ## Ending operations -/

/-- `Connection.abandon` -/
def abandon (polls : Nat) (msgid : Nat) (controls : Option Controls := none) : Method ω Result :=
  executeResult env polls (.abandonExt msgid) controls

/-- `Connection.cancel` -/
def cancel (polls : Nat) (msgid : Nat) (controls : Option Controls := none) : Method ω Bool := do
  match (← get).self.conn with
  | none => pure false
  | some o =>
    tryCatch
      (do
        let _ ← execute env polls o ((Request.cancel msgid).with controls)
        pure true)
      fun e =>
        if e.is .cancelled || e.is .success then pure true
        else if e.is .tooLate then pure false
        else throw e

/-! ## Extended operations -/

/-- `StartTransactionResponse`: the octet string is decoded, the value kept as it came. -/
def startTransactionResponse : ExtendedResponse where
  responseName := none
  decode := fun _ value => (env.decodeOctetString value).map fun _ => .bytes value

/-- `EndTransactionResponse` -/
def endTransactionResponse : ExtendedResponse where
  responseName := none
  decode := fun _ value => .ok (.bytes value)

/-- The error of a response whose name is not that of its class. -/
def responseNameMismatch (responseClass : ExtendedResponse) (response : Response) : PyExc :=
  .lib { cls := .protocolError
         description := some "OID in extended response does not match response class."
         info := some (.responseNames responseClass.responseName response.name) }

/-- What `Connection.extended` decodes of a response: nothing of an empty value. -/
def decodeExtended (responseClass : Option ExtendedResponse) (response : Response) :
    Except PyExc (Option ExtendedValue) :=
  match responseClass with
  | none => .ok none
  | some responseClass =>
    if responseClass.responseName ≠ response.name then
      .error (responseNameMismatch responseClass response)
    else
      match response.value with
      | none => .ok none
      | some [] => .ok none
      | some value => (responseClass.decode response.name value).map some

/-- `Connection.extended` -/
def extended (polls : Nat) (request : ExtendedRequest) (responseClass : Option ExtendedResponse)
    (controls : Option Controls := none) : Method ω Result := do
  let o ← conn
  let response ← execute env polls o ((Request.extop request).with controls)
  let decodedValue ← wrap (ofExcept (decodeExtended responseClass response))
  ofExcept (Result.fromResponse env none none controls response decodedValue)

end FreeIam.Ldap.Method
