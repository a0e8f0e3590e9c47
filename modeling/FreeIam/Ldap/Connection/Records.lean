import FreeIam.Ldap.Connection.Retry
import FreeIam.Py.Repr

/-!
# Log records

The methods that execute an operation write what they do to a log. Here they are
once more, with their records as events, and each of them does what its method
does. The records of a request hold its arguments, except where the name of the
operation contains `bind`. Besides the records, the events say how each call to
python-ldap has ended and where `_retry` reconnects.
-/

namespace FreeIam.Ldap

open FreeIam.Py FreeIam.Errors FreeIam.Exec

/-! ## Records -/

/-- A value of the `extra` fields. -/
inductive Extra
  | text (text : PyStr)
  | number (n : Int)
  | none
  deriving DecidableEq

/-- A log record: its message and its extra fields. -/
structure Record where
  message : PyStr
  extra : List (String × Extra)
  deriving DecidableEq

/-- How objects are printed whose classes are not those of the model: exceptions with
`repr` and `str`, lists of controls, responses, and the arguments of the operations
that carry no password. -/
structure Texts where
  printable : Printable
  exc : PyExc → PyStr
  excStr : PyExc → PyStr
  controls : List Control → PyStr
  response : Response → PyStr
  arguments : Request → List PyStr

/-- `'%d' % n` -/
def decimal (n : Int) : PyStr := py (toString n)

/-- `repr(value)` where the value may be `None`. -/
def Texts.optional (texts : Texts) : Option PyStr → PyStr
  | none => py "None"
  | some s => repr texts.printable s

/-- `operation.__name__` -/
def Request.name : Request → PyStr
  | .simpleBind _ => py "simple_bind"
  | .unbindExt => py "unbind_ext"
  | .abandonExt _ => py "abandon_ext"
  | .cancel _ => py "cancel"
  | .extop _ => py "extop"
  | .searchExt _ _ _ _ _ _ _ => py "search_ext"
  | .passwd _ _ _ => py "passwd"
  | .compareExt _ _ _ => py "compare_ext"
  | .addExt _ _ => py "add_ext"
  | .modifyExt _ _ => py "modify_ext"
  | .deleteExt _ => py "delete_ext"
  | .rename _ _ _ _ => py "rename"

/-- `map(repr, args)` -/
def Texts.args (texts : Texts) : Request → List PyStr
  | .simpleBind bind => [texts.optional bind.who, texts.optional bind.cred]
  | .passwd user oldpw newpw =>
    [repr texts.printable user, repr texts.printable oldpw, repr texts.printable newpw]
  | request => texts.arguments request

/-- `', '.join(_)` -/
def joinComma (parts : List PyStr) : PyStr := (py ", ").intercalate parts

/-- `', '.join(f'{k}={v!r}' …)` of `**Controls.expand(controls)`. -/
def Texts.keywords (texts : Texts) : Option Controls → PyStr
  | none => []
  | some controls =>
    joinComma [py "serverctrls=" ++ (controls.server.map texts.controls).getD (py "None"),
      py "clientctrls=" ++ (controls.client.map texts.controls).getD (py "None")]

/-- `'bind' in op` -/
def Request.isBind (request : Request) : Bool := contains (py "bind") request.name

/-- `arg_str` -/
def Texts.argStr (texts : Texts) (request : Request) : PyStr :=
  if request.isBind then [] else joinComma (texts.args request)

/-- `kw`, of the keywords as they are printed. -/
def keywordStr (request : Request) (keywords : PyStr) : PyStr :=
  if request.isBind then [] else keywords

namespace Record

/-- The first record of `request`. -/
def requested (texts : Texts) (request : Request) (keywords : PyStr) : Record :=
  let argStr := texts.argStr request
  let kw := keywordStr request keywords
  { message := py "Request " ++ request.name ++ py "(" ++ argStr ++
      (if kw.isEmpty then [] else py ", ") ++ kw ++ py ")"
    extra := [("OPERATION", .text request.name), ("ARGUMENTS", .text argStr), ("KEYWORDS", .text kw)] }

/-- The record of a request that has failed. -/
def requestRaised (texts : Texts) (request : Request) (e : PyExc) : Record :=
  { message := request.name ++ py "() -> " ++ texts.exc e
    extra := [("OPERATION", .text request.name), ("EXCEPTION", .text (texts.excStr e))] }

/-- The record of a request with its message ID. -/
def requestDone (request : Request) (msgid : Option MsgId) : Record :=
  { message := request.name ++ py "() -> " ++ msgid.elim (py "None") fun msgid => decimal msgid.number
    extra := [("OPERATION", .text request.name),
      ("MSGID", msgid.elim .none fun msgid => .number msgid.number)] }

/-- The first record of `get_result`. -/
def awaited (msgid : MsgId) (all : Bool) (timeout : Int) : Record :=
  { message := py "result(" ++ decimal msgid.number ++ py ", timeout=" ++ decimal timeout ++ py ")"
    extra := [("MSGID", .number msgid.number), ("ALL", .number (if all then 1 else 0)),
      ("TIMEOUT", .number timeout), ("FUNC", .text (py "result"))] }

/-- The record of a wait that has failed. -/
def resultRaised (texts : Texts) (msgid : MsgId) (e : PyExc) : Record :=
  { message := py "result(" ++ decimal msgid.number ++ py ") -> raised " ++ texts.exc e
    extra := [("MSGID", .number msgid.number), ("OPERATION", .text (py "result")),
      ("EXCEPTION", .text (texts.excStr e))] }

/-- The record of a wait with its response. -/
def resultDone (texts : Texts) (msgid : MsgId) (response : Response) : Record :=
  { message := py "result(" ++ decimal msgid.number ++ py ") -> " ++ (texts.response response).take 200
    extra := [("MSGID", .number msgid.number), ("OPERATION", .text (py "result"))] }

/-- The records about a descriptor. -/
def ofFd (message : String) (fd : Int) (suffix : String := "") : Record :=
  { message := py message ++ decimal fd ++ py suffix, extra := [] }

def ready (fd : Int) : Record := ofFd "FD " fd " is ready"

def notValid (fd : Int) : Record := ofFd "FD " fd " is not valid - maybe connection is closed"

def select (fd : Int) : Record := ofFd "Select on FD " fd

def removeReader (fd : Int) : Record := ofFd "Remove reader FD " fd

end Record

/-! ## Events -/

/-- What a run leaves of itself: its records, the ends of the calls to python-ldap,
with the FreeIAM error where they have failed, and the reconnects of `_retry`. -/
inductive LogEvent
  | record (record : Record)
  | requested (error : Option PyExc)
  | awaited (error : Option PyExc)
  | reconnecting
  deriving DecidableEq

/-- The error of an outcome. -/
def errorOf {α : Type} : Except PyExc α → Option PyExc
  | .ok _ => none
  | .error e => some e

/-- The records among the events. -/
def records (events : List LogEvent) : List Record :=
  events.filterMap fun event =>
    match event with
    | .record record => some record
    | _ => none

/-- `except (errors.LdapError, OSError)` -/
def isCaught : PyExc → Bool
  | .lib _ => true
  | .osError => true
  | _ => false

/-- A method with its events. -/
abbrev Logging (ω α : Type) := Traced LogEvent PyExc (State ω) α

namespace Logging

variable {ω α : Type} (env : Env ω) (texts : Texts)

/-! ## Methods with their records -/

/-- Write a record. -/
def log (record : Record) : Logging ω Unit := Traced.emit (.record record)

/-- A call to python-ldap between its records: the errors that are caught are
written before they are raised again. -/
def recorded (m : Method ω α) (first : Record) (raised : PyExc → Record) (done : α → Record)
    (ended : Option PyExc → LogEvent) : Logging ω α :=
  Traced.watch (fun outcome => ended (errorOf outcome)) do
    log first
    let a ← tryCatch (Traced.lift m) fun e => do
      onlyIf (isCaught e) (log (raised e))
      throw e
    log (done a)
    pure a

/-- `Connection.request`, of an operation whose keywords are printed as given. -/
def request (o : Obj) (op : Operation) (keywords : PyStr) : Logging ω (Option MsgId) :=
  recorded (Method.request env o op) (Record.requested texts op.request keywords)
    (Record.requestRaised texts op.request) (Record.requestDone op.request) .requested

/-- `Connection.get_result` -/
def getResult (o : Obj) (msgid : MsgId) (all : Bool) (timeout : Int) : Logging ω Response :=
  recorded (Method.getResult env o msgid all timeout) (Record.awaited msgid all timeout)
    (Record.resultRaised texts msgid) (Record.resultDone texts msgid) .awaited

/-- `Connection._remove_reader`, without an argument. -/
def removeReader : Logging ω Unit := do
  let s ← Traced.lift get
  log (Record.removeReader (Method.fileno env s))
  Traced.lift (Method.removeReader env)

/-- The record of `Connection._remove_reader(fd)`: zero stands for no descriptor. -/
def removedReader (fd : Int) : Logging ω Unit := do
  let s ← Traced.lift get
  log (Record.removeReader (if fd = 0 then Method.fileno env s else fd))

/-- `Connection.reconnect()` -/
def reconnect : Logging ω Unit := do
  onlyIf (← Traced.lift get).self.asynchronous (removeReader env)
  Traced.lift <| Method.wrap do
    let o ← Method.conn
    let self := (← get).self
    Method.onWorld (env.reconnect o self.uri self.maxConnectionAttempts true)
    Method.restoreOptions env
    Method.restoreAuthState env

/-- `Connection._retry` -/
def retry (func : Logging ω α) : Logging ω α := do
  let maxAttempts := (← Traced.lift get).self.maxConnectionAttempts
  let recover := do
    Traced.emit .reconnecting
    reconnect env
  Retry.loop PyExc.lost (.runtimeError "") recover func maxAttempts maxAttempts

/-- The wait of the synchronous `_poll`. -/
def awaitSync (o : Obj) (msgid : MsgId) (all : Bool) : Logging ω Response := do
  let timeout := (← Traced.lift get).self.timeout
  retry env (getResult env texts o msgid all timeout)

/-- `_ready` on a descriptor. -/
def ready (o : Obj) (msgid : MsgId) (all : Bool) (fd : Int) : Logging ω (Option Response) := do
  log (Record.ready fd)
  tryCatch
    (do
      let response ← getResult env texts o msgid all 0
      if response.type = none then pure none
      else do
        removedReader env fd
        pure (some response))
    fun e =>
      match e with
      | .lib _ | .osError => do
        log (Record.notValid fd)
        removedReader env fd
        throw e
      | _ => pure none

/-- The wait of the asynchronous `_poll` once the reader has been added. -/
def awaitAsync (o : Obj) (msgid : MsgId) (all : Bool) (fd : Int) : Nat → Logging ω Response
  | 0 => throw .polling
  | polls + 1 => do
    let timeout := (← Traced.lift get).self.timeout
    Traced.lift (Method.onWorld (env.readable o timeout))
    match ← ready env texts o msgid all fd with
    | some response => pure response
    | none => awaitAsync o msgid all fd polls

/-- `_poll`. Where the asynchronous wait raises, the reader is removed. -/
def poll (o : Obj) (msgid : MsgId) (all : Bool) : Nat → Logging ω (Option Response)
  | 0 => throw .polling
  | polls + 1 => do
    let before ← Traced.lift get
    let fd := env.fileno before.world o
    let response ← tryCatch
      (do
        if (← Traced.lift get).self.asynchronous then do
          log (Record.select fd)
          some <$> awaitAsync env texts o msgid all fd (polls + 1)
        else
          some <$> awaitSync env texts o msgid all)
      fun e => do
        onlyIf (before.self.asynchronous = true ∧ e ≠ .polling) (removedReader env fd)
        if e.is .noResultsReturned then pure none else throw e
    match response with
    | none => pure none
    | some response =>
      if response.type = none then poll o msgid all polls else pure (some response)

/-- `Connection._execute` -/
def execute (polls : Nat) (o : Obj) (op : Operation) (keywords : PyStr) : Logging ω Response := do
  match ← retry env (request env texts o op keywords) with
  | none => pure { type := none, data := none, msgid := none, ctrls := some [] }
  | some msgid =>
    match ← poll env texts o msgid true polls with
    | none => throw .assertionError
    | some response =>
      if Method.goesOn response then
        match ← poll env texts o msgid true polls with
        | some _ => throw (.runtimeError "Wrong method used! Use _execute_iter instead!")
        | none => pure response
      else pure response

/-! ## The records change nothing -/

theorem log_traces {f' : Unit → Logging ω α} {m : Method ω α} (record : Record)
    (h : Traces (f' ()) m) : Traces (log record >>= f') m := Traces.emit _ h

/-- What a call appends: its two records, the second of which is missing where an
error is not caught, and its end. -/
def recordedEvents (first : Record) (raised : PyExc → Record) (done : α → Record)
    (ended : Option PyExc → LogEvent) : Except PyExc α → List LogEvent
  | .ok a => [.record first, .record (done a), ended none]
  | .error e =>
    .record first :: (if isCaught e = true then [.record (raised e)] else []) ++ [ended (some e)]

theorem recorded_run (m : Method ω α) (first : Record) (raised : PyExc → Record)
    (done : α → Record) (ended : Option PyExc → LogEvent) (t : State ω × List LogEvent) :
    (recorded m first raised done ended).run t =
      match m.run t.1 with
      | .ok a s => .ok a (s, t.2 ++ recordedEvents first raised done ended (.ok a))
      | .error e s => .error e (s, t.2 ++ recordedEvents first raised done ended (.error e)) := by
  rw [recorded, Traced.run_watch, EStateM.run_bind]
  simp only [log, Traced.run_emit, EStateM.run_bind, run_tryCatch, Traced.run_lift]
  cases m.run t.1 with
  | ok a s => simp [errorOf, recordedEvents]
  | error e s =>
    by_cases hcaught : isCaught e = true
    · simp [hcaught, errorOf, recordedEvents]
    · simp [hcaught, errorOf, recordedEvents]

theorem recorded_traces (m : Method ω α) (first : Record) (raised : PyExc → Record)
    (done : α → Record) (ended : Option PyExc → LogEvent) :
    Traces (recorded m first raised done ended) m := by
  intro t
  rw [recorded_run]
  cases m.run t.1 <;> rfl

theorem removeReader_traces : Traces (removeReader env) (Method.removeReader env) := by
  unfold removeReader
  exact Traces.read fun s => log_traces _ (Traces.lift _)

theorem removedReader_traces {f' : Unit → Logging ω α} {m : Method ω α} (fd : Int)
    (h : Traces (f' ()) m) : Traces (removedReader env fd >>= f') m := fun _ => h _

theorem onlyIf_removedReader_traces {c : Prop} [Decidable c] {f' : Unit → Logging ω α}
    {m : Method ω α} (fd : Int) (h : Traces (f' ()) m) :
    Traces (onlyIf c (removedReader env fd) >>= f') m := by
  unfold onlyIf
  split
  · exact removedReader_traces env fd h
  · exact fun t => h t

theorem reconnect_traces : Traces (reconnect env) (Method.reconnect env) := by
  unfold reconnect Method.reconnect
  refine Traces.bind (Traces.lift get) fun s => ?_
  refine Traces.bind (Traces.onlyIf (removeReader_traces env)) fun _ => ?_
  exact Traces.lift _

theorem retry_traces {func : Logging ω α} {m : Method ω α} (h : Traces func m) :
    Traces (retry env func) (Method.retry env m) := by
  unfold retry Method.retry
  refine Traces.bind (Traces.lift get) fun s => ?_
  rw [Method.retryLoop_eq]
  exact Retry.loop_traces (Traces.emit _ (reconnect_traces env)) h _ _

theorem awaitSync_traces (o : Obj) (msgid : MsgId) (all : Bool) :
    Traces (awaitSync env texts o msgid all) (Method.awaitSync env o msgid all) := by
  unfold awaitSync Method.awaitSync
  refine Traces.bind (Traces.lift get) fun s => ?_
  exact retry_traces env (recorded_traces _ _ _ _ _)

theorem ready_traces (o : Obj) (msgid : MsgId) (all : Bool) (fd : Int) :
    Traces (ready env texts o msgid all fd) (Method.ready env o msgid all) := by
  unfold ready Method.ready
  refine log_traces _ (Traces.tryCatch ?_ fun e => ?_)
  · refine Traces.bind (recorded_traces _ _ _ _ _) fun response => ?_
    by_cases htype : response.type = none
    · simp only [htype, if_true]
      exact Traces.pure _
    · simp only [htype, if_false]
      exact removedReader_traces env fd (Traces.pure _)
  · cases e with
    | lib e => exact log_traces _ (removedReader_traces env fd (Traces.throw _))
    | osError => exact log_traces _ (removedReader_traces env fd (Traces.throw _))
    | _ => exact Traces.pure _

theorem awaitAsync_traces (o : Obj) (msgid : MsgId) (all : Bool) (fd : Int) (polls : Nat) :
    Traces (awaitAsync env texts o msgid all fd polls) (Method.awaitAsync env o msgid all polls) := by
  induction polls with
  | zero => exact Traces.throw _
  | succ polls ih =>
    unfold awaitAsync Method.awaitAsync
    refine Traces.bind (Traces.lift get) fun s => Traces.bind (Traces.lift _) fun _ => ?_
    refine Traces.bind (ready_traces env texts o msgid all fd) fun response => ?_
    cases response with
    | none => exact ih
    | some response => exact Traces.pure _

theorem poll_traces (o : Obj) (msgid : MsgId) (all : Bool) (polls : Nat) :
    Traces (poll env texts o msgid all polls) (Method.poll env o msgid all polls) := by
  induction polls with
  | zero => exact Traces.throw _
  | succ polls ih =>
    unfold poll Method.poll
    refine Traces.read fun before => Traces.bind (Traces.tryCatch ?_ fun e => ?_) fun response => ?_
    · refine Traces.bind (Traces.lift get) fun s => ?_
      refine Traces.ite (log_traces _ (Traces.map _ ?_)) (Traces.map _ ?_)
      · exact awaitAsync_traces env texts o msgid all _ (polls + 1)
      · exact awaitSync_traces env texts o msgid all
    · exact onlyIf_removedReader_traces env _ (Traces.ite (Traces.pure _) (Traces.throw _))
    · cases response with
      | none => exact Traces.pure _
      | some response => exact Traces.ite ih (Traces.pure _)

theorem execute_traces (polls : Nat) (o : Obj) (op : Operation) (keywords : PyStr) :
    Traces (execute env texts polls o op keywords) (Method.execute env polls o op) := by
  unfold execute Method.execute
  refine Traces.bind (retry_traces env (recorded_traces _ _ _ _ _)) fun msgid => ?_
  cases msgid with
  | none => exact Traces.pure _
  | some msgid =>
    refine Traces.bind (poll_traces env texts o msgid true polls) fun response => ?_
    cases response with
    | none => exact Traces.throw _
    | some response =>
      refine Traces.ite (Traces.bind (poll_traces env texts o msgid true polls) fun response' => ?_)
        (Traces.pure _)
      cases response' with
      | none => exact Traces.pure _
      | some response' => exact Traces.throw _

end Logging

end FreeIam.Ldap
