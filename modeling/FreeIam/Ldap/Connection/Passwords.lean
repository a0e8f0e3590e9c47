import FreeIam.Lib.Coupling
import FreeIam.Ldap.Connection.Exchange
import FreeIam.Ldap.Connection.Records
import FreeIam.Ldap.Connection.Rules
import FreeIam.Ldap.Connection.Write

/-!
# Passwords in the log

Two runs that differ in their passwords only, against servers that behave the same.
Those of `bind` write the same records: `simple_bind` contains `bind`, so that its
arguments are left out. `passwd` does not, and the first record of a request of
`change_password` has both passwords in it.
-/

namespace FreeIam.Ldap

open FreeIam.Py FreeIam.Errors FreeIam.Exec

/-! ## Two runs -/

/-- Requests that differ in their passwords at most. -/
inductive Request.Twins : Request → Request → Prop
  | same (request : Request) : Twins request request
  | simpleBind (who cred cred' : Option PyStr) :
      Twins (.simpleBind ⟨who, cred⟩) (.simpleBind ⟨who, cred'⟩)
  | passwd (user oldpw newpw oldpw' newpw' : PyStr) :
      Twins (.passwd user oldpw newpw) (.passwd user oldpw' newpw')

/-- Operations that do. -/
structure Operation.Twins (op op' : Operation) : Prop where
  request : op.request.Twins op'.request
  serverctrls : op.serverctrls = op'.serverctrls
  clientctrls : op.clientctrls = op'.clientctrls

/-- Connections that differ in the password of their credentials at most. -/
structure Connection.Twins (c c' : Connection) : Prop where
  slots : { c with lastAuthState := none } = { c' with lastAuthState := none }
  who : c.lastAuthState.map SimpleBind.who = c'.lastAuthState.map SimpleBind.who

section

variable {ω : Type}

/-- States that do, with worlds that `R` relates. -/
structure Twins (R : ω → ω → Prop) (s s' : State ω) : Prop where
  self : s.self.Twins s'.self
  world : R s.world s'.world
  calls : s.calls.length = s'.calls.length

/-- What is outside behaves the same on both sides, whatever the passwords. -/
structure Blind (env : Env ω) (R : ω → ω → Prop) : Prop where
  hasL : ∀ w w' o, R w w' → env.hasL w o = env.hasL w' o
  fileno : ∀ w w' o, R w w' → env.fileno w o = env.fileno w' o
  getRunningLoop : Coupled R env.getRunningLoop env.getRunningLoop
  readable : ∀ o timeout, Coupled R (env.readable o timeout) (env.readable o timeout)
  reconnect : ∀ o uri n force, Coupled R (env.reconnect o uri n force) (env.reconnect o uri n force)
  setOption : ∀ o x v, Coupled R (env.setOption o x v) (env.setOption o x v)
  simpleBindS : ∀ o who cred cred',
    Coupled R (env.simpleBindS o ⟨who, cred⟩) (env.simpleBindS o ⟨who, cred'⟩)
  request : ∀ o op op', op.Twins op' → Coupled R (env.request o op) (env.request o op')
  result4 : ∀ o number all timeout,
    Coupled R (env.result4 o number all timeout) (env.result4 o number all timeout)

end

/-! ## Slots of both sides -/

theorem Operation.Twins.name {op op' : Operation} (hop : op.Twins op') : op.request.name = op'.request.name := by
  obtain ⟨hrequest, -, -⟩ := hop
  obtain ⟨request, serverctrls, clientctrls⟩ := op
  obtain ⟨request', serverctrls', clientctrls'⟩ := op'
  cases hrequest <;> rfl

section Slots

variable {c c' : Connection} (h : c.Twins c')
include h

/-- Everything but the credentials is the same. -/
theorem Connection.Twins.other {β : Type} (f : Connection → β)
    (hf : ∀ c auth, f { c with lastAuthState := auth } = f c) : f c = f c' := by
  rw [← hf c none, h.slots, hf]

theorem Connection.Twins.conn : c.conn = c'.conn := h.other (fun c => c.conn) fun _ _ => rfl

theorem Connection.Twins.asynchronous : c.asynchronous = c'.asynchronous :=
  h.other (fun c => c.asynchronous) fun _ _ => rfl

theorem Connection.Twins.maxConnectionAttempts :
    c.maxConnectionAttempts = c'.maxConnectionAttempts :=
  h.other (fun c => c.maxConnectionAttempts) fun _ _ => rfl

theorem Connection.Twins.uri : c.uri = c'.uri := h.other (fun c => c.uri) fun _ _ => rfl

theorem Connection.Twins.timeout : c.timeout = c'.timeout :=
  h.other (fun c => c.timeout) fun _ _ => rfl

theorem Connection.Twins.options : c.options = c'.options :=
  h.other (fun c => c.options) fun _ _ => rfl

end Slots

/-! ## Methods on both sides -/

namespace Method

variable {ω α : Type} {env : Env ω} {R : ω → ω → Prop}

theorem onWorld_coupled {m m' : EStateM PyExc ω α} (h : Coupled R m m') :
    Coupled (Twins R) (onWorld m) (onWorld m') :=
  Coupled.zoom h (fun _ _ hs => hs.world) fun _ _ _ _ hs hw => ⟨hs.self, hw, hs.calls⟩

theorem wrap_coupled {m m' : Method ω α} (h : Coupled (Twins R) m m') :
    Coupled (Twins R) (wrap m) (wrap m') := Coupled.tryCatch h fun e => Coupled.throw e.wrap

theorem conn_coupled : Coupled (Twins R) (conn : Method ω Obj) conn := by
  unfold conn
  refine Coupled.read fun s s' hs => ?_
  rw [hs.self.conn]
  cases s'.self.conn with
  | none => exact Coupled.throw _
  | some o => exact Coupled.pure o

theorem ofExcept_coupled (x : Except PyExc α) :
    Coupled (Twins R) (ofExcept x : Method ω α) (ofExcept x) := by
  cases x with
  | ok a => exact Coupled.pure a
  | error e => exact Coupled.throw e

theorem fileno_twins (h : Blind env R) {s s' : State ω} (hs : Twins R s s') :
    fileno env s = fileno env s' := by
  unfold fileno
  rw [hs.self.conn]
  cases s'.self.conn with
  | none => rfl
  | some o => simp only [h.hasL _ _ o hs.world, h.fileno _ _ o hs.world]

theorem removeReader_coupled (h : Blind env R) :
    Coupled (Twins R) (removeReader env) (removeReader env) := by
  unfold removeReader
  refine Coupled.read fun s s' hs => ?_
  rw [fileno_twins h hs]
  exact Coupled.onlyIf (onWorld_coupled h.getRunningLoop)

theorem restoreOptions_coupled (h : Blind env R) :
    Coupled (Twins R) (restoreOptions env) (restoreOptions env) := by
  unfold restoreOptions
  refine Coupled.read fun s s' hs => ?_
  rw [hs.self.options]
  refine Coupled.forM (fun item => ?_) _
  unfold setOption
  rw [onlyIf_false Bool.false_ne_true]
  refine Coupled.bind (Coupled.pure ()) fun _ => wrap_coupled ?_
  exact Coupled.bind conn_coupled fun o => onWorld_coupled (h.setOption o _ _)

/-- The credentials that are restored may differ in their password. -/
theorem restoreAuthState_coupled (h : Blind env R) :
    Coupled (Twins R) (restoreAuthState env) (restoreAuthState env) := by
  unfold restoreAuthState
  refine Coupled.read fun s s' hs => ?_
  have hwho := hs.self.who
  cases hauth : s.self.lastAuthState with
  | none =>
    rw [hauth] at hwho
    cases hauth' : s'.self.lastAuthState with
    | none => exact Coupled.pure ()
    | some bind' =>
      rw [hauth'] at hwho
      cases hwho
  | some bind =>
    rw [hauth] at hwho
    cases hauth' : s'.self.lastAuthState with
    | none =>
      rw [hauth'] at hwho
      cases hwho
    | some bind' =>
      obtain ⟨who, cred⟩ := bind
      obtain ⟨who', cred'⟩ := bind'
      rw [hauth'] at hwho
      cases hwho
      refine wrap_coupled (Coupled.bind conn_coupled fun o => ?_)
      exact onWorld_coupled (h.simpleBindS o _ cred cred')

theorem request_coupled (h : Blind env R) (o : Obj) {op op' : Operation} (hop : op.Twins op') :
    Coupled (Twins R) (request env o op) (request env o op') := by
  intro s s' hs
  rw [request_run, request_run]
  rcases (h.request o op op' hop).cases hs.world with
    ⟨number, w, w', hrun, hrun', hw⟩ | ⟨e, w, w', hrun, hrun', hw⟩
  · rw [hrun, hrun']
    exact ⟨by simp only [outcomeOf, hs.calls], hs.self, hw, by simp [hs.calls]⟩
  · rw [hrun, hrun']
    exact ⟨rfl, hs.self, hw, by simp [hs.calls]⟩

theorem getResult_coupled (h : Blind env R) (o : Obj) (msgid : MsgId) (all : Bool) (timeout : Int) :
    Coupled (Twins R) (getResult env o msgid all timeout) (getResult env o msgid all timeout) := by
  intro s s' hs
  rw [getResult_run, getResult_run]
  rcases (h.result4 o msgid.number all timeout).cases hs.world with
    ⟨r, w, w', hrun, hrun', hw⟩ | ⟨e, w, w', hrun, hrun', hw⟩
  · rw [hrun, hrun']
    exact ⟨rfl, hs.self, hw, by simp [hs.calls]⟩
  · rw [hrun, hrun']
    exact ⟨rfl, hs.self, hw, by simp [hs.calls]⟩

end Method

namespace Logging

variable {ω α : Type} {env : Env ω} {texts : Texts} {R : ω → ω → Prop}

/-! ## Records of both sides -/

/-- Same results, same events, and states that are twins. -/
abbrev SameLog (R : ω → ω → Prop) (m m' : Logging ω α) : Prop := Coupled (SameEvents (Twins R)) m m'

theorem recorded_same {m m' : Method ω α} (h : Coupled (Twins R) m m') (first : Record)
    (raised : PyExc → Record) (done : α → Record) (ended : Option PyExc → LogEvent) :
    SameLog R (recorded m first raised done ended) (recorded m' first raised done ended) := by
  refine Coupled.watch _ (Coupled.bind (Coupled.emit _) fun _ => ?_)
  refine Coupled.bind (Coupled.tryCatch (Coupled.lift h) fun e => ?_) fun a => ?_
  · exact Coupled.bind (Coupled.onlyIf (Coupled.emit _)) fun _ => Coupled.throw e
  · exact Coupled.bind (Coupled.emit _) fun _ => Coupled.pure a

/-- Twins are told apart by the arguments in the first record at most. -/
theorem request_same (h : Blind env R) (o : Obj) {op op' : Operation} (hop : op.Twins op')
    {keywords : PyStr}
    (hfirst : Record.requested texts op.request keywords = Record.requested texts op'.request keywords) :
    SameLog R (request env texts o op keywords) (request env texts o op' keywords) := by
  have hraised : Record.requestRaised texts op.request = Record.requestRaised texts op'.request := by
    funext e
    simp only [Record.requestRaised, hop.name]
  have hdone : Record.requestDone op.request = Record.requestDone op'.request := by
    funext msgid
    simp only [Record.requestDone, hop.name]
  unfold request
  rw [hfirst, hraised, hdone]
  exact recorded_same (Method.request_coupled h o hop) _ _ _ _

theorem removedReader_same (h : Blind env R) (fd : Int) :
    SameLog R (removedReader env fd) (removedReader env fd) := by
  unfold removedReader
  refine Coupled.readLifted fun s s' hs => ?_
  rw [Method.fileno_twins h hs]
  exact Coupled.emit _

theorem removeReader_same (h : Blind env R) : SameLog R (removeReader env) (removeReader env) := by
  unfold removeReader
  refine Coupled.readLifted fun s s' hs => ?_
  rw [Method.fileno_twins h hs]
  exact Coupled.bind (Coupled.emit _) fun _ => Coupled.lift (Method.removeReader_coupled h)

theorem reconnect_same (h : Blind env R) : SameLog R (reconnect env) (reconnect env) := by
  unfold reconnect
  refine Coupled.readLifted fun s s' hs => ?_
  rw [hs.self.asynchronous]
  refine Coupled.bind (Coupled.onlyIf (removeReader_same h)) fun _ => Coupled.lift ?_
  refine Method.wrap_coupled (Coupled.bind Method.conn_coupled fun o => ?_)
  refine Coupled.read fun s s' hs => ?_
  dsimp only
  rw [hs.self.uri, hs.self.maxConnectionAttempts]
  refine Coupled.bind (Method.onWorld_coupled (h.reconnect o _ _ _)) fun _ => ?_
  exact Coupled.bind (Method.restoreOptions_coupled h) fun _ => Method.restoreAuthState_coupled h

theorem retry_same (h : Blind env R) {func func' : Logging ω α} (hfunc : SameLog R func func') :
    SameLog R (retry env func) (retry env func') := by
  unfold retry
  refine Coupled.readLifted fun s s' hs => ?_
  rw [hs.self.maxConnectionAttempts]
  exact coupled_loop (Coupled.bind (Coupled.emit _) fun _ => reconnect_same h) hfunc _ _

section Waiting

variable (h : Blind env R) (o : Obj) (msgid : MsgId) (all : Bool)
include h

theorem getResult_same (timeout : Int) :
    SameLog R (getResult env texts o msgid all timeout) (getResult env texts o msgid all timeout) :=
  recorded_same (Method.getResult_coupled h o msgid all timeout) _ _ _ _

theorem awaitSync_same :
    SameLog R (awaitSync env texts o msgid all) (awaitSync env texts o msgid all) := by
  unfold awaitSync
  refine Coupled.readLifted fun s s' hs => ?_
  rw [hs.self.timeout]
  exact retry_same h (getResult_same h o msgid all _)

theorem ready_same (fd : Int) :
    SameLog R (ready env texts o msgid all fd) (ready env texts o msgid all fd) := by
  unfold ready
  refine Coupled.bind (Coupled.emit _) fun _ => Coupled.tryCatch ?_ fun e => ?_
  · refine Coupled.bind (getResult_same h o msgid all 0) fun response => ?_
    refine Coupled.ite (Coupled.pure _) (Coupled.bind (removedReader_same h fd) fun _ => Coupled.pure _)
  · have hraise : SameLog R
        (log (Record.notValid fd) >>= fun _ => removedReader env fd >>= fun _ =>
          (throw e : Logging ω (Option Response)))
        (log (Record.notValid fd) >>= fun _ => removedReader env fd >>= fun _ => throw e) :=
      Coupled.bind (Coupled.emit _) fun _ => Coupled.bind (removedReader_same h fd) fun _ => Coupled.throw e
    cases e with
    | lib err => exact hraise
    | osError => exact hraise
    | _ => exact Coupled.pure _

theorem awaitAsync_same (fd : Int) (polls : Nat) :
    SameLog R (awaitAsync env texts o msgid all fd polls) (awaitAsync env texts o msgid all fd polls) := by
  induction polls with
  | zero => exact Coupled.throw _
  | succ polls ih =>
    unfold awaitAsync
    refine Coupled.readLifted fun s s' hs => ?_
    rw [hs.self.timeout]
    refine Coupled.bind (Coupled.lift (Method.onWorld_coupled (h.readable o _))) fun _ => ?_
    refine Coupled.bind (ready_same h o msgid all fd) fun response => ?_
    cases response with
    | none => exact ih
    | some response => exact Coupled.pure _

theorem poll_same (polls : Nat) :
    SameLog R (poll env texts o msgid all polls) (poll env texts o msgid all polls) := by
  induction polls with
  | zero => exact Coupled.throw _
  | succ polls ih =>
    unfold poll
    refine Coupled.readLifted fun before before' hbefore => ?_
    rw [h.fileno _ _ o hbefore.world, hbefore.self.asynchronous]
    refine Coupled.bind (Coupled.tryCatch ?_ fun e => ?_) fun response => ?_
    · refine Coupled.readLifted fun s s' hs => ?_
      rw [hs.self.asynchronous]
      refine Coupled.ite (Coupled.bind (Coupled.emit _) fun _ => ?_) ?_
      · exact Coupled.map _ (awaitAsync_same h o msgid all _ _)
      · exact Coupled.map _ (awaitSync_same h o msgid all)
    · refine Coupled.bind (Coupled.onlyIf (removedReader_same h _)) fun _ => ?_
      exact Coupled.ite (Coupled.pure _) (Coupled.throw e)
    · cases response with
      | none => exact Coupled.pure _
      | some response => exact Coupled.ite ih (Coupled.pure _)

end Waiting

theorem execute_same (h : Blind env R) (polls : Nat) (o : Obj) {op op' : Operation}
    (hop : op.Twins op') {keywords : PyStr}
    (hfirst : Record.requested texts op.request keywords = Record.requested texts op'.request keywords) :
    SameLog R (execute env texts polls o op keywords) (execute env texts polls o op' keywords) := by
  unfold execute
  refine Coupled.bind (retry_same h (request_same h o hop hfirst)) fun msgid => ?_
  cases msgid with
  | none => exact Coupled.pure _
  | some msgid =>
    refine Coupled.bind (poll_same h o msgid true polls) fun response => ?_
    cases response with
    | none => exact Coupled.throw _
    | some response =>
      refine Coupled.ite (Coupled.bind (poll_same h o msgid true polls) fun response' => ?_)
        (Coupled.pure _)
      cases response' with
      | none => exact Coupled.pure _
      | some response' => exact Coupled.throw _

/-! ## Records stay -/

section Persistent

variable {B : List LogEvent → Prop} (hB : Traced.Persistent B)
include hB

theorem recorded_persistent (m : Method ω α) (first : Record) (raised : PyExc → Record)
    (done : α → Record) (ended : Option PyExc → LogEvent) :
    Keeps (fun t => B t.2) (recorded m first raised done ended) := by
  refine Traced.watch_persistent hB _ (Keeps.bind (Traced.emit_persistent hB _) fun _ => ?_)
  refine Keeps.bind (Keeps.tryCatch (Traced.lift_persistent B m) fun e => ?_) fun a => ?_
  · exact Keeps.bind (Keeps.onlyIf (Traced.emit_persistent hB _)) fun _ => Keeps.throw e
  · exact Keeps.bind (Traced.emit_persistent hB _) fun _ => Keeps.pure a

theorem removedReader_persistent (fd : Int) :
    Keeps (fun t : State ω × List LogEvent => B t.2) (removedReader env fd) :=
  Keeps.bind (Traced.lift_persistent B get) fun _ => Traced.emit_persistent hB _

theorem reconnect_persistent :
    Keeps (fun t : State ω × List LogEvent => B t.2) (reconnect env) := by
  unfold reconnect
  refine Keeps.bind (Traced.lift_persistent B get) fun s => ?_
  refine Keeps.bind (Keeps.onlyIf ?_) fun _ => Traced.lift_persistent B _
  refine Keeps.bind (Traced.lift_persistent B get) fun s => ?_
  exact Keeps.bind (Traced.emit_persistent hB _) fun _ => Traced.lift_persistent B _

theorem retry_persistent {func : Logging ω α} (hfunc : Keeps (fun t => B t.2) func) :
    Keeps (fun t => B t.2) (retry env func) := by
  unfold retry
  refine Keeps.bind (Traced.lift_persistent B get) fun s => ?_
  refine Retry.loop_keeps (Keeps.bind (Traced.emit_persistent hB _) fun _ => ?_) hfunc _ _
  exact reconnect_persistent hB

theorem ready_persistent (o : Obj) (msgid : MsgId) (all : Bool) (fd : Int) :
    Keeps (fun t : State ω × List LogEvent => B t.2) (ready env texts o msgid all fd) := by
  unfold ready
  refine Keeps.bind (Traced.emit_persistent hB _) fun _ => Keeps.tryCatch ?_ fun e => ?_
  · refine Keeps.bind (recorded_persistent hB _ _ _ _ _) fun response => ?_
    exact Keeps.ite (Keeps.pure _) (Keeps.bind (removedReader_persistent hB fd) fun _ => Keeps.pure _)
  · have hraise : Keeps (fun t : State ω × List LogEvent => B t.2)
        (log (Record.notValid fd) >>= fun _ => removedReader env fd >>= fun _ =>
          (throw e : Logging ω (Option Response))) :=
      Keeps.bind (Traced.emit_persistent hB _) fun _ =>
        Keeps.bind (removedReader_persistent hB fd) fun _ => Keeps.throw e
    cases e with
    | lib err => exact hraise
    | osError => exact hraise
    | _ => exact Keeps.pure _

theorem awaitAsync_persistent (o : Obj) (msgid : MsgId) (all : Bool) (fd : Int) (polls : Nat) :
    Keeps (fun t : State ω × List LogEvent => B t.2) (awaitAsync env texts o msgid all fd polls) := by
  induction polls with
  | zero => exact Keeps.throw _
  | succ polls ih =>
    unfold awaitAsync
    refine Keeps.bind (Traced.lift_persistent B get) fun s => ?_
    refine Keeps.bind (Traced.lift_persistent B _) fun _ => ?_
    refine Keeps.bind (ready_persistent hB o msgid all fd) fun response => ?_
    cases response with
    | none => exact ih
    | some response => exact Keeps.pure _

theorem poll_persistent (o : Obj) (msgid : MsgId) (all : Bool) (polls : Nat) :
    Keeps (fun t : State ω × List LogEvent => B t.2) (poll env texts o msgid all polls) := by
  induction polls with
  | zero => exact Keeps.throw _
  | succ polls ih =>
    unfold poll
    refine Keeps.bind (Traced.lift_persistent B get) fun before => ?_
    refine Keeps.bind (Keeps.tryCatch ?_ fun e => ?_) fun response => ?_
    · refine Keeps.bind (Traced.lift_persistent B get) fun s => ?_
      refine Keeps.ite (Keeps.bind (Traced.emit_persistent hB _) fun _ => ?_) (Keeps.map ?_)
      · exact Keeps.map (awaitAsync_persistent hB o msgid all _ _)
      · refine Keeps.bind (Traced.lift_persistent B get) fun s => ?_
        exact retry_persistent hB (recorded_persistent hB _ _ _ _ _)
    · refine Keeps.bind (Keeps.onlyIf (removedReader_persistent hB _)) fun _ => ?_
      exact Keeps.ite (Keeps.pure _) (Keeps.throw e)
    · cases response with
      | none => exact Keeps.pure _
      | some response => exact Keeps.ite ih (Keeps.pure _)

/-- What is there after the request is there in the end. -/
theorem execute_persistent {P : State ω × List LogEvent → Prop} (polls : Nat) (o : Obj)
    (op : Operation) (keywords : PyStr)
    (hrequest : Spec P (retry env (request env texts o op keywords)) (fun _ t => B t.2)
      (fun _ t => B t.2)) :
    Spec P (execute env texts polls o op keywords) (fun _ t => B t.2) (fun _ t => B t.2) := by
  unfold execute
  refine Spec.bind hrequest fun msgid => ?_
  cases msgid with
  | none => exact Keeps.pure _
  | some msgid =>
    refine Keeps.bind (poll_persistent hB o msgid true polls) fun response => ?_
    cases response with
    | none => exact Keeps.throw _
    | some response =>
      refine Keeps.ite (Keeps.bind (poll_persistent hB o msgid true polls) fun response' => ?_)
        (Keeps.pure _)
      cases response' with
      | none => exact Keeps.pure _
      | some response' => exact Keeps.throw _

end Persistent

/-- The log begins with a record. -/
def BeginsWith (record : Record) (events : List LogEvent) : Prop :=
  ∃ rest, events = .record record :: rest

theorem beginsWith_persistent (record : Record) : Traced.Persistent (BeginsWith record) := by
  rintro events event ⟨rest, rfl⟩
  exact ⟨rest ++ [event], rfl⟩

/-- A request writes its first record first. -/
theorem request_beginsWith (o : Obj) (op : Operation) (keywords : PyStr) :
    Spec (fun t : State ω × List LogEvent => t.2 = []) (request env texts o op keywords)
      (fun _ t => BeginsWith (Record.requested texts op.request keywords) t.2)
      (fun _ t => BeginsWith (Record.requested texts op.request keywords) t.2) := by
  intro t ht
  rw [request, recorded_run, ht]
  cases (Method.request env o op).run t.1 with
  | ok msgid s => exact ⟨_, rfl⟩
  | error e s => exact ⟨_, rfl⟩

/-- With an attempt at least, it is the first record of the operation. -/
theorem retry_beginsWith (o : Obj) (op : Operation) (keywords : PyStr) :
    Spec (fun t : State ω × List LogEvent => 1 ≤ t.1.self.maxConnectionAttempts ∧ t.2 = [])
      (retry env (request env texts o op keywords))
      (fun _ t => BeginsWith (Record.requested texts op.request keywords) t.2)
      (fun _ t => BeginsWith (Record.requested texts op.request keywords) t.2) := by
  have hB := beginsWith_persistent (Record.requested texts op.request keywords)
  unfold retry
  refine Traced.read_spec fun s => ?_
  rintro t ⟨rfl, hattempts, hnil⟩
  obtain ⟨k, hk⟩ : ∃ k, t.1.self.maxConnectionAttempts = k + 1 :=
    ⟨t.1.self.maxConnectionAttempts - 1, by omega⟩
  rw [hk, Retry.loop]
  have hrecover : Keeps (fun t : State ω × List LogEvent =>
      BeginsWith (Record.requested texts op.request keywords) t.2)
      (do
        Traced.emit .reconnecting
        reconnect env) :=
    Keeps.bind (Traced.emit_persistent hB _) fun _ => reconnect_persistent hB
  refine Spec.tryCatch (P := fun t : State ω × List LogEvent => t.2 = [])
    (E := fun _ t => BeginsWith (Record.requested texts op.request keywords) t.2) ?_ (fun e => ?_) t hnil
  · rw [Retry.attempt, onlyIf_false (by simp)]
    exact request_beginsWith o op keywords
  · refine Keeps.ite (Keeps.ite (Keeps.throw e) ?_) (Keeps.throw e)
    exact Retry.loop_keeps hrecover (recorded_persistent hB _ _ _ _ _) _ _

end Logging

/-! ## The two operations -/

section Operations

variable {ω : Type} (lib : Modlists ω) (texts : Texts) (polls : Nat)

/-- `Connection.bind` with its records. -/
def Logging.bind (authzid password : Option PyStr) (controls : Option Controls) : Logging ω Result := do
  let o ← Traced.lift Method.conn
  Traced.lift (Method.modifySelf fun self => { self with lastAuthState := some ⟨authzid, password⟩ })
  let response ← Logging.execute lib.toEnv texts polls o
    ((Request.simpleBind ⟨authzid, password⟩).with controls) (texts.keywords controls)
  Traced.lift (ofExcept (Result.fromResponse lib.toEnv none none controls response))

/-- `Connection.change_password` with its records. -/
def Logging.changePassword (dn : DnArg) (oldPassword newPassword : PyStr)
    (controls : Option Controls) : Logging ω Result := do
  let o ← Traced.lift Method.conn
  let response ← Logging.execute lib.toEnv texts polls o
    ((Request.passwd (DN.str lib dn) oldPassword newPassword).with controls) (texts.keywords controls)
  Traced.lift (ofExcept (writeResult lib dn controls response))

theorem Logging.bind_traces (authzid password : Option PyStr) (controls : Option Controls) :
    Traces (Logging.bind lib texts polls authzid password controls)
      (Method.bind lib.toEnv polls authzid password controls) := by
  unfold Logging.bind Method.bind
  refine Traces.bind (Traces.lift _) fun o => Traces.bind (Traces.lift _) fun _ => ?_
  exact Traces.bind (Logging.execute_traces _ texts polls o _ _) fun response => Traces.lift _

theorem Logging.changePassword_traces (dn : DnArg) (oldPassword newPassword : PyStr)
    (controls : Option Controls) :
    Traces (Logging.changePassword lib texts polls dn oldPassword newPassword controls)
      (Method.changePassword lib polls dn oldPassword newPassword controls) := by
  unfold Logging.changePassword Method.changePassword Method.executeWrite
  refine Traces.bind (Traces.lift _) fun o => ?_
  exact Traces.bind (Logging.execute_traces _ texts polls o _ _) fun response => Traces.lift _

/-- The records of a run of `bind`. -/
def bindRecords (authzid password : Option PyStr) (controls : Option Controls) (s : State ω) :
    List Record :=
  records (final ((Logging.bind lib texts polls authzid password controls).run (s, []))).2

/-- The records of a run of `change_password`. -/
def changePasswordRecords (dn : DnArg) (oldPassword newPassword : PyStr)
    (controls : Option Controls) (s : State ω) : List Record :=
  records (final ((Logging.changePassword lib texts polls dn oldPassword newPassword controls).run
    (s, []))).2

variable {lib} {R : ω → ω → Prop}

theorem twins_self {s : State ω} (hR : R s.world s.world) : Twins R s s :=
  ⟨⟨rfl, rfl⟩, hR, rfl⟩

/-- The records of a bind do not depend on the password. -/
theorem bindRecords_eq (h : Blind lib.toEnv R) {s : State ω} (hR : R s.world s.world)
    (authzid password password' : Option PyStr) (controls : Option Controls) :
    bindRecords lib texts polls authzid password controls s =
      bindRecords lib texts polls authzid password' controls s := by
  have hop : ((Request.simpleBind ⟨authzid, password⟩).with controls).Twins
      ((Request.simpleBind ⟨authzid, password'⟩).with controls) :=
    ⟨.simpleBind authzid password password', rfl, rfl⟩
  have hsame : Logging.SameLog R (Logging.bind lib texts polls authzid password controls)
      (Logging.bind lib texts polls authzid password' controls) := by
    refine Coupled.bind (Coupled.lift Method.conn_coupled) fun o => ?_
    refine Coupled.bind (Coupled.lift (Coupled.modify fun s s' hs => ?_)) fun _ => ?_
    · exact ⟨⟨hs.self.slots, rfl⟩, hs.world, hs.calls⟩
    · exact Coupled.bind (Logging.execute_same h polls o hop rfl) fun response =>
        Coupled.lift (Method.ofExcept_coupled _)
  exact congrArg records (hsame (s, []) (s, []) ⟨twins_self hR, rfl⟩).2.2

/-- Both passwords of a request are in its first record. -/
theorem requested_passwd_inj {user oldpw newpw oldpw' newpw' keywords : PyStr} (hold : IsStr oldpw)
    (hnew : IsStr newpw) (hold' : IsStr oldpw') (hnew' : IsStr newpw')
    (h : Record.requested texts (.passwd user oldpw newpw) keywords =
      Record.requested texts (.passwd user oldpw' newpw') keywords) :
    oldpw = oldpw' ∧ newpw = newpw' := by
  have hargs : texts.argStr (.passwd user oldpw newpw) = texts.argStr (.passwd user oldpw' newpw') := by
    have hextra := congrArg Record.extra h
    simp only [Record.requested, List.cons.injEq, Prod.mk.injEq, Extra.text.injEq] at hextra
    exact hextra.2.1.2
  have hjoin : ∀ oldpw newpw, texts.argStr (.passwd user oldpw newpw) =
      repr texts.printable user ++ py ", " ++
        (repr texts.printable oldpw ++ (py ", " ++ (repr texts.printable newpw ++ []))) := by
    intro oldpw newpw
    show joinComma [_, _, _] = _
    simp [joinComma, List.intercalate]
  rw [hjoin, hjoin] at hargs
  obtain ⟨hold, hrest⟩ := repr_append_inj _ hold hold' (List.append_cancel_left hargs)
  exact ⟨hold, (repr_append_inj _ hnew hnew' (List.append_cancel_left hrest)).1⟩

/-- Connected and with an attempt at least, the log begins with the passwords. -/
theorem changePassword_beginsWith {s : State ω} (hconn : s.self.conn ≠ none)
    (hattempts : 1 ≤ s.self.maxConnectionAttempts) (dn : DnArg) (oldpw newpw : PyStr)
    (controls : Option Controls) :
    ∃ rest, changePasswordRecords lib texts polls dn oldpw newpw controls s =
      Record.requested texts (.passwd (DN.str lib dn) oldpw newpw) (texts.keywords controls) :: rest := by
  have hB := Logging.beginsWith_persistent
    (Record.requested texts (.passwd (DN.str lib dn) oldpw newpw) (texts.keywords controls))
  have hobject : Spec (fun s : State ω => s.self.conn ≠ none ∧ 1 ≤ s.self.maxConnectionAttempts)
      Method.conn (fun _ s => 1 ≤ s.self.maxConnectionAttempts) (fun _ _ => False) :=
    Method.conn_rule (fun _ _ hs _ => hs.2) fun _ hs hnone => hs.1 hnone
  have hspec : Spec (fun t : State ω × List LogEvent =>
        (t.1.self.conn ≠ none ∧ 1 ≤ t.1.self.maxConnectionAttempts) ∧ t.2 = [])
      (Logging.changePassword lib texts polls dn oldpw newpw controls)
      (fun _ t => Logging.BeginsWith (Record.requested texts (.passwd (DN.str lib dn) oldpw newpw)
        (texts.keywords controls)) t.2)
      (fun _ t => Logging.BeginsWith (Record.requested texts (.passwd (DN.str lib dn) oldpw newpw)
        (texts.keywords controls)) t.2) := by
    unfold Logging.changePassword
    refine Spec.bind (Spec.conseq (Traced.lift_spec hobject fun events => events = []) (fun _ ht => ht)
      (fun _ _ ht => ht) fun _ _ ht => ht.1.elim) fun o => ?_
    refine Spec.bind (Logging.execute_persistent hB polls o _ _ (Logging.retry_beginsWith o _ _))
      fun response => Traced.lift_persistent _ _
  obtain ⟨rest, hevents⟩ := Spec.final (s := (s, [])) hspec ⟨⟨hconn, hattempts⟩, rfl⟩
  exact ⟨records rest, by rw [changePasswordRecords, hevents]; rfl⟩

/-- Without a connection or an attempt there is no request, and no record. -/
theorem changePassword_silent {s : State ω}
    (h : s.self.conn = none ∨ s.self.maxConnectionAttempts = 0) (dn : DnArg) (oldpw newpw : PyStr)
    (controls : Option Controls) :
    changePasswordRecords lib texts polls dn oldpw newpw controls s = [] := by
  have hspec : Spec (fun t : State ω × List LogEvent =>
        (t.1.self.conn = none ∨ t.1.self.maxConnectionAttempts = 0) ∧ t.2 = [])
      (Logging.changePassword lib texts polls dn oldpw newpw controls) (fun _ t => t.2 = [])
      (fun _ t => t.2 = []) := by
    have hobject : Spec (fun s : State ω => s.self.conn = none ∨ s.self.maxConnectionAttempts = 0)
        Method.conn (fun _ s => s.self.maxConnectionAttempts = 0) (fun _ _ => True) := by
      refine Method.conn_rule (fun o s hs hsome => ?_) fun _ _ _ => trivial
      rcases hs with hnone | hzero
      · rw [hnone] at hsome
        cases hsome
      · exact hzero
    unfold Logging.changePassword
    refine Spec.bind (Spec.conseq (Traced.lift_spec hobject fun events => events = []) (fun _ ht => ht)
      (fun _ _ ht => ht) fun _ _ ht => ht.2) fun o => ?_
    -- a loop without attempts makes no request
    refine Spec.bind (Q := fun _ _ => False) (Spec.bind (Q := fun _ _ => False) ?_ fun _ _ ht => ht.elim)
      fun _ _ ht => ht.elim
    refine Traced.read_spec fun s => ?_
    rintro t ⟨rfl, hzero, hnil⟩
    rw [hzero]
    exact hnil
  exact congrArg records (Spec.final (s := (s, [])) hspec ⟨h, rfl⟩)

/-- The records of a change of the password do not depend on the passwords exactly if
there is no request, or they are the same. -/
theorem changePasswordRecords_iff {s : State ω} (dn : DnArg) (controls : Option Controls)
    {oldpw newpw oldpw' newpw' : PyStr} (hold : IsStr oldpw) (hnew : IsStr newpw)
    (hold' : IsStr oldpw') (hnew' : IsStr newpw') :
    changePasswordRecords lib texts polls dn oldpw newpw controls s =
        changePasswordRecords lib texts polls dn oldpw' newpw' controls s ↔
      s.self.conn = none ∨ s.self.maxConnectionAttempts = 0 ∨ (oldpw = oldpw' ∧ newpw = newpw') := by
  constructor
  · intro heq
    cases hconn : s.self.conn with
    | none => exact .inl rfl
    | some o =>
      rcases Nat.eq_zero_or_pos s.self.maxConnectionAttempts with hzero | hpos
      · exact .inr (.inl hzero)
      · have hsome : s.self.conn ≠ none := by simp [hconn]
        obtain ⟨rest, hrecords⟩ := changePassword_beginsWith texts polls hsome hpos dn oldpw newpw controls
        obtain ⟨rest', hrecords'⟩ :=
          changePassword_beginsWith texts polls hsome hpos dn oldpw' newpw' controls
        rw [hrecords, hrecords'] at heq
        exact .inr (.inr (requested_passwd_inj texts hold hnew hold' hnew' (List.cons.inj heq).1))
  · rintro (hconn | hzero | ⟨rfl, rfl⟩)
    · rw [changePassword_silent texts polls (.inl hconn), changePassword_silent texts polls (.inl hconn)]
    · rw [changePassword_silent texts polls (.inr hzero), changePassword_silent texts polls (.inr hzero)]
    · rfl

/-- Where what is outside is blind for passwords, the records of `bind` are too. Those of
`change_password` are exactly if there is no request, or the passwords are the same. -/
theorem password_records_iff (h : Blind lib.toEnv R) {s : State ω} (hR : R s.world s.world) :
    (∀ authzid password password' controls,
      bindRecords lib texts polls authzid password controls s =
        bindRecords lib texts polls authzid password' controls s) ∧
    ∀ dn controls oldpw newpw oldpw' newpw', IsStr oldpw → IsStr newpw → IsStr oldpw' →
      IsStr newpw' →
      (changePasswordRecords lib texts polls dn oldpw newpw controls s =
          changePasswordRecords lib texts polls dn oldpw' newpw' controls s ↔
        s.self.conn = none ∨ s.self.maxConnectionAttempts = 0 ∨ (oldpw = oldpw' ∧ newpw = newpw')) := by
  refine ⟨fun authzid password password' controls => ?_, fun dn controls oldpw newpw oldpw' newpw' => ?_⟩
  · exact bindRecords_eq texts polls h hR authzid password password' controls
  · intro hold hnew hold' hnew'
    exact changePasswordRecords_iff texts polls dn controls hold hnew hold' hnew'

end Operations

/-! ## A server that keeps what it gets -/

/-- It keeps the operations, with their passwords, and says yes to each of them. -/
def keeping (kept : List Operation) (op : Operation) :
    Except LdapError Response × List Operation :=
  (.ok { type := some .extended, data := none, msgid := some 1, ctrls := some [] }, op :: kept)

/-- The outside that consists of it. -/
def keeper : Modlists (List Operation × Except LdapError Response) := serving keeping

theorem keeper_blind : Blind keeper.toEnv fun w w' => w.2 = w'.2 where
  hasL := fun _ _ _ _ => rfl
  fileno := fun _ _ _ _ => rfl
  getRunningLoop := Coupled.pure ()
  readable := fun _ _ => Coupled.pure ()
  reconnect := fun _ _ _ _ => Coupled.pure ()
  setOption := fun _ _ _ => Coupled.pure ()
  simpleBindS := fun _ _ _ _ => Coupled.pure ()
  request := fun _ _ _ _ _ _ _ => ⟨rfl, rfl⟩
  result4 := fun _ _ _ _ => by
    rintro ⟨kept, answer⟩ ⟨kept', answer'⟩ h
    cases h
    cases answer <;> exact ⟨rfl, rfl⟩

/-- A connection to it. -/
def keeperState : State (List Operation × Except LdapError Response) :=
  { self := { Connection.init false (py "ldap://localhost") with conn := some 0 }
    world := ([], .error { cls := .serverDown }), calls := [] }

/-- Texts for the records: what is printed has no letters but those of ASCII. -/
def asciiTexts : Texts where
  printable := fun c => 32 ≤ c && c < 127
  exc := fun _ => []
  excStr := fun _ => []
  controls := fun _ => []
  response := fun _ => []
  arguments := fun _ => []

/-- Its records of a bind do not depend on the password, those of a change depend on the
new password. -/
theorem password_records_keeper :
    bindRecords keeper asciiTexts 1 (some (py "cn=foo")) (some (py "old")) none keeperState =
      bindRecords keeper asciiTexts 1 (some (py "cn=foo")) (some (py "new")) none keeperState ∧
    changePasswordRecords keeper asciiTexts 1 (.text (py "cn=foo")) (py "old") (py "new") none keeperState ≠
      changePasswordRecords keeper asciiTexts 1 (.text (py "cn=foo")) (py "old") (py "newer") none
        keeperState := by
  obtain ⟨hbind, hchange⟩ := password_records_iff asciiTexts 1 keeper_blind (s := keeperState) rfl
  refine ⟨hbind _ _ _ none, fun heq => ?_⟩
  have hiff := hchange (.text (py "cn=foo")) none (py "old") (py "new") (py "old") (py "newer")
    (by unfold IsStr; decide) (by unfold IsStr; decide) (by unfold IsStr; decide)
    (by unfold IsStr; decide)
  rcases hiff.mp heq with hconn | hattempts | ⟨-, hnew⟩
  · cases hconn
  · cases hattempts
  · revert hnew
    decide

/-- Both passwords of a change are in the log. -/
theorem changePassword_logged :
    ((changePasswordRecords keeper asciiTexts 1 (.text (py "cn=foo")) (py "secret") (py "geheim") none
      keeperState).map fun record => record.message).head? =
        some (py "Request passwd('cn=foo', 'secret', 'geheim')") ∧
    changePasswordRecords keeper asciiTexts 1 (.text (py "cn=foo")) (py "secret") (py "geheim") none
        keeperState ≠
      changePasswordRecords keeper asciiTexts 1 (.text (py "cn=foo")) (py "foo") (py "bar") none
        keeperState := by
  refine ⟨by rfl, fun heq => ?_⟩
  have hmessage := congrArg (fun records => (records.map fun record => record.message).head?) heq
  revert hmessage
  decide

end FreeIam.Ldap
