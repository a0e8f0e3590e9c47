import FreeIam.Ldap.Connection.TransactionScope
import FreeIam.Lib.Transactions

/-!
# A server with transactions

What the server makes of a transaction: the updates that belong to it are carried out at
once when it is committed, or not at all, whatever other clients do in the meantime. The
connection does its part by what it sends: every update of the body carries the control of
the transaction, on whatever session it is sent, and the end of the transaction is asked for
once the body is over.
-/

namespace FreeIam.Ldap

open FreeIam.Py FreeIam.Errors FreeIam.Exec FreeIam.Transactions

/-! ## Requests to the server -/

/-- The requests that can be part of a transaction. -/
def Request.isUpdate : Request → Bool
  | .addExt .. | .modifyExt .. | .deleteExt .. | .rename .. | .passwd .. => true
  | _ => false

/-- The transaction that the controls of a request name. -/
def transactionOf (controls : List Control) : Option Bytes :=
  controls.findSome? fun control =>
    match control.value with
    | .transaction txnId => some txnId
    | _ => none

theorem transactionOf_transactionControl (txnId : Option Bytes) :
    transactionOf [transactionControl txnId] = some (txnId.getD []) := rfl

/-- What a request is to the server that is sent with these server controls. -/
def Request.message (controls : List Control) (request : Request) : Message Bytes Request :=
  match request with
  | .extop .startTransactionRequest => .start
  | .extop (.endTransactionRequest commit txnId) => .finish commit (txnId.getD [])
  | _ => if request.isUpdate then .update request (transactionOf controls) else .other

/-- The request ends a transaction. -/
def Request.endsTransaction : Request → Bool
  | .extop (.endTransactionRequest _ _) => true
  | _ => false

/-- A request that is sent with the control of a transaction and ends none is within it. -/
theorem Request.message_within {request : Request} (h : request.endsTransaction = false)
    (txnId : Option Bytes) :
    (request.message [transactionControl txnId]).Within (txnId.getD []) := by
  unfold Request.message
  split
  · trivial
  · cases h
  · split
    · exact transactionOf_transactionControl txnId
    · trivial

/-- The updates that a request asks for. -/
def Request.updates (request : Request) : List Request := if request.isUpdate then [request] else []

theorem Request.message_updates (controls : List Control) (request : Request) :
    (request.message controls).updates = request.updates := by
  unfold Request.message Request.updates
  split
  · rfl
  · rfl
  · split <;> rfl

/-- The updates that the connection asked for, by the log. -/
def updatesAsked {ω : Type} (calls : List (Call ω)) : List Request :=
  calls.flatMap fun call =>
    match call with
    | .request _ op _ _ => op.request.updates
    | .result _ _ _ _ => []

theorem updatesAsked_request {ω : Type} (calls : List (Call ω)) (o : Obj) (op : Operation)
    (outcome : Except PyExc (Option Nat)) (w : ω) :
    updatesAsked (calls ++ [.request o op outcome w]) = updatesAsked calls ++ op.request.updates := by
  unfold updatesAsked
  rw [List.flatMap_append, List.flatMap_singleton]

theorem updatesAsked_result {ω : Type} (calls : List (Call ω)) (o : Obj) (msgid : MsgId) (w : ω)
    (outcome : Except PyExc Response) :
    updatesAsked (calls ++ [.result o msgid w outcome]) = updatesAsked calls := by
  unfold updatesAsked
  rw [List.flatMap_append, List.flatMap_singleton, List.append_nil]

/-! ## The server behind an object -/

/-- An LDAP object of a session with a server with transactions. Every call may give the
server the time to go on, and a request comes in there, with the server controls it is sent
with, or gets lost on the way. -/
structure ServedObject {ω : Type} (env : Env ω) (o : Obj) extends SteadyObject env o where
  store : ω → Store Bytes Request
  takes : ∀ w o' op, (store w).Reach (store (final ((env.request o' op).run w))) ∨
    ∃ S, (store w).Reach S ∧ (S.receive (op.request.message (toSteadyObject.sent w op))).Reach
      (store (final ((env.request o' op).run w)))
  answering : ∀ w o' msgid all timeout,
    (store w).Reach (store (final ((env.result4 o' msgid all timeout).run w)))
  waiting : ∀ w o' timeout, (store w).Reach (store (final ((env.readable o' timeout).run w)))
  looping : ∀ w, (store w).Reach (store (final (env.getRunningLoop.run w)))
  setting : ∀ w o' x v, (store w).Reach (store (final ((env.setOption o' x v).run w)))
  getting : ∀ w o' x, (store w).Reach (store (final ((env.getOption o' x).run w)))
  reconnecting : ∀ w o' uri n force, (store w).Reach (store (final ((env.reconnect o' uri n force).run w)))
  binding : ∀ w o' bind, (store w).Reach (store (final ((env.simpleBindS o' bind).run w)))

namespace ServedObject

variable {ω : Type} {env : Env ω} {o : Obj} (object : ServedObject env o)

/-- Transaction `txnId` is under way since the log was `start`, as far as the server has got
with it. -/
def Underway (txnId : Option Bytes) (before : List (List Request)) (start : List (Call ω))
    (ending : Option Bool) (s : State ω) : Prop :=
  ∃ log, s.calls = start ++ log ∧
    (object.store s.world).Atomic (txnId.getD []) before (updatesAsked log) ending

variable {object} {txnId : Option Bytes} {before : List (List Request)} {start : List (Call ω)}
  {ending : Option Bool}

/-- The server goes on. -/
theorem Underway.reach {s : State ω} (hs : object.Underway txnId before start ending s) {w : ω}
    (h : (object.store s.world).Reach (object.store w)) :
    object.Underway txnId before start ending { s with world := w } := by
  obtain ⟨log, hlog, hatomic⟩ := hs
  exact ⟨log, hlog, hatomic.reach h⟩

theorem Underway.result {s : State ω} (hs : object.Underway txnId before start ending s) (o' : Obj)
    (msgid : MsgId) (outcome : Except PyExc Response) {w : ω}
    (h : (object.store s.world).Reach (object.store w)) :
    object.Underway txnId before start ending
      { s with world := w, calls := s.calls ++ [.result o' msgid s.world outcome] } := by
  obtain ⟨log, hlog, hatomic⟩ := hs
  refine ⟨log ++ [.result o' msgid s.world outcome], ?_, ?_⟩
  · rw [← List.append_assoc, ← hlog]
  · rw [updatesAsked_result]
    exact hatomic.reach h

/-- What comes in belongs to the transaction, or ends it. -/
theorem Underway.request {s : State ω} (hs : object.Underway txnId before start ending s) {o' : Obj}
    {op : Operation} (outcome : Except PyExc (Option Nat)) {w : ω}
    (hworld : w = final ((env.request o' op).run s.world))
    (hop : (op.request.message (object.sent s.world op)).Within (txnId.getD []) ∨ ∃ commit,
      ending = some commit ∧ op.request.message (object.sent s.world op) = .finish commit (txnId.getD [])) :
    object.Underway txnId before start ending
      { s with world := w, calls := s.calls ++ [.request o' op outcome w] } := by
  obtain ⟨log, hlog, hatomic⟩ := hs
  refine ⟨log ++ [.request o' op outcome w], ?_, ?_⟩
  · rw [← List.append_assoc, ← hlog]
  · rw [updatesAsked_request]
    have htakes := object.takes s.world o' op
    rw [← hworld] at htakes
    rcases htakes with hlost | ⟨S, hreach, htaken⟩
    · have hkept := hatomic.reach hlost
      exact { hkept with asked := hkept.asked.trans (List.sublist_append_left _ _) }
    · have hreceived := (hatomic.reach hreach).receive hop
      rw [Request.message_updates] at hreceived
      exact hreceived.reach htaken

/-- The calls of a reconnect leave the server to itself. -/
theorem underway_reconnecting : Method.Reconnecting env (object.Underway txnId before start ending) where
  startTls _ _ hs := hs
  loop := Method.onWorld_rule fun s hs => hs.reach (object.looping s.world)
  setOption o' x v := Method.onWorld_rule fun s hs => hs.1.reach (object.setting s.world o' x v)
  getOption o' x := Method.onWorld_rule fun s hs => hs.1.reach (object.getting s.world o' x)
  reconnect o' uri n force := Method.onWorld_rule fun s hs =>
    hs.1.reach (object.reconnecting s.world o' uri n force)
  simpleBindS o' bind := Method.onWorld_rule fun s hs => hs.1.reach (object.binding s.world o' bind)

/-- So do the waits for a result. -/
theorem underway_awaits (o' : Obj) : Method.Awaits env (object.Underway txnId before start ending) o' where
  result msgid all timeout := by
    refine Method.getResult_rule (fun s r w hs hrun => ?_) fun s e w hs hrun => ?_
    all_goals
      have hreach := object.answering s.world o' msgid.number all timeout
      rw [hrun] at hreach
      exact hs.result o' msgid _ hreach
  readable timeout := Method.onWorld_rule fun s hs => hs.reach (object.waiting s.world o' timeout)
  reconnect := underway_reconnecting.reconnect_keeps true

/-! ## The body of a transaction -/

/-- The operation leaves its server controls to the connection, and ends no transaction. -/
def Inside (op : Operation) : Prop := op.serverctrls = none ∧ op.request.endsTransaction = false

/-- An operation of the body comes in with the control of the transaction. -/
theorem underway_request {controls : List Control} {o' : Obj} {op : Operation} {length : Nat}
    (hcontrols : controls = [transactionControl txnId]) (hop : Inside op) :
    Spec (fun s => object.Scope controls Inside length s ∧ object.Underway txnId before start none s)
      (Method.request env o' op) (fun _ => object.Underway txnId before start none)
      (fun _ => object.Underway txnId before start none) := by
  have hwithin {s : State ω} (hs : object.Scope controls Inside length s) :
      (op.request.message (object.sent s.world op)).Within (txnId.getD []) := by
    have hsent : object.sent s.world op = [transactionControl txnId] := by
      unfold SteadyObject.sent
      rw [hop.1, hs.value, ← hcontrols]
      rfl
    rw [hsent]
    exact Request.message_within hop.2 txnId
  refine Method.request_rule (fun s msgid w hs hrun => ?_) fun s e w hs hrun => ?_
  · exact hs.2.request _ (by rw [hrun, final_ok]) (.inl (hwithin hs.1))
  · exact hs.2.request _ (by rw [hrun, final_error]) (.inl (hwithin hs.1))

theorem body_executing {lib : Modlists ω} (object : ServedObject lib.toEnv o) (txnId : Option Bytes)
    (before : List (List Request)) (start : List (Call ω)) (polls : Nat) :
    Method.Executing lib polls Inside fun s =>
      object.Scope [transactionControl txnId] Inside start.length s ∧ object.Underway txnId before start none s where
  execute o' op hop := by
    have hscope : Method.Abides lib.toEnv (object.Scope [transactionControl txnId] Inside start.length) o' op :=
      SteadyObject.Scope.abides o' hop
    have hawaits : Method.Awaits lib.toEnv (object.Underway txnId before start none) o' := underway_awaits o'
    refine Method.Abides.execute_keeps ⟨⟨fun msgid all timeout => ?_, fun timeout => ?_, ?_⟩, ?_⟩ polls
    · exact (hscope.result msgid all timeout).both (hawaits.result msgid all timeout)
    · exact (hscope.readable timeout).both (hawaits.readable timeout)
    · exact hscope.reconnect.both hawaits.reconnect
    · exact hscope.request.and (underway_request rfl hop)
  bare request hrequest := by
    refine ⟨rfl, ?_⟩
    cases request with
    | extop request => cases hrequest
    | _ => rfl

/-! ## The end of a transaction -/

theorem resetControls_underway :
    Keeps (object.Underway txnId before start ending) (Method.resetControls env) :=
  underway_reconnecting.toCalm.setOption_keeps _ _ _ fun _ _ _ hs => hs

theorem endTransaction_underway (polls : Nat) (commit : Bool) :
    Keeps (object.Underway txnId before start (some commit))
      (Method.endTransaction env polls txnId commit) := by
  have habides (o' : Obj) : Method.Abides env (object.Underway txnId before start (some commit)) o'
      ((Request.extop (.endTransactionRequest commit txnId)).with none) := by
    refine ⟨underway_awaits o', Method.request_rule (fun s msgid w hs hrun => ?_) fun s e w hs hrun => ?_⟩
    · exact hs.request _ (by rw [hrun, final_ok]) (.inr ⟨commit, rfl, rfl⟩)
    · exact hs.request _ (by rw [hrun, final_error]) (.inr ⟨commit, rfl, rfl⟩)
  refine Keeps.bind Method.conn_keeps fun o' => Keeps.bind ((habides o').execute_keeps polls) fun response => ?_
  exact Keeps.bind (Method.wrap_keeps (Method.ofExcept_keeps _)) fun _ => Method.ofExcept_keeps _

theorem commitTransaction_underway (polls : Nat) :
    Keeps (object.Underway txnId before start (some true)) (Method.commitTransaction env polls txnId) := by
  refine Keeps.bind resetControls_underway fun _ => Keeps.tryCatch ?_ fun e => ?_
  · exact Keeps.bind (endTransaction_underway polls true) fun _ => Keeps.pure ()
  · exact Keeps.ite (Keeps.pure ()) (Keeps.throw e)

theorem abortTransaction_underway (polls : Nat) (e : PyExc) :
    Keeps (object.Underway txnId before start (some false)) (Method.abortTransaction env polls txnId e) :=
  Keeps.bind resetControls_underway fun _ => Keeps.bind (endTransaction_underway polls false) fun _ =>
    Keeps.throw e

/-- The transaction was opened, nothing has been asked for in it, and the server has nothing
else to do. -/
structure Entered (object : ServedObject env o) (txnId : Option Bytes) (s : State ω) : Prop where
  opened : txnId.getD [] ∈ (object.store s.world).opened
  held : ∀ updates, (object.store s.world).held (txnId.getD []) = some updates → updates = []
  accepted : (object.store s.world).accepted (txnId.getD []) = []
  queue : (object.store s.world).queue = []

theorem Entered.underway {s : State ω} (hs : object.Entered txnId s) :
    object.Underway txnId (object.store s.world).own s.calls none s :=
  ⟨[], (List.append_nil _).symm, Store.Atomic.entered hs.opened hs.held hs.queue hs.accepted⟩

end ServedObject

/-- What is required of a transaction that was entered in `s₁` and left in `s'`, whatever other
clients did: the server has carried out nothing for this one while the body ran, and then
nothing at all or, if the body ended normally, exactly the updates that it has accepted for the
transaction, at once and in the order in which they were asked for. -/
structure ServedObject.AllOrNothing {ω : Type} {env : Env ω} {o : Obj} (object : ServedObject env o)
    (txnId : Option Bytes) (body : Method ω Unit) (s₁ s' : State ω) : Prop where
  isolated : (object.store (final (body.run s₁)).world).own = (object.store s₁.world).own
  outcome : (object.store s'.world).own = (object.store s₁.world).own ∨
    raised (body.run s₁) = false ∧ (object.store s'.world).own =
      (object.store s₁.world).own ++ [(object.store s'.world).accepted (txnId.getD [])]
  asked : ∃ log, s'.calls = s₁.calls ++ log ∧
    ((object.store s'.world).accepted (txnId.getD [])).Sublist (updatesAsked log)

/-- A transaction around a program that leaves the server controls to the connection is
atomic, whatever becomes of the sessions it is sent on. -/
theorem transaction_atomic {ω : Type} {lib : Modlists ω} {o : Obj} (object : ServedObject lib.toEnv o)
    {polls depth : Nat} {addModlist : List (PyStr × List Bytes) → List (PyStr × List Bytes)}
    {txnId : Option Bytes} {s s₁ : State ω} (program : Option Bytes → Client Order Reply PyExc Unit)
    (hs : object.Recorded s)
    (henter : (Method.enterTransaction lib.toEnv polls true).run s = .ok txnId s₁)
    (hentered : object.Entered txnId s₁)
    (hprogram : (program txnId).All (Order.Passes ServedObject.Inside)) :
    object.AllOrNothing txnId ((program txnId).run (Order.method lib addModlist depth) polls) s₁
      (final ((Method.transaction lib.toEnv polls true fun txnId =>
        (program txnId).run (Order.method lib addModlist depth) polls).run s)) := by
  have hexecuting := object.body_executing txnId (object.store s₁.world).own s₁.calls polls
  have hkeeps := Keeps.client (fun _ horder => Order.method_keeps depth hexecuting addModlist horder) hprogram
  have hscope : object.Scope [transactionControl txnId] ServedObject.Inside s₁.calls.length s₁ :=
    SteadyObject.Scope.init (object.enter_recalled hs henter)
  obtain ⟨-, log₂, hlog₂, hbody⟩ := hkeeps.final ⟨hscope, hentered.underway⟩
  have hend (commit : Bool) {s₂ : State ω}
      (hs₂ : final (((program txnId).run (Order.method lib addModlist depth) polls).run s₁) = s₂) :
      object.Underway txnId (object.store s₁.world).own s₁.calls (some commit) s₂ :=
    ⟨log₂, hs₂ ▸ hlog₂, hs₂ ▸ hbody.finishing commit⟩
  cases hrun : ((program txnId).run (Order.method lib addModlist depth) polls).run s₁ with
  | ok u s₂ =>
    obtain ⟨log, hlog, hatomic⟩ :=
      (ServedObject.commitTransaction_underway polls).final (hend true (by rw [hrun, final_ok]))
    have hleft : (Method.transaction lib.toEnv polls true fun txnId =>
        (program txnId).run (Order.method lib addModlist depth) polls).run s =
        (Method.commitTransaction lib.toEnv polls txnId).run s₂ := transaction_returned henter hrun
    rw [← hleft] at hlog hatomic
    refine ⟨hbody.isolated, ?_, log, hlog, hatomic.accepted_sublist⟩
    exact hatomic.applied.imp id fun hcommitted => ⟨by rw [hrun, raised_ok], hcommitted.2.2⟩
  | error e s₂ =>
    obtain ⟨log, hlog, hatomic⟩ :=
      (ServedObject.abortTransaction_underway polls e).final (hend false (by rw [hrun, final_error]))
    have hleft : (Method.transaction lib.toEnv polls true fun txnId =>
        (program txnId).run (Order.method lib addModlist depth) polls).run s =
        (Method.abortTransaction lib.toEnv polls txnId e).run s₂ := transaction_raised henter hrun
    rw [← hleft] at hlog hatomic
    refine ⟨hbody.isolated, hatomic.applied.imp id fun hcommitted => ?_, log, hlog, hatomic.accepted_sublist⟩
    cases hcommitted.1

/-! ## A server that refuses nothing -/

/-- The store after a message, and after another client has deleted an entry. -/
def serveBoth (S : Store Bytes Request) (m : Message Bytes Request) : Store Bytes Request :=
  let S' := S.serve [4, 1, 49] m
  { S' with applied := S'.applied ++ [.others [.deleteExt (py "cn=baz")]] }

theorem serveBoth_reach {S : Store Bytes Request} (m : Message Bytes Request) (hqueue : S.queue = []) :
    (S.receive m).Reach (serveBoth S m) := by
  have hothers : (S.serve [4, 1, 49] m).Step (serveBoth S m) := .others
  exact (Relation.ReflTransGen.single (S.serve_step [4, 1, 49] m hqueue)).tail hothers

/-- The store after some messages, whose transactions have the same name. -/
def servedStore (messages : List (Message Bytes Request)) : Store Bytes Request :=
  messages.foldl serveBoth
    { queue := [], opened := [], held := fun _ => none, accepted := fun _ => [], applied := [] }

theorem servedStore_append (messages : List (Message Bytes Request)) (m : Message Bytes Request) :
    servedStore (messages ++ [m]) = serveBoth (servedStore messages) m := by
  unfold servedStore
  rw [List.foldl_append]
  rfl

theorem servedStore_queue (messages : List (Message Bytes Request)) : (servedStore messages).queue = [] := by
  induction messages using List.reverseRecOn with
  | nil => rfl
  | append_singleton messages m ih =>
    rw [servedStore_append]
    exact (Store.serve_queue ..).trans ih

/-- Options and the messages that have come in. -/
abbrev ServedWorld := (LdapOption → OptionValue) × List (Message Bytes Request)

/-- Every request is sent, and answered like the start of a transaction. -/
def servedLib : Modlists ServedWorld where
  toEnv := { Env.idle ServedWorld with
    getOption := fun _ x w => .ok (w.1 x) w
    setOption := fun _ x v w => .ok () (Function.update w.1 x v, w.2)
    request := fun _ op w =>
      .ok (some 1) (w.1, w.2 ++ [op.request.message (op.serverctrls.getD (w.1 .serverControls).list)])
    result4 := fun _ msgid _ _ w => .ok
      { type := some .extended, data := none, msgid := some msgid, ctrls := some [], value := some [4, 1, 49] } w }
  dn2str := simpleNames.dn2str
  lower := simpleNames.lower
  hash := simpleNames.hash
  modifyModlist := fun _ _ => []

def servedObject : ServedObject servedLib.toEnv 0 where
  value := Prod.fst
  accepted := fun _ _ _ => True
  accepts := fun w x v _ _ => ⟨(Function.update w.1 x v, w.2), rfl⟩
  sets := fun _ _ _ _ h => by
    cases h
    exact ⟨rfl, trivial, rfl⟩
  rejects := fun _ _ _ _ _ h => by cases h
  remembers := fun _ _ _ _ _ _ => trivial
  reconnect := fun _ _ _ _ => ⟨rfl, fun _ _ _ => trivial⟩
  reconnected := fun _ _ _ _ _ _ => rfl
  simpleBindS := fun _ _ => ⟨rfl, fun _ _ _ => trivial⟩
  loop := fun _ => ⟨rfl, fun _ _ _ => trivial⟩
  request := fun _ _ _ => ⟨rfl, fun _ _ _ => trivial⟩
  result4 := fun _ _ _ _ _ => ⟨rfl, fun _ _ _ => trivial⟩
  readable := fun _ _ _ => ⟨rfl, fun _ _ _ => trivial⟩
  store := fun w => servedStore w.2
  takes := fun w o op => by
    refine .inr ⟨servedStore w.2, .refl, ?_⟩
    show Store.Reach _ (servedStore (w.2 ++ _))
    rw [servedStore_append]
    exact serveBoth_reach _ (servedStore_queue w.2)
  answering := fun _ _ _ _ _ => .refl
  waiting := fun _ _ _ => .refl
  looping := fun _ => .refl
  setting := fun _ _ _ _ => .refl
  getting := fun _ _ _ => .refl
  reconnecting := fun _ _ _ _ _ => .refl
  binding := fun _ _ _ => .refl

/-- A connection to that server. -/
def servedState : State ServedWorld :=
  { self := { Connection.init false (py "ldap://localhost") with conn := some 0 }
    world := (fun _ => .int 0, [])
    calls := [] }

/-- The deletion of two entries. -/
def deletions : Client Order Reply PyExc Unit :=
  .call (.delete (.text (py "cn=foo")) none) fun _ =>
    .call (.delete (.text (py "cn=bar")) none) fun _ => .done ()

/-- The server opens the transaction, and has nothing else to do. -/
theorem servedState_entered : ∃ s₁,
    (Method.enterTransaction servedLib.toEnv 1 true).run servedState = .ok (some [4, 1, 49]) s₁ ∧
    servedObject.Entered (some [4, 1, 49]) s₁ :=
  ⟨_, rfl, List.mem_singleton_self _, fun _ h => (Option.some.inj h).symm, rfl, rfl⟩

/-- Both entries are deleted at once, or none is. -/
theorem transaction_atomic_deletions : ∃ s₁,
    (Method.enterTransaction servedLib.toEnv 1 true).run servedState = .ok (some [4, 1, 49]) s₁ ∧
    servedObject.AllOrNothing (some [4, 1, 49]) (deletions.run (Order.method servedLib id 1) 1) s₁
      (final ((Method.transaction servedLib.toEnv 1 true fun _ =>
        deletions.run (Order.method servedLib id 1) 1).run servedState)) := by
  obtain ⟨s₁, henter, hentered⟩ := servedState_entered
  have hinside (request : Request) (hrequest : request.Plain) : ServedObject.Inside (request.with none) :=
    (servedObject.body_executing none [] [] 1).bare request hrequest
  have hdeletions : deletions.All (Order.Passes ServedObject.Inside) :=
    ⟨hinside, fun _ => ⟨hinside, fun _ => trivial⟩⟩
  exact ⟨s₁, henter, transaction_atomic servedObject (fun _ => deletions) ⟨rfl, fun _ h => by cases h⟩
    henter hentered hdeletions⟩

end FreeIam.Ldap
