import FreeIam.Ldap.Connection.Delivery
import FreeIam.Ldap.Connection.Log
import FreeIam.Ldap.Connection.Usage

/-!
# Operations are sent at most once

`_retry` hands a request to python-ldap again after a lost connection, and the wait
for a result may reconnect, too. Neither repeats an operation that python-ldap has
taken: its message ID is all that is left of it. So no update is made twice on the
client's account, in whatever order a program makes its calls.
-/

namespace FreeIam.Ldap

open FreeIam.Py FreeIam.Errors FreeIam.Exec

variable {ω α : Type}

/-! ## Attempts -/

/-- How far an operation has come: it may be tried again, it was refused, python-ldap
has taken it. -/
inductive Progress
  | trying
  | refused
  | taken
  deriving DecidableEq

/-- What the log says of one operation. Only a lost connection allows another attempt,
and results are asked for once it is taken. -/
inductive Attempts (op : Operation) : Progress → List (Call ω) → Prop
  | start : Attempts op .trying []
  | lost {log : List (Call ω)} {e : PyExc} (o : Obj) (w : ω) : Attempts op .trying log →
      e.wrap.lost = true → Attempts op .trying (log ++ [.request o op (.error e) w])
  | refused {log : List (Call ω)} (o : Obj) (e : PyExc) (w : ω) : Attempts op .trying log →
      Attempts op .refused (log ++ [.request o op (.error e) w])
  | taken {log : List (Call ω)} (o : Obj) (number : Option Nat) (w : ω) : Attempts op .trying log →
      Attempts op .taken (log ++ [.request o op (.ok number) w])
  | asked {log : List (Call ω)} (o : Obj) (msgid : MsgId) (before : ω)
      (outcome : Except PyExc Response) : Attempts op .taken log →
      Attempts op .taken (log ++ [.result o msgid before outcome])

/-- Whether python-ldap takes the operation with this call. -/
def Call.takes (op : Operation) : Call ω → Bool
  | .request _ op' (.ok _) _ => op' = op
  | _ => false

/-- How often python-ldap has taken an operation, by the log. -/
def timesTaken (op : Operation) (calls : List (Call ω)) : Nat := calls.countP (Call.takes op)

@[simp] theorem timesTaken_append (op : Operation) (calls log : List (Call ω)) :
    timesTaken op (calls ++ log) = timesTaken op calls + timesTaken op log := List.countP_append

@[simp] theorem timesTaken_nil (op : Operation) : timesTaken op ([] : List (Call ω)) = 0 := rfl

/-- An operation is taken once where it is taken, and no other one with it. -/
theorem Attempts.timesTaken {op : Operation} {p : Progress} {log : List (Call ω)}
    (h : Attempts op p log) (op' : Operation) :
    timesTaken op' log = if p = .taken ∧ op = op' then 1 else 0 := by
  induction h with
  | start => rfl
  | lost o w _ _ ih =>
    rw [timesTaken_append, ih]
    rfl
  | refused o e w _ ih =>
    rw [timesTaken_append, ih]
    rfl
  | taken o number w _ ih =>
    rw [timesTaken_append, ih]
    by_cases hop : op = op' <;> simp [Ldap.timesTaken, Call.takes, hop]
  | asked o msgid before outcome _ ih =>
    rw [timesTaken_append, ih]
    rfl

/-- Waits for results only. -/
def Asks (log : List (Call ω)) : Prop := ∀ call ∈ log, call.operation? = none

theorem Asks.append {log : List (Call ω)} (h : Asks log) (o : Obj) (msgid : MsgId) (before : ω)
    (outcome : Except PyExc Response) : Asks (log ++ [.result o msgid before outcome]) := by
  intro call hcall
  rcases List.mem_append.mp hcall with hcall | hcall
  · exact h call hcall
  · rw [List.mem_singleton.mp hcall]
    rfl

theorem Asks.timesTaken {log : List (Call ω)} (h : Asks log) (op : Operation) :
    timesTaken op log = 0 := by
  refine List.countP_eq_zero.mpr fun call hcall => ?_
  cases call with
  | request o op' outcome after => cases h _ hcall
  | result o msgid before outcome => exact Bool.false_ne_true

/-! ## One operation -/

/-- The log has grown since it was `calls`, by calls with `R`. -/
def Grown (calls : List (Call ω)) (R : List (Call ω) → Prop) (s : State ω) : Prop :=
  ∃ log, s.calls = calls ++ log ∧ R log

/-- The state of the connection does not matter. -/
theorem grown_indifferent (calls : List (Call ω)) (R : List (Call ω) → Prop) :
    Method.Indifferent (Grown calls R) where
  world := fun _ _ hs => hs
  startTls := fun _ _ hs => hs

theorem Grown.imp {calls : List (Call ω)} {R R' : List (Call ω) → Prop} {s : State ω}
    (h : Grown calls R s) (hR : ∀ log, R log → R' log) : Grown calls R' s := by
  obtain ⟨log, hlog, hr⟩ := h
  exact ⟨log, hlog, hR log hr⟩

/-- Nothing has been logged yet. -/
theorem Grown.of_start {calls : List (Call ω)} {R : List (Call ω) → Prop} {s : State ω}
    (h : Grown calls (· = []) s) (hR : R []) : Grown calls R s := by
  obtain ⟨log, hlog, rfl⟩ := h
  exact ⟨[], hlog, hR⟩

theorem Grown.call {calls : List (Call ω)} {R R' : List (Call ω) → Prop} {s : State ω} {call : Call ω}
    (h : Grown calls R s) (hR : ∀ log, R log → R' (log ++ [call])) (w : ω) :
    Grown calls R' { s with world := w, calls := s.calls ++ [call] } := by
  obtain ⟨log, hlog, hr⟩ := h
  refine ⟨log ++ [call], ?_, hR log hr⟩
  show s.calls ++ [call] = _
  rw [hlog, List.append_assoc]

namespace Method

variable {env : Env ω} {polls : Nat} {calls : List (Call ω)} {op : Operation}

/-- The waits of a polling loop keep what results keep. -/
theorem grown_awaits {R : List (Call ω) → Prop}
    (hR : ∀ log o msgid before outcome, R log → R (log ++ [.result o msgid before outcome])) (o : Obj) :
    Awaits env (Grown calls R) o where
  result := fun msgid _ _ =>
    getResult_rule (fun s _ w hs _ => hs.call (fun log => hR log o msgid s.world _) w)
      fun s _ w hs _ => hs.call (fun log => hR log o msgid s.world _) w
  readable := fun _ => onWorld_rule fun _ hs => hs
  reconnect := (grown_indifferent calls R).synchronous.toReconnecting.reconnect_keeps true

/-- The end of an operation, however it ends. -/
abbrev Ended (op : Operation) (log : List (Call ω)) : Prop := ∃ p, Attempts op p log

/-- The request is repeated until python-ldap takes it. -/
theorem retry_request_attempts (o : Obj) :
    Spec (Grown calls (Attempts op .trying)) (retry env (Method.request env o op))
      (fun _ => Grown calls (Attempts op .taken)) (fun _ => Grown calls (Ended op)) := by
  have hrequest : Spec (Grown calls (Attempts op .trying)) (Method.request env o op)
      (fun _ => Grown calls (Attempts op .taken))
      (fun e => Grown calls fun log => Ended op log ∧ (e.lost = true → Attempts op .trying log)) := by
    refine request_rule (fun s number w hs _ => ?_) fun s e w hs _ => ?_
    · exact hs.call (fun log hlog => .taken o number w hlog) w
    · exact hs.call (fun log hlog => ⟨⟨.refused, .refused o e w hlog⟩, fun hlost => .lost o w hlog hlost⟩) w
  have hreconnect : Spec (Grown calls (Attempts op .trying)) (reconnect env true)
      (fun _ => Grown calls (Attempts op .trying))
      (fun e => Grown calls fun log => Ended op log ∧ (e.lost = true → Attempts op .trying log)) :=
    Spec.conseq ((grown_indifferent calls _).synchronous.toReconnecting.reconnect_keeps true)
      (fun _ hs => hs) (fun _ _ hs => hs) fun _ _ hs => hs.imp fun log hlog => ⟨⟨_, hlog⟩, fun _ => hlog⟩
  refine Spec.conseq (retry_rule hrequest hreconnect ?_ ?_) (fun _ hs => hs) (fun _ _ hs => hs)
    fun _ _ hs => hs.imp fun _ hlog => hlog.1
  · intro s₀ e s _ _ hlost hs
    exact hs.imp fun log hlog => hlog.2 hlost
  · exact fun s hs => hs.imp fun log hlog => ⟨⟨_, hlog⟩, fun _ => hlog⟩

/-- An operation that returns was taken; one that raises may have been. -/
theorem execute_attempts (o : Obj) :
    Spec (Grown calls (· = [])) (execute env polls o op) (fun _ => Grown calls (Attempts op .taken))
      (fun _ => Grown calls (Ended op)) := by
  have hpoll : ∀ msgid, Keeps (Grown calls (Attempts op .taken)) (poll env o msgid true polls) :=
    fun msgid => (grown_awaits (fun _ o msgid before outcome => .asked o msgid before outcome) o).poll_keeps
      msgid true polls
  have hended : ∀ s : State ω, Grown calls (Attempts op .taken) s → Grown calls (Ended op) s :=
    fun s hs => hs.imp fun log hlog => ⟨.taken, hlog⟩
  refine execute_rule (S := fun _ => Grown calls (Attempts op .taken))
    (R := fun _ _ => Grown calls (Attempts op .taken)) ?_ (fun msgid => ?_) (fun msgid r => ?_)
    fun _ _ _ hs => hs
  · refine Spec.conseq (retry_request_attempts o) (fun s hs => hs.of_start .start) (fun msgid s hs => ?_)
      fun _ _ hs => hs
    cases msgid <;> exact hs
  · refine Spec.conseq (hpoll msgid) (fun _ hs => hs) (fun r s hs => ?_) fun _ s hs => hended s hs
    cases r with
    | none => exact hended s hs
    | some r => exact hs
  · refine Spec.conseq (hpoll msgid) (fun _ hs => hs) (fun r s hs => ?_) fun _ s hs => hended s hs
    cases r with
    | none => exact hs
    | some r => exact hended s hs

/-! ## The calls of a program -/

/-- What a call does on the object of the connection. -/
theorem onConn_grown {R : List (Call ω) → Prop} {Q : α → State ω → Prop} {f : Obj → Method ω α}
    (hstart : R []) (hf : ∀ o, Spec (Grown calls (· = [])) (f o) Q (fun _ => Grown calls R)) :
    Spec (Grown calls (· = [])) (conn >>= f) Q (fun _ => Grown calls R) := by
  exact Spec.bind (Q := fun _ => Grown calls (· = []))
    (conn_rule (fun _ _ hs _ => hs) fun s hs _ => hs.of_start hstart) hf

theorem ended_nil : Ended op ([] : List (Call ω)) := ⟨.trying, .start⟩

/-- The result of an operation that was taken may still fail to be made. -/
theorem ofExcept_taken (x : Except PyExc α) :
    Spec (Grown calls (Attempts op .taken)) (ofExcept x : Method ω α)
      (fun _ => Grown calls (Attempts op .taken)) (fun _ => Grown calls (Ended op)) :=
  ofExcept_rule (fun _ _ _ hs => hs) fun _ _ _ hs => hs.imp fun _ hlog => ⟨_, hlog⟩

theorem executeResult_attempts (request : Request) (controls : Option Controls) (dn : Option PyStr) :
    Spec (Grown calls (· = [])) (executeResult env polls request controls dn)
      (fun _ => Grown calls (Attempts (request.with controls) .taken))
      (fun _ => Grown calls (Ended (request.with controls))) :=
  onConn_grown ended_nil fun o => Spec.bind (execute_attempts o) fun _ => ofExcept_taken _

theorem extended_attempts (request : ExtendedRequest) (responseClass : Option ExtendedResponse)
    (controls : Option Controls) :
    Spec (Grown calls (· = [])) (extended env polls request responseClass controls)
      (fun _ => Grown calls (Attempts ((Request.extop request).with controls) .taken))
      (fun _ => Grown calls (Ended ((Request.extop request).with controls))) := by
  refine onConn_grown ended_nil fun o => Spec.bind (execute_attempts o) fun response => ?_
  exact Spec.bind (wrap_rule (ofExcept_taken _) fun _ _ hs => hs) fun _ => ofExcept_taken _

theorem bind_attempts (authzid password : Option PyStr) (controls : Option Controls) :
    Spec (Grown calls (· = [])) (Method.bind env polls authzid password controls)
      (fun _ => Grown calls (Attempts ((Request.simpleBind ⟨authzid, password⟩).with controls) .taken))
      (fun _ => Grown calls (Ended ((Request.simpleBind ⟨authzid, password⟩).with controls))) := by
  refine onConn_grown ended_nil fun o => ?_
  refine Spec.bind (Q := fun _ => Grown calls (· = [])) (Spec.modify fun s hs => hs) fun _ => ?_
  exact Spec.bind (execute_attempts o) fun _ => ofExcept_taken _

/-- The end of a method, whether it returns or raises. -/
abbrev Ends (calls : List (Call ω)) (R : List (Call ω) → Prop) (m : Method ω α) : Prop :=
  Spec (Grown calls (· = [])) m (fun _ => Grown calls R) (fun _ => Grown calls R)

theorem Ends.discard {R : List (Call ω) → Prop} {m : Method ω α} (h : Ends calls R m) :
    Ends calls R (discard m) := Spec.map h fun _ _ hs => hs

theorem execute_ends (o : Obj) : Ends calls (Ended op) (execute env polls o op) :=
  Spec.conseq (execute_attempts o) (fun _ hs => hs) (fun _ _ hs => hs.imp fun _ hlog => ⟨_, hlog⟩)
    fun _ _ hs => hs

theorem unbind_ends (controls : Option Controls) :
    Ends calls (Ended (Request.unbindExt.with controls)) (unbind env polls controls) := by
  unfold unbind
  refine Spec.bind (Q := fun _ => Grown calls (· = [])) (Spec.modify fun s hs => hs) fun _ => ?_
  refine Spec.bind (Q := fun _ => Grown calls (· = [])) (Spec.get fun s hs => hs) fun s₀ => ?_
  cases s₀.self.conn with
  | none => exact Spec.pure fun s hs => hs.of_start ended_nil
  | some o =>
    refine Spec.bind (Q := fun _ => Grown calls (Ended (Request.unbindExt.with controls))) ?_ fun response => ?_
    · refine Spec.tryCatch (Spec.map (execute_ends o) fun _ _ hs => hs) fun e => ?_
      exact Keeps.ite (Keeps.pure _) (Keeps.throw _)
    · cases response with
      | none => exact Keeps.pure _
      | some response => exact Keeps.map (ofExcept_keeps _)

theorem cancel_ends (msgid : Nat) (controls : Option Controls) :
    Ends calls (Ended ((Request.cancel msgid).with controls)) (cancel env polls msgid controls) := by
  unfold cancel
  refine Spec.bind (Q := fun _ => Grown calls (· = [])) (Spec.get fun s hs => hs) fun s₀ => ?_
  cases s₀.self.conn with
  | none => exact Spec.pure fun s hs => hs.of_start ended_nil
  | some o =>
    refine Spec.tryCatch (Spec.bind (execute_ends o) fun _ => Keeps.pure _) fun e => ?_
    exact Keeps.ite (Keeps.pure _) (Keeps.ite (Keeps.pure _) (Keeps.throw _))

end Method

/-! ## Searches -/

/-- The operation of a search: there is none where its controls are refused. -/
def SearchArgs.operation? (args : SearchArgs) (timeout : Int) (criticality : Bool) : Option Operation :=
  match args.searchControls criticality with
  | .ok controls => some (args.operation timeout controls)
  | .error _ => none

/-- The operation of resuming a generator: its search, where it has not started. -/
def SearchIter.operation? (timeout : Int) : SearchIter → Option Operation
  | .created args => args.operation? timeout true
  | _ => none

/-- The operation of closing a generator: the cancellation of its search, where it
is suspended. -/
def SearchIter.cancellation? (iter : SearchIter) : Option Operation :=
  (Method.Discipline.lastMsgid iter).map fun msgid => (Request.cancel msgid).with none

/-- The log of a call: attempts at its own operation, or, where it has none, nothing
but waits for results. -/
def Owns : Option Operation → List (Call ω) → Prop
  | some op, log => Method.Ended op log
  | none, log => Asks log

/-- The log of a call that does not return without its operation. -/
def Takes : Option Operation → List (Call ω) → Prop
  | some op, log => Attempts op .taken log
  | none, _ => False

theorem asks_nil : Asks ([] : List (Call ω)) := fun _ h => absurd h List.not_mem_nil

theorem owns_nil (own : Option Operation) : Owns own ([] : List (Call ω)) := by
  cases own with
  | none => exact asks_nil
  | some op => exact Method.ended_nil

theorem Takes.owns {own : Option Operation} {log : List (Call ω)} (h : Takes own log) : Owns own log := by
  cases own with
  | none => exact h.elim
  | some op => exact ⟨.taken, h⟩

namespace Method

variable {env : Env ω} {polls : Nat} {calls : List (Call ω)} {timeout : Int}

/-- Where a call starts: nothing is in its part of the log. -/
def Starts (calls : List (Call ω)) (timeout : Int) (s : State ω) : Prop :=
  s.self.timeout = timeout ∧ Grown calls (· = []) s

theorem starts_self (s : State ω) : Starts s.calls s.self.timeout s :=
  ⟨rfl, [], (List.append_nil _).symm, rfl⟩

theorem Starts.owns {s : State ω} (h : Starts calls timeout s) (own : Option Operation) :
    Grown calls (Owns own) s := h.2.of_start (owns_nil own)

/-- What a search does before it asks python-ldap leaves the log and the time limit
alone, and its operation is the one that its controls make. -/
theorem ownSearch_rule {args : SearchArgs} {criticality : Bool} {R : List (Call ω) → Prop}
    {f : Obj → Option Controls → Method ω α}
    (hf : ∀ o controls, args.operation? timeout criticality = some (args.operation timeout controls) →
      Spec (Starts calls timeout) (f o controls) (fun _ => Grown calls R)
        (fun _ => Grown calls (Owns (args.operation? timeout criticality)))) :
    Spec (Starts calls timeout)
      (conn >>= fun o => ofExcept (args.searchControls criticality) >>= fun controls => f o controls)
      (fun _ => Grown calls R) (fun _ => Grown calls (Owns (args.operation? timeout criticality))) := by
  refine Spec.bind (Q := fun _ => Starts calls timeout)
    (conn_rule (fun _ _ hs _ => hs) fun s hs _ => hs.owns _) fun o => ?_
  refine Spec.bind
    (Q := fun controls s => args.searchControls criticality = .ok controls ∧ Starts calls timeout s)
    (ofExcept_rule (fun _ _ hcontrols hs => ⟨hcontrols, hs⟩) fun _ s _ hs => hs.owns _) fun controls => ?_
  refine Spec.assume fun hcontrols => hf o controls ?_
  unfold SearchArgs.operation?
  rw [hcontrols]

/-- The time limit that an operation reads is that of the connection. -/
theorem timeout_rule {E : PyExc → State ω → Prop} :
    Spec (Starts calls timeout) (get : Method ω (State ω))
      (fun s₀ s => s₀.self.timeout = timeout ∧ Grown calls (· = []) s) E := Spec.get fun _ hs => hs

theorem search_attempts (args : SearchArgs) :
    Spec (Starts calls timeout) (search env polls args)
      (fun _ => Grown calls (Takes (args.operation? timeout false)))
      (fun _ => Grown calls (Owns (args.operation? timeout false))) := by
  refine ownSearch_rule fun o controls hop => ?_
  rw [hop]
  refine Discipline.searchedFor_rule (Spec.bind timeout_rule fun s₀ => Spec.assume fun htimeout => ?_)
  rw [htimeout]
  refine Spec.bind (execute_attempts o) fun response => Spec.bind (Q := fun _ =>
    Grown calls (Attempts (args.operation timeout controls) .taken)) ?_ fun results => ?_
  · unfold responseResults
    cases response.data with
    | none => exact Spec.throw fun s hs => hs.imp fun _ hlog => ⟨_, hlog⟩
    | some data => exact ofExcept_taken _
  · refine Spec.bind (Q := fun _ => Grown calls (Attempts (args.operation timeout controls) .taken)) ?_
      fun _ => Spec.pure fun s hs => hs
    exact Spec.onlyIf (fun _ => Spec.throw fun s hs => hs.imp fun _ hlog => ⟨_, hlog⟩) fun _ _ hs => hs

/-- The loop of a generator adds waits only. -/
theorem searchLoop_keeps {J : State ω → Prop} {o : Obj} (h : Awaits env J o) (args : SearchArgs)
    (msgid : MsgId) (polls : Nat) :
    ∀ controls allResults, Keeps J (searchLoop env args o msgid polls controls allResults) := by
  induction polls with
  | zero => exact fun _ _ => Keeps.throw _
  | succ polls ih =>
    intro controls allResults
    rw [searchLoop]
    refine Keeps.bind (h.poll_keeps msgid false _) fun response => ?_
    cases response with
    | none => exact Keeps.pure _
    | some response =>
      refine Keeps.bind ?_ fun results => Keeps.bind (Keeps.onlyIf (Keeps.throw _)) fun _ => ?_
      · unfold responseResults
        cases response.data with
        | none => exact Keeps.throw _
        | some data => exact ofExcept_keeps _
      · cases results with
        | cons result rest => exact Keeps.pure _
        | nil => exact Keeps.ite (ih _ _) (Keeps.pure _)

/-- A generator that has not started takes its search before it yields. -/
theorem next_created_attempts (args : SearchArgs) :
    Spec (Starts calls timeout) (next env polls (.created args))
      (fun _ => Grown calls (Takes (args.operation? timeout true)))
      (fun _ => Grown calls (Owns (args.operation? timeout true))) := by
  refine ownSearch_rule fun o controls hop => ?_
  rw [hop]
  refine Discipline.searchedFor_rule (Spec.bind timeout_rule fun s₀ => Spec.assume fun htimeout => ?_)
  rw [htimeout]
  have hsend : Spec (Grown calls (· = [])) (retry env (Method.request env o (args.operation timeout controls)))
      (fun _ => Grown calls (Attempts (args.operation timeout controls) .taken))
      (fun _ => Grown calls (Ended (args.operation timeout controls))) :=
    Spec.conseq (retry_request_attempts o) (fun s hs => hs.of_start .start)
      (fun _ _ hs => hs) fun _ _ hs => hs
  refine Spec.bind hsend fun msgid => ?_
  cases msgid with
  | none => exact Spec.pure fun s hs => hs
  | some msgid =>
    -- once the search is taken, there is nothing but waits for its results
    have hawaits : Awaits env (Grown calls (Attempts (args.operation timeout controls) .taken)) o :=
      grown_awaits (fun _ o msgid before outcome hlog => .asked o msgid before outcome hlog) o
    exact Spec.conseq (searchLoop_keeps hawaits args msgid polls controls []) (fun _ hs => hs)
      (fun _ _ hs => hs) fun _ _ hs => hs.imp fun _ hlog => ⟨_, hlog⟩

theorem next_owns (iter : SearchIter) :
    Spec (Starts calls timeout) (next env polls iter) (fun _ => Grown calls (Owns (iter.operation? timeout)))
      (fun _ => Grown calls (Owns (iter.operation? timeout))) := by
  cases iter with
  | finished => exact Spec.pure fun s hs => hs.owns _
  | suspended args controls o msgid response rest allResults =>
    cases rest with
    | cons result rest => exact Spec.pure fun s hs => hs.owns _
    | nil =>
      refine Spec.ite (fun _ => Discipline.searchedFor_rule ?_) fun _ => Spec.pure fun s hs => hs.owns _
      have hawaits : Awaits env (Grown calls Asks) o :=
        grown_awaits (fun _ o msgid before outcome hlog => hlog.append o msgid before outcome) o
      exact Spec.conseq (searchLoop_keeps hawaits args msgid polls controls allResults)
        (fun s hs => hs.owns none) (fun _ _ hs => hs) fun _ _ hs => hs
  | created args =>
    exact Spec.conseq (next_created_attempts args) (fun _ hs => hs)
      (fun _ _ hs => hs.imp fun _ hlog => hlog.owns) fun _ _ hs => hs

/-- The log is that of the connection, also where the synchronous connection inside
makes the calls. -/
theorem onSyncConnection_grown {R R' : List (Call ω) → Prop} {m : Method ω α}
    (h : Spec (Grown calls R) m (fun _ => Grown calls R') (fun _ => Grown calls R')) :
    Spec (Grown calls R) (onSyncConnection m) (fun _ => Grown calls R') (fun _ => Grown calls R') := by
  refine Spec.zoom fun s hs => ?_
  exact Spec.conseq h (by rintro _ rfl; exact hs) (fun _ _ hs' => hs') fun _ _ hs' => hs'

theorem close_owns (iter : SearchIter) :
    Spec (Starts calls timeout) (close env polls iter) (fun _ => Grown calls (Owns iter.cancellation?))
      (fun _ => Grown calls (Owns iter.cancellation?)) := by
  have hcancel : ∀ msgid, Discipline.lastMsgid iter = some msgid →
      Ends calls (Owns iter.cancellation?) (cancel env polls msgid) := by
    intro msgid hmsgid
    unfold SearchIter.cancellation?
    rw [hmsgid]
    exact cancel_ends msgid none
  refine Discipline.close_rule polls iter (fun s hs => hs.owns _) (fun msgid hmsgid => ?_) fun msgid hmsgid => ?_
  · exact Spec.conseq (hcancel msgid hmsgid) (fun _ hs => hs.1.2) (fun _ _ hs => hs) fun _ _ hs => hs
  · exact Spec.conseq (onSyncConnection_grown (hcancel msgid hmsgid)) (fun _ hs => hs.1.2) (fun _ _ hs => hs)
      fun _ _ hs => hs

/-- The log is as it was. -/
theorem silent_indifferent : Indifferent fun s : State ω => s.calls = calls where
  world := fun _ _ hs => hs
  startTls := fun _ _ hs => hs

theorem connect_silent (fileno : Option Int) : Keeps (fun s : State ω => s.calls = calls) (connect env fileno) := by
  unfold connect
  refine Keeps.bind Keeps.get fun s₀ => Keeps.bind (Keeps.onlyIf (Keeps.throw _)) fun _ => ?_
  refine Keeps.bind Keeps.get fun s₁ => Keeps.bind ?_ fun o => ?_
  · unfold newLdapObject
    exact Keeps.ite (onWorld_rule fun _ hs => hs) (onWorld_rule fun _ hs => hs)
  · exact Keeps.bind (Keeps.modify fun s hs => hs) fun _ =>
      Keeps.bind Keeps.get fun s₂ => Keeps.onlyIf silent_indifferent.synchronous.startTls_keeps

theorem disconnect_silent : Keeps (fun s : State ω => s.calls = calls) (disconnect env) := by
  unfold disconnect
  refine Keeps.bind Keeps.get fun s₀ => ?_
  exact Keeps.bind (Keeps.onlyIf silent_indifferent.synchronous.toCalm.removeReader_keeps) fun _ =>
    Keeps.modify fun s hs => hs

end Method

/-! ## Programs -/

/-- The operation of a call that is one. -/
def Use.operation? (timeout : Int) : Use → Option Operation
  | .bind authzid password controls => some ((Request.simpleBind ⟨authzid, password⟩).with controls)
  | .unbind controls => some (Request.unbindExt.with controls)
  | .execute request controls _ => some (request.with controls)
  | .extended request _ controls => some ((Request.extop request).with controls)
  | .cancel msgid controls => some ((Request.cancel msgid).with controls)
  | .search args => args.operation? timeout false
  | _ => none

/-- The calls of methods that do not return without their operation. -/
def Use.isCommitted : Use → Bool
  | .bind .. | .execute .. | .extended .. | .search _ => true
  | _ => false

/-- Whether a generator has not started. -/
def SearchIter.isCreated : SearchIter → Bool
  | .created _ => true
  | _ => false

namespace Running

/-- The operation of a call, in the program that makes it: resuming and closing a
generator depend on how far it has come. -/
def operation? (r : Running ω) : Use → Option Operation
  | .next i => (r.iter i).operation? r.state.self.timeout
  | .close i => (r.iter i).cancellation?
  | use => use.operation? r.state.self.timeout

/-- The calls that do not return without their operation; resuming a generator is one
where it has not started. -/
def isCommitted (r : Running ω) : Use → Bool
  | .next i => (r.iter i).isCreated
  | use => use.isCommitted

variable (env : Env ω) (polls : Nat)

/-- Whether a call returns. -/
def returns (r : Running ω) : Use → Bool
  | .next i => !raised ((Method.next env polls (r.iter i)).run r.state)
  | .close i => !raised ((Method.close env polls (r.iter i)).run r.state)
  | use => !raised ((use.method env polls).run r.state)

/-- The parts of the log that the calls of a program add, one for each of them. -/
inductive Logs : Running ω → List Use → List (List (Call ω)) → Prop
  | nil (r : Running ω) : Logs r [] []
  | cons {r : Running ω} {use : Use} {uses : List Use} {log : List (Call ω)} {logs : List (List (Call ω))} :
      (r.step env polls use).state.calls = r.state.calls ++ log → Owns (r.operation? use) log →
      Logs (r.step env polls use) uses logs → Logs r (use :: uses) (log :: logs)

/-- How many calls of a program have an operation as their own. -/
def timesCalled (op : Operation) : Running ω → List Use → Nat
  | _, [] => 0
  | r, use :: uses =>
    (if r.operation? use = some op then 1 else 0) + timesCalled op (r.step env polls use) uses

end Running

section Programs

variable (env : Env ω) (polls : Nat) {calls : List (Call ω)}

theorem Running.resume_state (r : Running ω) (i : Nat)
    (x : EStateM.Result PyExc (State ω) (Option Result × SearchIter)) : (r.resume i x).state = final x := by
  cases x <;> rfl

open Method in
theorem Use.committed_attempts {use : Use} (huse : use.isCommitted = true) (timeout : Int) :
    Spec (Starts calls timeout) (use.method env polls)
      (fun _ => Grown calls (Takes (use.operation? timeout)))
      (fun _ => Grown calls (Owns (use.operation? timeout))) := by
  cases use with
  | bind authzid password controls =>
    exact Spec.conseq (Spec.map (bind_attempts authzid password controls) fun _ _ hs => hs)
      (fun _ hs => hs.2) (fun _ _ hs => hs) fun _ _ hs => hs
  | execute request controls dn =>
    exact Spec.conseq (Spec.map (executeResult_attempts request controls dn) fun _ _ hs => hs)
      (fun _ hs => hs.2) (fun _ _ hs => hs) fun _ _ hs => hs
  | extended request responseClass controls =>
    exact Spec.conseq (Spec.map (extended_attempts request responseClass controls) fun _ _ hs => hs)
      (fun _ hs => hs.2) (fun _ _ hs => hs) fun _ _ hs => hs
  | search args => exact Spec.map (search_attempts args) fun _ _ hs => hs
  | _ => cases huse

open Method in
/-- Every call adds the attempts at its own operation and nothing else. -/
theorem Running.step_owns (r : Running ω) (use : Use) :
    Grown r.state.calls (Owns (r.operation? use)) (r.step env polls use).state := by
  have hstart : Starts r.state.calls r.state.self.timeout r.state := starts_self r.state
  have hsilent : ∀ {s : State ω}, s.calls = r.state.calls → Grown r.state.calls (Owns (r.operation? use)) s :=
    fun hs => ⟨[], by rw [hs, List.append_nil], owns_nil _⟩
  have hcommitted : use.isCommitted = true →
      Grown r.state.calls (Owns (use.operation? r.state.self.timeout))
        (final ((use.method env polls).run r.state)) := fun huse =>
    Spec.final (Spec.conseq (use.committed_attempts env polls huse _) (fun _ hs => hs)
      (fun _ _ hs => hs.imp fun _ hlog => hlog.owns) fun _ _ hs => hs) hstart
  cases use with
  | connect fileno => exact hsilent ((connect_silent fileno).final rfl)
  | disconnect => exact hsilent (disconnect_silent.final rfl)
  | reconnect force => exact hsilent ((Use.synchronous_keeps silent_indifferent.synchronous rfl).final rfl)
  | startTls => exact hsilent ((Use.synchronous_keeps silent_indifferent.synchronous rfl).final rfl)
  | saslBind mechanism =>
    exact hsilent ((Use.synchronous_keeps silent_indifferent.synchronous rfl).final rfl)
  | whoami controls => exact hsilent ((Use.synchronous_keeps silent_indifferent.synchronous rfl).final rfl)
  | setOption option value append =>
    exact hsilent ((Use.option_keeps silent_indifferent.synchronous.toCalm (fun _ _ hs => hs) rfl).final rfl)
  | getOption option =>
    exact hsilent ((Use.option_keeps silent_indifferent.synchronous.toCalm (fun _ _ hs => hs) rfl).final rfl)
  | searchIter args => exact hsilent rfl
  | bind authzid password controls => exact hcommitted rfl
  | execute request controls dn => exact hcommitted rfl
  | extended request responseClass controls => exact hcommitted rfl
  | search args => exact hcommitted rfl
  | unbind controls => exact (unbind_ends controls).discard.final hstart.2
  | cancel msgid controls => exact (cancel_ends msgid controls).discard.final hstart.2
  | next i =>
    show Grown r.state.calls _ (r.resume i _).state
    rw [r.resume_state]
    exact (next_owns (r.iter i)).final hstart
  | close i => exact (close_owns (r.iter i)).final hstart

/-- So does a whole program, call by call. -/
theorem Running.after_logs (uses : List Use) (r : Running ω) :
    ∃ logs, Logs env polls r uses logs ∧
      (after (Running.step env polls) r uses).state.calls = r.state.calls ++ logs.flatten := by
  induction uses generalizing r with
  | nil => exact ⟨[], .nil r, (List.append_nil _).symm⟩
  | cons use uses ih =>
    obtain ⟨log, hlog, howns⟩ := r.step_owns env polls use
    obtain ⟨logs, hlogs, hrest⟩ := ih (r.step env polls use)
    refine ⟨log :: logs, .cons hlog howns hlogs, ?_⟩
    show (after (Running.step env polls) (r.step env polls use) uses).state.calls = _
    rw [hrest, hlog, List.flatten_cons, List.append_assoc]

/-- An operation is taken by the calls whose own it is, and once by each at most. -/
theorem Owns.timesTaken {own : Option Operation} {log : List (Call ω)} (h : Owns own log) (op : Operation) :
    timesTaken op log ≤ if own = some op then 1 else 0 := by
  cases own with
  | none =>
    rw [Asks.timesTaken h op]
    exact Nat.zero_le _
  | some op' =>
    obtain ⟨p, hlog⟩ := h
    rw [hlog.timesTaken op]
    by_cases heq : op' = op
    · rw [if_pos (congrArg some heq)]
      split <;> omega
    · rw [if_neg fun h => heq h.2]
      exact Nat.zero_le _

theorem Running.Logs.timesTaken {r : Running ω} {uses : List Use} {logs : List (List (Call ω))}
    (h : Logs env polls r uses logs) (op : Operation) :
    timesTaken op logs.flatten ≤ r.timesCalled env polls op uses := by
  induction h with
  | nil r => exact Nat.le_refl _
  | @cons r use uses log logs _ howns _ ih =>
    have hhead := howns.timesTaken op
    rw [List.flatten_cons, timesTaken_append, Running.timesCalled]
    omega

open Method in
/-- A call that does not return without its operation has had it taken when it returns. -/
theorem Running.committed_takes {r : Running ω} {use : Use} (huse : r.isCommitted use = true)
    (hreturns : r.returns env polls use = true) :
    Grown r.state.calls (Takes (r.operation? use)) (r.step env polls use).state := by
  have hstart : Starts r.state.calls r.state.self.timeout r.state := starts_self r.state
  have hcommitted : use.isCommitted = true → raised ((use.method env polls).run r.state) = false →
      Grown r.state.calls (Takes (use.operation? r.state.self.timeout))
        (final ((use.method env polls).run r.state)) := fun huse hrun =>
    (use.committed_attempts env polls huse _).returned hstart hrun
  cases use with
  | bind authzid password controls => exact hcommitted rfl (by simpa [returns] using hreturns)
  | execute request controls dn => exact hcommitted rfl (by simpa [returns] using hreturns)
  | extended request responseClass controls => exact hcommitted rfl (by simpa [returns] using hreturns)
  | search args => exact hcommitted rfl (by simpa [returns] using hreturns)
  | next i =>
    have hrun : raised ((Method.next env polls (r.iter i)).run r.state) = false := by
      simpa [returns] using hreturns
    show Grown r.state.calls (Takes ((r.iter i).operation? r.state.self.timeout)) (r.resume i _).state
    rw [r.resume_state]
    cases hiter : r.iter i with
    | created args =>
      rw [hiter] at hrun
      exact (next_created_attempts args).returned hstart hrun
    | _ =>
      rw [isCommitted, hiter] at huse
      cases huse
  | _ => cases huse

end Programs

/-- An outside that loses the connection as often as its state says. -/
def losing : Env Nat :=
  { Env.idle Nat with
    request := fun _ _ failures =>
      match failures with
      | 0 => .ok (some 1) 0
      | n + 1 => .error (.ldap { cls := .serverDown }) n
    result4 := fun _ _ _ _ =>
      pure { type := some .delete, data := some [], msgid := some 1, ctrls := some [] } }

/-- Deleting an entry. -/
def oneDeletion : Operation := { request := .deleteExt (py "cn=foo") }

/-- The search of a generator over the whole directory. -/
def oneSearch : Operation := ({} : SearchArgs).operation (-1) none

end FreeIam.Ldap
