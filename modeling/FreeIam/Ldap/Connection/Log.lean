import FreeIam.Ldap.Connection.Rules

/-!
# What the log says

Invariants that speak of the log of calls. `Admits` says which calls such an
invariant survives, and an operation keeps what admits its own request and the
results it asks for.
-/

namespace FreeIam.Ldap

open FreeIam.Py FreeIam.Errors FreeIam.Exec

variable {ω α : Type}

/-! ## Logs that grow -/

/-- A property of logs that further calls keep. -/
def Growing (R : List (Call ω) → Prop) : Prop := ∀ calls call, R calls → R (calls ++ [call])

/-- What the log says, with the object and the attempts of the connection. -/
structure Logged (R : List (Call ω) → Prop) (o : Obj) (n : Nat) (s : State ω) : Prop where
  log : R s.calls
  conn : s.self.conn = some o
  attempts : s.self.maxConnectionAttempts = n

namespace Method

/-- An invariant that only the log and the slots besides StartTLS decide. -/
structure Indifferent (J : State ω → Prop) : Prop where
  world : ∀ s w, J s → J { s with world := w }
  startTls : ∀ s startTls, J s → J { s with self := { s.self with startTls := startTls } }

/-- An invariant that the requests of an operation and the results that are asked
for keep. -/
structure Admits (J : State ω → Prop) (op : Operation) : Prop extends Indifferent J where
  result : ∀ s o msgid before outcome, J s →
    J { s with calls := s.calls ++ [.result o msgid before outcome] }
  request : ∀ s o outcome after, J s →
    J { s with calls := s.calls ++ [.request o op outcome after] }

/-- The response is one that `result4` returned since the log had a length. -/
def Heard (start : Nat) (r : Response) (calls : List (Call ω)) : Prop :=
  ∃ o msgid before, .result o msgid before (.ok r) ∈ calls.drop start

variable {env : Env ω} {J : State ω → Prop} {R : List (Call ω) → Prop} {o : Obj} {n : Nat}

theorem Indifferent.synchronous (h : Indifferent J) : Synchronous env J where
  startTls := h.startTls
  loop := onWorld_rule fun s hs => h.world s _ hs
  setOption := fun _ _ _ => onWorld_rule fun s hs => h.world s _ hs.1
  getOption := fun _ _ => onWorld_rule fun s hs => h.world s _ hs.1
  reconnect := fun _ _ _ _ => onWorld_rule fun s hs => h.world s _ hs.1
  simpleBindS := fun _ _ => onWorld_rule fun s hs => h.world s _ hs.1
  saslInteractiveBindS := fun _ _ => onWorld_rule fun s hs => h.world s _ hs.1
  whoamiS := fun _ _ => onWorld_rule fun s hs => h.world s _ hs.1
  startTlsS := fun _ => onWorld_rule fun s hs => h.world s _ hs.1

theorem logged_indifferent : Indifferent (Logged R o n) where
  world := fun _ _ hs => ⟨hs.log, hs.conn, hs.attempts⟩
  startTls := fun _ _ hs => ⟨hs.log, hs.conn, hs.attempts⟩

theorem logged_synchronous : Synchronous env (Logged R o n) := logged_indifferent.synchronous

/-- Every operation keeps what further calls keep. -/
theorem logged_discipline (hR : Growing R) :
    Discipline env (fun _ => Logged R o n) (fun _ => Logged R o n) where
  calm := fun _ => logged_synchronous.toCalm
  reconnecting := fun _ => logged_synchronous.toReconnecting
  keep := fun _ _ hs => hs
  attempts := ⟨n, fun _ _ hs => hs.attempts⟩
  object := fun _ _ _ hs _ => hs
  release := fun _ _ hs => hs
  answered := fun _ _ _ hs => hs
  readable := fun _ _ _ => onWorld_rule fun _ hs => ⟨hs.log, hs.conn, hs.attempts⟩
  request := fun o' op => by
    refine request_rule (fun s msgid w hs _ => ?_) fun s e w hs _ => ?_
    · have hlog : Logged R o n { s with
          world := w, calls := s.calls ++ [.request o' op (.ok msgid) w] } :=
        ⟨hR _ _ hs.log, hs.conn, hs.attempts⟩
      cases msgid with
      | none => exact hlog
      | some number => exact hlog
    · have hlog : Logged R o n { s with
          world := w, calls := s.calls ++ [.request o' op (.error e) w] } :=
        ⟨hR _ _ hs.log, hs.conn, hs.attempts⟩
      exact ⟨hlog, fun _ _ => hlog⟩
  result := fun o' msgid all timeout =>
    getResult_rule (fun s r w hs _ => ⟨hR _ _ hs.log, hs.conn, hs.attempts⟩)
      fun s e w hs _ =>
        have hlog := ⟨hR _ _ hs.log, hs.conn, hs.attempts⟩
        ⟨hlog, fun _ _ => hlog⟩

/-! ## Operations that leave an invariant alone -/

/-- `J` is kept by the waits for results on an object, and by the reconnects between them. -/
structure Awaits (env : Env ω) (J : State ω → Prop) (o : Obj) : Prop where
  result : ∀ msgid all timeout, Keeps J (getResult env o msgid all timeout)
  readable : ∀ timeout, Keeps J (onWorld (env.readable o timeout))
  reconnect : Keeps J (reconnect env true)

namespace Awaits

theorem poll_keeps (h : Awaits env J o) (msgid : MsgId) (all : Bool) (polls : Nat) :
    Keeps J (poll env o msgid all polls) := by
  have hresult : ∀ timeout, Spec J (getResult env o msgid all timeout) (Waited J fun _ => J)
      (fun _ => J) := by
    intro timeout
    exact Spec.conseq (h.result msgid all timeout) (fun _ hs => hs)
      (fun _ _ hs => ⟨fun _ => hs, fun _ => hs⟩) fun _ _ hs => hs
  have hsync := awaitSync_rule hresult h.reconnect (fun _ _ _ _ _ _ hs => hs) fun _ hs => hs
  have hasync := awaitAsync_rule (hresult 0) h.readable (fun _ _ hs => hs) fun _ hs => hs
  refine Spec.conseq (poll_rule hsync hasync (fun _ hs => hs) (fun _ _ _ hs => hs) polls)
    (fun _ hs => hs) (fun r s hs => ?_) fun _ _ hs => hs
  cases r with
  | none => exact hs
  | some r => exact hs.2

/-- What holds once the request is sent, or was not, holds after the operation. -/
theorem execute_rule {P : State ω → Prop} {op : Operation} (h : Awaits env J o)
    (hsend : Spec P (retry env (Method.request env o op)) (fun _ => J) (fun _ => J)) (polls : Nat) :
    Spec P (execute env polls o op) (fun _ => J) (fun _ => J) := by
  refine Method.execute_rule (S := fun _ => J) (R := fun _ _ => J) ?_ (fun msgid => ?_) (fun msgid r => ?_)
    fun _ _ _ hs => hs
  · refine Spec.conseq hsend (fun _ hs => hs) (fun msgid s hs => ?_) fun _ _ hs => hs
    cases msgid <;> exact hs
  · refine Spec.conseq (h.poll_keeps msgid true polls) (fun _ hs => hs) (fun r s hs => ?_) fun _ _ hs => hs
    cases r <;> exact hs
  · refine Spec.conseq (h.poll_keeps msgid true polls) (fun _ hs => hs) (fun r s hs => ?_) fun _ _ hs => hs
    cases r <;> exact hs

end Awaits

/-- `J` is kept by the request of an operation, too. -/
structure Abides (env : Env ω) (J : State ω → Prop) (o : Obj) (op : Operation) : Prop
    extends Awaits env J o where
  request : Keeps J (Method.request env o op)

namespace Abides

variable {op : Operation}

theorem execute_keeps (h : Abides env J o op) (polls : Nat) : Keeps J (execute env polls o op) :=
  h.execute_rule (retry_rule h.request h.reconnect (fun _ _ _ _ _ _ hs => hs) fun _ hs => hs) polls

theorem extended_keeps (h : ∀ o op, Abides env J o op) (polls : Nat) (request : ExtendedRequest)
    (cls : Option ExtendedResponse) : Keeps J (extended env polls request cls) := by
  refine Keeps.bind conn_keeps fun o => Keeps.bind ((h o _).execute_keeps polls) fun response => ?_
  exact Keeps.bind (wrap_keeps (ofExcept_keeps _)) fun _ => ofExcept_keeps _

end Abides

/-! ## One operation -/

section

variable {op : Operation} {polls start : Nat}

theorem Heard.append {r : Response} {calls : List (Call ω)} (h : Heard start r calls)
    (call : Call ω) : Heard start r (calls ++ [call]) := by
  obtain ⟨o, msgid, before, hmem⟩ := h
  refine ⟨o, msgid, before, ?_⟩
  rw [List.drop_append]
  exact List.mem_append_left _ hmem

/-- A response that has just been returned. -/
theorem heard_last {r : Response} {calls : List (Call ω)} (hstart : start ≤ calls.length) (o : Obj)
    (msgid : MsgId) (before : ω) : Heard start r (calls ++ [.result o msgid before (.ok r)]) := by
  refine ⟨o, msgid, before, ?_⟩
  rw [List.drop_append_of_le_length hstart]
  exact List.mem_append_right _ (List.mem_singleton_self _)

/-- The request is repeated until it is sent. -/
theorem Admits.retry_request (h : Admits J op) (o : Obj) :
    Keeps J (retry env (Method.request env o op)) := by
  have hreconnect : Keeps J (reconnect env true) :=
    (h.toIndifferent.synchronous).toReconnecting.reconnect_keeps true
  have hrequest : Keeps J (Method.request env o op) := by
    refine request_rule (fun s msgid w hs _ => ?_) fun s e w hs _ => ?_
    · exact h.request _ o _ w (h.world s w hs)
    · exact h.request _ o _ w (h.world s w hs)
  exact retry_rule hrequest hreconnect (fun _ _ _ _ _ _ hs => hs) fun _ hs => hs

/-- What polling yields was returned by `result4`. -/
theorem Admits.poll_heard (h : Admits J op) (hstart : ∀ s, J s → start ≤ s.calls.length) (o : Obj)
    (msgid : MsgId) (all : Bool) :
    Spec J (poll env o msgid all polls)
      (fun r s => J s ∧ ∀ r', r = some r' → Heard start r' s.calls) (fun _ => J) := by
  have hreconnect : Keeps J (reconnect env true) :=
    (h.toIndifferent.synchronous).toReconnecting.reconnect_keeps true
  have hresult : ∀ timeout, Spec J (getResult env o msgid all timeout)
      (Waited J fun r s => J s ∧ Heard start r s.calls) (fun _ => J) := by
    intro timeout
    refine getResult_rule (fun s r w hs _ => ?_) fun s e w hs _ => ?_
    · have hlog := h.result _ o msgid s.world (.ok r) (h.world s w hs)
      exact ⟨fun _ => hlog, fun _ => ⟨hlog, heard_last (hstart s hs) o msgid s.world⟩⟩
    · exact h.result _ o msgid s.world (.error e) (h.world s w hs)
  have hsync := awaitSync_rule hresult hreconnect (fun _ _ _ _ _ _ hs => hs) fun _ hs => hs
  have hasync := awaitAsync_rule (hresult 0)
    (fun _ => onWorld_rule fun s hs => h.world s _ hs) (fun _ _ hs => hs) fun _ hs => hs
  refine Spec.conseq (poll_rule hsync hasync (fun _ hs => hs) (fun _ _ _ hs => hs) polls)
    (fun _ hs => hs) (fun r s hs => ?_) fun _ _ hs => hs
  cases r with
  | none => exact ⟨hs, fun _ hr => by cases hr⟩
  | some r =>
    obtain ⟨-, hJ, hheard⟩ := hs
    exact ⟨hJ, fun r' hr => by cases hr; exact hheard⟩

/-- An operation returns a response of `result4`, or that of an operation without one. -/
theorem Admits.execute_heard (h : Admits J op) (hstart : ∀ s, J s → start ≤ s.calls.length) (o : Obj) :
    Spec J (execute env polls o op)
      (fun r s => J s ∧ (Heard start r s.calls ∨ r.ctrls = some [])) (fun _ => J) := by
  refine execute_rule (S := fun _ => J) (R := fun _ r s => J s ∧ Heard start r s.calls) ?_
    (fun msgid => ?_) (fun msgid r => ?_) fun _ r s hs => ⟨hs.1, .inl hs.2⟩
  · refine Spec.conseq (h.retry_request o) (fun _ hs => hs) (fun msgid s hs => ?_) fun _ _ hs => hs
    cases msgid with
    | none => exact ⟨hs, .inr rfl⟩
    | some msgid => exact hs
  · refine Spec.conseq (h.poll_heard hstart o msgid true) (fun _ hs => hs) (fun r s hs => ?_)
      fun _ _ hs => hs
    cases r with
    | none => exact hs.1
    | some r => exact ⟨hs.1, hs.2 r rfl⟩
  · -- the loop polls once more, which adds to the log only
    have hmore : Admits (fun s => J s ∧ Heard start r s.calls) op :=
      { world := fun s w hs => ⟨h.world s w hs.1, hs.2⟩
        startTls := fun s startTls hs => ⟨h.startTls s startTls hs.1, hs.2⟩
        result := fun s o msgid before outcome hs =>
          ⟨h.result s o msgid before outcome hs.1, Heard.append hs.2 _⟩
        request := fun s o outcome after hs =>
          ⟨h.request s o outcome after hs.1, Heard.append hs.2 _⟩ }
    refine Spec.conseq (hmore.poll_heard (fun s hs => hstart s hs.1) o msgid true) (fun _ hs => hs)
      (fun r' s hs => ?_) fun _ _ hs => hs.1
    cases r' with
    | none => exact ⟨hs.1.1, .inl hs.1.2⟩
    | some r' => exact hs.1.1

/-- The calls since the log had a length send nothing but operations with `ok`. -/
def Sends (start : Nat) (ok : Operation → Prop) (calls : List (Call ω)) : Prop :=
  ∀ o op outcome w, .request o op outcome w ∈ calls.drop start → ok op

theorem Sends.append {ok : Operation → Prop} {calls : List (Call ω)}
    (h : Sends start ok calls) {call : Call ω}
    (hcall : ∀ o op outcome w, call = .request o op outcome w → ok op) :
    Sends start ok (calls ++ [call]) := by
  intro o op outcome w hmem
  rw [List.drop_append] at hmem
  rcases List.mem_append.mp hmem with hmem | hmem
  · exact h o op outcome w hmem
  · exact hcall o op outcome w (List.mem_singleton.mp (List.mem_of_mem_drop hmem)).symm

/-- Everything that one operation sends is that operation, however often it is
repeated. -/
theorem execute_sends {ok : Operation → Prop} (polls : Nat) (hop : ok op)
    (o' : Obj) : Keeps (Logged (Sends start ok) o n) (execute env polls o' op) := by
  have hadmits : Admits (Logged (Sends (ω := ω) start ok) o n) op :=
    { logged_indifferent with
      result := fun s o' msgid before outcome hs =>
        ⟨hs.log.append (by intros; contradiction), hs.conn, hs.attempts⟩
      request := fun s o' outcome after hs =>
        ⟨hs.log.append (by rintro _ _ _ _ ⟨⟩; exact hop), hs.conn, hs.attempts⟩ }
  exact Spec.conseq (hadmits.execute_heard (fun s _ => Nat.zero_le _) o') (fun _ hs => hs)
    (fun _ _ hs => hs.1) fun _ _ hs => hs

end

end Method

end FreeIam.Ldap
