import FreeIam.Ldap.Connection.Delivery

/-!
# Transactions

`transaction` is a context manager around a body: it starts a transaction, and
ends it with a commit or an abort, whichever way the body ended. What it sends is
read off the log of calls.
-/

namespace FreeIam.Ldap

open FreeIam.Py FreeIam.Errors FreeIam.Exec

namespace Method

variable {ω α : Type} (env : Env ω)

/-! ## The context manager -/

/-- `txn_id`: what the start of a transaction has decoded. -/
def txnId (result : Result) : Option Bytes :=
  match result.extendedValue with
  | some (.bytes value) => some value
  | _ => none

/-- The control of the transaction, set for all operations on the connection. -/
def setTransaction (txnId : Option Bytes) : Method ω Unit :=
  match Controls.setServer none (transactionControl txnId) with
  | none => throw .assertionError
  | some controls => setControls env controls

/-- `transaction` up to its `yield`. -/
def enterTransaction (polls : Nat) (setControls : Bool) : Method ω (Option Bytes) := do
  let result ← extended env polls .startTransactionRequest (some (startTransactionResponse env))
  onlyIf setControls (setTransaction env (txnId result))
  pure (txnId result)

/-- `self.set_option(Option.ServerControls, [])` -/
def resetControls : Method ω Unit := setOption env .serverControls (.controls [])

/-- `self.extended(transaction_commit(txn_id, commit=…), transaction_commit.response)` -/
def endTransaction (polls : Nat) (txnId : Option Bytes) (commit : Bool) : Method ω Result :=
  extended env polls (.endTransactionRequest commit txnId) (some endTransactionResponse)

/-- `transaction` after a body that has raised `e`. -/
def abortTransaction (polls : Nat) (txnId : Option Bytes) (e : PyExc) : Method ω Unit := do
  resetControls env
  let _ ← endTransaction env polls txnId false
  throw e

/-- `transaction` after a body that has ended: an `OperationsError` of the commit
is only logged. -/
def commitTransaction (polls : Nat) (txnId : Option Bytes) : Method ω Unit := do
  resetControls env
  tryCatch
    (do
      let _ ← endTransaction env polls txnId true
      pure ())
    fun e => if e.is .operationsError then pure () else throw e

/-- `Connection.transaction` around a body, which is given the transaction ID. -/
def transaction (polls : Nat) (setControls : Bool) (body : Option Bytes → Method ω Unit) :
    Method ω Unit := do
  let txnId ← enterTransaction env polls setControls
  match ← observing (body txnId) with
  | .error e => abortTransaction env polls txnId e
  | .ok () => commitTransaction env polls txnId

/-- An extended operation up to its request: it is handed to python-ldap. -/
def sendExtended (request : ExtendedRequest) : Method ω (Option MsgId) := do
  let o ← conn
  retry env (Method.request env o ((Request.extop request).with none))

/-- Ending a transaction up to the request. -/
def sendEndTransaction (txnId : Option Bytes) (commit : Bool) : Method ω (Option MsgId) := do
  resetControls env
  sendExtended env (.endTransactionRequest commit txnId)

end Method

/-! ## What the log says -/

section Log

variable {ω : Type}

/-- A call that has sent a request of this kind. -/
def Call.sends (kind : Request → Bool) : Call ω → Bool
  | .request _ op (.ok (some _)) _ => kind op.request
  | _ => false

/-- How many requests of a kind were sent. -/
def sent (kind : Request → Bool) (calls : List (Call ω)) : Nat := calls.countP (Call.sends kind)

/-- The requests that end a transaction, by a commit or by an abort. -/
def endsWith (commit : Bool) : Request → Bool
  | .extop (.endTransactionRequest c _) => c = commit
  | _ => false

/-- A call that hands no other request to python-ldap. -/
def Call.handsOnly (request : Request) : Call ω → Prop
  | .request _ op _ _ => op.request = request
  | .result _ _ _ _ => True

/-- The calls since `start`: they hand over one request only, and send it `n` times. -/
def Sending (request : Request) (start : List (Call ω)) (n : Nat) (calls : List (Call ω)) : Prop :=
  ∃ log, calls = start ++ log ∧ (∀ c ∈ log, c.handsOnly request) ∧ sent (· = request) log = n

/-- A request sent since `start` has its response in the log: `result4` has
returned one for its message ID. -/
def Answered (request : Request) (start calls : List (Call ω)) : Prop :=
  ∃ o op msgid w w' r, start.length ≤ msgid.call ∧
    calls[msgid.call]? = some (.request o op (.ok (some msgid.number)) w) ∧ op.request = request ∧
    .result o msgid w' (.ok r) ∈ calls ∧ r.type ≠ none

/-- The request with this message ID has been sent since `start`, and no other. -/
def Pending (o : Obj) (op : Operation) (start : List (Call ω)) (msgid : MsgId)
    (calls : List (Call ω)) : Prop :=
  Sending op.request start 1 calls ∧ start.length ≤ msgid.call ∧
    ∃ w, calls[msgid.call]? = some (.request o op (.ok (some msgid.number)) w)

theorem Sending.start (request : Request) (start : List (Call ω)) : Sending request start 0 start :=
  ⟨[], by simp, by simp, rfl⟩

/-- One more call that hands over nothing else. -/
theorem Sending.append {request : Request} {start calls : List (Call ω)} {n : Nat} {c : Call ω}
    (h : Sending request start n calls) (hc : c.handsOnly request) :
    Sending request start (n + if c.sends (· = request) then 1 else 0) (calls ++ [c]) := by
  obtain ⟨log, rfl, honly, hn⟩ := h
  refine ⟨log ++ [c], by simp, ?_, ?_⟩
  · intro c' hc'
    rcases List.mem_append.mp hc' with hlog | hlast
    · exact honly c' hlog
    · rw [List.mem_singleton.mp hlast]
      exact hc
  · unfold sent at hn ⊢
    rw [List.countP_append, List.countP_singleton, hn]

/-- A call that hands over one request only sends that one. -/
theorem Call.handsOnly.sends {request : Request} {c : Call ω} (h : c.handsOnly request)
    (kind : Request → Bool) : c.sends kind = (c.sends (· = request) && kind request) := by
  cases c with
  | result o msgid before outcome => rfl
  | request o op outcome after =>
    rcases outcome with e | _ | number
    · rfl
    · rfl
    · have hop : op.request = request := h
      simp [Call.sends, hop]

/-- Of another kind of request, none is sent; of its kind, as many. -/
theorem sent_of_handsOnly {request : Request} {log : List (Call ω)} (kind : Request → Bool)
    (h : ∀ c ∈ log, c.handsOnly request) :
    sent kind log = if kind request then sent (· = request) log else 0 := by
  unfold sent
  by_cases hkind : kind request = true
  · rw [if_pos hkind]
    refine List.countP_congr fun c hc => ?_
    rw [(h c hc).sends kind, hkind, Bool.and_true]
  · rw [if_neg hkind, List.countP_eq_zero]
    intro c hc
    rw [(h c hc).sends kind, Bool.and_eq_true]
    exact fun hsends => hkind hsends.2

/-- A call for a result leaves a request pending. -/
theorem Pending.append {o : Obj} {op : Operation} {start calls : List (Call ω)} {msgid : MsgId}
    (h : Pending o op start msgid calls) (before : ω) (outcome : Except PyExc Response) :
    Pending o op start msgid (calls ++ [.result o msgid before outcome]) := by
  obtain ⟨hsending, hstart, w, hcall⟩ := h
  have hlt : msgid.call < calls.length := (List.getElem?_eq_some_iff.mp hcall).1
  refine ⟨hsending.append trivial, hstart, w, ?_⟩
  rw [List.getElem?_append_left hlt]
  exact hcall

theorem Answered.append {request : Request} {start calls : List (Call ω)}
    (h : Answered request start calls) (c : Call ω) : Answered request start (calls ++ [c]) := by
  obtain ⟨o, op, msgid, w, w', r, hstart, hcall, hop, hresult, htype⟩ := h
  have hlt : msgid.call < calls.length := (List.getElem?_eq_some_iff.mp hcall).1
  refine ⟨o, op, msgid, w, w', r, hstart, ?_, hop, List.mem_append_left _ hresult, htype⟩
  rw [List.getElem?_append_left hlt]
  exact hcall

/-- A response to a pending request is its answer. -/
theorem Pending.answered {o : Obj} {op : Operation} {start calls : List (Call ω)} {msgid : MsgId}
    (h : Pending o op start msgid calls) (before : ω) {r : Response} (htype : r.type ≠ none) :
    Answered op.request start (calls ++ [.result o msgid before (.ok r)]) := by
  obtain ⟨-, hstart, w, hcall⟩ := h.append before (.ok r)
  exact ⟨o, op, msgid, w, before, r, hstart, hcall, rfl, by simp, htype⟩

end Log

namespace Method

variable {ω α : Type} {env : Env ω}

/-! ## What the methods write to the log -/

/-- The log is written by the requests and the waits for results only. -/
theorem onWorld_calls {K : List (Call ω) → Prop} (m : EStateM PyExc ω α) :
    Keeps (fun s => K s.calls) (onWorld m) :=
  Keeps.zoom fun _ hs => hs

/-- Nothing that a reconnect calls writes to the log. -/
theorem reconnecting_calls (K : List (Call ω) → Prop) : Reconnecting env (fun s => K s.calls) where
  startTls := fun _ _ hs => hs
  loop := onWorld_calls _
  setOption := fun _ _ _ => Spec.conseq (onWorld_calls _) (fun _ hs => hs.1) (fun _ _ hs => hs) fun _ _ hs => hs
  getOption := fun _ _ => Spec.conseq (onWorld_calls _) (fun _ hs => hs.1) (fun _ _ hs => hs) fun _ _ hs => hs
  reconnect := fun _ _ _ _ => Spec.conseq (onWorld_calls _) (fun _ hs => hs.1) (fun _ _ hs => hs) fun _ _ hs => hs
  simpleBindS := fun _ _ => Spec.conseq (onWorld_calls _) (fun _ hs => hs.1) (fun _ _ hs => hs) fun _ _ hs => hs

/-- python-ldap returns no message ID only for the requests that have no response. -/
def ReturnsMessageId (env : Env ω) : Prop :=
  ∀ o op w w', (env.request o op).run w = .ok none w' →
    op.request = .unbindExt ∨ ∃ msgid, op.request = .abandonExt msgid

section Extended

variable {o : Obj} {op : Operation} {start : List (Call ω)}

/-- A request that has a response: not sent, or pending with its message ID. -/
theorem retry_request_sending (henv : ReturnsMessageId env) {request : ExtendedRequest}
    (hop : op.request = .extop request) :
    Spec (fun s => Sending op.request start 0 s.calls) (retry env (Method.request env o op))
      (fun msgid s => ∃ m, msgid = some m ∧ Pending o op start m s.calls)
      (fun _ s => Sending op.request start 0 s.calls) := by
  refine retry_rule (L := fun s => Sending op.request start 0 s.calls) ?_
    ((reconnecting_calls _).reconnect_keeps true) (fun _ _ _ _ _ _ hs => hs) fun _ hs => hs
  refine request_rule (fun s msgid w hs hrun => ?_) fun s e w hs _ => ?_
  · cases msgid with
    | none =>
      rcases henv o op _ _ hrun with hunbind | ⟨msgid, habandon⟩
      · rw [hop] at hunbind
        cases hunbind
      · rw [hop] at habandon
        cases habandon
    | some number =>
      refine ⟨⟨number, s.calls.length⟩, rfl, ?_, ?_, w, ?_⟩
      · have happend := hs.append (c := .request o op (.ok (some number)) w) rfl
        simpa [Call.sends] using happend
      · obtain ⟨log, hlog, -⟩ := hs
        simp [hlog]
      · simp
  · have happend := hs.append (c := .request o op (.error e) w) rfl
    simpa [Call.sends] using happend

/-- What polling writes to the log are calls for results: it keeps `K` if these
do, and a response that comes establishes `A`. -/
theorem poll_calls {msgid : MsgId} {K A : List (Call ω) → Prop}
    (hkeep : ∀ calls before outcome, K calls → K (calls ++ [.result o msgid before outcome]))
    (hresponse : ∀ calls before (r : Response), K calls → r.type ≠ none →
      A (calls ++ [.result o msgid before (.ok r)])) (polls : Nat) :
    Spec (fun s => K s.calls) (poll env o msgid true polls)
      (fun r s => match r with
        | none => K s.calls
        | some _ => K s.calls ∧ A s.calls)
      (fun _ s => K s.calls) := by
  have hresult : ∀ timeout, Spec (fun s => K s.calls) (getResult env o msgid true timeout)
      (Waited (fun s => K s.calls) fun _ s => K s.calls ∧ A s.calls) (fun _ s => K s.calls) := by
    intro timeout
    refine getResult_rule (fun s r w hs _ => ?_) fun s e w hs _ => hkeep _ _ _ hs
    exact ⟨fun _ => hkeep _ _ _ hs, fun htype => ⟨hkeep _ _ _ hs, hresponse _ _ r hs htype⟩⟩
  have hreconnect : Keeps (fun s => K s.calls) (reconnect env) :=
    (reconnecting_calls K).reconnect_keeps true
  refine Spec.conseq
    (poll_rule (N := fun s => K s.calls)
      (awaitSync_rule hresult hreconnect (fun _ _ _ _ _ _ hs => hs) fun _ hs => hs)
      (awaitAsync_rule (hresult 0) (fun _ => onWorld_calls _) (fun _ _ hs => hs) fun _ hs => hs)
      (fun _ hs => hs) (fun _ _ _ hs => hs) polls)
    (fun _ hs => hs) (fun r s hs => ?_) fun _ _ hs => hs
  cases r with
  | none => exact hs
  | some r => exact hs.2

/-- An operation whose request is sent by its first part: it returns with the
answer, and fails with the request sent once. -/
theorem execute_sending {P : State ω → Prop} {E : PyExc → State ω → Prop}
    (hsend : Spec P (retry env (Method.request env o op))
      (fun msgid s => ∃ m, msgid = some m ∧ Pending o op start m s.calls) E)
    (hsent : ∀ e s, Sending op.request start 1 s.calls → E e s) (polls : Nat) :
    Spec P (execute env polls o op)
      (fun _ s => Sending op.request start 1 s.calls ∧ Answered op.request start s.calls) E := by
  refine execute_rule (S := fun msgid s => Pending o op start msgid s.calls)
    (R := fun msgid _ s => Pending o op start msgid s.calls ∧ Answered op.request start s.calls)
    ?_ (fun msgid => ?_) (fun msgid r => ?_) fun msgid r s hs => ⟨hs.1.1, hs.2⟩
  · refine Spec.conseq hsend (fun _ hs => hs) (fun msgid s hs => ?_) fun _ _ hs => hs
    obtain ⟨m, rfl, hpending⟩ := hs
    exact hpending
  · refine Spec.conseq
      (poll_calls (K := Pending o op start msgid) (A := Answered op.request start)
        (fun _ _ _ hs => hs.append _ _) (fun _ _ _ hs htype => hs.answered _ htype) polls)
      (fun _ hs => hs) (fun r s hs => ?_) fun e s hs => hsent e s hs.1
    cases r with
    | none => exact hsent _ s hs.1
    | some r => exact hs
  · -- the answer to the earlier poll stays in the log
    refine Spec.conseq
      (poll_calls (K := fun calls => Pending o op start msgid calls ∧ Answered op.request start calls)
        (A := fun _ => True) (fun _ _ _ hs => ⟨hs.1.append _ _, hs.2.append _⟩)
        (fun _ _ _ _ _ => trivial) polls)
      (fun _ hs => hs) (fun r s hs => ?_) fun e s hs => hsent e s hs.1.1
    cases r with
    | none => exact ⟨hs.1.1, hs.2⟩
    | some r => exact hsent _ s hs.1.1.1

/-- A request that is not sent fails, and the operation with it. -/
theorem extended_unsent (henv : ReturnsMessageId env) {request : ExtendedRequest} {s s' : State ω}
    {e : PyExc} (h : (sendExtended env request).run s = .error e s') (polls : Nat)
    (cls : Option ExtendedResponse) :
    (extended env polls request cls).run s = .error e s' ∧
      Sending (.extop request) s.calls 0 s'.calls := by
  unfold sendExtended at h
  rw [EStateM.run_bind] at h
  unfold extended execute
  rw [EStateM.run_bind]
  cases hc : s.self.conn with
  | none =>
    rw [conn_none hc] at h ⊢
    cases h
    exact ⟨rfl, Sending.start _ _⟩
  | some o =>
    rw [conn_ok hc] at h ⊢
    refine ⟨?_, ?_⟩
    · simp only [EStateM.run_bind]
      rw [show (retry env (Method.request env o ((Request.extop request).with none))).run s = _ from h]
    · exact (retry_request_sending henv rfl).error (Sending.start _ _) h

/-- A request that is sent is sent once, and the operation returns with its answer. -/
theorem extended_sent (henv : ReturnsMessageId env) {request : ExtendedRequest} {s s' : State ω}
    {msgid : Option MsgId} (h : (sendExtended env request).run s = .ok msgid s') (polls : Nat)
    (cls : Option ExtendedResponse) :
    Spec (fun t => t = s) (extended env polls request cls)
      (fun _ t => Sending (.extop request) s.calls 1 t.calls ∧ Answered (.extop request) s.calls t.calls)
      (fun _ t => Sending (.extop request) s.calls 1 t.calls) := by
  unfold sendExtended at h
  rw [EStateM.run_bind] at h
  cases hc : s.self.conn with
  | none =>
    rw [conn_none hc] at h
    cases h
  | some o =>
    rw [conn_ok hc] at h
    have hpending := (retry_request_sending henv rfl).ok (Sending.start _ _) h
    unfold extended
    refine Spec.bind (Q := fun o' t => t = s ∧ o' = o)
      (conn_rule (fun o' t ht hc' => ⟨ht, ?_⟩) fun t ht hc' => ?_) fun o' => ?_
    · rw [ht, hc] at hc'
      exact (Option.some.inj hc').symm
    · rw [ht, hc] at hc'
      cases hc'
    · refine Spec.bind (execute_sending ?_ (fun _ _ hs => hs) polls) fun response => ?_
      · rintro t ⟨rfl, rfl⟩
        rw [show (retry env _).run t = _ from h]
        exact hpending
      · refine Spec.bind (Q := fun _ t => Sending (.extop request) s.calls 1 t.calls ∧
          Answered (.extop request) s.calls t.calls) ?_ fun value => ?_
        · exact wrap_rule (ofExcept_rule (fun _ _ _ hs => hs) fun _ _ _ hs => hs.1) fun _ _ hs => hs
        · exact ofExcept_rule (fun _ _ _ hs => hs) fun _ _ _ hs => hs.1

end Extended

/-! ## How a transaction ends -/

/-- The ways in which ending a transaction can go: the control cannot be reset,
the request cannot be sent, the operation fails, or it returns. -/
inductive Ending (env : Env ω) (polls : Nat) (txnId : Option Bytes) (commit : Bool) (s : State ω) : Prop
  | notReset {e : PyExc} {s' : State ω} (reset : (resetControls env).run s = .error e s')
      (calls : s'.calls = s.calls)
  | notSent {t : State ω} {e : PyExc} {s' : State ω} (reset : (resetControls env).run s = .ok () t)
      (send : (sendExtended env (.endTransactionRequest commit txnId)).run t = .error e s')
      (run : (endTransaction env polls txnId commit).run t = .error e s')
      (calls : Sending (.extop (.endTransactionRequest commit txnId)) s.calls 0 s'.calls)
  | failed {t : State ω} {msgid : Option MsgId} {t' : State ω} {e : PyExc} {s' : State ω}
      (reset : (resetControls env).run s = .ok () t)
      (send : (sendExtended env (.endTransactionRequest commit txnId)).run t = .ok msgid t')
      (run : (endTransaction env polls txnId commit).run t = .error e s')
      (calls : Sending (.extop (.endTransactionRequest commit txnId)) s.calls 1 s'.calls)
  | returned {t : State ω} {msgid : Option MsgId} {t' : State ω} {result : Result} {s' : State ω}
      (reset : (resetControls env).run s = .ok () t)
      (send : (sendExtended env (.endTransactionRequest commit txnId)).run t = .ok msgid t')
      (run : (endTransaction env polls txnId commit).run t = .ok result s')
      (calls : Sending (.extop (.endTransactionRequest commit txnId)) s.calls 1 s'.calls)
      (answer : Answered (.extop (.endTransactionRequest commit txnId)) s.calls s'.calls)

theorem ending (henv : ReturnsMessageId env) (polls : Nat) (txnId : Option Bytes) (commit : Bool)
    (s : State ω) : Ending env polls txnId commit s := by
  have hcalm : Calm env fun t : State ω => t.calls = s.calls :=
    (reconnecting_calls fun calls => calls = s.calls).toCalm
  have hkeep : Spec (fun t : State ω => t.calls = s.calls) (resetControls env)
      (fun _ t => t.calls = s.calls) (fun _ t => t.calls = s.calls) :=
    hcalm.setOption_keeps _ _ _ fun _ _ _ ht => ht
  cases hreset : (resetControls env).run s with
  | error e s' => exact .notReset hreset (hkeep.error rfl hreset)
  | ok u t =>
    have ht : t.calls = s.calls := hkeep.ok rfl hreset
    cases hsend : (sendExtended env (.endTransactionRequest commit txnId)).run t with
    | error e s' =>
      obtain ⟨hrun, hcalls⟩ := extended_unsent henv hsend polls (some endTransactionResponse)
      exact .notSent hreset hsend hrun (ht ▸ hcalls)
    | ok msgid t' =>
      have hspec := extended_sent henv hsend polls (some endTransactionResponse)
      cases hrun : (endTransaction env polls txnId commit).run t with
      | error e s' => exact .failed hreset hsend hrun (ht ▸ hspec.error rfl hrun)
      | ok result s' =>
        obtain ⟨hcalls, hanswer⟩ := hspec.ok rfl hrun
        exact .returned hreset hsend hrun (ht ▸ hcalls) (ht ▸ hanswer)

end Method

/-! ## The outcome -/

section Outcome

open Method

variable {ω : Type} (env : Env ω) (polls : Nat) (txnId : Option Bytes)

/-- The outcome after a body that has ended normally in `s`, with the calls since
then. The commit is sent once, unless resetting the control or sending raises;
without an exception, either it was answered, or it has failed with an
`OperationsError`. -/
structure CommitOutcome (s : State ω) (outcome : EStateM.Result PyExc (State ω) Unit)
    (log : List (Call ω)) : Prop where
  calls : (final outcome).calls = s.calls ++ log
  aborts : sent (endsWith false) log = 0
  commits : sent (endsWith true) log ≤ 1
  once : ∀ msgid s', (sendEndTransaction env txnId true).run s = .ok msgid s' →
    sent (endsWith true) log = 1
  unsent : ∀ e s', (sendEndTransaction env txnId true).run s = .error e s' →
    sent (endsWith true) log = 0 ∧
      (outcome = .error e s' ∨ e.is .operationsError ∧ outcome = .ok () s')
  confirmed : ∀ s', outcome = .ok () s' →
    sent (endsWith true) log = 1 ∧
        Answered (.extop (.endTransactionRequest true txnId)) s.calls s'.calls ∨
      ∃ t e, (resetControls env).run s = .ok () t ∧
        (endTransaction env polls txnId true).run t = .error e s' ∧ e.is .operationsError

/-- The outcome after a body that has raised `e` in `s`. The abort is sent once,
unless resetting the control or sending raises; an exception is raised, the one
of the body where the abort returns. -/
structure AbortOutcome (e : PyExc) (s : State ω) (outcome : EStateM.Result PyExc (State ω) Unit)
    (log : List (Call ω)) : Prop where
  calls : (final outcome).calls = s.calls ++ log
  commits : sent (endsWith true) log = 0
  aborts : sent (endsWith false) log ≤ 1
  once : ∀ msgid s', (sendEndTransaction env txnId false).run s = .ok msgid s' →
    sent (endsWith false) log = 1
  unsent : ∀ e' s', (sendEndTransaction env txnId false).run s = .error e' s' →
    sent (endsWith false) log = 0 ∧ outcome = .error e' s'
  raised : raised outcome = true
  reraised : ∀ t result s', (resetControls env).run s = .ok () t →
    (endTransaction env polls txnId false).run t = .ok result s' → outcome = .error e s'

variable {env polls txnId}

/-- The requests that ended the transaction, counted. -/
theorem Sending.ends {commit : Bool} {start calls : List (Call ω)} {n : Nat}
    (h : Sending (.extop (.endTransactionRequest commit txnId)) start n calls) :
    ∃ log, calls = start ++ log ∧ sent (endsWith commit) log = n ∧ sent (endsWith !commit) log = 0 := by
  obtain ⟨log, hlog, honly, hn⟩ := h
  refine ⟨log, hlog, ?_, ?_⟩
  · rw [sent_of_handsOnly _ honly, if_pos (by simp [endsWith]), hn]
  · rw [sent_of_handsOnly _ honly, if_neg (by simp [endsWith])]

/-- Once the control is reset, the request is sent. -/
theorem sendEndTransaction_reset {commit : Bool} {s t : State ω}
    (reset : (resetControls env).run s = .ok () t) :
    (sendEndTransaction env txnId commit).run s =
      (sendExtended env (.endTransactionRequest commit txnId)).run t := by
  unfold sendEndTransaction
  rw [EStateM.run_bind, reset]

theorem sendEndTransaction_notReset {commit : Bool} {s s' : State ω} {e : PyExc}
    (reset : (resetControls env).run s = .error e s') :
    (sendEndTransaction env txnId commit).run s = .error e s' := by
  unfold sendEndTransaction
  rw [EStateM.run_bind, reset]

/-- Once the control is reset, a commit that fails is raised or logged. -/
theorem commitTransaction_failed {s t s' : State ω} {e : PyExc}
    (reset : (resetControls env).run s = .ok () t)
    (run : (endTransaction env polls txnId true).run t = .error e s') :
    (commitTransaction env polls txnId).run s =
      if e.is .operationsError then .ok () s' else .error e s' := by
  unfold commitTransaction
  rw [EStateM.run_bind, reset]
  simp only [run_tryCatch, EStateM.run_bind, run]
  by_cases he : e.is .operationsError = true
  · rw [if_pos he, if_pos he]
    rfl
  · rw [if_neg he, if_neg he]
    rfl

theorem commitTransaction_outcome (henv : ReturnsMessageId env) (s : State ω) :
    ∃ log, CommitOutcome env polls txnId s ((commitTransaction env polls txnId).run s) log := by
  cases ending henv polls txnId true s with
  | @notReset e s' reset calls =>
    have hrun : (commitTransaction env polls txnId).run s = .error e s' := by
      unfold commitTransaction
      rw [EStateM.run_bind, reset]
    rw [hrun]
    refine ⟨[], by simp [calls], rfl, Nat.zero_le 1, ?_, ?_, ?_⟩
    · intro msgid s'' hsend
      rw [sendEndTransaction_notReset reset] at hsend
      cases hsend
    · intro e' s'' hsend
      rw [sendEndTransaction_notReset reset] at hsend
      cases hsend
      exact ⟨rfl, Or.inl rfl⟩
    · intro s'' h
      cases h
  | @notSent t e s' reset send run calls =>
    obtain ⟨log, hlog, hcommits, haborts⟩ := calls.ends
    rw [commitTransaction_failed reset run]
    refine ⟨log, ?_, haborts, by omega, ?_, ?_, ?_⟩
    · by_cases he : e.is .operationsError = true <;> simp [he, hlog]
    · intro msgid s'' hsend
      rw [sendEndTransaction_reset reset, send] at hsend
      cases hsend
    · intro e' s'' hsend
      rw [sendEndTransaction_reset reset, send] at hsend
      cases hsend
      refine ⟨hcommits, ?_⟩
      -- an `OperationsError` is only logged
      by_cases he : e.is .operationsError = true
      · exact Or.inr ⟨he, if_pos he⟩
      · exact Or.inl (if_neg he)
    · intro s'' h
      by_cases he : e.is .operationsError = true
      · rw [if_pos he] at h
        cases h
        exact Or.inr ⟨t, e, reset, run, he⟩
      · rw [if_neg he] at h
        cases h
  | @failed t msgid t' e s' reset send run calls =>
    obtain ⟨log, hlog, hcommits, haborts⟩ := calls.ends
    rw [commitTransaction_failed reset run]
    refine ⟨log, ?_, haborts, by omega, fun _ _ _ => hcommits, ?_, ?_⟩
    · by_cases he : e.is .operationsError = true <;> simp [he, hlog]
    · intro e' s'' hsend
      rw [sendEndTransaction_reset reset, send] at hsend
      cases hsend
    · intro s'' h
      by_cases he : e.is .operationsError = true
      · rw [if_pos he] at h
        cases h
        exact Or.inr ⟨t, e, reset, run, he⟩
      · rw [if_neg he] at h
        cases h
  | @returned t msgid t' result s' reset send run calls answer =>
    obtain ⟨log, hlog, hcommits, haborts⟩ := calls.ends
    have hrun : (commitTransaction env polls txnId).run s = .ok () s' := by
      unfold commitTransaction
      rw [EStateM.run_bind, reset]
      simp only [run_tryCatch, EStateM.run_bind, run]
      rfl
    rw [hrun]
    refine ⟨log, hlog, haborts, by omega, fun _ _ _ => hcommits, ?_, ?_⟩
    · intro e' s'' hsend
      rw [sendEndTransaction_reset reset, send] at hsend
      cases hsend
    · intro s'' h
      cases h
      exact Or.inl ⟨hcommits, answer⟩

theorem abortTransaction_failed {s t s' : State ω} {e e' : PyExc}
    (reset : (resetControls env).run s = .ok () t)
    (run : (endTransaction env polls txnId false).run t = .error e' s') :
    (abortTransaction env polls txnId e).run s = .error e' s' := by
  unfold abortTransaction
  rw [EStateM.run_bind, reset]
  simp only [EStateM.run_bind, run]

theorem abortTransaction_outcome (henv : ReturnsMessageId env) (e : PyExc) (s : State ω) :
    ∃ log, AbortOutcome env polls txnId e s ((abortTransaction env polls txnId e).run s) log := by
  cases ending henv polls txnId false s with
  | @notReset e' s' reset calls =>
    have hrun : (abortTransaction env polls txnId e).run s = .error e' s' := by
      unfold abortTransaction
      rw [EStateM.run_bind, reset]
    rw [hrun]
    refine ⟨[], by simp [calls], rfl, Nat.zero_le 1, ?_, ?_, rfl, ?_⟩
    · intro msgid s'' hsend
      rw [sendEndTransaction_notReset reset] at hsend
      cases hsend
    · intro e'' s'' hsend
      rw [sendEndTransaction_notReset reset] at hsend
      cases hsend
      exact ⟨rfl, rfl⟩
    · intro t result s'' hreset
      rw [reset] at hreset
      cases hreset
  | @notSent t e' s' reset send run calls =>
    obtain ⟨log, hlog, haborts, hcommits⟩ := calls.ends
    rw [abortTransaction_failed reset run]
    refine ⟨log, hlog, hcommits, by omega, ?_, ?_, rfl, ?_⟩
    · intro msgid s'' hsend
      rw [sendEndTransaction_reset reset, send] at hsend
      cases hsend
    · intro e'' s'' hsend
      rw [sendEndTransaction_reset reset, send] at hsend
      cases hsend
      exact ⟨haborts, rfl⟩
    · intro t' result s'' hreset hok
      rw [reset] at hreset
      cases hreset
      rw [run] at hok
      cases hok
  | @failed t msgid t' e' s' reset send run calls =>
    obtain ⟨log, hlog, haborts, hcommits⟩ := calls.ends
    rw [abortTransaction_failed reset run]
    refine ⟨log, hlog, hcommits, by omega, fun _ _ _ => haborts, ?_, rfl, ?_⟩
    · intro e'' s'' hsend
      rw [sendEndTransaction_reset reset, send] at hsend
      cases hsend
    · intro t' result s'' hreset hok
      rw [reset] at hreset
      cases hreset
      rw [run] at hok
      cases hok
  | @returned t msgid t' result s' reset send run calls answer =>
    obtain ⟨log, hlog, haborts, hcommits⟩ := calls.ends
    have hrun : (abortTransaction env polls txnId e).run s = .error e s' := by
      unfold abortTransaction
      rw [EStateM.run_bind, reset]
      simp only [EStateM.run_bind, run]
      rfl
    rw [hrun]
    refine ⟨log, hlog, hcommits, by omega, fun _ _ _ => haborts, ?_, rfl, ?_⟩
    · intro e'' s'' hsend
      rw [sendEndTransaction_reset reset, send] at hsend
      cases hsend
    · intro t' result' s'' hreset hok
      rw [reset] at hreset
      cases hreset
      rw [run] at hok
      cases hok
      rfl

/-- The start of a transaction ends none. -/
theorem enterTransaction_calls (henv : ReturnsMessageId env) (setControls : Bool) (s : State ω) :
    ∃ log, (final ((enterTransaction env polls setControls).run s)).calls = s.calls ++ log ∧
      ∀ commit, sent (endsWith commit) log = 0 := by
  let K := fun calls : List (Call ω) => ∃ n, Sending (.extop .startTransactionRequest) s.calls n calls
  have hstart : Spec (fun t => t = s)
      (extended env polls .startTransactionRequest (some (startTransactionResponse env)))
      (fun _ t => K t.calls) (fun _ t => K t.calls) := by
    cases hsend : (sendExtended env .startTransactionRequest).run s with
    | ok msgid s' =>
      exact Spec.conseq (extended_sent henv hsend polls _) (fun _ ht => ht) (fun _ _ ht => ⟨1, ht.1⟩)
        fun _ _ ht => ⟨1, ht⟩
    | error e s' =>
      obtain ⟨hrun, hcalls⟩ := extended_unsent henv hsend polls (some (startTransactionResponse env))
      rintro t rfl
      rw [hrun]
      exact ⟨0, hcalls⟩
  have hset : ∀ txnId, Keeps (fun t : State ω => K t.calls) (setTransaction env txnId) := by
    intro txnId
    unfold setTransaction
    exact (reconnecting_calls K).toCalm.setControls_keeps (fun _ _ ht => ht) _
  have henter : Spec (fun t => t = s) (enterTransaction env polls setControls)
      (fun _ t => K t.calls) (fun _ t => K t.calls) :=
    Spec.bind hstart fun result => Keeps.bind (Keeps.onlyIf (hset _)) fun _ => Keeps.pure _
  have hK : K (final ((enterTransaction env polls setControls).run s)).calls := by
    have hrun := henter s rfl
    cases h : (enterTransaction env polls setControls).run s with
    | ok a s' =>
      rw [h] at hrun
      exact hrun
    | error e s' =>
      rw [h] at hrun
      exact hrun
  obtain ⟨n, log, hlog, honly, -⟩ := hK
  refine ⟨log, hlog, fun commit => ?_⟩
  rw [sent_of_handsOnly _ honly, if_neg (by simp [endsWith])]

theorem transaction_returned {setControls : Bool} {body : Option Bytes → Method ω Unit}
    {s s₁ s₂ : State ω} (henter : (enterTransaction env polls setControls).run s = .ok txnId s₁)
    (hbody : (body txnId).run s₁ = .ok () s₂) :
    (transaction env polls setControls body).run s = (commitTransaction env polls txnId).run s₂ := by
  unfold transaction observing
  simp only [EStateM.run_bind, henter, run_tryCatch, hbody]
  rfl

theorem transaction_raised {setControls : Bool} {body : Option Bytes → Method ω Unit}
    {s s₁ s₂ : State ω} {e : PyExc}
    (henter : (enterTransaction env polls setControls).run s = .ok txnId s₁)
    (hbody : (body txnId).run s₁ = .error e s₂) :
    (transaction env polls setControls body).run s = (abortTransaction env polls txnId e).run s₂ := by
  unfold transaction observing
  simp only [EStateM.run_bind, henter, run_tryCatch, hbody]
  rfl

/-- A transaction ends as its body does: with the commit after a body that ended
normally, with the abort after one that raised; a body that is not reached leaves
nothing to end. -/
theorem transaction_outcome (henv : ReturnsMessageId env) (polls : Nat) (setControls : Bool)
    (body : Option Bytes → Method ω Unit) (s : State ω) :
    (∃ log, (final ((enterTransaction env polls setControls).run s)).calls = s.calls ++ log ∧
      ∀ commit, sent (endsWith commit) log = 0) ∧
    match (enterTransaction env polls setControls).run s with
    | .error e s₁ => (transaction env polls setControls body).run s = .error e s₁
    | .ok txnId s₁ =>
      match (body txnId).run s₁ with
      | .ok _ s₂ => ∃ log, CommitOutcome env polls txnId s₂
          ((transaction env polls setControls body).run s) log
      | .error e s₂ => ∃ log, AbortOutcome env polls txnId e s₂
          ((transaction env polls setControls body).run s) log := by
  refine ⟨enterTransaction_calls henv setControls s, ?_⟩
  cases henter : (enterTransaction env polls setControls).run s with
  | error e s₁ =>
    show (transaction env polls setControls body).run s = .error e s₁
    unfold transaction
    rw [EStateM.run_bind, henter]
  | ok txnId s₁ =>
    cases hbody : (body txnId).run s₁ with
    | ok u s₂ =>
      simp only [hbody]
      rw [transaction_returned henter hbody]
      exact commitTransaction_outcome henv s₂
    | error e s₂ =>
      simp only [hbody]
      rw [transaction_raised henter hbody]
      exact abortTransaction_outcome henv e s₂

end Outcome

/-! ### Two servers -/

section Servers

open Method

/-- A server that answers extended operations, the second with an error where
there is one. The state is the last message ID. -/
def answering (second : Option LdapErrorClass) : Env Nat :=
  { Env.idle Nat with
    request := fun _ _ number => .ok (some (number + 1)) (number + 1)
    result4 := fun _ msgid _ _ number =>
      match second, msgid with
      | some cls, 2 => .error (.ldap { cls := cls }) number
      | _, _ => .ok { type := some .extended, data := none, msgid := some msgid, ctrls := some [] } number }

/-- A connected synchronous connection that has sent nothing. -/
def connectedState : State Nat :=
  { self := { Connection.init false (py "ldap://localhost") with conn := some 0 }, world := 0, calls := [] }

theorem answering_returnsMessageId (second : Option LdapErrorClass) :
    ReturnsMessageId (answering second) := by
  intro o op w w' h
  cases h

/-- A body that raises: the abort is sent, and the exception of the body is raised. -/
theorem transaction_outcome_raising :
    ∃ s₂ log, AbortOutcome (answering none) 1 none (.raised "KeyError") s₂
      ((transaction (answering none) 1 true fun _ => throw (.raised "KeyError")).run connectedState) log := by
  obtain ⟨-, h⟩ := transaction_outcome (answering_returnsMessageId none) 1 true
    (fun _ => throw (.raised "KeyError")) connectedState
  exact ⟨_, h⟩

/-- The server fails the commit with an `OperationsError`, and the context manager
exits without an exception. -/
theorem transaction_unconfirmed :
    ∃ s', (transaction (answering (some .operationsError)) 1 true fun _ => pure ()).run connectedState =
        .ok () s' ∧
      ¬ Answered (.extop (.endTransactionRequest true none)) connectedState.calls s'.calls := by
  let started : Response := { type := some .extended, data := none, msgid := some 1, ctrls := some [] }
  refine ⟨⟨_, 2, [
    .request 0 ((Request.extop .startTransactionRequest).with none) (.ok (some 1)) 1,
    .result 0 ⟨1, 0⟩ 1 (.ok started),
    .request 0 ((Request.extop (.endTransactionRequest true none)).with none) (.ok (some 2)) 2,
    .result 0 ⟨2, 2⟩ 2 (.error (.ldap { cls := .operationsError }))]⟩, rfl, ?_⟩
  rintro ⟨o, op, msgid, w, w', r, -, hcall, hop, hresult, -⟩
  -- the only response is that to the start of the transaction
  obtain rfl : msgid = ⟨1, 0⟩ := by
    simp at hresult
    exact hresult.2.1
  cases hcall
  cases hop

end Servers

end FreeIam.Ldap
