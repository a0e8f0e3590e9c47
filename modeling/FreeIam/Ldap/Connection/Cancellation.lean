import FreeIam.Ldap.Connection.Completeness
import FreeIam.Ldap.Connection.Log

/-!
# How an iterative search is left

A consumer takes results from `search_iter` and leaves the generator. Closed, it cancels
the operation; an exception that ends it otherwise, one of its own or one that is thrown
into it, leaves the operation running.
-/

namespace FreeIam.Ldap

open FreeIam.Py FreeIam.Errors FreeIam.Exec

/-! ## Leaving the generator -/

/-- How a consumer leaves a generator; what is thrown is no `GeneratorExit`. -/
inductive Leave
  | close
  | throw (e : PyExc)

namespace Method

variable {ω : Type} (env : Env ω) (polls : Nat)

/-- `generator.throw(e)`: raised at a `yield`, the exception passes the handlers. -/
def throwInto (e : PyExc) : SearchIter → Method ω Unit
  | .suspended args _ _ _ _ _ _ => searchedFor env args (throw e)
  | _ => throw e

def leave : Leave → SearchIter → Method ω Unit
  | .close, iter => close env polls iter
  | .throw e, iter => throwInto env e iter

/-- What a consumer does with what `next` has returned: whether that was the end. -/
def goOn (more : SearchIter → Method ω Bool) (step : Option Result × SearchIter) : Method ω Bool :=
  match step.1 with
  | none => pure true
  | some _ => more step.2

/-- A consumer that takes so many results and leaves, or consumes the generator to its
end before; whether it has come to the end. -/
def take (how : Leave) : Nat → SearchIter → Method ω Bool
  | 0, iter => (fun _ => false) <$> leave env polls how iter
  | count + 1, iter => next env polls iter >>= goOn (take how count)

end Method

/-! ## What becomes of the operation -/

section

variable {ω : Type}

/-- The LDAP object of a call. -/
def Call.object : Call ω → Obj
  | .request o _ _ _ => o
  | .result o _ _ _ => o

/-- A call that has sent a Cancel for the message ID. -/
def Call.cancels (o : Obj) (number : Nat) : Call ω → Bool
  | .request o' op (.ok (some _)) _ => o' = o && op.request = .cancel number
  | _ => false

/-- How many Cancels were sent. -/
def cancelled (o : Obj) (number : Nat) (log : List (Call ω)) : Nat := log.countP (Call.cancels o number)

/-- The `SearchResultDone` of the operation has been read. -/
def DoneRead (o : Obj) (msgid : MsgId) (log : List (Call ω)) : Prop :=
  ∃ w r, .result o msgid w (.ok r) ∈ log ∧ r.type = some .searchResult

/-- Since `start` nothing was called, or the operation is over or was cancelled once; and no
Cancel was sent where the generator was consumed to its end. -/
def LeavesNothing (o : Obj) (msgid : MsgId) (start : List (Call ω))
    (outcome : EStateM.Result PyExc (State ω) Bool) : Prop :=
  ∃ log, (final outcome).calls = start ++ log ∧
    (log = [] ∨ DoneRead o msgid log ∨ cancelled o msgid.number log = 1) ∧
    ∀ s', outcome = .ok true s' → cancelled o msgid.number log = 0

/-- The calls tell that nothing is left running where `c` holds, and elsewhere that the
operation is running still. -/
def Tells (c : Prop) (o : Obj) (msgid : MsgId) (start : List (Call ω))
    (outcome : EStateM.Result PyExc (State ω) Bool) : Prop :=
  ∃ log, (final outcome).calls = start ++ log ∧
    (c → (DoneRead o msgid log ∨ cancelled o msgid.number log = 1) ∧
      ∀ s', outcome = .ok true s' → cancelled o msgid.number log = 0) ∧
    (¬ c → ¬ DoneRead o msgid log ∧ cancelled o msgid.number log = 0)

variable {o : Obj} {msgid : MsgId} {number : Nat} {start log : List (Call ω)} {c : Prop}
  {outcome : EStateM.Result PyExc (State ω) Bool}

theorem cancelled_append (log log' : List (Call ω)) :
    cancelled o number (log ++ log') = cancelled o number log + cancelled o number log' :=
  List.countP_append ..

theorem doneRead_append (log log' : List (Call ω)) :
    DoneRead o msgid (log ++ log') ↔ DoneRead o msgid log ∨ DoneRead o msgid log' := by
  unfold DoneRead
  constructor
  · rintro ⟨w, r, hmem, htype⟩
    rcases List.mem_append.mp hmem with hmem | hmem
    · exact .inl ⟨w, r, hmem, htype⟩
    · exact .inr ⟨w, r, hmem, htype⟩
  · rintro (⟨w, r, hmem, htype⟩ | ⟨w, r, hmem, htype⟩)
    · exact ⟨w, r, List.mem_append_left _ hmem, htype⟩
    · exact ⟨w, r, List.mem_append_right _ hmem, htype⟩

/-- After calls that neither read the end nor cancel. -/
theorem Tells.after (h : Tells c o msgid (start ++ log) outcome) (hread : ¬ DoneRead o msgid log)
    (hcancelled : cancelled o msgid.number log = 0) : Tells c o msgid start outcome := by
  obtain ⟨log', hcalls, hover, hrunning⟩ := h
  refine ⟨log ++ log', by rw [hcalls, List.append_assoc], fun hc => ?_, fun hc => ?_⟩
  · rw [doneRead_append, cancelled_append, hcancelled, Nat.zero_add]
    obtain ⟨hended, hconsumed⟩ := hover hc
    exact ⟨hended.imp_left .inr, hconsumed⟩
  · rw [doneRead_append, cancelled_append, hcancelled, Nat.zero_add]
    obtain ⟨hnot, hnone⟩ := hrunning hc
    exact ⟨fun h => h.elim hread hnot, hnone⟩

/-- Where something was called, the calls decide. -/
theorem Tells.iff (h : Tells c o msgid start outcome) (hne : (final outcome).calls ≠ start) :
    LeavesNothing o msgid start outcome ↔ c := by
  obtain ⟨log, hcalls, hover, hrunning⟩ := h
  have hlog : log ≠ [] := by
    rintro rfl
    exact hne (hcalls.trans (List.append_nil start))
  constructor
  · rintro ⟨log', hcalls', hended, -⟩
    obtain rfl := List.append_cancel_left (hcalls'.symm.trans hcalls)
    by_contra hc
    obtain ⟨hnot, hnone⟩ := hrunning hc
    rcases hended with hnil | hread | hone
    · exact hlog hnil
    · exact hnot hread
    · omega
  · intro hc
    obtain ⟨hended, hconsumed⟩ := hover hc
    exact ⟨log, hcalls, .inr hended, hconsumed⟩

theorem Tells.congr {c' : Prop} (h : Tells c o msgid start outcome) (hiff : c ↔ c') :
    Tells c' o msgid start outcome := propext hiff ▸ h

/-- The waits for a response send no Cancel, and come to the end with it. -/
theorem Listened.cancelled {r : Response} (h : Listened o msgid r log) (number : Nat) :
    cancelled o number log = 0 := by
  induction h with
  | came w => rfl
  | vain _ _ ih => exact ih

theorem Listened.doneRead_iff {r : Response} (h : Listened o msgid r log) :
    DoneRead o msgid log ↔ r.type = some .searchResult := by
  unfold DoneRead
  induction h with
  | came w => simp
  | @vain w r' log htype _ ih =>
    rw [← ih]
    constructor
    · rintro ⟨w', r'', hmem, hdone⟩
      rcases List.mem_cons.mp hmem with heq | hmem
      · cases heq
        cases htype.symm.trans hdone
      · exact ⟨w', r'', hmem, hdone⟩
    · rintro ⟨w', r'', hmem, hdone⟩
      exact ⟨w', r'', List.mem_cons_of_mem _ hmem, hdone⟩

end

/-! ## Cancelling -/

section

variable {ω : Type} {env : Env ω} {o : Obj} {number : Nat}

/-- Since `start` so many Cancels were sent. -/
def Counted (o : Obj) (number : Nat) (start : List (Call ω)) (k : Nat) (calls : List (Call ω)) : Prop :=
  ∃ log, calls = start ++ log ∧ cancelled o number log = k

/-- Since `start` no call was one on the object. -/
def Elsewhere (o : Obj) (start calls : List (Call ω)) : Prop :=
  ∃ log, calls = start ++ log ∧ ∀ call ∈ log, call.object ≠ o

theorem Counted.append {start calls : List (Call ω)} {k : Nat} (h : Counted o number start k calls)
    {call : Call ω} (hcall : call.cancels o number = false) : Counted o number start k (calls ++ [call]) := by
  obtain ⟨log, hcalls, hk⟩ := h
  refine ⟨log ++ [call], by rw [hcalls, List.append_assoc], ?_⟩
  rw [cancelled_append, hk, cancelled, List.countP_singleton, hcall]
  rfl

theorem Elsewhere.start (start : List (Call ω)) : Elsewhere o start start :=
  ⟨[], (List.append_nil _).symm, fun _ h => absurd h List.not_mem_nil⟩

theorem Elsewhere.append {start calls : List (Call ω)} (h : Elsewhere o start calls) {call : Call ω}
    (hcall : call.object ≠ o) : Elsewhere o start (calls ++ [call]) := by
  obtain ⟨log, hcalls, hlog⟩ := h
  refine ⟨log ++ [call], by rw [hcalls, List.append_assoc], fun call' hcall' => ?_⟩
  rcases List.mem_append.mp hcall' with hmem | hmem
  · exact hlog call' hmem
  · rw [List.mem_singleton.mp hmem]
    exact hcall

/-- What the log says is kept by a reconnect. -/
theorem calls_reconnect (K : List (Call ω) → Prop) :
    Keeps (fun s => K s.calls) (Method.reconnect env true) := by
  have hindifferent : Method.Indifferent fun s : State ω => K s.calls := ⟨fun _ _ hs => hs, fun _ _ hs => hs⟩
  exact hindifferent.synchronous.toReconnecting.reconnect_keeps true

/-- Waiting sends nothing. -/
theorem counted_awaits (start : List (Call ω)) (k : Nat) (o' : Obj) :
    Method.Awaits env (fun s => Counted o number start k s.calls) o' where
  result := fun _ _ _ => Method.getResult_rule (fun _ _ _ hs _ => hs.append rfl) fun _ _ _ hs _ => hs.append rfl
  readable := fun _ => Method.onWorld_rule fun _ hs => hs
  reconnect := calls_reconnect _

theorem elsewhere_abides (start : List (Call ω)) {o' : Obj} (hne : o' ≠ o) (op : Operation) :
    Method.Abides env (fun s => Elsewhere o start s.calls) o' op where
  result := fun _ _ _ => Method.getResult_rule (fun _ _ _ hs _ => hs.append hne) fun _ _ _ hs _ => hs.append hne
  readable := fun _ => Method.onWorld_rule fun _ hs => hs
  reconnect := calls_reconnect _
  request := Method.request_rule (fun _ _ _ hs _ => hs.append hne) fun _ _ _ hs _ => hs.append hne

/-- A connection that can send on the object. -/
def Slots.Sends (self : Slots) (o : Obj) : Prop := self.conn = some o ∧ 0 < self.maxConnectionAttempts

/-- python-ldap takes a Cancel. -/
def TakesCancel (env : Env ω) (o : Obj) (number : Nat) : Prop :=
  ∀ w, ∃ n w', (env.request o ((Request.cancel number).with none)).run w = .ok (some n) w'

/-- The execution is the part of `cancel` that calls anything. -/
theorem cancel_rule {polls : Nat} {t : State ω} {K : List (Call ω) → Prop} (hnone : t.self.conn = none → K t.calls)
    (hexecute : ∀ o', t.self.conn = some o' →
      Spec (fun s => s = t) (Method.execute env polls o' ((Request.cancel number).with none))
        (fun _ s => K s.calls) (fun _ s => K s.calls)) :
    Spec (fun s => s = t) (Method.cancel env polls number) (fun _ s => K s.calls) (fun _ s => K s.calls) := by
  unfold Method.cancel
  refine Spec.bind (Q := fun s₀ s => s₀ = t ∧ s = t) (Spec.get fun s hs => ⟨hs, hs⟩) fun s₀ => ?_
  refine Spec.assume fun hs₀ => ?_
  rw [hs₀]
  cases hconn : t.self.conn with
  | none =>
    refine Spec.pure ?_
    rintro s rfl
    exact hnone hconn
  | some o' =>
    refine Spec.tryCatch (E := fun _ s => K s.calls)
      (Spec.bind (hexecute o' hconn) fun _ => Spec.pure fun _ hs => hs) fun e => ?_
    exact Spec.ite (fun _ => Spec.pure fun _ hs => hs) fun _ =>
      Spec.ite (fun _ => Spec.pure fun _ hs => hs) fun _ => Spec.throw fun _ hs => hs

/-- A connection on the object sends one Cancel. -/
theorem cancel_sends (htakes : TakesCancel env o number) (polls : Nat) {t : State ω}
    (hsends : t.self.Sends o) :
    Spec (fun s => s = t) (Method.cancel env polls number) (fun _ s => Counted o number t.calls 1 s.calls)
      (fun _ s => Counted o number t.calls 1 s.calls) := by
  obtain ⟨hconn, hattempts⟩ := hsends
  have hrequest : Spec (fun s => s = t)
      (Method.retry env (Method.request env o ((Request.cancel number).with none)))
      (fun _ s => Counted o number t.calls 1 s.calls) (fun _ s => Counted o number t.calls 1 s.calls) := by
    rintro s rfl
    obtain ⟨n, w, hsent⟩ := htakes s.world
    rw [Method.retry_ok env hattempts (Method.request_ok hsent)]
    refine ⟨_, rfl, ?_⟩
    simp [cancelled, Call.cancels, Request.with]
  refine cancel_rule (fun hnone => ?_) fun o' ho' => ?_
  · cases hconn.symm.trans hnone
  · cases hconn.symm.trans ho'
    exact (counted_awaits t.calls 1 o).execute_rule hrequest polls

/-- Any other calls nothing there. -/
theorem cancel_elsewhere (polls : Nat) {t : State ω} (hnot : ¬ t.self.Sends o) :
    Spec (fun s => s = t) (Method.cancel env polls number) (fun _ s => Elsewhere o t.calls s.calls)
      (fun _ s => Elsewhere o t.calls s.calls) := by
  refine cancel_rule (fun _ => Elsewhere.start _) fun o' hconn => ?_
  by_cases ho : o' = o
  · -- then it may not try once
    have hattempts : t.self.maxConnectionAttempts = 0 := by
      by_contra hne
      exact hnot ⟨hconn.trans (congrArg some ho), Nat.pos_of_ne_zero hne⟩
    rintro s rfl
    unfold Method.execute Method.retry
    rw [EStateM.run_bind, EStateM.run_bind, EStateM.run_get]
    simp only [hattempts]
    exact Elsewhere.start _
  · refine Spec.conseq ((elsewhere_abides t.calls ho _).execute_keeps polls) ?_ (fun _ _ hs => hs)
      fun _ _ hs => hs
    rintro s rfl
    exact Elsewhere.start _

/-- The connection that closing a generator cancels with. -/
def Connection.canceller (self : Connection) : Slots :=
  if self.asynchronous then Method.syncConnection self else self.toSlots

/-- Closing cancels with the canceller, whatever comes of it. -/
theorem close_rule {polls : Nat} {s : State ω} {args : SearchArgs} {controls : Option Controls}
    {o' : Obj} {msgid : MsgId} {response : Response} {rest allResults : List Result}
    {K : List (Call ω) → Prop} (hmsgid : response.msgid = some number)
    (hcancel : ∀ t : State ω, t.self.toSlots = s.self.canceller → t.calls = s.calls →
      Spec (fun t' => t' = t) (Method.cancel env polls number) (fun _ t' => K t'.calls)
        (fun _ t' => K t'.calls)) :
    Spec (fun t => t = s)
      (Method.close env polls (.suspended args controls o' msgid response rest allResults))
      (fun _ t => K t.calls) (fun _ t => K t.calls) := by
  unfold Method.close
  refine Method.Discipline.searchedFor_rule (Spec.tryCatch (E := fun _ t => K t.calls) ?_ fun e => ?_)
  · rw [hmsgid]
    refine Spec.bind (Q := fun s₀ t => s₀ = s ∧ t = s) (Spec.get fun t ht => ⟨ht, ht⟩) fun s₀ => ?_
    refine Spec.assume fun hs₀ => ?_
    rw [hs₀]
    unfold Connection.canceller at hcancel
    cases hasync : s.self.asynchronous with
    | true =>
      rw [hasync] at hcancel
      refine Spec.map (Spec.zoom fun t ht => ?_) fun _ _ hs => hs
      exact hcancel _ (by rw [ht]; rfl) (by rw [ht])
    | false =>
      rw [hasync] at hcancel
      exact Spec.map (hcancel s rfl rfl) fun _ _ hs => hs
  · exact Spec.ite (fun _ => Spec.pure fun _ hs => hs) fun _ => Spec.throw fun _ hs => hs

/-! ## Taking and leaving -/

theorem Elsewhere.not_doneRead {start calls log : List (Call ω)} (h : Elsewhere o start calls)
    (hcalls : calls = start ++ log) (msgid : MsgId) : ¬ DoneRead o msgid log := by
  obtain ⟨log', hcalls', hlog⟩ := h
  obtain rfl := List.append_cancel_left (hcalls.symm.trans hcalls')
  rintro ⟨w, r, hmem, -⟩
  exact hlog _ hmem rfl

theorem Elsewhere.cancelled {start calls log : List (Call ω)} (h : Elsewhere o start calls)
    (hcalls : calls = start ++ log) : cancelled o number log = 0 := by
  obtain ⟨log', hcalls', hlog⟩ := h
  obtain rfl := List.append_cancel_left (hcalls.symm.trans hcalls')
  rw [FreeIam.Ldap.cancelled, List.countP_eq_zero]
  intro call hcall hcancels
  unfold Call.cancels at hcancels
  split at hcancels
  · rw [Bool.and_eq_true, decide_eq_true_eq] at hcancels
    exact hlog _ hcall hcancels.1
  · cases hcancels

/-- Left at a `yield`, the operation is cancelled where the generator is closed by a connection
that can send on its object. -/
theorem leave_tells {s : State ω} {args : SearchArgs} {controls : Option Controls} {o' : Obj}
    {msgid msgid' : MsgId} {response : Response} {rest allResults : List Result}
    (htakes : TakesCancel env o msgid.number) (hmsgid : response.msgid = some msgid.number) (polls : Nat)
    (how : Leave) :
    Tells (how = .close ∧ s.self.canceller.Sends o) o msgid s.calls
      ((Method.take env polls how 0
        (.suspended args controls o' msgid' response rest allResults)).run s) := by
  have hrun : ∀ iter, (final ((Method.take env polls how 0 iter).run s)).calls =
      (final ((Method.leave env polls how iter).run s)).calls ∧
        ∀ s', (Method.take env polls how 0 iter).run s ≠ .ok true s' := by
    intro iter
    rw [Method.take, run_map]
    cases (Method.leave env polls how iter).run s with
    | ok u s' => exact ⟨rfl, fun _ h => by cases h⟩
    | error e s' => exact ⟨rfl, fun _ h => by cases h⟩
  obtain ⟨hcalls, hnever⟩ := hrun (.suspended args controls o' msgid' response rest allResults)
  -- nothing is called on the object unless a Cancel is sent
  have helsewhere (helse : Elsewhere o s.calls (final ((Method.leave env polls how
      (.suspended args controls o' msgid' response rest allResults)).run s)).calls)
      (hnot : ¬ (how = .close ∧ s.self.canceller.Sends o)) :
      Tells (how = .close ∧ s.self.canceller.Sends o) o msgid s.calls
        ((Method.take env polls how 0
          (.suspended args controls o' msgid' response rest allResults)).run s) := by
    obtain ⟨log, hlog, hall⟩ := id helse
    exact ⟨log, hcalls.trans hlog, fun h => absurd h hnot,
      fun _ => ⟨helse.not_doneRead hlog msgid, helse.cancelled hlog⟩⟩
  cases how with
  | close =>
    have hclose {K : List (Call ω) → Prop} (hcancel : ∀ t : State ω, t.self.toSlots = s.self.canceller →
        t.calls = s.calls → Spec (fun t' => t' = t) (Method.cancel env polls msgid.number) (fun _ t' => K t'.calls)
          (fun _ t' => K t'.calls)) :
        K (final ((Method.leave env polls .close
          (.suspended args controls o' msgid' response rest allResults)).run s)).calls := by
      have hspec : Spec (fun t => t = s)
          (Method.close env polls (.suspended args controls o' msgid' response rest allResults))
          (fun _ t => K t.calls) (fun _ t => K t.calls) := close_rule hmsgid hcancel
      exact hspec.final rfl
    by_cases hsends : s.self.canceller.Sends o
    · have hcounted : Counted o msgid.number s.calls 1 (final ((Method.leave env polls .close
          (.suspended args controls o' msgid' response rest allResults)).run s)).calls := by
        apply hclose
        intro t ht hstart
        rw [← hstart]
        exact cancel_sends htakes polls (ht ▸ hsends)
      obtain ⟨log, hlog, hone⟩ := hcounted
      exact ⟨log, hcalls.trans hlog, fun _ => ⟨.inr hone, fun s' h => absurd h (hnever s')⟩,
        fun h => absurd ⟨rfl, hsends⟩ h⟩
    · refine helsewhere ?_ fun h => hsends h.2
      apply hclose
      intro t ht hstart
      rw [← hstart]
      exact cancel_elsewhere polls (ht ▸ hsends)
  | throw e =>
    refine helsewhere ?_ fun h => by cases h.1
    have hthrow : Spec (fun t => t = s) (Method.searchedFor env args (throw e : Method ω Unit))
        (fun _ t => Elsewhere o s.calls t.calls) (fun _ t => Elsewhere o s.calls t.calls) := by
      refine Method.Discipline.searchedFor_rule (Spec.throw ?_)
      rintro t rfl
      exact Elsewhere.start _
    exact hthrow.final rfl

/-- An exception that ends the generator leaves the operation running. -/
theorem Tells.raised {c : Prop} {msgid : MsgId} {args : SearchArgs} {m : Method ω (Option Result × SearchIter)}
    {more : SearchIter → Method ω Bool} {s s' : State ω} {e : PyExc} (h : m.run s = .error e s') (hc : ¬ c) :
    Tells c o msgid s'.calls ((Method.searchedFor env args m >>= Method.goOn more).run s) := by
  have hraise : Spec (fun t => t = s) (Method.searchedFor env args m >>= Method.goOn more)
      (fun _ _ => False) (fun _ t => t.calls = s'.calls) := by
    refine Spec.bind (Method.Discipline.searchedFor_rule (Q := fun _ _ => False) ?_) fun _ t ht => ht.elim
    rintro t rfl
    rw [h]
  have hrun := hraise s rfl
  refine ⟨[], ?_, fun h => absurd h hc, fun _ => ⟨?_, rfl⟩⟩
  · rw [List.append_nil]
    cases hcase : (Method.searchedFor env args m >>= Method.goOn more).run s with
    | ok a t =>
      rw [hcase] at hrun
      exact hrun.elim
    | error e t =>
      rw [hcase] at hrun
      exact hrun
  · rintro ⟨w, r, hmem, -⟩
    cases hmem

/-- An entry is wrapped, and counted, and yielded. -/
theorem searchLoop_entry (args : SearchArgs) (controls : Option Controls) (allResults : List Result)
    {msgid : MsgId} {polls : Nat} {r : Response} {s s' : State ω} {dn : PyStr}
    {attributes : List (PyStr × List Bytes)}
    (hpoll : (Method.poll env o msgid false (polls + 1)).run s = .ok (some r) s')
    (hdata : r.data = some [(some dn, .entry attributes)]) :
    (Method.searchLoop env args o msgid (polls + 1) controls allResults).run s =
      match Result.fromResponse env (some dn) (some (.entry attributes)) (Result.setControls r controls) r with
      | .error e => .error e s'
      | .ok result =>
        if args.unique = true ∧ 1 < (allResults ++ [result]).length then
          .error (.notUnique (allResults ++ [result])) s'
        else .ok (some result, .suspended args (Result.setControls r controls) o msgid r []
          (allResults ++ [result])) s' := by
  have hlist : Result.listFromResponse env (Result.setControls r controls) r [(some dn, .entry attributes)] =
      (Result.fromResponse env (some dn) (some (.entry attributes)) (Result.setControls r controls) r).map
        fun result => [result] := by
    unfold Result.listFromResponse
    rw [List.mapM_cons, List.mapM_nil]
    cases Result.fromResponse env (some dn) (some (.entry attributes)) (Result.setControls r controls) r <;> rfl
  rw [Method.searchLoop, EStateM.run_bind, hpoll]
  unfold Method.responseResults
  simp only [hdata, EStateM.run_bind, hlist]
  cases Result.fromResponse env (some dn) (some (.entry attributes)) (Result.setControls r controls) r with
  | error e => rfl
  | ok result =>
    simp only [Except.map, Method.ofExcept_ok]
    by_cases hmany : args.unique = true ∧ 1 < (allResults ++ [result]).length
    · rw [if_pos hmany, onlyIf_true hmany]
      rfl
    · rw [if_neg hmany, onlyIf_false hmany]
      rfl

/-- An entry ends the generator with an exception: its name is none, or it is a second one of a
search for a unique entry. -/
def EndsIter (env : Env ω) (args : SearchArgs) (dn : PyStr) (seen : Nat) : Prop :=
  (∃ e, DN.init env dn = .error e) ∨ (args.unique = true ∧ 1 < seen + 1)

/-- An entry that ends the generator. -/
theorem searchLoop_raises (args : SearchArgs) (controls : Option Controls) (allResults : List Result)
    {msgid : MsgId} {polls : Nat} {r : Response} {s s' : State ω} {dn : PyStr}
    {attributes : List (PyStr × List Bytes)}
    (hpoll : (Method.poll env o msgid false (polls + 1)).run s = .ok (some r) s')
    (hdata : r.data = some [(some dn, .entry attributes)]) (hends : EndsIter env args dn allResults.length) :
    ∃ e, (Method.searchLoop env args o msgid (polls + 1) controls allResults).run s = .error e s' := by
  rw [searchLoop_entry args controls allResults hpoll hdata]
  cases hd : DN.init env dn with
  | error e =>
    have hresult : Result.fromResponse env (some dn) (some (.entry attributes))
        (Result.setControls r controls) r = .error e := by
      unfold Result.fromResponse
      simp only [Option.mapM_some, hd]
      rfl
    rw [hresult]
    exact ⟨e, rfl⟩
  | ok d =>
    obtain ⟨result, hresult, -⟩ :=
      Result.fromResponse_entry attributes (Result.setControls r controls) r hd
    have hmany : args.unique = true ∧ 1 < (allResults ++ [result]).length := by
      rw [List.length_append, List.length_singleton]
      rcases hends with ⟨e, he⟩ | hmany
      · cases hd.symm.trans he
      · exact hmany
    rw [hresult]
    exact ⟨_, if_pos hmany⟩

/-- Any other entry is yielded. -/
theorem searchLoop_yields (args : SearchArgs) (controls : Option Controls) (allResults : List Result)
    {msgid : MsgId} {n : Nat} {r : Response} {s s' : State ω} {dn : PyStr}
    {attributes : List (PyStr × List Bytes)}
    (hpoll : ∀ polls, n ≤ polls → (Method.poll env o msgid false polls).run s = .ok (some r) s')
    (hdata : r.data = some [(some dn, .entry attributes)]) (hgoes : ¬ EndsIter env args dn allResults.length) :
    ∃ result, ∀ polls, n ≤ polls + 1 →
      (Method.searchLoop env args o msgid (polls + 1) controls allResults).run s =
        .ok (some result, .suspended args (Result.setControls r controls) o msgid r []
          (allResults ++ [result])) s' := by
  cases hd : DN.init env dn with
  | error e => exact absurd (.inl ⟨e, hd⟩) hgoes
  | ok d =>
    obtain ⟨result, hresult, -⟩ :=
      Result.fromResponse_entry attributes (Result.setControls r controls) r hd
    have hfew : ¬ (args.unique = true ∧ 1 < (allResults ++ [result]).length) := by
      rw [List.length_append, List.length_singleton]
      exact fun hmany => hgoes (.inr hmany)
    refine ⟨result, fun polls hpolls => ?_⟩
    rw [searchLoop_entry args controls allResults (hpoll (polls + 1) hpolls) hdata, hresult]
    exact if_neg hfew

/-- What is left of a run, after some entries, is left well: the consumer comes to no entry that
ends the generator, and where it leaves at a `yield`, it closes the generator and the connection
that cancels can send on the object of the search. -/
structure LeftWellFrom (env : Env ω) (args : SearchArgs) (connection : Connection) (o : Obj) (how : Leave)
    (msgs : List SearchMessage) (seen count : Nat) : Prop where
  names : ValidNames env (msgs.take (count + 1))
  unique : args.unique = true → seen + (msgs.take (count + 1)).length ≤ 1
  closed : count + 1 ≤ msgs.length → how = .close ∧ connection.canceller.Sends o

section

variable {args : SearchArgs} {connection : Connection} {how : Leave} {msgs : List SearchMessage}
  {dn : PyStr} {attributes : List (PyStr × List Bytes)} {seen : Nat}

theorem EndsIter.not_leftWell (hends : EndsIter env args dn seen) (count : Nat) :
    ¬ LeftWellFrom env args connection o how (.entry dn attributes :: msgs) seen count := by
  intro h
  rcases hends with ⟨e, he⟩ | ⟨hunique, hmany⟩
  · obtain ⟨d, hd⟩ := h.names dn attributes List.mem_cons_self
    cases he.symm.trans hd
  · have hfew := h.unique hunique
    rw [List.take_succ_cons, List.length_cons] at hfew
    omega

/-- The names of the entries up to one that does not end the generator. -/
theorem validNames_cons (hgoes : ¬ EndsIter env args dn seen) (count : Nat) :
    ValidNames env ((SearchMessage.entry dn attributes :: msgs).take (count + 1)) ↔
      ValidNames env (msgs.take count) := by
  rw [List.take_succ_cons]
  constructor
  · exact fun h dn' attributes' hmem => h dn' attributes' (List.mem_cons_of_mem _ hmem)
  · intro h dn' attributes' hmem
    rcases List.mem_cons.mp hmem with heq | hmem
    · cases heq
      cases hd : DN.init env dn with
      | error e => exact absurd (.inl ⟨e, hd⟩) hgoes
      | ok d => exact ⟨d, rfl⟩
    · exact h dn' attributes' hmem

/-- A run that takes the first entry only is left at its `yield`. -/
theorem leftWellFrom_zero (hgoes : ¬ EndsIter env args dn seen) :
    LeftWellFrom env args connection o how (.entry dn attributes :: msgs) seen 0 ↔
      (how = .close ∧ connection.canceller.Sends o) := by
  constructor
  · intro h
    exact h.closed (Nat.succ_le_succ (Nat.zero_le _))
  · intro hleft
    refine ⟨(validNames_cons hgoes 0).mpr fun _ _ hmem => absurd hmem List.not_mem_nil,
      fun hunique => ?_, fun _ => hleft⟩
    rw [List.take_succ_cons, List.take_zero, List.length_singleton]
    by_contra hmore
    exact hgoes (.inr ⟨hunique, by omega⟩)

/-- A run that takes more is left as the rest of it is. -/
theorem leftWellFrom_succ (hgoes : ¬ EndsIter env args dn seen) (count : Nat) :
    LeftWellFrom env args connection o how (.entry dn attributes :: msgs) seen (count + 1) ↔
      LeftWellFrom env args connection o how msgs (seen + 1) count := by
  have hnames : ValidNames env ((SearchMessage.entry dn attributes :: msgs).take (count + 1 + 1)) ↔
      ValidNames env (msgs.take (count + 1)) := validNames_cons hgoes (count + 1)
  have hlength : seen + ((SearchMessage.entry dn attributes :: msgs).take (count + 1 + 1)).length
      = seen + 1 + (msgs.take (count + 1)).length := by
    rw [List.take_succ_cons, List.length_cons]
    omega
  constructor
  · intro h
    exact ⟨hnames.mp h.names, fun hunique => hlength ▸ h.unique hunique,
      fun hle => h.closed (Nat.succ_le_succ hle)⟩
  · intro h
    exact ⟨hnames.mpr h.names, fun hunique => hlength.symm ▸ h.unique hunique,
      fun hle => h.closed (Nat.le_of_succ_le_succ hle)⟩

end

/-- From a poll on, by what the consumer takes and how it leaves. -/
theorem loop_tells {args : SearchArgs} (how : Leave) (msgid : MsgId) {K : ω → Prop}
    (htakes : TakesCancel env o msgid.number) {msgs : List SearchMessage}
    (hmsgs : ∀ m ∈ msgs, m.isReference = false) {rs : List Response} (hrs : Singly msgs rs)
    (hnumbered : ∀ r ∈ rs, r.msgid = some msgid.number) :
    ∀ (s : State ω) (controls : Option Controls) (allResults : List Result) (count : Nat),
      0 < s.self.maxConnectionAttempts → (args.unique = true → allResults.length ≤ 1) →
      DeliveredTo env s.self.toSlots o msgid.number false K rs s.world →
      ∃ n, ∀ polls, n ≤ polls → Tells
        (LeftWellFrom env args s.self o how msgs allResults.length count) o msgid s.calls
        ((Method.searchedFor env args (Method.searchLoop env args o msgid polls controls allResults) >>=
          Method.goOn (Method.take env polls how count)).run s) := by
  induction hrs with
  | @done r htype hdata =>
    intro s controls allResults count hattempts hseen hdel
    obtain ⟨n, w', log, hlog, -, hpoll⟩ := Method.poll_delivered msgid hattempts hdel
    refine ⟨n + 1, fun polls hpolls => ?_⟩
    obtain ⟨p, rfl⟩ : ∃ p, polls = p + 1 := ⟨polls - 1, by omega⟩
    have hfew : ¬ (args.unique = true ∧ 1 < allResults.length) := fun h => by
      have := hseen h.1
      omega
    -- the last reply has no pairs, and the loop ends after it
    have hloop : (Method.searchLoop env args o msgid (p + 1) controls allResults).run s =
        .ok (none, .finished) ⟨s.self, w', s.calls ++ log⟩ := by
      rw [Method.searchLoop, EStateM.run_bind, hpoll (p + 1) (by omega)]
      unfold Method.responseResults
      simp [hdata, hfew, Method.goesOn, htype]
    rw [EStateM.run_bind, Method.searchedFor_ok hloop]
    refine ⟨log, rfl, fun _ => ⟨.inl (hlog.doneRead_iff.mpr htype), fun _ _ => hlog.cancelled _⟩, fun hnot => ?_⟩
    refine absurd ⟨fun _ _ hmem => ?_, fun hunique => ?_, fun hle => ?_⟩ hnot
    · cases hmem
    · exact hseen hunique
    · exact absurd hle (Nat.not_succ_le_zero count)
  | @message m msgs r rs htype hdata hrest ih =>
    intro s controls allResults count hattempts hseen hdel
    obtain ⟨n, w', log, hlog, hdel', hpoll⟩ := Method.poll_delivered msgid hattempts hdel
    cases m with
    | reference urls => cases hmsgs (.reference urls) List.mem_cons_self
    | entry dn attributes =>
      have hread : ¬ DoneRead o msgid log := by
        rw [hlog.doneRead_iff, htype]
        simp [SearchMessage.type]
      have hafter {c : Prop} {outcome : EStateM.Result PyExc (State ω) Bool}
          (h : Tells c o msgid (s.calls ++ log) outcome) : Tells c o msgid s.calls outcome :=
        h.after hread (hlog.cancelled _)
      by_cases hends : EndsIter env args dn allResults.length
      · refine ⟨n + 1, fun polls hpolls => hafter ?_⟩
        obtain ⟨p, rfl⟩ : ∃ p, polls = p + 1 := ⟨polls - 1, by omega⟩
        obtain ⟨e, hloop⟩ :=
          searchLoop_raises args controls allResults (hpoll (p + 1) (by omega)) hdata hends
        exact Tells.raised hloop (hends.not_leftWell count)
      · obtain ⟨result, hloop⟩ := searchLoop_yields args controls allResults hpoll hdata hends
        cases count with
        | zero =>
          refine ⟨n + 1, fun polls hpolls => hafter ?_⟩
          obtain ⟨p, rfl⟩ : ∃ p, polls = p + 1 := ⟨polls - 1, by omega⟩
          rw [EStateM.run_bind, Method.searchedFor_ok (hloop p (by omega))]
          exact Tells.congr (leave_tells htakes (hnumbered r List.mem_cons_self) (p + 1) how)
            (leftWellFrom_zero hends).symm
        | succ count =>
          have hlength : (allResults ++ [result]).length = allResults.length + 1 := by
            rw [List.length_append, List.length_singleton]
          obtain ⟨n', hmore⟩ := ih (fun m' hmem => hmsgs m' (List.mem_cons_of_mem _ hmem))
            (fun r' hmem => hnumbered r' (List.mem_cons_of_mem _ hmem)) ⟨s.self, w', s.calls ++ log⟩
            (Result.setControls r controls) (allResults ++ [result]) count hattempts (fun hunique => by
              by_contra hmany
              exact hends (.inr ⟨hunique, by omega⟩)) hdel'
          refine ⟨max n n' + 1, fun polls hpolls => hafter ?_⟩
          obtain ⟨p, rfl⟩ : ∃ p, polls = p + 1 := ⟨polls - 1, by omega⟩
          -- resumed after the last of its results, the generator polls again
          have hnext : Method.next env (p + 1) (.suspended args (Result.setControls r controls) o msgid r []
                (allResults ++ [result])) =
              Method.searchedFor env args (Method.searchLoop env args o msgid (p + 1)
                (Result.setControls r controls) (allResults ++ [result])) := by
            simp [Method.next, Method.goesOn, htype, SearchMessage.type]
          rw [EStateM.run_bind, Method.searchedFor_ok (hloop p (by omega))]
          show Tells _ _ _ _ ((Method.next env (p + 1) (.suspended args (Result.setControls r controls) o msgid
            r [] (allResults ++ [result])) >>= _).run _)
          rw [hnext]
          refine (hmore (p + 1) (by omega)).congr ?_
          rw [hlength]
          exact (leftWellFrom_succ hends count).symm

/-- A connection to a server that answers an iterative search with these entries. All its
responses have the message ID of the search, and python-ldap takes a Cancel for it. -/
structure ServedIter (env : Env ω) (args : SearchArgs) (msgs : List SearchMessage) (s : State ω)
    extends Served env args false true s (Singly msgs) where
  entries : ∀ m ∈ msgs, m.isReference = false
  numbered : ∀ r ∈ received, r.msgid = some number
  takes : TakesCancel env o number

/-- The consumer comes to no entry that ends the generator with an exception: neither one whose
name is none nor, with `unique`, a second one. If it leaves at a `yield`, it closes the
generator, and the connection that cancels can send on the object of the search. -/
structure LeftWell (env : Env ω) (args : SearchArgs) (msgs : List SearchMessage) (connection : Connection)
    (o : Obj) (how : Leave) (count : Nat) : Prop where
  names : ValidNames env (msgs.take count)
  unique : args.unique = true → (msgs.take count).length ≤ 1
  closed : 0 < count → count ≤ msgs.length → how = .close ∧ connection.canceller.Sends o

/-- A generator leaves nothing running exactly where it is left well. -/
theorem search_iter_leaves_nothing_iff {args : SearchArgs} {msgs : List SearchMessage} {s : State ω}
    (hs : ServedIter env args msgs s) (how : Leave) (count : Nat) :
    ∃ n, ∀ polls, n ≤ polls →
      (LeavesNothing hs.o ⟨hs.number, s.calls.length⟩ s.calls
          ((Method.take env polls how count (.created args)).run s) ↔
        LeftWell env args msgs s.self hs.o how count) := by
  cases count with
  | zero =>
    -- a generator that was not started has sent nothing
    refine ⟨0, fun polls _ => iff_of_true ⟨[], ?_, .inl rfl, fun s' h => ?_⟩ ⟨?_, ?_, ?_⟩⟩
    · cases how <;> exact (List.append_nil _).symm
    · rfl
    · exact fun _ _ hmem => absurd hmem List.not_mem_nil
    · exact fun _ => Nat.zero_le 1
    · exact fun h => absurd h (Nat.lt_irrefl 0)
  | succ count =>
    let call : Call ω :=
      .request hs.o (args.operation s.self.timeout hs.controls) (.ok (some hs.number)) hs.world
    have hsend := Method.retry_ok env hs.attempts (Method.request_ok hs.sent)
    obtain ⟨n, hloop⟩ := loop_tells how ⟨hs.number, s.calls.length⟩ hs.takes hs.entries
      hs.described hs.numbered { s with world := hs.world, calls := s.calls ++ [call] }
      hs.controls [] count hs.attempts (fun _ => Nat.zero_le 1) hs.delivered.to
    refine ⟨n, fun polls hpolls => ?_⟩
    have hrun : (Method.take env polls how (count + 1) (.created args)).run s =
        (Method.searchedFor env args (Method.searchLoop env args hs.o ⟨hs.number, s.calls.length⟩ polls
          hs.controls []) >>= Method.goOn (Method.take env polls how count)).run
            { s with world := hs.world, calls := s.calls ++ [call] } := by
      rw [Method.take, EStateM.run_bind, Method.next]
      simp only [EStateM.run_bind, Method.conn_ok hs.connected, hs.controlled, Method.ofExcept_ok]
      rw [searchedFor_bind (EStateM.run_get s), searchedFor_bind hsend]
    rw [hrun]
    have htells := hloop polls hpolls
    have hne : (final ((Method.searchedFor env args (Method.searchLoop env args hs.o
        ⟨hs.number, s.calls.length⟩ polls hs.controls []) >>=
          Method.goOn (Method.take env polls how count)).run
            { s with world := hs.world, calls := s.calls ++ [call] })).calls ≠ s.calls := by
      obtain ⟨log, hcalls, -⟩ := htells
      rw [hcalls]
      intro heq
      have hlength := congrArg List.length heq
      rw [List.append_assoc, List.length_append, List.length_append, List.length_singleton] at hlength
      omega
    have hread : ¬ DoneRead hs.o ⟨hs.number, s.calls.length⟩ [call] := by
      rintro ⟨w, r, hmem, -⟩
      have heq : Call.request hs.o (args.operation s.self.timeout hs.controls) (.ok (some hs.number))
          hs.world = .result hs.o ⟨hs.number, s.calls.length⟩ w (.ok r) := (List.mem_singleton.mp hmem).symm
      cases heq
    have hcancelled : cancelled hs.o hs.number [call] = 0 := by
      simp [cancelled, call, Call.cancels, SearchArgs.operation, Request.with]
    rw [(htells.after hread hcancelled).iff hne, List.length_nil]
    constructor
    · intro h
      have hunique := h.unique
      rw [Nat.zero_add] at hunique
      exact ⟨h.names, hunique, fun _ => h.closed⟩
    · intro h
      have hunique := h.unique
      rw [← Nat.zero_add (List.length _)] at hunique
      exact ⟨h.names, hunique, h.closed (Nat.succ_pos count)⟩

end

/-! ### A generator that is closed, and one that is not -/

/-- The messages of two entries. -/
def twoMessages : List SearchMessage := [.entry (py "cn=a") [], .entry (py "cn=b") []]

theorem twoMessages_entries : ∀ m ∈ twoMessages, m.isReference = false := by
  simp [twoMessages, SearchMessage.isReference]

theorem replies_numbered {msgs : List SearchMessage} : ∀ r ∈ replies msgs, r.msgid = some 1 := by
  intro r hr
  rcases List.mem_append.mp hr with hr | hr
  · obtain ⟨m, -, rfl⟩ := List.mem_map.mp hr
    rfl
  · obtain rfl := List.mem_singleton.mp hr
    rfl

theorem scripted_takesCancel (o : Obj) (number : Nat) : TakesCancel scripted o number :=
  fun w => ⟨1, w, rfl⟩

/-- The scripted server sends the two entries. -/
def servedTwo : ServedIter scripted {} twoMessages (scriptedState (replies twoMessages)) where
  toServed := servedSingly twoMessages
  entries := twoMessages_entries
  numbered := replies_numbered
  takes := scripted_takesCancel 0 1

/-- Closed after the first of them, the generator leaves nothing. -/
theorem search_iter_leaves_nothing_iff_closed :
    ∃ n, ∀ polls, n ≤ polls → LeavesNothing 0 ⟨1, 0⟩ []
      ((Method.take scripted polls .close 1 (.created {})).run (scriptedState (replies twoMessages))) := by
  obtain ⟨n, hiff⟩ := search_iter_leaves_nothing_iff servedTwo .close 1
  refine ⟨n, fun polls hpolls => (hiff polls hpolls).mpr ⟨fun _ _ _ => ⟨_, rfl⟩, fun _ => ?_, fun _ _ => ?_⟩⟩
  · exact Nat.le_refl 1
  · exact ⟨rfl, rfl, Nat.succ_pos 9⟩

/-- With `unique` the second entry ends it with `NotUnique`, and nothing is cancelled. -/
theorem search_iter_not_unique_runs :
    ¬ ∃ n, ∀ polls, n ≤ polls → LeavesNothing 0 ⟨1, 0⟩ []
      ((Method.take scripted polls .close 2 (.created { unique := true })).run
        (scriptedState (replies twoMessages))) := by
  let op : Operation := SearchArgs.operation { unique := true } (-1) none
  rintro ⟨n, h⟩
  obtain ⟨log, hcalls, hended, -⟩ := h (n + 1) (Nat.le_succ n)
  have hlog : log = [.request 0 op (.ok (some 1)) (replies twoMessages),
      .result 0 ⟨1, 0⟩ (replies twoMessages) (.ok (reply .searchEntry [.entry (py "cn=a") []])),
      .result 0 ⟨1, 0⟩ (replies twoMessages).tail (.ok (reply .searchEntry [.entry (py "cn=b") []]))] :=
    hcalls.symm
  subst hlog
  rcases hended with hnil | ⟨w, r, hmem, htype⟩ | hone
  · cases hnil
  · simp only [List.mem_cons, List.not_mem_nil, or_false] at hmem
    rcases hmem with heq | heq | heq
    · cases heq
    · cases heq
      cases htype
    · cases heq
      cases htype
  · cases hone

end FreeIam.Ldap
