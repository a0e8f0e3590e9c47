import FreeIam.Ldap.Connection.Rules

/-!
# Responses that arrive

What the methods do while the connection holds: a request that python-ldap takes
is sent at the first attempt, and a polling loop yields the responses in the
order in which python-ldap delivers them, however often it is asked in vain in
between.
-/

namespace FreeIam.Ldap

open FreeIam.Py FreeIam.Errors FreeIam.Exec

namespace Method

variable {ω α : Type} {env : Env ω}

/-! ## Runs that return -/

theorem onWorld_ok {m : EStateM PyExc ω α} {s : State ω} {a : α} {w : ω}
    (h : m.run s.world = .ok a w) :
    (onWorld m : Method ω α).run s = .ok a { s with world := w } := by
  unfold onWorld
  rw [run_zoom, h]

@[simp] theorem ofExcept_ok (a : α) (s : State ω) :
    (ofExcept (.ok a) : Method ω α).run s = .ok a s := rfl

@[simp] theorem ofExcept_error (e : PyExc) (s : State ω) :
    (ofExcept (.error e) : Method ω α).run s = .error e s := rfl

theorem conn_ok {s : State ω} {o : Obj} (h : s.self.conn = some o) : conn.run s = .ok o s := by
  unfold conn
  rw [EStateM.run_bind, EStateM.run_get]
  simp [h]

theorem conn_none {s : State ω} (h : s.self.conn = none) :
    conn.run s = .error (.runtimeError "not connected") s := by
  unfold conn
  rw [EStateM.run_bind, EStateM.run_get]
  simp [h]

theorem searchedFor_ok {args : SearchArgs} {m : Method ω α} {s s' : State ω} {a : α}
    (h : m.run s = .ok a s') : (searchedFor env args m).run s = .ok a s' := by
  unfold searchedFor
  rw [run_tryCatch, h]

theorem request_ok {s : State ω} {o : Obj} {op : Operation} {number : Nat} {w : ω}
    (h : (env.request o op).run s.world = .ok (some number) w) :
    (request env o op).run s =
      .ok (some ⟨number, s.calls.length⟩)
        { s with world := w, calls := s.calls ++ [.request o op (.ok (some number)) w] } := by
  rw [request_run, h]
  rfl

theorem getResult_ok {s : State ω} {o : Obj} {msgid : MsgId} {all : Bool} {timeout : Int}
    {r : Response} {w : ω} (h : (env.result4 o msgid.number all timeout).run s.world = .ok r w) :
    (getResult env o msgid all timeout).run s =
      .ok r { s with world := w, calls := s.calls ++ [.result o msgid s.world (.ok r)] } := by
  rw [getResult_run, h]

variable (env) in
/-- A step that returns at once is not repeated. -/
theorem retry_ok {m : Method ω α} {s s' : State ω} {a : α}
    (hattempts : 0 < s.self.maxConnectionAttempts) (h : m.run s = .ok a s') :
    (retry env m).run s = .ok a s' := by
  obtain ⟨n, hn⟩ := Nat.exists_eq_succ_of_ne_zero (Nat.ne_of_gt hattempts)
  unfold retry
  rw [EStateM.run_bind, EStateM.run_get]
  simp only [hn]
  rw [retryLoop, run_tryCatch, EStateM.run_bind, onlyIf_false (by simp)]
  simp [h]

/-- Neither is one that fails for another reason than a lost connection. -/
theorem retry_error {m : Method ω α} {s s' : State ω} {e : PyExc}
    (hattempts : 0 < s.self.maxConnectionAttempts) (he : e.lost = false)
    (h : m.run s = .error e s') : (retry env m).run s = .error e s' := by
  obtain ⟨n, hn⟩ := Nat.exists_eq_succ_of_ne_zero (Nat.ne_of_gt hattempts)
  unfold retry
  rw [EStateM.run_bind, EStateM.run_get]
  simp only [hn]
  rw [retryLoop, run_tryCatch, EStateM.run_bind, onlyIf_false (by simp)]
  simp [h, he]

end Method

/-! ## Delivery -/

variable {ω : Type} (env : Env ω)

/-- The operation that a call hands to python-ldap. -/
def Call.operation? : Call ω → Option Operation
  | .request _ op _ _ => some op
  | .result .. => none

/-- The operations that were handed to python-ldap, in order. -/
def requested (calls : List (Call ω)) : List Operation := calls.filterMap Call.operation?

@[simp] theorem requested_append (calls log : List (Call ω)) :
    requested (calls ++ log) = requested calls ++ requested log := List.filterMap_append ..

@[simp] theorem requested_request (o : Obj) (op : Operation) (outcome : Except PyExc (Option Nat))
    (after : ω) (log : List (Call ω)) :
    requested (.request o op outcome after :: log) = op :: requested log := rfl

@[simp] theorem requested_result (o : Obj) (msgid : MsgId) (before : ω)
    (outcome : Except PyExc Response) (log : List (Call ω)) :
    requested (.result o msgid before outcome :: log) = requested log := rfl

/-- One wait of a connection for the message ID `number`: `result4` returns `r`,
after the event loop has found the descriptor readable where there is one. -/
def Received (self : Slots) (o : Obj) (number : Nat) (all : Bool) (w : ω) (r : Response) (w' : ω) :
    Prop :=
  if self.asynchronous then
    ∃ w₁, (env.readable o self.timeout).run w = .ok () w₁ ∧
      (env.result4 o number all 0).run w₁ = .ok r w'
  else (env.result4 o number all self.timeout).run w = .ok r w'

/-- A connection that waits for a message ID again and again receives these
responses, with any finite number of waits in vain before each of them. -/
inductive Delivered (self : Slots) (o : Obj) (number : Nat) (all : Bool) : List Response → ω → Prop
  | done (w : ω) : Delivered self o number all [] w
  | vain {w w' : ω} {r : Response} {rs : List Response} : Received env self o number all w r w' →
      r.type = none → Delivered self o number all rs w' → Delivered self o number all rs w
  | next {w w' : ω} {r : Response} {rs : List Response} : Received env self o number all w r w' →
      r.type ≠ none → Delivered self o number all rs w' → Delivered self o number all (r :: rs) w

/-- The same, up to a state with `K` after the last response. -/
inductive DeliveredTo (self : Slots) (o : Obj) (number : Nat) (all : Bool) (K : ω → Prop) :
    List Response → ω → Prop
  | done {w : ω} : K w → DeliveredTo self o number all K [] w
  | vain {w w' : ω} {r r' : Response} {rs : List Response} : Received env self o number all w r w' →
      r.type = none → DeliveredTo self o number all K (r' :: rs) w' →
      DeliveredTo self o number all K (r' :: rs) w
  | next {w w' : ω} {r : Response} {rs : List Response} : Received env self o number all w r w' →
      r.type ≠ none → DeliveredTo self o number all K rs w' →
      DeliveredTo self o number all K (r :: rs) w

section

variable {env : Env ω} {self : Slots} {o : Obj} {number : Nat} {all : Bool} {K : ω → Prop}

theorem Delivered.to {rs : List Response} {w : ω} (h : Delivered env self o number all rs w) :
    DeliveredTo env self o number all (fun _ => True) rs w := by
  induction h with
  | done w => exact .done trivial
  | @vain w w' r rs hrec htype _ ih =>
    cases rs with
    | nil => exact .done trivial
    | cons r' rs => exact .vain hrec htype ih
  | next hrec htype _ ih => exact .next hrec htype ih

theorem DeliveredTo.delivered {rs : List Response} {w : ω}
    (h : DeliveredTo env self o number all K rs w) : Delivered env self o number all rs w := by
  induction h with
  | @done w _ => exact .done w
  | vain hrec htype _ ih => exact .vain hrec htype ih
  | next hrec htype _ ih => exact .next hrec htype ih

/-- What is delivered depends on how `result4` and the event loop answer, and on nothing
else. -/
theorem DeliveredTo.congr {env' : Env ω} {rs : List Response} {w : ω}
    (h : DeliveredTo env self o number all K rs w) (hresult : env'.result4 = env.result4)
    (hreadable : env'.readable = env.readable) : DeliveredTo env' self o number all K rs w := by
  have hreceived : ∀ w r w', Received env' self o number all w r w' ↔
      Received env self o number all w r w' := by
    intro w r w'
    unfold Received
    rw [hresult, hreadable]
  induction h with
  | done hK => exact .done hK
  | vain hrec htype _ ih => exact .vain ((hreceived _ _ _).mpr hrec) htype ih
  | next hrec htype _ ih => exact .next ((hreceived _ _ _).mpr hrec) htype ih

/-- Nothing is waited for after the last response. -/
theorem DeliveredTo.nil {w : ω} (h : DeliveredTo env self o number all K [] w) : K w := by
  cases h with
  | done hK => exact hK

theorem DeliveredTo.type_ne_none {r : Response} {rs : List Response} {w : ω}
    (h : DeliveredTo env self o number all K (r :: rs) w) : r.type ≠ none := by
  generalize hl : r :: rs = l at h
  induction h with
  | done _ => cases hl
  | vain _ _ _ ih => exact ih hl
  | next _ htype _ _ =>
    obtain ⟨rfl, -⟩ := List.cons.inj hl
    exact htype

end

/-- The waits for a message ID, up to the one that has returned the response. -/
inductive Listened {ω : Type} (o : Obj) (msgid : MsgId) (r : Response) : List (Call ω) → Prop
  | came (w : ω) : Listened o msgid r [.result o msgid w (.ok r)]
  | vain {w : ω} {r' : Response} {log : List (Call ω)} : r'.type = none → Listened o msgid r log →
      Listened o msgid r (.result o msgid w (.ok r') :: log)

theorem Listened.requested {ω : Type} {o : Obj} {msgid : MsgId} {r : Response} {log : List (Call ω)}
    (h : Listened o msgid r log) : requested log = [] := by
  induction h with
  | came w => rfl
  | vain _ _ ih => exact ih

/-- One wait for the message ID `number` in which `result4` raises. -/
def Refused (self : Slots) (o : Obj) (number : Nat) (all : Bool) (w : ω) (e : PyExc) (w' : ω) :
    Prop :=
  if self.asynchronous then
    ∃ w₁, (env.readable o self.timeout).run w = .ok () w₁ ∧
      (env.result4 o number all 0).run w₁ = .error e w'
  else (env.result4 o number all self.timeout).run w = .error e w'

namespace Method

variable {ω : Type} {env : Env ω} {o : Obj} {msgid : MsgId} {all : Bool} {K : ω → Prop}

/-- One wait of the synchronous loop. -/
theorem awaitSync_received {s : State ω} {r : Response} {w' : ω}
    (hattempts : 0 < s.self.maxConnectionAttempts) (hsync : s.self.asynchronous = false)
    (h : Received env s.self.toSlots o msgid.number all s.world r w') :
    (awaitSync env o msgid all).run s =
      .ok r { s with world := w', calls := s.calls ++ [.result o msgid s.world (.ok r)] } := by
  rw [Received, if_neg (by simp [hsync])] at h
  unfold awaitSync
  rw [EStateM.run_bind, EStateM.run_get]
  exact retry_ok env hattempts (getResult_ok h)

/-- One round of the asynchronous loop: the response, if it is one. -/
theorem ready_received {s : State ω} {r : Response} {w₁ w' : ω}
    (h : (env.result4 o msgid.number all 0).run w₁ = .ok r w') :
    (ready env o msgid all).run { s with world := w₁ } =
      .ok (if r.type = none then none else some r)
        { s with world := w', calls := s.calls ++ [.result o msgid w₁ (.ok r)] } := by
  unfold ready
  rw [run_tryCatch, EStateM.run_bind, getResult_ok (s := { s with world := w₁ }) h]
  rfl

/-- The asynchronous wait returns the first response, given rounds enough. -/
theorem awaitAsync_delivered {self : Slots} (hasync : self.asynchronous = true) {rs : List Response}
    {w : ω} (h : DeliveredTo env self o msgid.number all K rs w) :
    ∀ {r : Response} {rs' : List Response} {s : State ω}, rs = r :: rs' → s.world = w →
      s.self.toSlots = self →
      ∃ n w' log, Listened o msgid r log ∧ DeliveredTo env self o msgid.number all K rs' w' ∧
        ∀ polls, n ≤ polls →
        (awaitAsync env o msgid all polls).run s = .ok r ⟨s.self, w', s.calls ++ log⟩ := by
  induction h with
  | done _ =>
    intro r rs' s hrs
    cases hrs
  | @vain w w' r₀ r₁ rs hrec htype hrest ih =>
    intro r rs' s hrs hw hself
    subst hw
    rw [Received, if_pos hasync] at hrec
    obtain ⟨w₁, hread, hres⟩ := hrec
    obtain ⟨n, w'', log, hlog, hdel, hrun⟩ := ih
      (s := { s with world := w', calls := s.calls ++ [.result o msgid w₁ (.ok r₀)] }) hrs rfl hself
    refine ⟨n + 1, w'', .result o msgid w₁ (.ok r₀) :: log, .vain htype hlog, hdel, ?_⟩
    intro polls hpolls
    obtain ⟨p, rfl⟩ : ∃ p, polls = p + 1 := ⟨polls - 1, by omega⟩
    -- the round is in vain: the loop starts over
    rw [awaitAsync, EStateM.run_bind, EStateM.run_get]
    simp only [EStateM.run_bind]
    rw [show s.self.timeout = self.timeout by rw [← hself], onWorld_ok hread]
    simp only [ready_received hres, htype, if_true]
    rw [hrun p (by omega)]
    simp
  | @next w w' r₀ rs hrec htype hrest ih =>
    intro r rs' s hrs hw hself
    subst hw
    obtain ⟨rfl, rfl⟩ := List.cons.inj hrs
    rw [Received, if_pos hasync] at hrec
    obtain ⟨w₁, hread, hres⟩ := hrec
    refine ⟨1, w', [.result o msgid w₁ (.ok r₀)], .came w₁, hrest, ?_⟩
    intro polls hpolls
    obtain ⟨p, rfl⟩ : ∃ p, polls = p + 1 := ⟨polls - 1, by omega⟩
    rw [awaitAsync, EStateM.run_bind, EStateM.run_get]
    simp only [EStateM.run_bind]
    rw [show s.self.timeout = self.timeout by rw [← hself], onWorld_ok hread]
    simp only [ready_received hres, htype, if_false]
    rfl

/-- The synchronous loop, by induction on the waits in vain. -/
theorem poll_sync {self : Slots} (hsync : self.asynchronous = false)
    (hattempts : 0 < self.maxConnectionAttempts) {rs : List Response} {w : ω}
    (h : DeliveredTo env self o msgid.number all K rs w) :
    ∀ {r : Response} {rs' : List Response} {s : State ω}, rs = r :: rs' → s.world = w →
      s.self.toSlots = self →
      ∃ n w' log, Listened o msgid r log ∧ DeliveredTo env self o msgid.number all K rs' w' ∧
        ∀ polls, n ≤ polls →
        (poll env o msgid all polls).run s = .ok (some r) ⟨s.self, w', s.calls ++ log⟩ := by
  induction h with
  | done _ =>
    intro r rs' s hrs
    cases hrs
  | @vain w w' r₀ r₁ rs hrec htype hrest ih =>
    intro r rs' s hrs hw hself
    subst hw hself
    -- a response without a type is polled over
    have hwait := awaitSync_received hattempts hsync hrec
    obtain ⟨n, w'', log, hlog, hdel, hrun⟩ := ih
      (s := { s with world := w', calls := s.calls ++ [.result o msgid s.world (.ok r₀)] }) hrs rfl rfl
    refine ⟨n + 1, w'', .result o msgid s.world (.ok r₀) :: log, .vain htype hlog, hdel, ?_⟩
    intro polls hpolls
    obtain ⟨p, rfl⟩ : ∃ p, polls = p + 1 := ⟨polls - 1, by omega⟩
    rw [poll]
    simp only [EStateM.run_bind, run_tryCatch, EStateM.run_get, hsync]
    rw [if_neg (by simp), run_map, hwait]
    simp [hrun p (by omega), htype]
  | @next w w' r₀ rs hrec htype hrest ih =>
    intro r rs' s hrs hw hself
    subst hw hself
    obtain ⟨rfl, rfl⟩ := List.cons.inj hrs
    have hwait := awaitSync_received hattempts hsync hrec
    refine ⟨1, w', [.result o msgid s.world (.ok r₀)], .came s.world, hrest, ?_⟩
    intro polls hpolls
    obtain ⟨p, rfl⟩ : ∃ p, polls = p + 1 := ⟨polls - 1, by omega⟩
    rw [poll]
    simp only [EStateM.run_bind, run_tryCatch, EStateM.run_get, hsync]
    rw [if_neg (by simp), run_map, hwait]
    simp [htype]

variable (msgid) in
/-- `_poll` yields the first response that is delivered, given rounds enough. -/
theorem poll_delivered {s : State ω} (hattempts : 0 < s.self.maxConnectionAttempts)
    {r : Response} {rs : List Response}
    (h : DeliveredTo env s.self.toSlots o msgid.number all K (r :: rs) s.world) :
    ∃ n w' log, Listened o msgid r log ∧ DeliveredTo env s.self.toSlots o msgid.number all K rs w' ∧
      ∀ polls, n ≤ polls →
        (poll env o msgid all polls).run s = .ok (some r) ⟨s.self, w', s.calls ++ log⟩ := by
  cases hasync : s.self.asynchronous with
  | false => exact poll_sync hasync hattempts h rfl rfl rfl
  | true =>
    obtain ⟨n, w', log, hlog, hdel, hrun⟩ := awaitAsync_delivered hasync h rfl rfl rfl
    refine ⟨n + 1, w', log, hlog, hdel, ?_⟩
    intro polls hpolls
    obtain ⟨p, rfl⟩ : ∃ p, polls = p + 1 := ⟨polls - 1, by omega⟩
    rw [poll]
    simp only [EStateM.run_bind, run_tryCatch, EStateM.run_get, hasync]
    rw [if_pos trivial, run_map, hrun (p + 1) (by omega)]
    simp [h.type_ne_none]

variable (msgid) in
/-- `_poll` raises the error of `result4`. -/
theorem poll_refused {s : State ω} {err : LdapError} {w' : ω}
    (hattempts : 0 < s.self.maxConnectionAttempts) (hlost : (PyExc.lib err).lost = false)
    (hclass : (PyExc.lib err).is .noResultsReturned = false)
    (h : Refused env s.self.toSlots o msgid.number all s.world (.ldap err) w') :
    ∃ log, requested log = [] ∧ ∀ polls, 1 ≤ polls →
      (poll env o msgid all polls).run s = .error (.lib err) ⟨s.self, w', s.calls ++ log⟩ := by
  have hresult : ∀ {timeout : Int} {w : ω}, (env.result4 o msgid.number all timeout).run w =
      .error (.ldap err) w' → (getResult env o msgid all timeout).run { s with world := w } =
        .error (.lib err) ⟨s.self, w', s.calls ++ [.result o msgid w (.error (.ldap err))]⟩ := by
    intro timeout w hrun
    rw [getResult_run, hrun]
    rfl
  unfold Refused at h
  cases hasync : s.self.asynchronous with
  | false =>
    -- `result4` raises within the wait
    rw [if_neg (by simp [hasync])] at h
    refine ⟨[.result o msgid s.world (.error (.ldap err))], rfl, fun polls hpolls => ?_⟩
    obtain ⟨p, rfl⟩ : ∃ p, polls = p + 1 := ⟨polls - 1, by omega⟩
    have hwait : (awaitSync env o msgid all).run s = .error (.lib err)
        ⟨s.self, w', s.calls ++ [.result o msgid s.world (.error (.ldap err))]⟩ := by
      unfold awaitSync
      rw [EStateM.run_bind, EStateM.run_get]
      exact retry_error hattempts hlost (hresult h)
    rw [poll]
    simp only [EStateM.run_bind, run_tryCatch, EStateM.run_get, hasync]
    rw [if_neg (by simp), run_map, hwait]
    simp [hclass]
  | true =>
    -- the reader is called, and `result4` raises there
    rw [if_pos hasync] at h
    obtain ⟨w₁, hread, hrun⟩ := h
    refine ⟨[.result o msgid w₁ (.error (.ldap err))], rfl, fun polls hpolls => ?_⟩
    obtain ⟨p, rfl⟩ : ∃ p, polls = p + 1 := ⟨polls - 1, by omega⟩
    have hready : (ready env o msgid all).run { s with world := w₁ } = .error (.lib err)
        ⟨s.self, w', s.calls ++ [.result o msgid w₁ (.error (.ldap err))]⟩ := by
      unfold ready
      rw [run_tryCatch, EStateM.run_bind, hresult hrun]
      rfl
    have hwait : (awaitAsync env o msgid all (p + 1)).run s = .error (.lib err)
        ⟨s.self, w', s.calls ++ [.result o msgid w₁ (.error (.ldap err))]⟩ := by
      rw [awaitAsync, EStateM.run_bind, EStateM.run_get]
      simp only [EStateM.run_bind]
      rw [onWorld_ok hread]
      simp only [hready]
    rw [poll]
    simp only [EStateM.run_bind, run_tryCatch, EStateM.run_get, hasync]
    rw [if_pos trivial, run_map, hwait]
    simp [hclass]

/-- An operation whose request is taken and whose reply is the last of its kind returns it. -/
theorem execute_delivered {s : State ω} {op : Operation} {number : Nat} {w : ω}
    (hattempts : 0 < s.self.maxConnectionAttempts)
    (hreq : (env.request o op).run s.world = .ok (some number) w) {r : Response}
    {rs : List Response} (h : DeliveredTo env s.self.toSlots o number true K (r :: rs) w)
    (hlast : goesOn r = false) :
    ∃ n w' log, requested log = [op] ∧ DeliveredTo env s.self.toSlots o number true K rs w' ∧
      ∀ polls, n ≤ polls → (execute env polls o op).run s = .ok r ⟨s.self, w', s.calls ++ log⟩ := by
  have hsend := retry_ok env hattempts (request_ok hreq)
  obtain ⟨n, w', log, hlog, hdel, hrun⟩ := poll_delivered ⟨number, s.calls.length⟩
    (s := { s with world := w, calls := s.calls ++ [.request o op (.ok (some number)) w] }) hattempts h
  refine ⟨n, w', .request o op (.ok (some number)) w :: log, by rw [requested_request, hlog.requested], hdel, ?_⟩
  intro polls hpolls
  unfold execute
  simp only [EStateM.run_bind, hsend, hrun polls hpolls, hlast]
  simp

/-- An operation whose request is taken raises the error of `result4`. -/
theorem execute_refused {s : State ω} {op : Operation} {number : Nat} {w w' : ω} {err : LdapError}
    (hattempts : 0 < s.self.maxConnectionAttempts)
    (hreq : (env.request o op).run s.world = .ok (some number) w)
    (hlost : (PyExc.lib err).lost = false) (hclass : (PyExc.lib err).is .noResultsReturned = false)
    (h : Refused env s.self.toSlots o number true w (.ldap err) w') :
    ∃ log, requested log = [op] ∧ ∀ polls, 1 ≤ polls →
      (execute env polls o op).run s = .error (.lib err) ⟨s.self, w', s.calls ++ log⟩ := by
  have hsend := retry_ok env hattempts (request_ok hreq)
  obtain ⟨log, hlog, hrun⟩ := poll_refused ⟨number, s.calls.length⟩
    (s := { s with world := w, calls := s.calls ++ [.request o op (.ok (some number)) w] })
    hattempts hlost hclass h
  refine ⟨.request o op (.ok (some number)) w :: log, by rw [requested_request, hlog],
    fun polls hpolls => ?_⟩
  unfold execute
  simp only [EStateM.run_bind, hsend, hrun polls hpolls]
  simp

end Method

end FreeIam.Ldap
