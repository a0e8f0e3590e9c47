import FreeIam.Ldap.Connection.Delivery
import FreeIam.Ldap.Connection.Write

/-!
# Exchanges

An operation and the one reply to it. A server is a machine on states of its own:
the state decides the answer to an operation, and the answer comes with the next
state.
-/

namespace FreeIam.Ldap

open FreeIam.Py FreeIam.Errors FreeIam.Exec

/-- The requests that a server replies to. -/
def Request.replied : Request → Bool
  | .unbindExt => false
  | .abandonExt _ => false
  | _ => true

section

variable {ω : Type} (env : Env ω) (self : Slots) (o : Obj) (op : Operation) (K : ω → Prop)

/-- One exchange: python-ldap takes the request, and its only reply arrives, or the wait
for it raises what the server refuses it with. After it the outside is in a state with
`K`. -/
inductive Exchange (w : ω) : Except LdapError Response → Prop
  | accepted {number : Nat} {w₁ : ω} {r : Response} :
      (env.request o op).run w = .ok (some number) w₁ →
      DeliveredTo env self o number true K [r] w₁ → Method.goesOn r = false → Exchange w (.ok r)
  | refused {number : Nat} {w₁ w₂ : ω} {err : LdapError} :
      (env.request o op).run w = .ok (some number) w₁ →
      Refused env self o number true w₁ (.ldap err) w₂ → K w₂ → (PyExc.lib err).lost = false →
      (PyExc.lib err).is .noResultsReturned = false → Exchange w (.error err)

end

/-- A server with states `D`. -/
structure Server {ω : Type} (env : Env ω) (slots : Slots) (o : Obj) (D : Type) where
  /-- The state of the server, where no operation is under way. -/
  state : ω → Option D
  answer : D → Operation → Except LdapError Response × D
  exchange : ∀ {w : ω} {d : D} (op : Operation), state w = some d → op.request.replied = true →
    Exchange env slots o op (fun w' => state w' = some (answer d op).2) w (answer d op).1

/-- What `_execute` makes of an answer. -/
def answered {ω : Type} (s : State ω) :
    Except LdapError Response → EStateM.Result PyExc (State ω) Response
  | .ok r => .ok r s
  | .error err => .error (.lib err) s

/-- What an operation on an entry makes of an answer. -/
def written {ω : Type} (dn : DN) (controls : Option Controls) (s : State ω) :
    Except LdapError Response → EStateM.Result PyExc (State ω) Result
  | .ok r => .ok { dn := some dn, attr := none, controls := Result.controlResponse controls r.ctrls
                   response := r } s
  | .error err => .error (.lib err) s

namespace Method

variable {ω : Type} {self : Connection} {o : Obj} {w : ω} {calls : List (Call ω)}

variable (calls) in
theorem execute_exchange {env : Env ω} {op : Operation} {K : ω → Prop}
    {answer : Except LdapError Response} (hattempts : 0 < self.maxConnectionAttempts)
    (h : Exchange env self.toSlots o op K w answer) :
    ∃ n w' log, K w' ∧ requested log = [op] ∧ ∀ polls, n ≤ polls →
      (execute env polls o op).run ⟨self, w, calls⟩ = answered ⟨self, w', calls ++ log⟩ answer := by
  cases h with
  | accepted hsent hdel hlast =>
    obtain ⟨n, w', log, hlog, hdone, hrun⟩ :=
      execute_delivered (s := ⟨self, w, calls⟩) hattempts hsent hdel hlast
    exact ⟨n, w', log, hdone.nil, hlog, hrun⟩
  | @refused number w₁ w₂ err hsent hrefused hK hlost hclass =>
    obtain ⟨log, hlog, hrun⟩ :=
      execute_refused (s := ⟨self, w, calls⟩) hattempts hsent hlost hclass hrefused
    exact ⟨1, w₂, log, hK, hlog, hrun⟩

variable {lib : Modlists ω} {D : Type} {d : D}

variable (calls) in
/-- An operation on an entry sends its request once, and comes to the server's answer. -/
theorem executeWrite_run (hattempts : 0 < self.maxConnectionAttempts)
    (server : Server lib.toEnv self.toSlots o D) (hstate : server.state w = some d) (request : Request)
    (hreplied : request.replied = true) {dn : DnArg} {name : DN}
    (hget : DN.get lib.toNames dn = .ok name) (controls : Option Controls) :
    ∃ n w' log, server.state w' = some (server.answer d (request.with controls)).2 ∧
      requested log = [request.with controls] ∧ ∀ polls, n ≤ polls →
        (executeWrite lib polls o request dn controls).run ⟨self, w, calls⟩ =
          written name controls ⟨self, w', calls ++ log⟩ (server.answer d (request.with controls)).1 := by
  obtain ⟨n, w', log, hnext, hlog, hrun⟩ := execute_exchange calls hattempts
    (server.exchange (request.with controls) hstate hreplied)
  refine ⟨n, w', log, hnext, hlog, fun polls hpolls => ?_⟩
  unfold executeWrite
  rw [EStateM.run_bind, hrun polls hpolls]
  cases hanswer : (server.answer d (request.with controls)).1 with
  | error err => rfl
  | ok r =>
    unfold answered writeResult
    rw [hget]
    rfl

end Method

/-! ## A server as the outside -/

/-- An answer that ends an exchange. -/
def ProperAnswer : Except LdapError Response → Prop
  | .ok r => r.type ≠ none ∧ Method.goesOn r = false
  | .error err => (PyExc.lib err).lost = false ∧ (PyExc.lib err).is .noResultsReturned = false

section

variable {D : Type} (answer : D → Operation → Except LdapError Response × D)

/-- The outside that consists of a server, and its last answer: names are those of
letters and digits, and every reply is there when it is waited for. -/
def serving : Modlists (D × Except LdapError Response) :=
  { Env.idle (D × Except LdapError Response) with
    str2dn := readRdns
    dn2str := printRdns
    lower := lower
    hash := fun x => Encodable.encode x
    modifyModlist := fun _ _ => []
    request := fun _ op w => .ok (some 1) ((answer w.1 op).2, (answer w.1 op).1)
    result4 := fun _ _ _ _ w =>
      match w.2 with
      | .ok r => .ok r w
      | .error err => .error (.ldap err) w }

variable {answer}

theorem serving_exchange (hproper : ∀ d op, ProperAnswer (answer d op).1) (slots : Slots)
    {w : D × Except LdapError Response} {d : D} (op : Operation)
    (hw : some w.1 = some d) (_ : op.request.replied = true) :
    Exchange (serving answer).toEnv slots 0 op (fun w' => some w'.1 = some (answer d op).2) w
      (answer d op).1 := by
  cases hw
  have hanswer := hproper w.1 op
  have hsent : ((serving answer).request 0 op).run w =
      .ok (some 1) ((answer w.1 op).2, (answer w.1 op).1) := rfl
  cases hcase : (answer w.1 op).1 with
  | ok r =>
    rw [hcase] at hanswer hsent
    have hreceived : Received (serving answer).toEnv slots 0 1 true ((answer w.1 op).2, .ok r) r
        ((answer w.1 op).2, .ok r) := by
      unfold Received
      split
      · exact ⟨_, rfl, rfl⟩
      · rfl
    exact .accepted hsent (.next hreceived hanswer.1 (.done rfl)) hanswer.2
  | error err =>
    rw [hcase] at hanswer hsent
    have hrefused : Refused (serving answer).toEnv slots 0 1 true ((answer w.1 op).2, .error err)
        (.ldap err) ((answer w.1 op).2, .error err) := by
      unfold Refused
      split
      · exact ⟨_, rfl, rfl⟩
      · rfl
    exact .refused hsent hrefused rfl hanswer.1 hanswer.2

/-- The server, for a connection to it. -/
def servingServer (hproper : ∀ d op, ProperAnswer (answer d op).1) (slots : Slots) :
    Server (serving answer).toEnv slots 0 D where
  state := fun w => some w.1
  answer := answer
  exchange := serving_exchange hproper slots

theorem serving_roundTrips : (serving answer).RoundTrips := simpleNames_roundTrips

theorem serving_noCollision : (serving answer).NoCollision := simpleNames_noCollision

end

/-- A synchronous connection to the object 0. -/
def connectedSelf : Connection := { Connection.init false (py "ldap://localhost") with conn := some 0 }

/-- Before the first answer. -/
def unasked : Except LdapError Response := .error { cls := .timeout }

/-- The connection with a server in this state, which has not been asked yet. -/
def servingState {D : Type} (d : D) : State (D × Except LdapError Response) :=
  ⟨connectedSelf, (d, unasked), []⟩

theorem connectedSelf_conn : connectedSelf.conn = some 0 := rfl

theorem connectedSelf_attempts : 0 < connectedSelf.maxConnectionAttempts := Nat.succ_pos 9

end FreeIam.Ldap
