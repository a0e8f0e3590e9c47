import FreeIam.Ldap.Connection.Rules

/-!
# Programs that use a connection

A program calls the methods of a connection one after the other and may go on
after an exception; the generators it has made with `search_iter` it resumes and
closes as it likes, also between other calls.
-/

namespace FreeIam.Ldap

open FreeIam.Py FreeIam.Errors FreeIam.Exec

/-- A call that a program makes. The operations that are a single request, such as
`add` or `modify`, are `execute`; a generator is known by its number. -/
inductive Use
  | connect (fileno : Option Int)
  | disconnect
  | reconnect (force : Bool)
  | startTls
  | setOption (option : LdapOption) (value : OptionValue) (append : Bool)
  | getOption (option : LdapOption)
  | bind (authzid password : Option PyStr) (controls : Option Controls)
  | saslBind (mechanism : Sasl)
  | unbind (controls : Option Controls)
  | whoami (controls : Option Controls)
  | execute (request : Request) (controls : Option Controls) (dn : Option PyStr)
  | extended (request : ExtendedRequest) (responseClass : Option ExtendedResponse)
      (controls : Option Controls)
  | cancel (msgid : Nat) (controls : Option Controls)
  | search (args : SearchArgs)
  | searchIter (args : SearchArgs)
  | next (i : Nat)
  | close (i : Nat)

namespace Use

/-- The calls that execute one operation and leave the credentials alone. -/
def isOperation : Use → Bool
  | .execute _ _ _ | .extended _ _ _ | .cancel _ _ | .search _ => true
  | _ => false

/-- The operations that record or forget credentials. -/
def isBinding : Use → Bool
  | .bind _ _ _ | .unbind _ => true
  | _ => false

/-- The calls that python-ldap runs to their end before it returns, options apart. -/
def isSynchronous : Use → Bool
  | .reconnect _ | .startTls | .saslBind _ | .whoami _ => true
  | _ => false

def isOption : Use → Bool
  | .setOption _ _ _ | .getOption _ => true
  | _ => false

end Use

variable {ω : Type} (env : Env ω) (polls : Nat)

open Method in
/-- The method of a call; what it returns is left out. Those on generators have
their own definition below. -/
def Use.method : Use → Method ω Unit
  | .connect fileno => Method.connect env fileno
  | .disconnect => Method.disconnect env
  | .reconnect force => Method.reconnect env force
  | .startTls => Method.startTls env
  | .setOption option value append => Method.setOption env option value append
  | .getOption option => discard (Method.getOption env option)
  | .bind authzid password controls => discard (Method.bind env polls authzid password controls)
  | .saslBind mechanism => Method.saslBind env mechanism
  | .unbind controls => discard (Method.unbind env polls controls)
  | .whoami controls => discard (Method.whoami env controls)
  | .execute request controls dn => discard (executeResult env polls request controls dn)
  | .extended request responseClass controls =>
    discard (Method.extended env polls request responseClass controls)
  | .cancel msgid controls => discard (Method.cancel env polls msgid controls)
  | .search args => discard (Method.search env polls args)
  | .searchIter _ => pure ()
  | .next _ => pure ()
  | .close _ => pure ()

/-- A program that runs: the state, and the generators it has made. -/
structure Running (ω : Type) where
  state : State ω
  iters : List SearchIter

namespace Running

/-- The generator of a number; one that was never made is like one that has finished. -/
def iter (r : Running ω) (i : Nat) : SearchIter := r.iters.getD i .finished

/-- The program after a generator has run: one that raises has finished. -/
def resume (r : Running ω) (i : Nat) :
    EStateM.Result PyExc (State ω) (Option Result × SearchIter) → Running ω
  | .ok step s => { state := s, iters := r.iters.set i step.2 }
  | .error _ s => { state := s, iters := r.iters.set i .finished }

/-- The program after a call. -/
def step (r : Running ω) : Use → Running ω
  | .searchIter args => { r with iters := r.iters ++ [.created args] }
  | .next i => r.resume i ((Method.next env polls (r.iter i)).run r.state)
  | .close i =>
    { state := final ((Method.close env polls (r.iter i)).run r.state)
      iters := r.iters.set i .finished }
  | use => { r with state := final ((use.method env polls).run r.state) }

end Running

namespace Use

variable {env} {polls} {I L : Method.Holding → State ω → Prop} {J : State ω → Prop}

theorem operation_keeps (h : Method.Discipline env I L) {use : Use} (huse : use.isOperation = true) :
    Keeps (I .nothing) (use.method env polls) := by
  cases use with
  | execute request controls dn => exact Keeps.discard (h.executeResult_keeps polls request controls dn)
  | extended request responseClass controls =>
    exact Keeps.discard (h.extended_keeps polls request responseClass controls)
  | cancel msgid controls => exact Keeps.discard (h.cancel_keeps polls msgid controls)
  | search args => exact Keeps.discard (h.search_keeps polls args)
  | _ => cases huse

theorem binding_keeps (h : Method.Discipline env I L)
    (hauth : ∀ held s auth, I held s → I held { s with self := { s.self with lastAuthState := auth } })
    {use : Use} (huse : use.isBinding = true) : Keeps (I .nothing) (use.method env polls) := by
  cases use with
  | bind authzid password controls =>
    exact Keeps.discard (h.bind_keeps polls authzid password controls hauth)
  | unbind controls => exact Keeps.discard (h.unbind_keeps polls controls hauth)
  | _ => cases huse

theorem synchronous_keeps (h : Method.Synchronous env J) {use : Use} (huse : use.isSynchronous = true) :
    Keeps J (use.method env polls) := by
  cases use with
  | reconnect force => exact h.toReconnecting.reconnect_keeps force
  | startTls => exact h.startTls_keeps
  | saslBind mechanism => exact h.saslBind_keeps mechanism
  | whoami controls => exact Keeps.discard (h.whoami_keeps controls)
  | _ => cases huse

theorem option_keeps (h : Method.Calm env J) (hoptions : Method.Recordable J) {use : Use}
    (huse : use.isOption = true) : Keeps J (use.method env polls) := by
  cases use with
  | setOption option value append => exact h.setOption_keeps option value append fun _ => hoptions
  | getOption option => exact Keeps.discard (h.getOption_keeps option)
  | _ => cases huse

end Use

/-! ## Slots that a call leaves alone -/

namespace Method

variable {env}

/-- `P` is about slots that are not assigned when a session is secured. -/
structure Lasting (P : Connection → Prop) : Prop where
  startTls : ∀ self startTls, P self → P { self with startTls := startTls }
  attempts : ∃ n, ∀ self, P self → self.maxConnectionAttempts = n

namespace Lasting

variable {P : Connection → Prop} (h : Lasting P)
include h

theorem synchronous : Synchronous env fun s => P s.self where
  startTls := fun s startTls hs => h.startTls s.self startTls hs
  loop := onWorld_rule fun _ hs => hs
  setOption := fun _ _ _ => onWorld_rule fun _ hs => hs.1
  getOption := fun _ _ => onWorld_rule fun _ hs => hs.1
  reconnect := fun _ _ _ _ => onWorld_rule fun _ hs => hs.1
  simpleBindS := fun _ _ => onWorld_rule fun _ hs => hs.1
  saslInteractiveBindS := fun _ _ => onWorld_rule fun _ hs => hs.1
  whoamiS := fun _ _ => onWorld_rule fun _ hs => hs.1
  startTlsS := fun _ => onWorld_rule fun _ hs => hs.1

theorem discipline : Discipline env (fun _ s => P s.self) (fun _ s => P s.self) where
  calm := fun _ => h.synchronous.toCalm
  reconnecting := fun _ => h.synchronous.toReconnecting
  keep := fun _ _ hs => hs
  attempts := h.attempts.imp fun n hn _ s hs => hn s.self hs
  object := fun _ _ _ hs _ => hs
  release := fun _ _ hs => hs
  answered := fun _ _ _ hs => hs
  readable := fun _ _ _ => onWorld_rule fun _ hs => hs
  request := fun o op => by
    refine request_rule (fun s msgid w hs _ => ?_) fun s e w hs _ => ⟨hs, fun _ _ => hs⟩
    cases msgid with
    | none => exact hs
    | some number => exact hs
  result := fun o msgid all timeout =>
    getResult_rule (fun s r w hs _ => hs) fun s e w hs _ => ⟨hs, fun _ _ => hs⟩

end Lasting

/-- `P` is about slots that are neither assigned when a session is made or secured
nor when the connection is given up. -/
structure Steady (P : Connection → Prop) : Prop where
  startTls : ∀ self startTls, P self → P { self with startTls := startTls }
  conn : ∀ self conn, P self → P { self with conn := conn, connS := none }
  attempts : ∃ n, ∀ self, P self → self.maxConnectionAttempts = n

namespace Steady

variable {P : Connection → Prop} (h : Steady P)
include h

theorem lasting : Lasting P := ⟨h.startTls, h.attempts⟩

theorem synchronous : Synchronous env fun s => P s.self := h.lasting.synchronous

theorem discipline : Discipline env (fun _ s => P s.self) (fun _ s => P s.self) :=
  h.lasting.discipline

theorem connect_keeps (fileno : Option Int) : Keeps (fun s => P s.self) (connect env fileno) := by
  unfold connect
  refine Keeps.bind Keeps.get fun s₀ => Keeps.bind (Keeps.onlyIf (Keeps.throw _)) fun _ => ?_
  refine Keeps.bind Keeps.get fun s₁ => Keeps.bind ?_ fun o => ?_
  · unfold newLdapObject
    exact Keeps.ite (onWorld_rule fun _ hs => hs) (onWorld_rule fun _ hs => hs)
  · refine Keeps.bind (Keeps.modify fun s hs => h.conn s.self (some o) hs) fun _ => ?_
    exact Keeps.bind Keeps.get fun s₂ => Keeps.onlyIf h.synchronous.startTls_keeps

theorem disconnect_keeps : Keeps (fun s => P s.self) (disconnect env) := by
  unfold disconnect
  refine Keeps.bind Keeps.get fun s₀ => ?_
  refine Keeps.bind (Keeps.onlyIf (h.synchronous.toCalm.removeReader_keeps)) fun _ => ?_
  exact Keeps.modify fun s hs => h.conn s.self none hs

end Steady

end Method

end FreeIam.Ldap
