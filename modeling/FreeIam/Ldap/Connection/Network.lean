import FreeIam.Ldap.Connection.Rules

/-!
# Sessions

What python-ldap does on the network, as far as it is documented: an LDAP object
has a session, its synchronous methods may start a new one and repeat StartTLS
there, and all that is sent goes over the session the object has at the time.
`Network` reads this off the state of the outside, `Documented` is what is known.
-/

namespace FreeIam.Ldap

open FreeIam.Py FreeIam.Errors FreeIam.Exec

/-! ## The wire -/

/-- What happens on the sessions, in the order in which it happens. Unbinding
closes a session, it is not a request. -/
inductive Wire
  | opened (session : Nat)
  | startTls (session : Nat) (success : Bool)
  | request (session : Nat)
  | closed (session : Nat)
  deriving DecidableEq

/-- No request is sent on a session on which StartTLS has not succeeded. -/
def Protected (wire : List Wire) : Prop :=
  ∀ before session after, wire = before ++ .request session :: after →
    .startTls session true ∈ before

theorem protected_nil : Protected [] := by
  intro before session after h
  cases before <;> cases h

/-- One more event: if it is a request, StartTLS has succeeded on its session. -/
theorem Protected.snoc {wire : List Wire} (h : Protected wire) {event : Wire}
    (hevent : ∀ session, event = .request session → .startTls session true ∈ wire) :
    Protected (wire ++ [event]) := by
  intro before session after heq
  rcases List.append_eq_append_iff.mp heq with ⟨tail, hbefore, htail⟩ | ⟨tail, hwire, htail⟩
  · -- the request is the event, or there is none after it
    cases tail with
    | nil =>
      obtain ⟨rfl, -⟩ := List.cons.inj htail
      rw [hbefore, List.append_nil]
      exact hevent session rfl
    | cons e tail => simp at htail
  · cases tail with
    | nil =>
      obtain ⟨rfl, -⟩ := List.cons.inj htail
      rw [List.append_nil] at hwire
      exact hwire ▸ hevent session rfl
    | cons e tail =>
      obtain ⟨rfl, -⟩ := List.cons.inj htail
      exact h before session tail hwire

/-! ## Links -/

/-- An LDAP object: whether it is a `ReconnectLDAPObject`, whether `start_tls_s`
has succeeded on it, and its session. -/
structure Link where
  reconnecting : Bool
  startTls : Bool
  session : Option Nat
  deriving DecidableEq

/-- What a synchronous method may do on a link. A new session is started on a
`ReconnectLDAPObject` only; StartTLS is repeated there where `start_tls_s` has
succeeded before, and the session is closed again if that fails. -/
inductive Moves : Link → List Wire → Link → List Wire → Prop
  | done (l : Link) (wire : List Wire) : Moves l wire l wire
  | request {l l' : Link} {wire wire' : List Wire} {s : Nat} : l.session = some s →
      Moves l (wire ++ [.request s]) l' wire' → Moves l wire l' wire'
  | failedTls {l l' : Link} {wire wire' : List Wire} {s : Nat} : l.session = some s →
      Moves l (wire ++ [.startTls s false]) l' wire' → Moves l wire l' wire'
  | close {l l' : Link} {wire wire' : List Wire} {s : Nat} : l.session = some s →
      Moves { l with session := none } (wire ++ [.closed s]) l' wire' → Moves l wire l' wire'
  | plain {l l' : Link} {wire wire' : List Wire} (s : Nat) : l.reconnecting = true →
      l.session = none → l.startTls = false →
      Moves { l with session := some s } (wire ++ [.opened s]) l' wire' → Moves l wire l' wire'
  | secured {l l' : Link} {wire wire' : List Wire} (s : Nat) : l.reconnecting = true →
      l.session = none → l.startTls = true →
      Moves { l with session := some s } (wire ++ [.opened s] ++ [.startTls s true]) l' wire' →
      Moves l wire l' wire'
  | refused {l l' : Link} {wire wire' : List Wire} (s : Nat) : l.reconnecting = true →
      l.session = none → l.startTls = true →
      Moves l (wire ++ [.opened s] ++ [.startTls s false] ++ [.closed s]) l' wire' →
      Moves l wire l' wire'

/-- One thing after the other. -/
theorem Moves.trans {l l₁ l' : Link} {wire wire₁ wire' : List Wire} (h : Moves l wire l₁ wire₁)
    (h' : Moves l₁ wire₁ l' wire') : Moves l wire l' wire' := by
  induction h with
  | done l wire => exact h'
  | request hs _ ih => exact .request hs (ih h')
  | failedTls hs _ ih => exact .failedTls hs (ih h')
  | close hs _ ih => exact .close hs (ih h')
  | plain s hr hnone htls _ ih => exact .plain s hr hnone htls (ih h')
  | secured s hr hnone htls _ ih => exact .secured s hr hnone htls (ih h')
  | refused s hr hnone htls _ ih => exact .refused s hr hnone htls (ih h')

/-! ## The network -/

/-- What can be seen of the network: the links, the wire so far, whether the
connection of an object is lost before or during the next call, and which
responses answer a request, by its session and message ID. -/
structure Network (ω : Type) where
  links : ω → Obj → Option Link
  wire : ω → List Wire
  breaks : ω → Obj → Prop
  answers : Nat → Nat → Response → Prop

namespace Network

variable {ω : Type} (net : Network ω)

/-- The session of an object. -/
def session (w : ω) (o : Obj) : Option Nat := (net.links w o).bind Link.session

/-- Nothing has happened. -/
structure Same (w w' : ω) : Prop where
  links : net.links w' = net.links w
  wire : net.wire w' = net.wire w

/-- What has happened is on the link of one object. -/
structure On (o : Obj) (R : Link → List Wire → Link → List Wire → Prop) (w w' : ω) : Prop where
  others : ∀ o', o' ≠ o → net.links w' o' = net.links w o'
  link : ∀ l, net.links w o = some l →
    ∃ l', net.links w' o = some l' ∧ R l (net.wire w) l' (net.wire w')
  missing : net.links w o = none → net.links w' o = none ∧ net.wire w' = net.wire w

/-- A new object has been made, with a session of its own. -/
structure Made (o : Obj) (reconnecting : Bool) (w w' : ω) : Prop where
  others : ∀ o', o' ≠ o → net.links w' o' = net.links w o'
  fresh : net.links w o = none
  link : ∃ s, net.links w' o = some ⟨reconnecting, false, some s⟩ ∧
    net.wire w' = net.wire w ++ [.opened s]

/-- A request has been sent. -/
structure Sent (o : Obj) (w w' : ω) : Prop where
  links : net.links w' = net.links w
  wire : ∃ s, net.session w o = some s ∧ net.wire w' = net.wire w ++ [.request s]

end Network

/-- StartTLS has succeeded on the session of the link, after what else was done. -/
def Secures (l : Link) (wire : List Wire) (l' : Link) (wire' : List Wire) : Prop :=
  ∃ l₁ wire₁ s, Moves l wire l₁ wire₁ ∧ l₁.session = some s ∧
    l' = { l₁ with startTls := true } ∧ wire' = wire₁ ++ [.startTls s true]

/-- The session has been closed, if there was one. -/
def Closes (l : Link) (wire : List Wire) (l' : Link) (wire' : List Wire) : Prop :=
  l' = { l with session := none } ∧ (wire' = wire ∨ ∃ s, l.session = some s ∧ wire' = wire ++ [.closed s])

/-- What is known of python-ldap and the event loop. -/
structure Documented {ω : Type} (env : Env ω) (net : Network ω) : Prop where
  reconnectLDAPObject : ∀ uri fileno n w, match (env.reconnectLDAPObject uri fileno n).run w with
    | .ok o w' => net.Made o true w w'
    | .error _ w' => net.Same w w'
  simpleLDAPObject : ∀ uri fileno w, match (env.simpleLDAPObject uri fileno).run w with
    | .ok o w' => net.Made o false w w'
    | .error _ w' => net.Same w w'
  /-- Requests do not start a session. -/
  request : ∀ o op w, op.request ≠ .unbindExt → match (env.request o op).run w with
    | .ok _ w' => net.Sent o w w'
    | .error _ w' => net.Same w w' ∨ net.Sent o w w'
  /-- Unbinding returns no message ID, and raises nothing but for an object that is unbound. -/
  unbind : ∀ o op w, op.request = .unbindExt → match (env.request o op).run w with
    | .ok msgid w' => msgid = none ∧ net.On o Closes w w'
    | .error e w' => (∃ message, e = .attributeError message) ∧ net.On o Closes w w'
  /-- A response belongs to the session on which it is received. -/
  result4 : ∀ o number all timeout w, match (env.result4 o number all timeout).run w with
    | .ok r w' => net.Same w w' ∧
        (r.type ≠ none → ∀ s, net.session w o = some s → net.answers s number r)
    | .error _ w' => net.Same w w'
  setOption : ∀ o x v w, net.Same w (final ((env.setOption o x v).run w))
  getOption : ∀ o x w, net.Same w (final ((env.getOption o x).run w))
  readable : ∀ o timeout w, net.Same w (final ((env.readable o timeout).run w))
  getRunningLoop : ∀ w, net.Same w (final (env.getRunningLoop.run w))
  reconnect : ∀ o uri n force w, net.On o Moves w (final ((env.reconnect o uri n force).run w))
  simpleBindS : ∀ o bind w, net.On o Moves w (final ((env.simpleBindS o bind).run w))
  saslInteractiveBindS : ∀ o mechanism w,
    net.On o Moves w (final ((env.saslInteractiveBindS o mechanism).run w))
  whoamiS : ∀ o controls w, net.On o Moves w (final ((env.whoamiS o controls).run w))
  startTlsS : ∀ o w, match (env.startTlsS o).run w with
    | .ok _ w' => net.links w o ≠ none ∧ net.On o Secures w w'
    | .error _ w' => net.On o Moves w w'
  /-- Where the connection holds, StartTLS is all that is sent. -/
  startTlsS_holds : ∀ o w, ¬net.breaks w o → net.On o
    (fun l wire l' wire' =>
      l'.reconnecting = l.reconnecting ∧ l'.session = l.session ∧
        (wire' = wire ∨ ∃ s success, wire' = wire ++ [.startTls s success]))
    w (final ((env.startTlsS o).run w))

/-- Connecting makes a new object, or changes nothing. -/
theorem Method.newLdapObject_rule {ω : Type} {env : Env ω} {net : Network ω}
    (hdoc : Documented env net) {s₀ : State ω} (fileno : Option Int) {Q : Obj → State ω → Prop}
    {E : PyExc → State ω → Prop}
    (hmade : ∀ o w, net.Made o s₀.self.automaticReconnect s₀.world w → Q o { s₀ with world := w })
    (hsame : ∀ e w, net.Same s₀.world w → E e { s₀ with world := w }) :
    Spec (fun s => s = s₀) (newLdapObject env s₀.self fileno) Q E := by
  unfold newLdapObject
  refine Spec.ite (fun hauto => onWorld_spec ?_) fun hauto => onWorld_spec ?_
  · rintro s rfl
    have hcall := hdoc.reconnectLDAPObject s.self.uri fileno s.self.maxConnectionAttempts s.world
    cases hrun : (env.reconnectLDAPObject s.self.uri fileno s.self.maxConnectionAttempts).run s.world with
    | ok o w =>
      rw [hrun] at hcall
      exact hmade o w (hauto.symm ▸ hcall)
    | error e w =>
      rw [hrun] at hcall
      exact hsame e w hcall
  · rintro s rfl
    rw [Bool.not_eq_true] at hauto
    have hcall := hdoc.simpleLDAPObject s.self.uri fileno s.world
    cases hrun : (env.simpleLDAPObject s.self.uri fileno).run s.world with
    | ok o w =>
      rw [hrun] at hcall
      exact hmade o w (hauto.symm ▸ hcall)
    | error e w =>
      rw [hrun] at hcall
      exact hsame e w hcall

/-! ## Identities -/

/-- What a client binds with. -/
inductive Credential
  | simple (bind : SimpleBind)
  | sasl (mechanism : Sasl)
  deriving DecidableEq

/-- `simple_bind_s('', '')` -/
def Credential.anonymous : Credential := .simple ⟨some [], some []⟩

/-- Who a client is on a session: the identity, nothing where it is anonymous. -/
abbrev Identity := Option PyStr

/-- What the servers know of the clients, and what a `ReconnectLDAPObject`
repeats on a new session: its last synchronous bind. -/
structure Authentication (ω : Type) where
  reconnecting : ω → Obj → Bool
  reachable : ω → Obj → Prop
  lastBind : ω → Obj → Option Credential
  identity : ω → Obj → Identity
  /-- The identity that credentials give, nothing where they are refused. -/
  verdict : ω → Credential → Option Identity

/-- The classes of the errors with which a server refuses credentials. -/
def refusals : List LdapErrorClass :=
  [.invalidCredentials, .other "InappropriateAuthentication", .other "AuthUnknown",
    .other "AuthMethodNotSupported", .other "StrongAuthNotSupported", .other "StrongAuthRequired"]

/-- An authentication error of python-ldap or FreeIAM. -/
def isRefusal : PyExc → Bool
  | .ldap e => e.cls ∈ refusals
  | .lib e => e.cls ∈ refusals
  | _ => false

@[simp] theorem isRefusal_wrap (e : PyExc) : isRefusal e.wrap = isRefusal e := by
  cases e <;> rfl

namespace Authentication

variable {ω : Type} (auth : Authentication ω)

/-- The credentials were accepted, and are those of the session now. -/
structure Accepted (o : Obj) (identity : Identity) (w w' : ω) : Prop where
  identity : auth.identity w' o = identity
  reachable : auth.reachable w' o
  verdict : auth.verdict w' = auth.verdict w

/-- The last synchronous bind of an object, or an anonymous one. -/
def repeated (w : ω) (o : Obj) : Credential := (auth.lastBind w o).getD .anonymous

end Authentication

/-- What is known of the binds that a reconnect makes, while the server can be
reached: `ReconnectLDAPObject.reconnect` repeats the last synchronous bind of its
own, and a `SimpleLDAPObject` has no such method. -/
structure Authenticates {ω : Type} (env : Env ω) (auth : Authentication ω) : Prop where
  getRunningLoop : ∀ w, env.getRunningLoop.run w = .ok () w
  reconnect : ∀ o uri n w, auth.reachable w o → auth.reconnecting w o = true →
    match auth.verdict w (auth.repeated w o) with
    | some identity => ∃ w', (env.reconnect o uri n true).run w = .ok () w' ∧
        auth.Accepted o identity w w'
    | none => ∃ e w', (env.reconnect o uri n true).run w = .error e w' ∧ isRefusal e = true
  noReconnect : ∀ o uri n w, auth.reconnecting w o = false →
    ∃ message, (env.reconnect o uri n true).run w = .error (.attributeError message) w
  simpleBindS : ∀ o bind w, auth.reachable w o → match auth.verdict w (.simple bind) with
    | some identity => ∃ w', (env.simpleBindS o bind).run w = .ok () w' ∧
        auth.Accepted o identity w w'
    | none => ∃ e w', (env.simpleBindS o bind).run w = .error e w' ∧ isRefusal e = true

end FreeIam.Ldap
