import FreeIam.Ldap.Connection.Network

/-!
# A small python-ldap

LDAP objects and servers that behave as documented: every object has a session
and numbers its requests from one on each new one, a `ReconnectLDAPObject` repeats
StartTLS and its last synchronous bind, a server knows some passwords. The
connection may be lost while a result is waited for.
-/

namespace FreeIam.Ldap

open FreeIam.Py FreeIam.Errors FreeIam.Exec

/-- An LDAP object with what the server knows of its session. -/
structure SimObject where
  link : Link
  nextId : Nat := 1
  /-- The message IDs of the binds that were refused. -/
  refused : List Nat := []
  lastBind : Option Credential := none
  identity : Identity := none

/-- The objects that exist, the number of sessions so far, the wire, and how many
of the next waits for a result lose the connection. -/
structure Sim where
  objects : List SimObject := []
  sessions : Nat := 0
  wire : List Wire := []
  losses : Nat := 0
  passwords : List (SimpleBind × PyStr) := []

namespace Sim

/-- The identity that credentials give: those without a name are anonymous, those
of a SASL mechanism are always accepted. -/
def verdict (w : Sim) : Credential → Option Identity
  | .simple credentials =>
    if credentials = ⟨some [], some []⟩ then some none
    else (w.passwords.lookup credentials).map some
  | .sasl _ => some (some (py "sasl"))

/-- The state with an object replaced and more on the wire. -/
def put (w : Sim) (o : Obj) (x : SimObject) (events : List Wire) : Sim :=
  { w with objects := w.objects.set o x, wire := w.wire ++ events }

/-- A new object with a session of its own. -/
def make (reconnecting : Bool) : EStateM PyExc Sim Obj := fun w =>
  .ok w.objects.length
    { w with
      objects := w.objects ++ [{ link := ⟨reconnecting, false, some w.sessions⟩ }]
      sessions := w.sessions + 1
      wire := w.wire ++ [.opened w.sessions] }

/-- What ends a session, if there is one. -/
def closing (session : Option Nat) : List Wire :=
  match session with
  | some s => [.closed s]
  | none => []

/-- What starts a session: StartTLS, where it has succeeded before, and the bind. -/
def opening (startTls : Bool) (session : Nat) : List Wire :=
  [.opened session] ++ (if startTls then [.startTls session true] else []) ++ [.request session]

/-- `ReconnectLDAPObject.reconnect`, on an object that there is: a refused bind closes
the new session again. -/
def renew (o : Obj) (x : SimObject) : EStateM PyExc Sim Unit := fun w =>
  let link := { x.link with session := some w.sessions }
  let events := closing x.link.session ++ opening x.link.startTls w.sessions
  let w' := { w with sessions := w.sessions + 1 }
  match w.verdict (x.lastBind.getD .anonymous) with
  | some identity =>
    .ok () (w'.put o { x with link := link, nextId := 1, refused := [], identity := identity } events)
  | none =>
    .error (.ldap { cls := .invalidCredentials })
      (w'.put o { x with link := { link with session := none }, nextId := 1, refused := [], identity := none }
        (events ++ [.closed w.sessions]))

def reconnect (o : Obj) (force : Bool) : EStateM PyExc Sim Unit := fun w =>
  match w.objects[o]? with
  | none => .error (.attributeError "reconnect") w
  | some x =>
    if x.link.reconnecting = false then .error (.attributeError "reconnect") w
    else if force || x.link.session.isNone then renew o x w
    else .ok () w

/-- A call on an object that has a session. -/
def onSession {α : Type} (o : Obj) (m : SimObject → Nat → EStateM PyExc Sim α) : EStateM PyExc Sim α := fun w =>
  match w.objects[o]? with
  | none => .error (.ldap { cls := .serverDown }) w
  | some x =>
    match x.link.session with
    | none => .error (.ldap { cls := .serverDown }) w
    | some s => m x s w

/-- A synchronous bind. -/
def bindS (o : Obj) (credential : Credential) : EStateM PyExc Sim Unit :=
  onSession o fun x s w =>
    match w.verdict credential with
    | some identity =>
      .ok () (w.put o { x with lastBind := some credential, identity := identity } [.request s])
    | none =>
      .error (.ldap { cls := .invalidCredentials }) (w.put o { x with identity := none } [.request s])

theorem bindS_run {o : Obj} {w : Sim} (credential : Credential) :
    (bindS o credential).run w =
      match w.objects[o]? with
      | none => .error (.ldap { cls := .serverDown }) w
      | some x =>
        match x.link.session with
        | none => .error (.ldap { cls := .serverDown }) w
        | some s =>
          match w.verdict credential with
          | some identity =>
            .ok () (w.put o { x with lastBind := some credential, identity := identity } [.request s])
          | none =>
            .error (.ldap { cls := .invalidCredentials }) (w.put o { x with identity := none } [.request s]) :=
  rfl

def startTlsS (o : Obj) : EStateM PyExc Sim Unit :=
  onSession o fun x s w =>
    .ok () (w.put o { x with link := { x.link with startTls := true } } [.startTls s true])

def whoamiS (o : Obj) : EStateM PyExc Sim PyStr :=
  onSession o fun x s w => .ok ((x.identity.map (py "dn:" ++ ·)).getD []) (w.put o x [.request s])

/-- The object after a request has been sent: a simple bind changes the identity. -/
def served (w : Sim) (x : SimObject) : Request → SimObject
  | .simpleBind credentials =>
    match w.verdict (.simple credentials) with
    | some identity => { x with nextId := x.nextId + 1, identity := identity }
    | none => { x with nextId := x.nextId + 1, identity := none, refused := x.nextId :: x.refused }
  | _ => { x with nextId := x.nextId + 1 }

def unbindExt (o : Obj) : EStateM PyExc Sim (Option Nat) := fun w =>
  match w.objects[o]? with
  | none => .error (.attributeError "ReconnectLDAPObject has no attribute '_l'") w
  | some x =>
    match x.link.session with
    | none => .error (.attributeError "ReconnectLDAPObject has no attribute '_l'") w
    | some s => .ok none (w.put o { x with link := { x.link with session := none } } [.closed s])

def request (o : Obj) (op : Operation) : EStateM PyExc Sim (Option Nat) :=
  if op.request = .unbindExt then unbindExt o
  else onSession o fun x s w => .ok (some x.nextId) (w.put o (served w x op.request) [.request s])

/-- An answer to the message ID, unless the connection is lost. -/
def result4 (o : Obj) (number : Nat) : EStateM PyExc Sim Response := fun w =>
  match w.losses with
  | losses + 1 => .error (.ldap { cls := .serverDown }) { w with losses := losses }
  | 0 =>
    if (w.objects[o]?.any fun x => number ∈ x.refused) then .error (.ldap { cls := .invalidCredentials }) w
    else .ok { type := some .searchResult, data := some [], msgid := some number, ctrls := some [] } w

/-- The environment of the simulation. -/
def env : Env Sim :=
  { Env.idle Sim with
    reconnectLDAPObject := fun _ _ _ => make true
    simpleLDAPObject := fun _ _ => make false
    hasL := fun w o => w.objects[o]?.any fun x => x.link.session.isSome
    reconnect := fun o _ _ force => Sim.reconnect o force
    startTlsS := startTlsS
    simpleBindS := fun o credentials => bindS o (.simple credentials)
    saslInteractiveBindS := fun o mechanism => bindS o (.sasl mechanism)
    whoamiS := fun o _ => whoamiS o
    request := Sim.request
    result4 := fun o number _ _ => Sim.result4 o number }

/-- What is seen of the simulated network. -/
def net : Network Sim where
  links := fun w o => w.objects[o]?.map SimObject.link
  wire := Sim.wire
  breaks := fun _ _ => False
  answers := fun _ number r => r.msgid = some number

/-- What is seen of the simulated servers. -/
def auth : Authentication Sim where
  reconnecting := fun w o => w.objects[o]?.any fun x => x.link.reconnecting
  reachable := fun w o => (w.objects[o]?.any fun x => x.link.session.isSome) = true
  lastBind := fun w o => w.objects[o]?.bind SimObject.lastBind
  identity := fun w o => w.objects[o]?.bind SimObject.identity
  verdict := Sim.verdict

/-! ## The simulation is as documented -/

section Links

variable {w : Sim} {o o' : Obj} {x x' : SimObject} {events : List Wire}

theorem links_put_of_ne (hne : o' ≠ o) : net.links (w.put o x' events) o' = net.links w o' := by
  show Option.map _ (w.objects.set o x')[o']? = _
  rw [List.getElem?_set_ne (Ne.symm hne)]
  rfl

theorem objects_put (hx : w.objects[o]? = some x) : (w.put o x' events).objects[o]? = some x' := by
  obtain ⟨hlt, -⟩ := List.getElem?_eq_some_iff.mp hx
  exact List.getElem?_set_self hlt

theorem links_put (hx : w.objects[o]? = some x) : net.links (w.put o x' events) o = some x'.link := by
  show Option.map SimObject.link (w.put o x' events).objects[o]? = _
  rw [objects_put hx]
  rfl

/-- A step on one object is a step on its link. -/
theorem on_put {R : Link → List Wire → Link → List Wire → Prop} (hx : w.objects[o]? = some x)
    (hR : R x.link w.wire x'.link (w.wire ++ events)) : net.On o R w (w.put o x' events) where
  others := fun o' hne => links_put_of_ne hne
  link := by
    intro l hl
    obtain rfl : x.link = l := by
      have hlink : net.links w o = some x.link := by
        show Option.map SimObject.link w.objects[o]? = _
        rw [hx]
        rfl
      exact Option.some.inj (hlink.symm.trans hl)
    exact ⟨x'.link, links_put hx, hR⟩
  missing := by
    intro hnone
    have hlink : net.links w o = some x.link := by
      show Option.map SimObject.link w.objects[o]? = _
      rw [hx]
      rfl
    rw [hlink] at hnone
    cases hnone

/-- Nothing is done. -/
theorem on_refl {R : Link → List Wire → Link → List Wire → Prop} (hR : ∀ l wire, R l wire l wire) :
    net.On o R w w :=
  ⟨fun _ _ => rfl, fun l hl => ⟨l, hl, hR l _⟩, fun hnone => ⟨hnone, rfl⟩⟩

theorem same_refl : net.Same w w := ⟨rfl, rfl⟩

/-- A step from a state in which the network looks the same. -/
theorem on_of_same {R : Link → List Wire → Link → List Wire → Prop} {w₁ w' : Sim}
    (hsame : net.Same w w₁) (h : net.On o R w₁ w') : net.On o R w w' where
  others := fun o' hne => (h.others o' hne).trans (congrFun hsame.links o')
  link := fun l hl => hsame.wire ▸ h.link l (hsame.links ▸ hl)
  missing := fun hnone => hsame.wire ▸ h.missing (hsame.links ▸ hnone)

end Links

theorem make_documented (reconnecting : Bool) (w : Sim) :
    match (make reconnecting).run w with
    | .ok o w' => net.Made o reconnecting w w'
    | .error _ w' => net.Same w w' := by
  refine ⟨fun o hne => ?_, ?_, w.sessions, ?_, rfl⟩
  · show Option.map SimObject.link (w.objects ++ _)[o]? = Option.map SimObject.link w.objects[o]?
    rcases Nat.lt_or_gt_of_ne hne with hlt | hgt
    · rw [List.getElem?_append_left hlt]
    · rw [List.getElem?_eq_none (by simp; omega), List.getElem?_eq_none (by omega)]
  · show Option.map SimObject.link w.objects[w.objects.length]? = none
    rw [List.getElem?_eq_none (Nat.le_refl _)]
    rfl
  · show Option.map SimObject.link (w.objects ++ [_])[w.objects.length]? = _
    rw [List.getElem?_append_right (Nat.le_refl _), Nat.sub_self]
    rfl

theorem served_link (w : Sim) (x : SimObject) (request : Request) : (served w x request).link = x.link := by
  unfold served
  cases request with
  | simpleBind credentials =>
    dsimp only
    cases w.verdict (.simple credentials) with
    | none => rfl
    | some identity => rfl
  | _ => rfl

section Sessions

variable {α : Type} {o : Obj} {w : Sim}

theorem onSession_run (m : SimObject → Nat → EStateM PyExc Sim α) :
    (onSession o m).run w =
      match w.objects[o]? with
      | none => .error (.ldap { cls := .serverDown }) w
      | some x =>
        match x.link.session with
        | none => .error (.ldap { cls := .serverDown }) w
        | some s => (m x s).run w := rfl

/-- A call on a session, by what it does there. -/
theorem onSession_on {R : Link → List Wire → Link → List Wire → Prop}
    {m : SimObject → Nat → EStateM PyExc Sim α} (hrefl : ∀ l wire, R l wire l wire)
    (hm : ∀ x s, w.objects[o]? = some x → x.link.session = some s → net.On o R w (final ((m x s).run w))) :
    net.On o R w (final ((onSession o m).run w)) := by
  rw [onSession_run]
  cases hx : w.objects[o]? with
  | none => exact on_refl hrefl
  | some x =>
    dsimp only
    cases hs : x.link.session with
    | none => exact on_refl hrefl
    | some s => exact hm x s hx hs

/-- One request on the session of an object. -/
theorem moves_request {l : Link} {s : Nat} (hs : l.session = some s) (wire : List Wire) :
    Moves l wire l (wire ++ [.request s]) := .request hs (.done _ _)

theorem bindS_documented (credential : Credential) :
    net.On o Moves w (final ((bindS o credential).run w)) := by
  refine onSession_on Moves.done fun x s hx hs => ?_
  unfold EStateM.run
  dsimp only
  cases w.verdict credential with
  | none => exact on_put hx (moves_request hs _)
  | some identity => exact on_put hx (moves_request hs _)

/-- A renewed session: the old one is closed, StartTLS is repeated, and a bind is sent. -/
theorem moves_opening {l : Link} (hl : l.reconnecting = true) (session : Nat) (wire : List Wire) :
    Moves l wire { l with session := some session }
      (wire ++ (closing l.session ++ opening l.startTls session)) := by
  have hopen : ∀ wire, Moves { l with session := none } wire { l with session := some session }
      (wire ++ opening l.startTls session) := by
    intro wire
    by_cases htls : l.startTls = true
    · refine .secured session hl rfl htls ?_
      have hmoves := moves_request (l := { l with session := some session }) (s := session) rfl
        (wire ++ [.opened session] ++ [.startTls session true])
      simpa [opening, htls] using hmoves
    · refine .plain session hl rfl (by simpa using htls) ?_
      have hmoves := moves_request (l := { l with session := some session }) (s := session) rfl
        (wire ++ [.opened session])
      simpa [opening, htls] using hmoves
  cases hsession : l.session with
  | none =>
    have hl' : { l with session := none } = l := by rw [← hsession]
    have hmoves := hopen wire
    rw [hl'] at hmoves
    simpa [closing] using hmoves
  | some s =>
    refine .close hsession ?_
    have hmoves := hopen (wire ++ [.closed s])
    simpa [closing] using hmoves

theorem renew_run (x : SimObject) :
    (renew o x).run w =
      match w.verdict (x.lastBind.getD .anonymous) with
      | some identity =>
        .ok () ({ w with sessions := w.sessions + 1 }.put o
          { x with
            link := { x.link with session := some w.sessions }
            nextId := 1, refused := [], identity := identity }
          (closing x.link.session ++ opening x.link.startTls w.sessions))
      | none =>
        .error (.ldap { cls := .invalidCredentials }) ({ w with sessions := w.sessions + 1 }.put o
          { x with
            link := { x.link with session := none }
            nextId := 1, refused := [], identity := none }
          (closing x.link.session ++ opening x.link.startTls w.sessions ++
            [Wire.closed w.sessions])) := rfl

theorem reconnect_run (force : Bool) :
    (Sim.reconnect o force).run w =
      match w.objects[o]? with
      | none => .error (.attributeError "reconnect") w
      | some x =>
        if x.link.reconnecting = false then .error (.attributeError "reconnect") w
        else if force || x.link.session.isNone then (renew o x).run w
        else .ok () w := rfl

theorem reconnect_documented (force : Bool) :
    net.On o Moves w (final ((Sim.reconnect o force).run w)) := by
  rw [reconnect_run]
  cases hx : w.objects[o]? with
  | none => exact on_refl Moves.done
  | some x =>
    dsimp only
    by_cases hr : x.link.reconnecting = false
    · rw [if_pos hr]
      exact on_refl Moves.done
    · have hr : x.link.reconnecting = true := by simpa using hr
      rw [if_neg (by simp [hr])]
      by_cases hforce : (force || x.link.session.isNone) = true
      · rw [if_pos hforce, renew_run]
        have hopen := moves_opening hr w.sessions w.wire
        have hsame : net.Same w { w with sessions := w.sessions + 1 } := ⟨rfl, rfl⟩
        cases w.verdict (x.lastBind.getD .anonymous) with
        | some identity => exact on_of_same hsame (on_put hx hopen)
        | none =>
          refine on_of_same hsame (on_put hx ?_)
          rw [← List.append_assoc]
          exact hopen.trans (.close rfl (.done _ _))
      · rw [if_neg hforce]
        exact on_refl Moves.done

theorem startTlsS_run :
    (startTlsS o).run w =
      match w.objects[o]? with
      | none => .error (.ldap { cls := .serverDown }) w
      | some x =>
        match x.link.session with
        | none => .error (.ldap { cls := .serverDown }) w
        | some s => .ok () (w.put o { x with link := { x.link with startTls := true } } [.startTls s true]) := rfl

theorem startTlsS_documented :
    match (startTlsS o).run w with
    | .ok _ w' => net.links w o ≠ none ∧ net.On o Secures w w'
    | .error _ w' => net.On o Moves w w' := by
  rw [startTlsS_run]
  cases hx : w.objects[o]? with
  | none => exact on_refl Moves.done
  | some x =>
    dsimp only
    cases hs : x.link.session with
    | none => exact on_refl Moves.done
    | some s =>
      refine ⟨by simp [net, hx], on_put hx ⟨x.link, w.wire, s, .done _ _, hs, by rw [hs], rfl⟩⟩

theorem request_run (op : Operation) (hop : op.request ≠ .unbindExt) :
    (Sim.request o op).run w =
      match w.objects[o]? with
      | none => .error (.ldap { cls := .serverDown }) w
      | some x =>
        match x.link.session with
        | none => .error (.ldap { cls := .serverDown }) w
        | some s => .ok (some x.nextId) (w.put o (served w x op.request) [.request s]) := by
  unfold Sim.request
  rw [if_neg hop]
  rfl

theorem request_documented (op : Operation) (hop : op.request ≠ .unbindExt) :
    match (Sim.request o op).run w with
    | .ok _ w' => net.Sent o w w'
    | .error _ w' => net.Same w w' ∨ net.Sent o w w' := by
  rw [request_run op hop]
  cases hx : w.objects[o]? with
  | none => exact Or.inl same_refl
  | some x =>
    dsimp only
    cases hs : x.link.session with
    | none => exact Or.inl same_refl
    | some s =>
      refine ⟨?_, s, ?_, rfl⟩
      · funext o'
        by_cases hne : o' = o
        · subst hne
          rw [links_put hx, served_link]
          simp [net, hx]
        · exact links_put_of_ne hne
      · simp [Network.session, net, hx, hs]

theorem unbindExt_run :
    (unbindExt o).run w =
      match w.objects[o]? with
      | none => .error (.attributeError "ReconnectLDAPObject has no attribute '_l'") w
      | some x =>
        match x.link.session with
        | none => .error (.attributeError "ReconnectLDAPObject has no attribute '_l'") w
        | some s =>
          .ok none (w.put o { x with link := { x.link with session := none } } [.closed s]) := rfl

theorem unbind_documented (op : Operation) (hop : op.request = .unbindExt) :
    match (Sim.request o op).run w with
    | .ok msgid w' => msgid = none ∧ net.On o Closes w w'
    | .error e w' => (∃ message, e = .attributeError message) ∧ net.On o Closes w w' := by
  unfold Sim.request
  rw [if_pos hop, unbindExt_run]
  cases hx : w.objects[o]? with
  | none =>
    refine ⟨⟨_, rfl⟩, fun _ _ => rfl, fun l hl => ?_, fun hnone => ⟨hnone, rfl⟩⟩
    simp [net, hx] at hl
  | some x =>
    dsimp only
    cases hs : x.link.session with
    | none =>
      refine ⟨⟨_, rfl⟩, fun _ _ => rfl, fun l hl => ⟨l, hl, ?_, Or.inl rfl⟩,
        fun hnone => ⟨hnone, rfl⟩⟩
      obtain rfl : x.link = l := by simpa [net, hx] using hl
      rw [← hs]
    | some s => exact ⟨rfl, on_put hx ⟨rfl, Or.inr ⟨s, hs, rfl⟩⟩⟩

theorem result4_run (number : Nat) :
    (Sim.result4 o number).run w =
      match w.losses with
      | losses + 1 => .error (.ldap { cls := .serverDown }) { w with losses := losses }
      | 0 =>
        if (w.objects[o]?.any fun x => number ∈ x.refused) then
          .error (.ldap { cls := .invalidCredentials }) w
        else .ok { type := some .searchResult, data := some [], msgid := some number, ctrls := some [] } w :=
  rfl

theorem result4_documented (number : Nat) :
    match (Sim.result4 o number).run w with
    | .ok r w' => net.Same w w' ∧
        (r.type ≠ none → ∀ s, net.session w o = some s → net.answers s number r)
    | .error _ w' => net.Same w w' := by
  rw [result4_run]
  cases w.losses with
  | succ losses => exact ⟨rfl, rfl⟩
  | zero =>
    dsimp only
    by_cases hrefused : (w.objects[o]?.any fun x => number ∈ x.refused) = true
    · rw [if_pos hrefused]
      exact same_refl
    · rw [if_neg hrefused]
      exact ⟨same_refl, fun _ _ _ => rfl⟩

end Sessions

/-- The simulation is as documented. -/
theorem documented : Documented Sim.env net where
  reconnectLDAPObject := fun _ _ _ w => make_documented true w
  simpleLDAPObject := fun _ _ w => make_documented false w
  request := by
    intro o op w hop
    have h := request_documented (o := o) (w := w) op hop
    rw [show (env.request o op).run w = (Sim.request o op).run w from rfl]
    cases hrun : (Sim.request o op).run w with
    | ok msgid w' =>
      rw [hrun] at h
      exact h
    | error e w' =>
      rw [hrun] at h
      exact h
  unbind := by
    intro o op w hop
    have h := unbind_documented (o := o) (w := w) op hop
    rw [show (env.request o op).run w = (Sim.request o op).run w from rfl]
    cases hrun : (Sim.request o op).run w with
    | ok msgid w' =>
      rw [hrun] at h
      exact h
    | error e w' =>
      rw [hrun] at h
      exact h
  result4 := by
    intro o number all timeout w
    have h := result4_documented (o := o) (w := w) number
    rw [show (env.result4 o number all timeout).run w = (Sim.result4 o number).run w from rfl]
    cases hrun : (Sim.result4 o number).run w with
    | ok r w' =>
      rw [hrun] at h
      exact h
    | error e w' =>
      rw [hrun] at h
      exact h
  setOption := fun _ _ _ _ => same_refl
  getOption := fun _ _ _ => same_refl
  readable := fun _ _ _ => same_refl
  getRunningLoop := fun _ => same_refl
  reconnect := fun _ _ _ force _ => reconnect_documented force
  simpleBindS := fun _ credentials _ => bindS_documented (.simple credentials)
  saslInteractiveBindS := fun _ mechanism _ => bindS_documented (.sasl mechanism)
  whoamiS := fun _ _ _ => onSession_on Moves.done fun _ _ hx hs => on_put hx (moves_request hs _)
  startTlsS := by
    intro o w
    have h := startTlsS_documented (o := o) (w := w)
    rw [show (env.startTlsS o).run w = (startTlsS o).run w from rfl]
    cases hrun : (startTlsS o).run w with
    | ok u w' =>
      rw [hrun] at h
      exact h
    | error e w' =>
      rw [hrun] at h
      exact h
  startTlsS_holds := by
    intro o w _
    refine onSession_on (fun l wire => ⟨rfl, rfl, Or.inl rfl⟩) fun x s hx hs => ?_
    exact on_put hx ⟨rfl, rfl, Or.inr ⟨s, true, rfl⟩⟩

/-- An object with a session can be reached. -/
theorem reachable_iff {w : Sim} {o : Obj} :
    auth.reachable w o ↔ ∃ x s, w.objects[o]? = some x ∧ x.link.session = some s := by
  show (w.objects[o]?.any fun x => x.link.session.isSome) = true ↔ _
  cases hx : w.objects[o]? with
  | none => simp
  | some x => simp [Option.isSome_iff_exists]

/-- The credentials that an object has been given now. -/
theorem accepted_put {w : Sim} (w₁ : Sim) {o : Obj} {x : SimObject} (x' : SimObject) {events : List Wire}
    (hx : w₁.objects[o]? = some x) (hsession : x'.link.session ≠ none)
    (hpasswords : w₁.passwords = w.passwords) : auth.Accepted o x'.identity w (w₁.put o x' events) where
  identity := by
    show (w₁.put o x' events).objects[o]?.bind SimObject.identity = x'.identity
    rw [objects_put hx]
    rfl
  reachable := by
    obtain ⟨s, hs⟩ := Option.ne_none_iff_exists'.mp hsession
    exact reachable_iff.mpr ⟨x', s, objects_put hx, hs⟩
  verdict := by
    funext credential
    show Sim.verdict _ credential = Sim.verdict w credential
    unfold Sim.verdict
    cases credential with
    | simple credentials => rw [show (w₁.put o x' events).passwords = w.passwords from hpasswords]
    | sasl mechanism => rfl

/-- The simulated servers are as documented. -/
theorem authenticates : Authenticates Sim.env auth where
  getRunningLoop := fun _ => rfl
  reconnect := by
    intro o uri n w hreachable hreconnecting
    obtain ⟨x, s, hx, -⟩ := reachable_iff.mp hreachable
    have hr : x.link.reconnecting = true := by simpa [auth, hx] using hreconnecting
    have hrun : (Sim.env.reconnect o uri n true).run w = (renew o x).run w := by
      show (Sim.reconnect o true).run w = _
      rw [reconnect_run, hx]
      simp [hr]
    have hrepeated : auth.repeated w o = x.lastBind.getD .anonymous := by
      simp [Authentication.repeated, auth, hx]
    rw [hrun, renew_run, hrepeated]
    show match Sim.verdict w (x.lastBind.getD .anonymous) with
      | some identity => _
      | none => _
    -- the last bind is repeated in the new session
    cases w.verdict (x.lastBind.getD .anonymous) with
    | none => exact ⟨_, _, rfl, rfl⟩
    | some identity =>
      exact ⟨_, rfl, accepted_put { w with sessions := w.sessions + 1 }
        { x with
          link := { x.link with session := some w.sessions }
          nextId := 1, refused := [], identity := identity } hx (by simp) rfl⟩
  noReconnect := by
    intro o uri n w hreconnecting
    refine ⟨"reconnect", ?_⟩
    show (Sim.reconnect o true).run w = _
    rw [reconnect_run]
    cases hx : w.objects[o]? with
    | none => rfl
    | some x =>
      have hr : x.link.reconnecting = false := by simpa [auth, hx] using hreconnecting
      dsimp only
      rw [if_pos hr]
  simpleBindS := by
    intro o credentials w hreachable
    obtain ⟨x, s, hx, hs⟩ := reachable_iff.mp hreachable
    have hrun : (Sim.env.simpleBindS o credentials).run w =
        match w.verdict (.simple credentials) with
        | some identity => .ok () (w.put o
            { x with lastBind := some (.simple credentials), identity := identity } [.request s])
        | none => .error (.ldap { cls := .invalidCredentials })
            (w.put o { x with identity := none } [.request s]) := by
      show (bindS o (.simple credentials)).run w = _
      rw [bindS_run, hx]
      dsimp only
      rw [hs]
    rw [hrun]
    show match Sim.verdict w (.simple credentials) with
      | some identity => _
      | none => _
    cases w.verdict (.simple credentials) with
    | none => exact ⟨_, _, rfl, rfl⟩
    | some identity =>
      exact ⟨_, rfl, accepted_put w
        { x with lastBind := some (.simple credentials), identity := identity } hx (by simp [hs]) rfl⟩

end Sim

end FreeIam.Ldap
