import FreeIam.Ldap.Connection.Simulation
import FreeIam.Ldap.Connection.Usage

/-!
# Responses and their requests

Message IDs are numbered afresh on every session, so a wait for a result has to be
made on the session on which the message ID was issued. The synchronous connection
does so as long as it does not reconnect while a request is pending: in a wait for
a result that has lost the connection, or under a generator that is resumed later.
-/

namespace FreeIam.Ldap

open FreeIam.Py FreeIam.Errors FreeIam.Exec FreeIam.Ldap.Method

variable {ω : Type} {env : Env ω} (net : Network ω)

/-! ## Message IDs and sessions -/

/-- The log has the request of a message ID, which was sent on this session. -/
def IssuedOn (calls : List (Call ω)) (o : Obj) (msgid : MsgId) (session : Nat) : Prop :=
  ∃ op after, calls[msgid.call]? = some (.request o op (.ok (some msgid.number)) after) ∧
    net.session after o = some session

/-- Every wait for a result is made on the session on which its message ID was
issued, and a response that comes is the answer to that message ID there. -/
def Belongs (calls : List (Call ω)) : Prop :=
  ∀ o msgid before outcome, .result o msgid before outcome ∈ calls →
    ∀ session, net.session before o = some session → IssuedOn net calls o msgid session ∧
      ∀ r, outcome = .ok r → r.type ≠ none → net.answers session msgid.number r

/-- A pending message ID: its object exists, and has the session on which it was
issued, or none any more. -/
structure Current (o : Obj) (msgid : MsgId) (w : ω) (calls : List (Call ω)) : Prop where
  linked : net.links w o ≠ none
  issued : ∃ op after, calls[msgid.call]? = some (.request o op (.ok (some msgid.number)) after) ∧
    ∀ session, net.session w o = some session → net.session after o = some session

variable {net}

theorem IssuedOn.append {calls : List (Call ω)} {o : Obj} {msgid : MsgId} {session : Nat}
    (h : IssuedOn net calls o msgid session) (call : Call ω) :
    IssuedOn net (calls ++ [call]) o msgid session := by
  obtain ⟨op, after, hcall, hsession⟩ := h
  have hlt : msgid.call < calls.length := (List.getElem?_eq_some_iff.mp hcall).1
  exact ⟨op, after, by rw [List.getElem?_append_left hlt, hcall], hsession⟩

/-- One more call: if it waits for a result, on the session of its message ID. -/
theorem Belongs.append {calls : List (Call ω)} (h : Belongs net calls) {call : Call ω}
    (hcall : ∀ o msgid before outcome, call = .result o msgid before outcome →
      ∀ session, net.session before o = some session → IssuedOn net calls o msgid session ∧
        ∀ r, outcome = .ok r → r.type ≠ none → net.answers session msgid.number r) :
    Belongs net (calls ++ [call]) := by
  intro o msgid before outcome hmem session hsession
  rcases List.mem_append.mp hmem with hmem | hmem
  · obtain ⟨hissued, hanswers⟩ := h o msgid before outcome hmem session hsession
    exact ⟨hissued.append call, hanswers⟩
  · obtain ⟨hissued, hanswers⟩ := hcall o msgid before outcome (List.mem_singleton.mp hmem).symm
      session hsession
    exact ⟨hissued.append call, hanswers⟩

/-- A request waits for nothing. -/
theorem Belongs.append_request {calls : List (Call ω)} (h : Belongs net calls) (o : Obj)
    (op : Operation) (outcome : Except PyExc (Option Nat)) (after : ω) :
    Belongs net (calls ++ [.request o op outcome after]) := by
  apply h.append
  intro o' msgid before outcome' heq
  cases heq

/-- A step outside that starts no session for the object. -/
theorem Current.step {o : Obj} {msgid : MsgId} {w w' : ω} {calls : List (Call ω)}
    (h : Current net o msgid w calls) (log : List (Call ω)) (hlink : net.links w' o ≠ none)
    (hsession : ∀ session, net.session w' o = some session → net.session w o = some session) :
    Current net o msgid w' (calls ++ log) := by
  obtain ⟨op, after, hcall, hissued⟩ := h.issued
  have hlt : msgid.call < calls.length := (List.getElem?_eq_some_iff.mp hcall).1
  refine ⟨hlink, op, after, ?_, fun session hs => hissued session (hsession session hs)⟩
  rw [List.getElem?_append_left hlt, hcall]

/-! ## Steps outside -/

/-- An object keeps its session or loses it; no new one is started for it. -/
def Quiet (net : Network ω) (w w' : ω) (o : Obj) : Prop :=
  net.links w o ≠ none →
    net.links w' o ≠ none ∧ ∀ session, net.session w' o = some session → net.session w o = some session

/-- All objects are `SimpleLDAPObject`s. -/
def Simple (net : Network ω) (w : ω) : Prop :=
  ∀ o l, net.links w o = some l → l.reconnecting = false

theorem quiet_of_links {w w' : ω} (h : net.links w' = net.links w) (o : Obj) : Quiet net w w' o := by
  intro hlink
  refine ⟨h ▸ hlink, fun session hs => ?_⟩
  unfold Network.session at hs ⊢
  rw [← h]
  exact hs

theorem Simple.links {w w' : ω} (hs : Simple net w) (h : net.links w' = net.links w) : Simple net w' := by
  intro o l hl
  rw [h] at hl
  exact hs o l hl

theorem Moves.reconnecting {l l' : Link} {wire wire' : List Wire} (h : Moves l wire l' wire') :
    l'.reconnecting = l.reconnecting := by
  induction h with
  | done l wire => rfl
  | request _ _ ih => exact ih
  | failedTls _ _ ih => exact ih
  | close _ _ ih => exact ih
  | plain _ _ _ _ _ ih => exact ih
  | secured _ _ _ _ _ ih => exact ih
  | refused _ _ _ _ _ ih => exact ih

/-- A `SimpleLDAPObject` does not start a session. -/
theorem Moves.session {l l' : Link} {wire wire' : List Wire} (h : Moves l wire l' wire')
    (hl : l.reconnecting = false) : ∀ session, l'.session = some session → l.session = some session := by
  induction h with
  | done l wire => exact fun _ hs => hs
  | request _ _ ih => exact ih hl
  | failedTls _ _ ih => exact ih hl
  | close _ _ ih => exact fun session hs => by cases ih hl session hs
  | plain _ hr _ _ _ _ => simp [hl] at hr
  | secured _ hr _ _ _ _ => simp [hl] at hr
  | refused _ hr _ _ _ _ => simp [hl] at hr

section On

variable {o : Obj} {w w' : ω} {R : Link → List Wire → Link → List Wire → Prop}

/-- The other objects are not touched. -/
theorem On.quiet_others (h : net.On o R w w') {o' : Obj} (hne : o' ≠ o) : Quiet net w w' o' := by
  intro hlink
  have heq := h.others o' hne
  refine ⟨heq ▸ hlink, fun session hs => ?_⟩
  unfold Network.session at hs ⊢
  rw [← heq]
  exact hs

/-- The object itself, where what happens on its link starts no session. -/
theorem On.quiet (h : net.On o R w w')
    (hR : ∀ l l', net.links w o = some l → R l (net.wire w) l' (net.wire w') →
      ∀ session, l'.session = some session → l.session = some session) : Quiet net w w' o := by
  intro hlink
  obtain ⟨l, hl⟩ := Option.ne_none_iff_exists'.mp hlink
  obtain ⟨l', hl', hstep⟩ := h.link l hl
  refine ⟨by simp [hl'], fun session hs => ?_⟩
  unfold Network.session at hs ⊢
  rw [hl'] at hs
  rw [hl]
  exact hR l l' hl hstep session hs

theorem On.simple (h : net.On o R w w')
    (hR : ∀ l l', R l (net.wire w) l' (net.wire w') → l'.reconnecting = l.reconnecting)
    (hs : Simple net w) : Simple net w' := by
  intro o' l' hl'
  by_cases hne : o' = o
  · subst hne
    cases hlink : net.links w o' with
    | none =>
      rw [(h.missing hlink).1] at hl'
      cases hl'
    | some l =>
      obtain ⟨l₁, hl₁, hstep⟩ := h.link l hlink
      obtain rfl : l₁ = l' := Option.some.inj (hl₁.symm.trans hl')
      rw [hR l l₁ hstep]
      exact hs o' l hlink
  · rw [h.others o' hne] at hl'
    exact hs o' l' hl'

end On

/-! ## What the methods keep -/

/-- A wait for a result that has lost the connection. -/
def Call.lostWait : Call ω → Bool
  | .result _ _ _ (.error e) => e.wrap.lost
  | _ => false

/-- A request that has lost the connection. -/
def Call.lostRequest : Call ω → Bool
  | .request _ _ (.error e) _ => e.wrap.lost
  | _ => false

/-- What is fixed while a call runs: the slots that decide on reconnects, the
object, the length of the log when the call began, and the message IDs that were
pending then. -/
structure Setting where
  automaticReconnect : Bool
  attempts : Nat
  conn : Option Obj
  start : Nat
  ids : List (Obj × MsgId)

/-- A wait for a result is made again after a reconnect. -/
def Setting.LostWait (c : Setting) (calls : List (Call ω)) : Prop :=
  c.automaticReconnect = true ∧ 1 < c.attempts ∧ calls.any Call.lostWait = true

/-- A request of this call is made again after a reconnect. -/
def Setting.LostRequest (c : Setting) (calls : List (Call ω)) : Prop :=
  c.automaticReconnect = true ∧ 1 < c.attempts ∧ (calls.drop c.start).any Call.lostRequest = true

instance (c : Setting) (calls : List (Call ω)) : Decidable (c.LostWait calls) :=
  inferInstanceAs (Decidable (_ ∧ _ ∧ _))

instance (c : Setting) (calls : List (Call ω)) : Decidable (c.LostRequest calls) :=
  inferInstanceAs (Decidable (_ ∧ _ ∧ _))

theorem Setting.LostWait.append {c : Setting} {calls : List (Call ω)} (h : c.LostWait calls)
    (log : List (Call ω)) : c.LostWait (calls ++ log) := by
  obtain ⟨hauto, hn, hlost⟩ := h
  refine ⟨hauto, hn, ?_⟩
  rw [List.any_append, hlost, Bool.true_or]

theorem Setting.LostRequest.append {c : Setting} {calls : List (Call ω)} (h : c.LostRequest calls)
    (hstart : c.start ≤ calls.length) (log : List (Call ω)) : c.LostRequest (calls ++ log) := by
  obtain ⟨hauto, hn, hlost⟩ := h
  refine ⟨hauto, hn, ?_⟩
  rw [List.drop_append_of_le_length hstart, List.any_append, hlost, Bool.true_or]

/-- The invariant of a call. A lost wait ends it. Otherwise all waits were made on
the right session, and a message ID is current, unless a request of this call has
reconnected the object it belongs to. -/
structure Tied (net : Network ω) (c : Setting) (holding : Holding) (s : State ω) : Prop where
  asynchronous : s.self.asynchronous = false
  automaticReconnect : s.self.automaticReconnect = c.automaticReconnect
  attempts : s.self.maxConnectionAttempts = c.attempts
  conn : s.self.conn = c.conn
  simple : c.automaticReconnect = false → Simple net s.world
  start : c.start ≤ s.calls.length
  belongs : c.LostWait s.calls ∨ Belongs net s.calls
  pending : ∀ id ∈ c.ids, c.LostWait s.calls ∨ Current net id.1 id.2 s.world s.calls ∨
    c.LostRequest s.calls ∧ c.conn = some id.1
  held : match holding with
    | .message o msgid => c.LostWait s.calls ∨ Current net o msgid s.world s.calls
    | _ => True

section Keeping

variable {c : Setting} {holding : Holding}

/-- What is held is given up. -/
theorem Tied.nothing {s : State ω} (h : Tied net c holding s) : Tied net c .nothing s :=
  ⟨h.asynchronous, h.automaticReconnect, h.attempts, h.conn, h.simple, h.start, h.belongs, h.pending,
    trivial⟩

theorem Tied.object {s : State ω} (h : Tied net c holding s) (o : Obj) : Tied net c (.object o) s :=
  ⟨h.asynchronous, h.automaticReconnect, h.attempts, h.conn, h.simple, h.start, h.belongs, h.pending,
    trivial⟩

/-- A call that starts no session keeps the invariant; what it appends to the log
has to be right. -/
theorem Tied.advance {s : State ω} (h : Tied net c holding s) {w : ω}
    (hquiet : ∀ o, Quiet net s.world w o)
    (hsimple : c.automaticReconnect = false → Simple net s.world → Simple net w)
    (log : List (Call ω)) (hbelongs : Belongs net s.calls →
      c.LostWait (s.calls ++ log) ∨ Belongs net (s.calls ++ log)) :
    Tied net c holding { s with world := w, calls := s.calls ++ log } := by
  have hcurrent : ∀ o msgid, Current net o msgid s.world s.calls →
      Current net o msgid w (s.calls ++ log) := fun o msgid hc =>
    hc.step log (hquiet o hc.linked).1 (hquiet o hc.linked).2
  refine ⟨h.asynchronous, h.automaticReconnect, h.attempts, h.conn,
    fun hauto => hsimple hauto (h.simple hauto), ?_, ?_, ?_, ?_⟩
  · show c.start ≤ (s.calls ++ log).length
    rw [List.length_append]
    exact Nat.le_add_right_of_le h.start
  · rcases h.belongs with hlost | hb
    · exact Or.inl (hlost.append log)
    · exact hbelongs hb
  · intro id hid
    rcases h.pending id hid with hlost | hc | ⟨hrequest, hconn⟩
    · exact Or.inl (hlost.append log)
    · exact Or.inr (Or.inl (hcurrent id.1 id.2 hc))
    · exact Or.inr (Or.inr ⟨hrequest.append h.start log, hconn⟩)
  · have hheld := h.held
    cases holding with
    | nothing => trivial
    | object o => trivial
    | message o msgid => exact hheld.imp (fun hlost => hlost.append log) (hcurrent o msgid)

/-- A step outside that is not logged. -/
theorem Tied.outside {s : State ω} (h : Tied net c holding s) {w : ω}
    (hquiet : ∀ o, Quiet net s.world w o)
    (hsimple : c.automaticReconnect = false → Simple net s.world → Simple net w) :
    Tied net c holding { s with world := w } := by
  have hadvance := h.advance hquiet hsimple [] fun hb => Or.inr (by rw [List.append_nil]; exact hb)
  rw [List.append_nil] at hadvance
  exact hadvance

theorem Tied.same {s : State ω} (h : Tied net c holding s) {w : ω} (hsame : net.Same s.world w) :
    Tied net c holding { s with world := w } :=
  h.outside (quiet_of_links hsame.links) fun _ hs => hs.links hsame.links

theorem tied_calm (hdoc : Documented env net) (holding : Holding) : Calm env (Tied net c holding) where
  startTls := fun _ _ hs => ⟨hs.asynchronous, hs.automaticReconnect, hs.attempts, hs.conn, hs.simple,
    hs.start, hs.belongs, hs.pending, hs.held⟩
  loop := onWorld_rule fun _ hs => hs.same (hdoc.getRunningLoop _)
  setOption := fun o x v => onWorld_rule fun _ hs => hs.1.same (hdoc.setOption o x v _)
  getOption := fun o x => onWorld_rule fun _ hs => hs.1.same (hdoc.getOption o x _)

theorem tied_recordable : Recordable (Tied net c holding) := fun _ _ hs =>
  ⟨hs.asynchronous, hs.automaticReconnect, hs.attempts, hs.conn, hs.simple, hs.start, hs.belongs,
    hs.pending, hs.held⟩

/-- Where a reconnect is allowed: no object ever starts a session anew, or the
invariant has ended, or no message ID is held, and none is pending on the object
of the connection unless a request has to be made again. -/
structure Renewable (net : Network ω) (c : Setting) (holding : Holding) (s : State ω) : Prop where
  tied : Tied net c holding s
  renewable : c.automaticReconnect = false ∨ c.LostWait s.calls ∨
    (∀ o msgid, holding ≠ .message o msgid) ∧
      (c.LostRequest s.calls ∨ ∀ id ∈ c.ids, c.conn ≠ some id.1)

/-- A synchronous method on the object of the connection, which starts a session
only for a `ReconnectLDAPObject`. -/
theorem Renewable.on {R : Link → List Wire → Link → List Wire → Prop} {s : State ω} {o : Obj}
    (h : Renewable net c holding s) (hconn : s.self.conn = some o) {w : ω}
    (hon : net.On o R s.world w)
    (hR : ∀ l l' wire wire', R l wire l' wire' → l'.reconnecting = l.reconnecting ∧
      (l.reconnecting = false → ∀ session, l'.session = some session → l.session = some session)) :
    Renewable net c holding { s with world := w } := by
  have hconn : c.conn = some o := h.tied.conn ▸ hconn
  -- a message ID stays current on an object that the step leaves alone
  have hcurrent : ∀ o' msgid, Quiet net s.world w o' → Current net o' msgid s.world s.calls →
      Current net o' msgid w s.calls := by
    intro o' msgid hquiet hc
    have hstep := hc.step [] (hquiet hc.linked).1 (hquiet hc.linked).2
    rw [List.append_nil] at hstep
    exact hstep
  have hothers : ∀ o' msgid, o' ≠ o → Current net o' msgid s.world s.calls →
      Current net o' msgid w s.calls :=
    fun o' msgid hne => hcurrent o' msgid (On.quiet_others hon hne)
  -- an object that never reconnects keeps its session
  have hsimple : c.automaticReconnect = false → ∀ o' msgid, Current net o' msgid s.world s.calls →
      Current net o' msgid w s.calls := by
    intro hauto o' msgid hc
    by_cases hne : o' = o
    · subst hne
      exact hcurrent o' msgid (On.quiet hon fun l l' hl hstep =>
        (hR l l' _ _ hstep).2 (h.tied.simple hauto o' l hl)) hc
    · exact hothers o' msgid hne hc
  refine ⟨⟨h.tied.asynchronous, h.tied.automaticReconnect, h.tied.attempts, h.tied.conn,
    fun hauto => ?_, h.tied.start, h.tied.belongs, fun id hid => ?_, ?_⟩, h.renewable⟩
  · exact On.simple hon (fun l l' hstep => (hR l l' _ _ hstep).1) (h.tied.simple hauto)
  · rcases h.tied.pending id hid with hlost | hc | hrequest
    · exact Or.inl hlost
    · rcases h.renewable with hauto | hlost | ⟨-, hagain⟩
      · exact Or.inr (Or.inl (hsimple hauto id.1 id.2 hc))
      · exact Or.inl hlost
      -- nothing is pending on `o` itself unless its request is made again
      · by_cases hne : id.1 = o
        · rcases hagain with hrequest | hapart
          · exact Or.inr (Or.inr ⟨hrequest, hne ▸ hconn⟩)
          · exact absurd (hne ▸ hconn) (hapart id hid)
        · exact Or.inr (Or.inl (hothers id.1 id.2 hne hc))
    · exact Or.inr (Or.inr hrequest)
  · have hheld := h.tied.held
    cases holding with
    | nothing => trivial
    | object o' => trivial
    | message o' msgid =>
      rcases h.renewable with hauto | hlost | ⟨hno, -⟩
      · exact hheld.imp_right (hsimple hauto o' msgid)
      · exact Or.inl hlost
      · exact absurd rfl (hno o' msgid)

theorem Renewable.moves {s : State ω} {o : Obj} (h : Renewable net c holding s)
    (hconn : s.self.conn = some o) {w : ω} (hmoves : net.On o Moves s.world w) :
    Renewable net c holding { s with world := w } :=
  h.on hconn hmoves fun _ _ _ _ hstep => ⟨hstep.reconnecting, hstep.session⟩

theorem Renewable.secures {s : State ω} {o : Obj} (h : Renewable net c holding s)
    (hconn : s.self.conn = some o) {w : ω} (hsecures : net.On o Secures s.world w) :
    Renewable net c holding { s with world := w } := by
  refine h.on hconn hsecures fun l l' wire wire' hstep => ?_
  obtain ⟨l₁, wire₁, session, hmoves, -, rfl, -⟩ := hstep
  exact ⟨hmoves.reconnecting, hmoves.session⟩

theorem Renewable.same {s : State ω} (h : Renewable net c holding s) {w : ω}
    (hsame : net.Same s.world w) : Renewable net c holding { s with world := w } :=
  ⟨h.tied.same hsame, h.renewable⟩

theorem renewable_synchronous (hdoc : Documented env net) (holding : Holding) :
    Synchronous env (Renewable net c holding) where
  startTls := fun s startTls hs => ⟨(tied_calm hdoc holding).startTls s startTls hs.tied, hs.renewable⟩
  loop := onWorld_rule fun _ hs => hs.same (hdoc.getRunningLoop _)
  setOption := fun o x v => onWorld_rule fun _ hs => hs.1.same (hdoc.setOption o x v _)
  getOption := fun o x => onWorld_rule fun _ hs => hs.1.same (hdoc.getOption o x _)
  reconnect := fun o uri k force => onWorld_rule fun _ hs => hs.1.moves hs.2 (hdoc.reconnect o uri k force _)
  simpleBindS := fun o bind => onWorld_rule fun _ hs => hs.1.moves hs.2 (hdoc.simpleBindS o bind _)
  saslInteractiveBindS := fun o mechanism => onWorld_rule fun _ hs =>
    hs.1.moves hs.2 (hdoc.saslInteractiveBindS o mechanism _)
  whoamiS := fun o controls => onWorld_rule fun _ hs => hs.1.moves hs.2 (hdoc.whoamiS o controls _)
  startTlsS := fun o => onWorld_rule fun s hs => by
    have hstart := hdoc.startTlsS o s.world
    cases hrun : (env.startTlsS o).run s.world with
    | ok u w =>
      rw [hrun] at hstart
      exact hs.1.secures hs.2 hstart.2
    | error e w =>
      rw [hrun] at hstart
      exact hs.1.moves hs.2 hstart

/-- A request does not start a session. -/
theorem request_quiet (hdoc : Documented env net) (o : Obj) (op : Operation) (w : ω) :
    (∀ o', Quiet net w (final ((env.request o op).run w)) o') ∧
      (Simple net w → Simple net (final ((env.request o op).run w))) := by
  by_cases hop : op.request = .unbindExt
  · have hon : net.On o Closes w (final ((env.request o op).run w)) := by
      have hunbind := hdoc.unbind o op w hop
      cases hrun : (env.request o op).run w with
      | ok msgid w' =>
        rw [hrun] at hunbind
        exact hunbind.2
      | error e w' =>
        rw [hrun] at hunbind
        exact hunbind.2
    refine ⟨fun o' => ?_, On.simple hon fun l l' hcloses => by rw [hcloses.1]⟩
    by_cases hne : o' = o
    · subst hne
      refine On.quiet hon fun l l' _ hcloses session hs => ?_
      rw [hcloses.1] at hs
      cases hs
    · exact On.quiet_others hon hne
  · have hlinks : net.links (final ((env.request o op).run w)) = net.links w := by
      have hrequest := hdoc.request o op w hop
      cases hrun : (env.request o op).run w with
      | ok msgid w' =>
        rw [hrun] at hrequest
        exact hrequest.links
      | error e w' =>
        rw [hrun] at hrequest
        exact hrequest.elim (fun hsame => hsame.links) fun hsent => hsent.links
    exact ⟨quiet_of_links hlinks, fun hs => hs.links hlinks⟩

/-- A message ID is current when it is issued. -/
theorem request_current (hdoc : Documented env net) {o : Obj} {op : Operation} {s : State ω}
    {number : Nat} {w : ω} (hrun : (env.request o op).run s.world = .ok (some number) w) :
    Current net o ⟨number, s.calls.length⟩ w (s.calls ++ [.request o op (.ok (some number)) w]) := by
  have hop : op.request ≠ .unbindExt := by
    intro hop
    have hunbind := hdoc.unbind o op s.world hop
    rw [hrun] at hunbind
    cases hunbind.1
  have hsent := hdoc.request o op s.world hop
  rw [hrun] at hsent
  obtain ⟨session, hsession, -⟩ := hsent.wire
  refine ⟨fun hnone => ?_, op, w, by simp, fun session hs => hs⟩
  rw [hsent.links] at hnone
  simp [Network.session, hnone] at hsession

theorem tied_discipline (hdoc : Documented env net) :
    Discipline env (Tied net c) (Renewable net c) where
  calm := tied_calm hdoc
  reconnecting := fun holding => (renewable_synchronous hdoc holding).toReconnecting
  keep := fun _ _ hs => hs.tied
  attempts := ⟨c.attempts, fun _ _ hs => hs.attempts⟩
  object := fun _ o _ hs _ => hs.object o
  release := fun _ _ hs => hs.nothing
  answered := fun o _ _ hs => hs.object o
  readable := fun o _ timeout => onWorld_rule fun _ hs => hs.same (hdoc.readable o timeout _)
  request := fun o op => by
    refine request_rule (fun s msgid w hs hrun => ?_) fun s e w hs hrun => ?_
    · obtain ⟨hquiet, hsimple⟩ := request_quiet hdoc o op s.world
      rw [hrun] at hquiet hsimple
      have htied := hs.advance hquiet (fun _ => hsimple) [.request o op (.ok msgid) w]
        fun hb => Or.inr (hb.append_request o op _ w)
      cases msgid with
      | none => exact htied
      | some number =>
        exact ⟨htied.asynchronous, htied.automaticReconnect, htied.attempts, htied.conn, htied.simple,
          htied.start, htied.belongs, htied.pending, Or.inr (request_current hdoc hrun)⟩
    · obtain ⟨hquiet, hsimple⟩ := request_quiet hdoc o op s.world
      rw [hrun] at hquiet hsimple
      have htied := hs.advance hquiet (fun _ => hsimple) [.request o op (.error e) w]
        fun hb => Or.inr (hb.append_request o op _ w)
      refine ⟨htied, fun hlost hattempts => ⟨htied, ?_⟩⟩
      cases hauto : c.automaticReconnect with
      | false => exact Or.inl rfl
      | true =>
        -- the request is in the log of this call
        refine Or.inr (Or.inr ⟨nofun, Or.inl ⟨hauto, hs.attempts ▸ hattempts, ?_⟩⟩)
        show ((s.calls ++ [Call.request o op (.error e) w]).drop c.start).any Call.lostRequest = true
        rw [List.drop_append_of_le_length hs.start, List.any_append]
        simp [Call.lostRequest, hlost]
  result := fun o msgid all timeout => by
    -- a wait is made on the session of its message ID
    have hwait : ∀ (s : State ω) (outcome : Except PyExc Response), Tied net c (.message o msgid) s →
        (∀ r, outcome = .ok r → r.type ≠ none → ∀ session, net.session s.world o = some session →
          net.answers session msgid.number r) → Belongs net s.calls →
        c.LostWait (s.calls ++ [.result o msgid s.world outcome]) ∨
          Belongs net (s.calls ++ [.result o msgid s.world outcome]) := by
      intro s outcome hs hanswers hb
      refine hs.held.imp (fun hlost => hlost.append _) fun hc => hb.append ?_
      rintro o' msgid' before outcome' heq session hsession
      cases heq
      obtain ⟨op, after, hcall, hissued⟩ := hc.issued
      exact ⟨⟨op, after, hcall, hissued session hsession⟩,
        fun r hr htype => hanswers r hr htype session hsession⟩
    refine getResult_rule (fun s r w hs hrun => ?_) fun s e w hs hrun => ?_
    · have hresult := hdoc.result4 o msgid.number all timeout s.world
      rw [hrun] at hresult
      refine hs.advance (quiet_of_links hresult.1.links) (fun _ hsimple => hsimple.links hresult.1.links) _ ?_
      refine hwait s (.ok r) hs fun r' hr' htype session hsession => ?_
      cases hr'
      exact hresult.2 htype session hsession
    · have hresult := hdoc.result4 o msgid.number all timeout s.world
      rw [hrun] at hresult
      have htied := hs.advance (quiet_of_links hresult.links)
        (fun _ hsimple => hsimple.links hresult.links) [.result o msgid s.world (.error e)]
        (hwait s (.error e) hs nofun)
      refine ⟨htied, fun hlost hattempts => ⟨htied, ?_⟩⟩
      cases hauto : c.automaticReconnect with
      | false => exact Or.inl rfl
      | true =>
        refine Or.inr (Or.inl ⟨hauto, hs.attempts ▸ hattempts, ?_⟩)
        show (s.calls ++ [Call.result o msgid s.world (.error e)]).any Call.lostWait = true
        rw [List.any_append]
        simp [Call.lostWait, hlost]

/-! ## Connecting -/

/-- A new object is none of those that exist. -/
theorem Made.quiet {o : Obj} {reconnecting : Bool} {w w' : ω} (h : net.Made o reconnecting w w')
    (o' : Obj) : Quiet net w w' o' := by
  intro hlink
  have hne : o' ≠ o := by
    rintro rfl
    exact hlink h.fresh
  have heq := h.others o' hne
  refine ⟨heq ▸ hlink, fun session hs => ?_⟩
  unfold Network.session at hs ⊢
  rw [← heq]
  exact hs

theorem Made.simple {o : Obj} {w w' : ω} (h : net.Made o false w w') (hs : Simple net w) :
    Simple net w' := by
  intro o' l hl
  by_cases hne : o' = o
  · obtain ⟨session, hlink, -⟩ := h.link
    rw [hne, hlink] at hl
    cases hl
    rfl
  · rw [h.others o' hne] at hl
    exact hs o' l hl

/-- When a call begins, every pending message ID is current. -/
theorem Tied.settled {s : State ω} (h : Tied net c holding s) (hstart : c.start = s.calls.length) :
    ∀ id ∈ c.ids, c.LostWait s.calls ∨ Current net id.1 id.2 s.world s.calls := by
  intro id hid
  rcases h.pending id hid with hlost | hc | ⟨⟨-, -, hany⟩, -⟩
  · exact Or.inl hlost
  · exact Or.inr hc
  · rw [hstart, List.drop_length] at hany
    cases hany

/-- The object of the connection is another one, at the beginning of a call. -/
theorem Tied.withConn {s : State ω} (h : Tied net c .nothing s) (hstart : c.start = s.calls.length)
    (conn : Option Obj) (connS : Option Slots) :
    Tied net { c with conn := conn } .nothing
      { s with self := { s.self with conn := conn, connS := connS } } :=
  ⟨h.asynchronous, h.automaticReconnect, h.attempts, rfl, h.simple, h.start, h.belongs,
    fun id hid => (h.settled hstart id hid).imp_right Or.inl, trivial⟩

theorem newLdapObject_tied (hdoc : Documented env net) {s₀ : State ω} (fileno : Option Int)
    (h : Tied net c .nothing s₀) (hstart : c.start = s₀.calls.length) :
    Spec (fun s => s = s₀) (newLdapObject env s₀.self fileno)
      (fun o s => Tied net c .nothing s ∧ c.start = s.calls.length ∧
        ∀ id ∈ c.ids, c.LostWait s.calls ∨ id.1 ≠ o)
      (fun _ => Tied net c .nothing) := by
  refine newLdapObject_rule hdoc fileno (fun o w hmade => ?_) fun e w hsame => h.same hsame
  refine ⟨h.outside (Made.quiet hmade) fun hfalse hs => ?_, hstart, fun id hid => ?_⟩
  · rw [← h.automaticReconnect] at hfalse
    rw [hfalse] at hmade
    exact Made.simple hmade hs
  · refine (h.settled hstart id hid).imp_right fun hc => ?_
    rintro rfl
    exact hc.linked hmade.fresh

/-- Connecting makes another object the one of the connection. -/
theorem connect_tied (hdoc : Documented env net) (fileno : Option Int) :
    Spec (fun s => Tied net c .nothing s ∧ c.start = s.calls.length) (connect env fileno)
      (fun _ s => ∃ conn, Tied net { c with conn := conn } .nothing s)
      (fun _ s => ∃ conn, Tied net { c with conn := conn } .nothing s) := by
  unfold connect
  refine Spec.bind (Q := fun _ s => Tied net c .nothing s ∧ c.start = s.calls.length)
    (Spec.get fun s hs => hs) fun s₁ => ?_
  refine Spec.bind (Q := fun _ s => Tied net c .nothing s ∧ c.start = s.calls.length)
    (Spec.onlyIf (fun _ => Spec.throw fun s hs => ⟨c.conn, hs.1⟩) fun _ s hs => hs) fun _ => ?_
  refine Spec.bind (Q := fun s₂ s => s = s₂ ∧ Tied net c .nothing s ∧ c.start = s.calls.length)
    (Spec.get fun s hs => ⟨rfl, hs⟩) fun s₂ => ?_
  refine Spec.bind (Q := fun o s => Tied net c .nothing s ∧ c.start = s.calls.length ∧
    ∀ id ∈ c.ids, c.LostWait s.calls ∨ id.1 ≠ o) ?_ fun o => ?_
  · rintro s ⟨rfl, htied, hstart⟩
    have hnew := newLdapObject_tied hdoc fileno htied hstart s rfl
    cases hrun : (newLdapObject env s.self fileno).run s with
    | ok o s' =>
      rw [hrun] at hnew
      exact hnew
    | error e s' =>
      rw [hrun] at hnew
      exact ⟨c.conn, hnew⟩
  refine Spec.bind (Q := fun _ => Renewable net { c with conn := some o } .nothing)
    (Spec.modify fun s hs => ?_) fun _ => ?_
  · obtain ⟨htied, hstart, hfresh⟩ := hs
    refine ⟨htied.withConn hstart (some o) none, ?_⟩
    by_cases hlost : c.LostWait s.calls
    · exact Or.inr (Or.inl hlost)
    · refine Or.inr (Or.inr ⟨nofun, Or.inr fun id hid heq => ?_⟩)
      exact (hfresh id hid).resolve_left hlost (Option.some.inj heq).symm
  have hkeeps : Keeps (Renewable net { c with conn := some o } .nothing)
      (do onlyIf (← get).self.startTls (startTls env)) :=
    Keeps.bind Keeps.get fun _ => Keeps.onlyIf (renewable_synchronous hdoc .nothing).startTls_keeps
  exact Spec.conseq hkeeps (fun _ hs => hs) (fun _ _ hs => ⟨some o, hs.tied⟩)
    fun _ _ hs => ⟨some o, hs.tied⟩

theorem disconnect_tied :
    Spec (fun s => Tied net c .nothing s ∧ c.start = s.calls.length) (disconnect env)
      (fun _ s => ∃ conn, Tied net { c with conn := conn } .nothing s)
      (fun _ s => ∃ conn, Tied net { c with conn := conn } .nothing s) := by
  unfold disconnect
  refine Spec.bind (Q := fun s₁ s => s = s₁ ∧ Tied net c .nothing s ∧ c.start = s.calls.length)
    (Spec.get fun s hs => ⟨rfl, hs⟩) fun s₁ => ?_
  -- the synchronous connection has no reader
  refine Spec.bind (Q := fun _ s => Tied net c .nothing s ∧ c.start = s.calls.length)
    (Spec.onlyIf (fun hasync => ?_) fun _ s hs => hs.2) fun _ => ?_
  · rintro s ⟨rfl, htied, -⟩
    rw [htied.asynchronous] at hasync
    cases hasync
  · exact Spec.modify fun s hs => ⟨none, hs.1.withConn hs.2 none none⟩

/-- A call of a method other than those on generators: the message IDs that were
pending are still tied, but for those that a synchronous method has reconnected. -/
theorem method_tied (hdoc : Documented env net) {polls : Nat} (use : Use) {s : State ω}
    (h : Tied net c .nothing s) (hstart : c.start = s.calls.length) :
    ∃ conn ids, (∀ id ∈ c.ids, id ∈ ids ∨
        c.automaticReconnect = true ∧ use.isSynchronous = true ∧ conn = some id.1) ∧
      Tied net { c with conn := conn, ids := ids } .nothing (final ((use.method env polls).run s)) := by
  have hall : ∀ {s' : State ω}, Tied net c .nothing s' → ∃ conn ids,
      (∀ id ∈ c.ids, id ∈ ids ∨
        c.automaticReconnect = true ∧ use.isSynchronous = true ∧ conn = some id.1) ∧
      Tied net { c with conn := conn, ids := ids } .nothing s' :=
    fun h' => ⟨c.conn, c.ids, fun id hid => Or.inl hid, h'⟩
  have hconn : ∀ {s' : State ω}, (∃ conn, Tied net { c with conn := conn } .nothing s') → ∃ conn ids,
      (∀ id ∈ c.ids, id ∈ ids ∨
        c.automaticReconnect = true ∧ use.isSynchronous = true ∧ conn = some id.1) ∧
      Tied net { c with conn := conn, ids := ids } .nothing s' :=
    fun ⟨conn, h'⟩ => ⟨conn, c.ids, fun id hid => Or.inl hid, h'⟩
  have hdiscipline : Discipline env (Tied net c) (Renewable net c) := tied_discipline hdoc
  by_cases hsync : use.isSynchronous = true
  · -- what is pending on the object of the connection is given up, if it can be reconnected
    let ids := c.ids.filter fun id => !c.automaticReconnect || c.conn != some id.1
    have hrenewable : Renewable net { c with ids := ids } .nothing s := by
      refine ⟨⟨h.asynchronous, h.automaticReconnect, h.attempts, h.conn, h.simple, h.start, h.belongs,
        fun id hid => h.pending id (List.mem_of_mem_filter hid), trivial⟩, ?_⟩
      cases hauto : c.automaticReconnect with
      | false => exact Or.inl rfl
      | true =>
        refine Or.inr (Or.inr ⟨nofun, Or.inr fun id hid => ?_⟩)
        have hne := (List.mem_filter.mp hid).2
        simpa [hauto] using hne
    refine ⟨c.conn, ids, fun id hid => ?_,
      ((Use.synchronous_keeps (renewable_synchronous hdoc .nothing) hsync).final hrenewable).tied⟩
    by_cases hkeep : (!c.automaticReconnect || c.conn != some id.1) = true
    · exact Or.inl (List.mem_filter.mpr ⟨hid, hkeep⟩)
    · simp only [Bool.or_eq_true, Bool.not_eq_true', bne_iff_ne, not_or, Bool.not_eq_false, not_not] at hkeep
      exact Or.inr ⟨hkeep.1, hsync, hkeep.2⟩
  cases use with
  | connect fileno => exact hconn ((connect_tied hdoc fileno).final ⟨h, hstart⟩)
  | disconnect => exact hconn (disconnect_tied.final ⟨h, hstart⟩)
  | setOption option value append =>
    exact hall ((Use.option_keeps (tied_calm hdoc .nothing) tied_recordable rfl).final h)
  | getOption option =>
    exact hall ((Use.option_keeps (tied_calm hdoc .nothing) tied_recordable rfl).final h)
  | bind authzid password controls =>
    exact hall ((Use.binding_keeps hdiscipline (fun _ _ _ hs => ⟨hs.asynchronous, hs.automaticReconnect,
      hs.attempts, hs.conn, hs.simple, hs.start, hs.belongs, hs.pending, hs.held⟩) rfl).final h)
  | unbind controls =>
    exact hall ((Use.binding_keeps hdiscipline (fun _ _ _ hs => ⟨hs.asynchronous, hs.automaticReconnect,
      hs.attempts, hs.conn, hs.simple, hs.start, hs.belongs, hs.pending, hs.held⟩) rfl).final h)
  | execute request controls dn => exact hall ((Use.operation_keeps hdiscipline rfl).final h)
  | extended request responseClass controls => exact hall ((Use.operation_keeps hdiscipline rfl).final h)
  | cancel msgid controls => exact hall ((Use.operation_keeps hdiscipline rfl).final h)
  | search args => exact hall ((Use.operation_keeps hdiscipline rfl).final h)
  | searchIter args => exact hall h
  | next i => exact hall h
  | close i => exact hall h
  | _ => exact absurd rfl hsync

/-- Closing a generator cancels its operation with the connection itself. -/
theorem close_tied (hdoc : Documented env net) {polls : Nat} (iter : SearchIter) :
    Keeps (Tied net c .nothing) (Method.close env polls iter) := by
  have hdiscipline : Discipline env (Tied net c) (Renewable net c) := tied_discipline hdoc
  refine Discipline.close_rule polls iter (fun _ hs => hs) (fun msgid _ => ?_) fun msgid _ => ?_
  · exact Spec.conseq (hdiscipline.cancel_keeps polls msgid none) (fun _ hs => hs.1) (fun _ _ hs => hs)
      fun _ _ hs => hs
  · rintro s ⟨htied, hasync⟩
    rw [htied.asynchronous] at hasync
    cases hasync

end Keeping

/-! ## Programs -/

/-- The object and message ID that a suspended generator polls. -/
def SearchIter.id : SearchIter → Option (Obj × MsgId)
  | .suspended _ _ o msgid _ _ _ => some (o, msgid)
  | _ => none

def Use.resumes : Use → Nat → Bool
  | .next i, j => i == j
  | _, _ => false

/-- A running program, with the numbers of the generators under which it may have
reconnected. -/
structure Tracked (ω : Type) where
  running : Running ω
  crossed : List Nat

namespace Tracked

/-- What the program has pending: the message IDs of the generators it may resume. -/
def ids (t : Tracked ω) : List (Obj × MsgId) :=
  (List.range t.running.iters.length).filterMap fun i =>
    if i ∈ t.crossed then none else (t.running.iter i).id

/-- What is fixed for the next call. -/
def setting (t : Tracked ω) : Setting where
  automaticReconnect := t.running.state.self.automaticReconnect
  attempts := t.running.state.self.maxConnectionAttempts
  conn := t.running.state.self.conn
  start := t.running.state.calls.length
  ids := t.ids

/-- Whether a call may have reconnected: it is synchronous, or one of its requests
has lost the connection. -/
def renews (t : Tracked ω) (use : Use) (after : State ω) : Bool :=
  t.setting.automaticReconnect && use.isSynchronous || decide (t.setting.LostRequest after.calls)

/-- The suspended generators on the object of the connection, but the one a call resumes. -/
def crossings (use : Use) (after : Running ω) : List Nat :=
  (List.range after.iters.length).filter fun i => !use.resumes i &&
    (after.iter i).id.any fun id => after.state.self.conn = some id.1

/-- The program after a call. -/
def step (env : Env ω) (polls : Nat) (t : Tracked ω) (use : Use) : Tracked ω :=
  let after := t.running.step env polls use
  { running := after
    crossed := t.crossed ++ if t.renews use after.state then crossings use after else [] }

/-- A generator is not resumed once the connection may have reconnected under it. -/
def Allowed (t : Tracked ω) (use : Use) : Prop :=
  ∀ i, use = .next i → i ∈ t.crossed → (t.running.iter i).id = none

/-- What a program keeps: everything pending is current, or a wait has lost the
connection. Where no object reconnects, nothing is ever given up. -/
structure Good (net : Network ω) (t : Tracked ω) : Prop where
  tied : Tied net t.setting .nothing t.running.state
  crossed : t.running.state.self.automaticReconnect = false → t.crossed = []

theorem mem_ids {t : Tracked ω} {id : Obj × MsgId} :
    id ∈ t.ids ↔
      ∃ i, i < t.running.iters.length ∧ i ∉ t.crossed ∧ (t.running.iter i).id = some id := by
  unfold ids
  rw [List.mem_filterMap]
  constructor
  · rintro ⟨i, hi, hid⟩
    by_cases hcrossed : i ∈ t.crossed
    · rw [if_pos hcrossed] at hid
      cases hid
    · rw [if_neg hcrossed] at hid
      exact ⟨i, List.mem_range.mp hi, hcrossed, hid⟩
  · rintro ⟨i, hi, hcrossed, hid⟩
    exact ⟨i, List.mem_range.mpr hi, by rw [if_neg hcrossed, hid]⟩

end Tracked

/-- Only a generator that was made is suspended. -/
theorem Running.iter_lt {r : Running ω} {i : Nat} {id : Obj × MsgId} (h : (r.iter i).id = some id) :
    i < r.iters.length := by
  by_contra hge
  unfold Running.iter at h
  rw [List.getD_eq_getElem?_getD, List.getElem?_eq_none (Nat.le_of_not_lt hge)] at h
  cases h

theorem Running.iter_set {r : Running ω} {s : State ω} {i j : Nat} {iter : SearchIter} (hne : i ≠ j) :
    Running.iter { state := s, iters := r.iters.set i iter } j = r.iter j := by
  unfold Running.iter
  rw [List.getD_eq_getElem?_getD, List.getD_eq_getElem?_getD, List.getElem?_set_ne hne]

theorem Running.iter_set_self {r : Running ω} {s : State ω} {i : Nat} {iter : SearchIter}
    {id : Obj × MsgId}
    (h : (Running.iter { state := s, iters := r.iters.set i iter } i).id = some id) : iter.id = some id := by
  have hlt := Running.iter_lt h
  rw [List.length_set] at hlt
  unfold Running.iter at h
  rw [List.getD_eq_getElem?_getD, List.getElem?_set_self hlt] at h
  exact h

section Run

variable {polls : Nat}

/-- The invariant of the next call, where everything pending then is current. -/
theorem Tied.restart {c c' : Setting} {s : State ω} (h : Tied net c .nothing s)
    (hauto : c'.automaticReconnect = c.automaticReconnect) (hattempts : c'.attempts = c.attempts)
    (hconn : c'.conn = s.self.conn) (hstart : c'.start = s.calls.length)
    (hids : ∀ id ∈ c'.ids, c.LostWait s.calls ∨ Current net id.1 id.2 s.world s.calls) :
    Tied net c' .nothing s := by
  have hlost : c.LostWait s.calls → c'.LostWait s.calls := by
    rintro ⟨h₁, h₂, h₃⟩
    exact ⟨hauto ▸ h₁, hattempts ▸ h₂, h₃⟩
  refine ⟨h.asynchronous, h.automaticReconnect.trans hauto.symm, h.attempts.trans hattempts.symm,
    hconn.symm, fun hfalse => h.simple (hauto ▸ hfalse), hstart ▸ Nat.le_refl _,
    h.belongs.imp_left hlost, fun id hid => ?_, trivial⟩
  exact (hids id hid).imp hlost Or.inl

/-- What was pending before a call and is not crossed by it is current after it. -/
theorem Tracked.current_of_uncrossed {t : Tracked ω} {use : Use} {after : Running ω} {conn : Option Obj}
    {ids : List (Obj × MsgId)} {i : Nat} {id : Obj × MsgId}
    (htied : Tied net { t.setting with conn := conn, ids := ids } .nothing after.state)
    (hids : id ∈ ids ∨ t.setting.automaticReconnect = true ∧ use.isSynchronous = true ∧ conn = some id.1)
    (hiter : (after.iter i).id = some id) (hresumes : use.resumes i = false)
    (huncrossed : i ∉ if t.renews use after.state then crossings use after else []) :
    t.setting.LostWait after.state.calls ∨ Current net id.1 id.2 after.state.world after.state.calls := by
  have hcrossing : after.state.self.conn = some id.1 → i ∈ crossings use after := by
    intro hconn
    refine List.mem_filter.mpr ⟨List.mem_range.mpr (Running.iter_lt hiter), ?_⟩
    simp [hresumes, hiter, hconn]
  rcases hids with hmem | ⟨hauto, hsync, hconn⟩
  · rcases htied.pending id hmem with hlost | hc | ⟨hrequest, hconn⟩
    · exact Or.inl hlost
    · exact Or.inr hc
    · have hrenews : t.renews use after.state = true := by
        unfold renews
        rw [Bool.or_eq_true, decide_eq_true_eq]
        exact Or.inr hrequest
      rw [if_pos hrenews] at huncrossed
      exact absurd (hcrossing (htied.conn.trans hconn)) huncrossed
  · have hrenews : t.renews use after.state = true := by
      unfold renews
      rw [hauto, hsync]
      rfl
    rw [if_pos hrenews] at huncrossed
    exact absurd (hcrossing (htied.conn.trans hconn)) huncrossed

/-- After a call the program is as it has to be, if the call has kept what was
pending, and a generator that it has resumed is current. -/
theorem Tracked.good_of_call {t : Tracked ω} {use : Use} (h : t.Good net)
    (htied : ∃ conn ids, (∀ id ∈ t.setting.ids, id ∈ ids ∨
        t.setting.automaticReconnect = true ∧ use.isSynchronous = true ∧ conn = some id.1) ∧
      Tied net { t.setting with conn := conn, ids := ids } .nothing (t.running.step env polls use).state)
    (hothers : ∀ i id, ((t.running.step env polls use).iter i).id = some id → use.resumes i = false →
      (t.running.iter i).id = some id)
    (hresumed : ∀ i id, ((t.running.step env polls use).iter i).id = some id → use.resumes i = true →
      t.setting.LostWait (t.running.step env polls use).state.calls ∨
        Current net id.1 id.2 (t.running.step env polls use).state.world
          (t.running.step env polls use).state.calls) :
    (t.step env polls use).Good net := by
  obtain ⟨conn, ids, hids, htied⟩ := htied
  refine ⟨htied.restart htied.automaticReconnect htied.attempts rfl rfl fun id hid => ?_, fun hfalse => ?_⟩
  · obtain ⟨i, -, hcrossed, hiter⟩ := mem_ids.mp hid
    rw [show (t.step env polls use).crossed = t.crossed ++ _ from rfl, List.mem_append, not_or] at hcrossed
    cases hresumes : use.resumes i with
    | true => exact hresumed i id hiter hresumes
    | false =>
      have hbefore := hothers i id hiter hresumes
      have hmem : id ∈ t.setting.ids :=
        mem_ids.mpr ⟨i, Running.iter_lt hbefore, hcrossed.1, hbefore⟩
      exact current_of_uncrossed htied (hids id hmem) hiter hresumes hcrossed.2
  · -- without `automatic_reconnect` no call renews
    have hauto : t.setting.automaticReconnect = false := htied.automaticReconnect ▸ hfalse
    have hrenews : t.renews use (t.running.step env polls use).state = false := by
      unfold renews Setting.LostRequest
      simp [hauto]
    show t.crossed ++ (if t.renews use (t.running.step env polls use).state then _ else []) = []
    rw [hrenews, h.crossed hauto]
    rfl

/-- A generator that may be resumed holds a current message ID. -/
theorem Tracked.held_of_allowed {t : Tracked ω} {i : Nat} (h : t.Good net)
    (hallowed : t.running.state.self.automaticReconnect = true → t.Allowed (.next i)) :
    Tied net t.setting (Discipline.held (t.running.iter i)) t.running.state := by
  refine ⟨h.tied.asynchronous, h.tied.automaticReconnect, h.tied.attempts, h.tied.conn, h.tied.simple,
    h.tied.start, h.tied.belongs, h.tied.pending, ?_⟩
  cases hiter : t.running.iter i with
  | created args => trivial
  | finished => trivial
  | suspended args controls o msgid response rest allResults =>
    have hid : (t.running.iter i).id = some (o, msgid) := by rw [hiter]; rfl
    have huncrossed : i ∉ t.crossed := by
      intro hmem
      cases hauto : t.running.state.self.automaticReconnect with
      | false =>
        rw [h.crossed hauto] at hmem
        cases hmem
      | true =>
        rw [hallowed hauto i rfl hmem] at hid
        cases hid
    exact h.tied.settled rfl (o, msgid) (mem_ids.mpr ⟨i, Running.iter_lt hid, huncrossed, hid⟩)

/-- A call of a program that allows it. -/
theorem Tracked.step_good (hdoc : Documented env net) (t : Tracked ω) (use : Use) (h : t.Good net)
    (hallowed : t.running.state.self.automaticReconnect = true → t.Allowed use) :
    (t.step env polls use).Good net := by
  have hall : ∀ {s' : State ω}, Tied net t.setting .nothing s' → ∃ conn ids,
      (∀ id ∈ t.setting.ids, id ∈ ids ∨
        t.setting.automaticReconnect = true ∧ use.isSynchronous = true ∧ conn = some id.1) ∧
      Tied net { t.setting with conn := conn, ids := ids } .nothing s' :=
    fun h' => ⟨t.setting.conn, t.setting.ids, fun id hid => Or.inl hid, h'⟩
  cases use with
  | searchIter args =>
    refine good_of_call h (hall h.tied) (fun i id hiter _ => ?_) fun i id _ hresumes => by cases hresumes
    -- the new generator is not suspended
    have hlt := Running.iter_lt hiter
    unfold Running.iter at hiter ⊢
    rw [List.getD_eq_getElem?_getD] at hiter ⊢
    rw [show (t.running.step env polls (.searchIter args)).iters = t.running.iters ++ [.created args]
      from rfl] at hiter
    by_cases hold : i < t.running.iters.length
    · rw [List.getElem?_append_left hold] at hiter
      exact hiter
    · rw [List.getElem?_append_right (Nat.le_of_not_lt hold)] at hiter
      cases hnew : i - t.running.iters.length with
      | zero =>
        rw [hnew] at hiter
        cases hiter
      | succ k =>
        rw [hnew] at hiter
        cases hiter
  | next i =>
    have hnext := (tied_discipline (c := t.setting) hdoc).next_rule polls (t.running.iter i)
      t.running.state (held_of_allowed h hallowed)
    have hstep : t.running.step env polls (.next i) =
        t.running.resume i ((Method.next env polls (t.running.iter i)).run t.running.state) := rfl
    have hne : ∀ j, (Use.next i).resumes j = false → i ≠ j := fun j hj => by simpa [Use.resumes] using hj
    have hself : ∀ j, (Use.next i).resumes j = true → i = j := fun j hj => by simpa [Use.resumes] using hj
    cases hrun : (Method.next env polls (t.running.iter i)).run t.running.state with
    | ok step s =>
      rw [hrun] at hnext hstep
      refine good_of_call h ?_ ?_ ?_ <;> rw [hstep]
      · exact hall hnext.nothing
      · exact fun j id hiter hresumes => Running.iter_set (hne j hresumes) ▸ hiter
      · intro j id hiter hresumes
        obtain rfl := hself j hresumes
        have hid := Running.iter_set_self hiter
        have hheld := hnext.held
        obtain ⟨result, iter⟩ := step
        cases iter with
        | created args => cases hid
        | finished => cases hid
        | suspended args controls o msgid response rest allResults =>
          cases hid
          exact hheld
    | error e s =>
      rw [hrun] at hnext hstep
      refine good_of_call h ?_ ?_ ?_ <;> rw [hstep]
      · exact hall hnext
      · exact fun j id hiter hresumes => Running.iter_set (hne j hresumes) ▸ hiter
      · intro j id hiter hresumes
        obtain rfl := hself j hresumes
        cases Running.iter_set_self hiter
  | close i =>
    refine good_of_call h (hall ((close_tied hdoc (t.running.iter i)).final h.tied))
      (fun j id hiter _ => ?_) fun j id _ hresumes => by cases hresumes
    by_cases hne : i = j
    · subst hne
      cases Running.iter_set_self hiter
    · exact Running.iter_set hne ▸ hiter
  | _ =>
    exact good_of_call h (method_tied hdoc _ h.tied rfl) (fun _ _ hiter _ => hiter)
      fun _ _ _ hresumes => by cases hresumes

/-- A program that has just made its connection. -/
def Tracked.start (self : Connection) (w : ω) : Tracked ω :=
  { running := { state := { self := self, world := w, calls := [] }, iters := [] }, crossed := [] }

theorem Tracked.start_good {self : Connection} {w : ω} (hself : self.asynchronous = false)
    (hw : ∀ o, net.links w o = none) : (Tracked.start self w).Good net where
  tied :=
    { asynchronous := hself
      automaticReconnect := rfl
      attempts := rfl
      conn := rfl
      simple := fun _ o l hl => by cases (hw o).symm.trans hl
      start := Nat.le_refl _
      belongs := Or.inr fun _ _ _ _ hmem => absurd hmem List.not_mem_nil
      pending := fun id hid => absurd hid List.not_mem_nil
      held := trivial }
  crossed := fun _ => rfl

/-- In every run of the synchronous connection, every wait for a result is made on
the session on which its message ID was issued, if no wait was made again after a
reconnect and no generator is resumed over one. -/
theorem responses_belong (hdoc : Documented env net) (uri : PyStr) (startTls : Bool) (timeout : Int)
    (automaticReconnect : Bool) (maxConnectionAttempts : Nat) (polls : Nat) (w : ω)
    (hw : ∀ o, net.links w o = none) (uses : List Use) (t : Tracked ω)
    (ht : t = after (Tracked.step env polls) (Tracked.start (Connection.init false uri startTls timeout
      automaticReconnect maxConnectionAttempts) w) uses)
    (hresumes : Along (Tracked.step env polls)
      (fun t use => t.running.state.self.automaticReconnect = true → t.Allowed use)
      (Tracked.start (Connection.init false uri startTls timeout automaticReconnect
        maxConnectionAttempts) w) uses)
    (hwaits : ¬t.setting.LostWait t.running.state.calls) :
    Belongs net t.running.state.calls := by
  have hgood : t.Good net := by
    rw [ht]
    exact after_induction (fun t use h hallowed => Tracked.step_good hdoc t use h hallowed)
      (Tracked.start_good rfl hw) hresumes
  exact hgood.tied.belongs.resolve_left hwaits

/-- A deletion whose wait for the result does not lose the connection. -/
theorem responses_belong_delete :
    Belongs Sim.net (after (Tracked.step Sim.env 1) (Tracked.start (Connection.init false
      (py "ldap://localhost")) {})
      [.connect none, .execute (.deleteExt (py "cn=a")) none none]).running.state.calls := by
  refine responses_belong Sim.documented (py "ldap://localhost") false (-1) true 10 1 {} (fun _ => rfl)
    [.connect none, .execute (.deleteExt (py "cn=a")) none none] _ rfl
    ⟨fun _ i h => ?_, fun _ i h => ?_, trivial⟩ ?_
  · cases h
  · cases h
  · rintro ⟨-, -, hlost⟩
    cases hlost

/-- The connection is lost while the result of a deletion is waited for: the wait is
made again on the new session, on which its message ID was not issued. -/
theorem wait_on_new_session :
    ¬Belongs Sim.net (after (Tracked.step Sim.env 1) (Tracked.start (Connection.init false
      (py "ldap://localhost")) { losses := 1 })
      [.connect none, .execute (.deleteExt (py "cn=a")) none none]).running.state.calls := by
  intro h
  -- the second wait, after the reconnect
  have hsecond := h _ _ _ _ (List.mem_of_getElem? (i := 2) rfl) 1 rfl
  obtain ⟨⟨op, w, hcall, hsession⟩, -⟩ := hsecond
  cases hcall
  cases hsession

end Run

end FreeIam.Ldap
