import FreeIam.Ldap.Connection.Records
import FreeIam.Ldap.Connection.Usage

/-!
# Without automatic reconnect

A connection that does not reconnect by itself has a `SimpleLDAPObject`, which has
no method `reconnect`. `_retry` calls it all the same before a second attempt: the
caller sees the error of the lost connection only where there is one attempt, and
an `AttributeError` otherwise. The wait of the asynchronous class is not repeated,
so its error is raised as it is.
-/

namespace FreeIam.Ldap

open FreeIam.Py FreeIam.Errors FreeIam.Exec

/-- What is known of python-ldap and the event loop: the objects of the class
`SimpleLDAPObject` have no method `reconnect`, and `get_running_loop` raises a
`RuntimeError` where no event loop runs. -/
structure LacksReconnect {ω : Type} (env : Env ω) (simple : Obj → Prop) : Prop where
  simpleLDAPObject : ∀ uri fileno w o w',
    (env.simpleLDAPObject uri fileno).run w = .ok o w' → simple o
  reconnect : ∀ o uri n force w, simple o →
    ∃ message, (env.reconnect o uri n force).run w = .error (.attributeError message) w
  getRunningLoop : ∀ w e w', env.getRunningLoop.run w = .error e w' → ∃ message, e = .runtimeError message

variable {ω : Type} {env : Env ω} {simple : Obj → Prop}

/-! ## Connections that do not reconnect -/

/-- The slots of a connection that does not reconnect by itself. -/
structure Manual (simple : Obj → Prop) (a : Bool) (n : Nat) (slots : Connection) : Prop where
  automaticReconnect : slots.automaticReconnect = false
  asynchronous : slots.asynchronous = a
  attempts : slots.maxConnectionAttempts = n
  conn : ∀ o, slots.conn = some o → simple o

section Reachable

variable {a : Bool} {n : Nat}

theorem manual_lasting (simple : Obj → Prop) (a : Bool) (n : Nat) :
    Method.Lasting (Manual simple a n) where
  startTls := fun _ _ hs => ⟨hs.automaticReconnect, hs.asynchronous, hs.attempts, hs.conn⟩
  attempts := ⟨n, fun _ hs => hs.attempts⟩

/-- The object that such a connection makes has no method `reconnect`. -/
theorem connect_manual (henv : LacksReconnect env simple) (fileno : Option Int) :
    Keeps (fun s => Manual simple a n s.self) (Method.connect env fileno) := by
  unfold Method.connect
  refine Keeps.bind Keeps.get fun s₀ => Keeps.bind (Keeps.onlyIf (Keeps.throw _)) fun _ => ?_
  refine Spec.bind (Q := fun s₁ s => s₁ = s ∧ Manual simple a n s.self)
    (Spec.get fun s hs => ⟨rfl, hs⟩) fun s₁ => ?_
  refine Spec.bind (Q := fun o s => simple o ∧ Manual simple a n s.self) ?_ fun o => ?_
  · rintro s ⟨rfl, hs⟩
    have hauto : ¬s₁.self.automaticReconnect = true := by simp [hs.automaticReconnect]
    rw [Method.newLdapObject, if_neg hauto, Method.onWorld, run_zoom]
    cases hrun : (env.simpleLDAPObject s₁.self.uri fileno).run s₁.world with
    | ok o w => exact ⟨henv.simpleLDAPObject _ _ _ o w hrun, hs⟩
    | error e w => exact hs
  · refine Spec.bind (Q := fun _ s => Manual simple a n s.self) (Spec.modify fun s hs => ?_) fun _ => ?_
    · refine ⟨hs.2.automaticReconnect, hs.2.asynchronous, hs.2.attempts, fun o' ho' => ?_⟩
      cases ho'
      exact hs.1
    · exact Keeps.bind Keeps.get fun s => Keeps.onlyIf (manual_lasting simple a n).synchronous.startTls_keeps

theorem disconnect_manual :
    Keeps (fun s => Manual simple a n s.self) (Method.disconnect env) := by
  unfold Method.disconnect
  refine Keeps.bind Keeps.get fun s₀ => ?_
  refine Keeps.bind (Keeps.onlyIf (manual_lasting simple a n).synchronous.toCalm.removeReader_keeps)
    fun _ => Keeps.modify fun s hs => ?_
  exact ⟨hs.automaticReconnect, hs.asynchronous, hs.attempts, fun o ho => by cases ho⟩

theorem method_manual (henv : LacksReconnect env simple) (polls : Nat) (use : Use) :
    Keeps (fun s => Manual simple a n s.self) (use.method env polls) := by
  have hlasting := manual_lasting simple a n
  have hoptions : Method.Recordable fun s : State ω => Manual simple a n s.self :=
    fun s options hs => ⟨hs.automaticReconnect, hs.asynchronous, hs.attempts, hs.conn⟩
  cases use with
  | connect fileno => exact connect_manual henv fileno
  | disconnect => exact disconnect_manual
  | setOption option value append => exact Use.option_keeps hlasting.synchronous.toCalm hoptions rfl
  | getOption option => exact Use.option_keeps hlasting.synchronous.toCalm hoptions rfl
  | bind authzid password controls =>
    exact Use.binding_keeps hlasting.discipline
      (fun _ s auth hs => ⟨hs.automaticReconnect, hs.asynchronous, hs.attempts, hs.conn⟩) rfl
  | unbind controls =>
    exact Use.binding_keeps hlasting.discipline
      (fun _ s auth hs => ⟨hs.automaticReconnect, hs.asynchronous, hs.attempts, hs.conn⟩) rfl
  | reconnect _ | startTls | saslBind _ | whoami _ =>
    exact Use.synchronous_keeps hlasting.synchronous rfl
  | execute _ _ _ | extended _ _ _ | cancel _ _ | search _ =>
    exact Use.operation_keeps hlasting.discipline rfl
  | searchIter _ | next _ | close _ => exact Keeps.pure _

/-- The connection inside has slots of its own. -/
theorem onSyncConnection_manual {α : Type} (m : Method ω α) :
    Keeps (fun s => Manual simple a n s.self) (Method.onSyncConnection m) :=
  Keeps.zoom fun _ hs => ⟨hs.automaticReconnect, hs.asynchronous, hs.attempts, hs.conn⟩

theorem close_manual (polls : Nat) (iter : SearchIter) :
    Keeps (fun s => Manual simple a n s.self) (Method.close env polls iter) := by
  have hcancel : ∀ msgid, Keeps (fun s => Manual simple a n s.self) (Method.cancel env polls msgid) :=
    fun msgid => (manual_lasting simple a n).discipline.cancel_keeps polls msgid none
  refine Method.Discipline.close_rule polls iter (fun _ hs => hs) (fun msgid _ => ?_) fun msgid _ => ?_
  · exact Spec.conseq (hcancel msgid) (fun _ hs => hs.1) (fun _ _ hs => hs) fun _ _ hs => hs
  · exact Spec.conseq (onSyncConnection_manual _) (fun _ hs => hs.1) (fun _ _ hs => hs) fun _ _ hs => hs

theorem step_manual (henv : LacksReconnect env simple) (polls : Nat) (r : Running ω) (use : Use)
    (h : Manual simple a n r.state.self) : Manual simple a n (r.step env polls use).state.self := by
  cases use with
  | searchIter args => exact h
  | next i =>
    have hnext : Keeps (fun s => Manual simple a n s.self) (Method.next env polls (r.iter i)) :=
      (manual_lasting simple a n).discipline.next_rule polls (r.iter i)
    show Manual simple a n (r.resume i ((Method.next env polls (r.iter i)).run r.state)).state.self
    have hrunned := hnext r.state h
    cases hrun : (Method.next env polls (r.iter i)).run r.state with
    | ok step s =>
      rw [hrun] at hrunned
      exact hrunned
    | error e s =>
      rw [hrun] at hrunned
      exact hrunned
  | close i => exact (close_manual polls (r.iter i)).final h
  | _ => exact (method_manual henv polls _).final h

end Reachable

/-! ## What a lost connection leaves of itself -/

/-- The events that are neither a lost connection nor a reconnect. -/
def LogEvent.quiet : LogEvent → Bool
  | .record _ => true
  | .requested error => !error.any PyExc.lost
  | .awaited error => !error.any PyExc.lost
  | .reconnecting => false

/-- A call to python-ldap has failed with the error of a lost connection. -/
def Lost (events : List LogEvent) (e : PyExc) : Prop :=
  e.lost = true ∧ (.requested (some e) ∈ events ∨ .awaited (some e) ∈ events)

/-- One that is made in `_retry` has: a request, or a wait of the synchronous class. -/
def LostRetried (a : Bool) (events : List LogEvent) (e : PyExc) : Prop :=
  e.lost = true ∧ (.requested (some e) ∈ events ∨ (a = false ∧ .awaited (some e) ∈ events))

/-- The error of a lost connection is what the caller gets, and nothing reconnects. -/
structure Surfaces {α : Type} (events : List LogEvent) (result : Except PyExc α) : Prop where
  error : ∀ e, Lost events e → result = .error e
  noReconnect : .reconnecting ∉ events

/-- An error for want of a method, an event loop or a connection. -/
def Unrelated (e : PyExc) : Prop := ∃ message, e = .attributeError message ∨ e = .runtimeError message

/-- The events of a run that raises `e` after it has lost the connection at a call
that is not repeated, or has not lost it. -/
def Tame (a : Bool) (n : Nat) (e : PyExc) (events : List LogEvent) : Prop :=
  ∀ event ∈ events, event.quiet = true ∨ (event = .requested (some e) ∧ n = 1) ∨
    (event = .awaited (some e) ∧ (n = 1 ∨ a = true))

/-- The events of a run that raises `e` because it has tried to reconnect. -/
structure Broken (a : Bool) (n : Nat) (e : PyExc) (events : List LogEvent) : Prop where
  attempts : n ≠ 1
  lost : ∃ e', LostRetried a events e'
  reconnecting : .reconnecting ∈ events
  unrelated : Unrelated e

section Fates

variable {a : Bool} {n : Nat} {e : PyExc} {events : List LogEvent}

theorem unrelated_not_lost (h : Unrelated e) : e.lost = false := by
  obtain ⟨message, rfl | rfl⟩ := h <;> rfl

theorem LostRetried.lost (h : LostRetried a events e) : Lost events e :=
  ⟨h.1, h.2.imp id And.right⟩

theorem LostRetried.append {events : List LogEvent} (h : LostRetried a events e) (event : LogEvent) :
    LostRetried a (events ++ [event]) e :=
  ⟨h.1, h.2.imp (List.mem_append_left _) fun h => ⟨h.1, List.mem_append_left _ h.2⟩⟩

theorem tame_of_quiet (h : ∀ event ∈ events, event.quiet = true) : Tame a n e events :=
  fun event hevent => .inl (h event hevent)

/-- Where another error is raised, no connection was lost. -/
theorem Tame.quiet (h : Tame a n e events) (he : e.lost = false) :
    ∀ event ∈ events, event.quiet = true := by
  intro event hevent
  rcases h event hevent with hquiet | ⟨rfl, -⟩ | ⟨rfl, -⟩
  · exact hquiet
  · simp [LogEvent.quiet, he]
  · simp [LogEvent.quiet, he]

/-- An event of a lost connection is not quiet. -/
theorem quiet_ne {event : LogEvent} (hquiet : event.quiet = true) (hlost : e.lost = true) :
    event ≠ .requested (some e) ∧ event ≠ .awaited (some e) := by
  constructor <;> rintro rfl <;> simp [LogEvent.quiet, hlost] at hquiet

theorem not_lost_of_quiet (h : ∀ event ∈ events, event.quiet = true) : ¬Lost events e := by
  rintro ⟨hlost, hmem | hmem⟩
  · exact (quiet_ne (h _ hmem) hlost).1 rfl
  · exact (quiet_ne (h _ hmem) hlost).2 rfl

theorem surfaces_of_quiet {α : Type} (h : ∀ event ∈ events, event.quiet = true)
    (result : Except PyExc α) : Surfaces events result :=
  ⟨fun _ hlost => absurd hlost (not_lost_of_quiet h), fun hmem => by cases h _ hmem⟩

theorem Tame.surfaces {α : Type} (h : Tame a n e events) :
    Surfaces events (.error e : Except PyExc α) := by
  refine ⟨fun e' hlost => ?_, fun hmem => ?_⟩
  · rcases hlost.2 with hmem | hmem
    · rcases h _ hmem with hquiet | ⟨heq, -⟩ | ⟨heq, -⟩
      · exact absurd rfl (quiet_ne hquiet hlost.1).1
      · cases heq
        rfl
      · cases heq
    · rcases h _ hmem with hquiet | ⟨heq, -⟩ | ⟨heq, -⟩
      · exact absurd rfl (quiet_ne hquiet hlost.1).2
      · cases heq
      · cases heq
        rfl
  · rcases h _ hmem with hquiet | ⟨heq, -⟩ | ⟨heq, -⟩
    · cases hquiet
    · cases heq
    · cases heq

/-- Nothing that would have been repeated was lost, unless there is one attempt. -/
theorem Tame.notRetried (h : Tame a n e events) (hn : n ≠ 1) (e' : PyExc) : ¬LostRetried a events e' := by
  rintro ⟨hlost, hmem | ⟨ha, hmem⟩⟩
  · rcases h _ hmem with hquiet | ⟨-, hone⟩ | ⟨heq, -⟩
    · simp [LogEvent.quiet, hlost] at hquiet
    · exact hn hone
    · cases heq
  · rcases h _ hmem with hquiet | ⟨heq, -⟩ | ⟨-, hone | htrue⟩
    · simp [LogEvent.quiet, hlost] at hquiet
    · cases heq
    · exact hn hone
    · rw [ha] at htrue
      cases htrue

end Fates

/-! ## Runs -/

namespace Logging

variable {α : Type} {texts : Texts} {a : Bool} {n : Nat}

/-- So far nothing is lost. -/
def Clean (simple : Obj → Prop) (a : Bool) (n : Nat) (t : State ω × List LogEvent) : Prop :=
  Manual simple a n t.1.self ∧ ∀ event ∈ t.2, event.quiet = true

/-- What a run leaves that raises. -/
def Fate (simple : Obj → Prop) (a : Bool) (n : Nat) (e : PyExc) (t : State ω × List LogEvent) : Prop :=
  Manual simple a n t.1.self ∧ (Tame a n e t.2 ∨ Broken a n e t.2)

/-- A program that does not lose the connection, or raises what becomes of that. -/
def Honest (simple : Obj → Prop) (a : Bool) (n : Nat) (m : Logging ω α) : Prop :=
  Spec (Clean simple a n) m (fun _ => Clean simple a n) (Fate simple a n)

theorem Clean.fate {t : State ω × List LogEvent} (h : Clean simple a n t) (e : PyExc) :
    Fate simple a n e t := ⟨h.1, .inl (tame_of_quiet h.2)⟩

theorem Clean.log {s : State ω} {events : List LogEvent} (h : Clean simple a n (s, events))
    (record : Record) : Clean simple a n (s, events ++ [.record record]) := by
  refine ⟨h.1, fun event hevent => ?_⟩
  rcases List.mem_append.mp hevent with hmem | hmem
  · exact h.2 event hmem
  · rw [List.mem_singleton.mp hmem]
    rfl

theorem Fate.log {s : State ω} {events : List LogEvent} {e : PyExc}
    (h : Fate simple a n e (s, events)) (record : Record) :
    Fate simple a n e (s, events ++ [.record record]) := by
  refine ⟨h.1, h.2.imp (fun htame event hevent => ?_) fun hbroken => ?_⟩
  · rcases List.mem_append.mp hevent with hmem | hmem
    · exact htame event hmem
    · rw [List.mem_singleton.mp hmem]
      exact .inl rfl
  · obtain ⟨e', hlost⟩ := hbroken.lost
    exact ⟨hbroken.attempts, ⟨e', hlost.append _⟩, List.mem_append_left _ hbroken.reconnecting,
      hbroken.unrelated⟩

/-! ### Calls -/

/-- What a call leaves that has failed: its own error is the last event. -/
def Failed (simple : Obj → Prop) (a : Bool) (n : Nat) (ended : Option PyExc → LogEvent) (e : PyExc)
    (t : State ω × List LogEvent) : Prop :=
  Manual simple a n t.1.self ∧ (∀ event ∈ t.2, event.quiet = true ∨ event = ended (some e)) ∧
    ended (some e) ∈ t.2

theorem recorded_spec {m : Method ω α} (hm : Keeps (fun s => Manual simple a n s.self) m)
    (first : Record) (raised : PyExc → Record) (done : α → Record) {ended : Option PyExc → LogEvent}
    (hended : (ended none).quiet = true) :
    Spec (Clean simple a n) (recorded m first raised done ended) (fun _ => Clean simple a n)
      (Failed simple a n ended) := by
  intro t ht
  have hself := hm t.1 ht.1
  rw [recorded_run]
  cases hrun : m.run t.1 with
  | ok x s =>
    rw [hrun] at hself
    refine ⟨hself, fun event hevent => ?_⟩
    rcases List.mem_append.mp hevent with hmem | hmem
    · exact ht.2 event hmem
    · simp only [recordedEvents, List.mem_cons, List.not_mem_nil, or_false] at hmem
      rcases hmem with rfl | rfl | rfl
      · rfl
      · rfl
      · exact hended
  | error e s =>
    rw [hrun] at hself
    refine ⟨hself, fun event hevent => ?_, by simp [recordedEvents]⟩
    rcases List.mem_append.mp hevent with hmem | hmem
    · exact .inl (ht.2 event hmem)
    · simp only [recordedEvents, List.mem_append, List.mem_cons, List.not_mem_nil, or_false] at hmem
      rcases hmem with (rfl | hmem) | rfl
      · exact .inl rfl
      · split at hmem
        · rw [List.mem_singleton.mp hmem]
          exact .inl rfl
        · cases hmem
      · exact .inr rfl

theorem request_keeps (o : Obj) (op : Operation) :
    Keeps (fun s => Manual simple a n s.self) (Method.request env o op) :=
  Method.request_rule (fun _ _ _ hs _ => hs) fun _ _ _ hs _ => hs

theorem getResult_keeps (o : Obj) (msgid : MsgId) (all : Bool) (timeout : Int) :
    Keeps (fun s => Manual simple a n s.self) (Method.getResult env o msgid all timeout) :=
  Method.getResult_rule (fun _ _ _ hs _ => hs) fun _ _ _ hs _ => hs

/-! ### Reconnecting -/

theorem removeReader_unrelated (henv : LacksReconnect env simple) :
    Spec (fun s => Manual simple a n s.self) (Method.removeReader env)
      (fun _ s => Manual simple a n s.self) (fun e s => Manual simple a n s.self ∧ Unrelated e) := by
  unfold Method.removeReader
  refine Spec.bind (Q := fun _ s => Manual simple a n s.self) (Spec.get fun s hs => hs) fun s₀ => ?_
  refine Spec.onlyIf (fun _ => Method.onWorld_spec fun s hs => ?_) fun _ s hs => hs
  cases hrun : env.getRunningLoop.run s.world with
  | ok x w => exact hs
  | error e w =>
    obtain ⟨message, he⟩ := henv.getRunningLoop _ _ _ hrun
    exact ⟨hs, message, .inr he⟩

/-- The object has no such method, or there is no object. -/
theorem reconnectObject_fails (henv : LacksReconnect env simple) :
    Spec (fun s : State ω => Manual simple a n s.self)
      (Method.wrap do
        let o ← Method.conn
        let self := (← get).self
        Method.onWorld (env.reconnect o self.uri self.maxConnectionAttempts true)
        Method.restoreOptions env
        Method.restoreAuthState env)
      (fun _ _ => False) (fun e s => Manual simple a n s.self ∧ Unrelated e) := by
  have hstays : ∀ e (s : State ω), Manual simple a n s.self ∧ Unrelated e →
      Manual simple a n s.self ∧ Unrelated e.wrap := by
    -- neither error is one of python-ldap
    rintro e s ⟨hself, message, rfl | rfl⟩
    · exact ⟨hself, message, .inl rfl⟩
    · exact ⟨hself, message, .inr rfl⟩
  refine Method.wrap_rule ?_ hstays
  refine Spec.bind (Q := fun o s => simple o ∧ Manual simple a n s.self)
    (Method.conn_rule (fun o s hs hc => ⟨hs.conn o hc, hs⟩) fun s hs _ => ⟨hs, _, .inr rfl⟩) fun o => ?_
  refine Spec.bind (Q := fun _ s => simple o ∧ Manual simple a n s.self)
    (Spec.get fun s hs => hs) fun s₀ => ?_
  refine Spec.bind (Q := fun _ _ => False) (Method.onWorld_spec fun s hs => ?_) fun _ s hs => hs.elim
  obtain ⟨message, hrun⟩ := henv.reconnect o s₀.self.uri s₀.self.maxConnectionAttempts true s.world hs.1
  rw [hrun]
  exact ⟨hs.2, message, .inl rfl⟩

/-- `reconnect()` fails, for want of an event loop, a connection or a method. -/
theorem reconnect_fails (henv : LacksReconnect env simple) (B : List LogEvent → Prop)
    (hB : ∀ events record, B events → B (events ++ [.record record])) :
    Spec (fun t => Manual simple a n t.1.self ∧ B t.2) (reconnect env) (fun _ _ => False)
      (fun e t => (Manual simple a n t.1.self ∧ Unrelated e) ∧ B t.2) := by
  unfold reconnect
  refine Traced.read_spec fun s₀ => ?_
  refine Spec.bind (Q := fun _ t => Manual simple a n t.1.self ∧ B t.2)
    (Spec.onlyIf (fun _ => ?_) fun _ t ht => ht.2) fun _ => ?_
  · refine Spec.conseq (P := fun t => Manual simple a n t.1.self ∧ B t.2) ?_ (fun _ ht => ht.2)
      (fun _ _ ht => ht) fun _ _ ht => ht
    refine Traced.read_spec fun s => Traced.emit_spec (J := fun t => Manual simple a n t.1.self ∧ B t.2)
      (fun _ events ht => ⟨ht.2.1, hB events _ ht.2.2⟩) ?_
    exact Traced.lift_spec (removeReader_unrelated henv) B
  · exact Spec.conseq (Traced.lift_spec (reconnectObject_fails henv) B) (fun _ ht => ht)
      (fun _ _ ht => ht.1) fun _ _ ht => ht

/-! ### Retrying -/

section Retried

variable {ended : Option PyExc → LogEvent} {e : PyExc} {t : State ω × List LogEvent}

/-- An error after which there is no other attempt. -/
theorem Failed.fate (h : Failed simple a n ended e t)
    (hended : ended = .requested ∨ (a = false ∧ ended = .awaited)) (hlast : e.lost = true → n = 1) :
    Fate simple a n e t := by
  refine ⟨h.1, .inl fun event hevent => ?_⟩
  rcases h.2.1 event hevent with hquiet | rfl
  · exact .inl hquiet
  · cases hlost : e.lost with
    | false => rcases hended with rfl | ⟨-, rfl⟩ <;> exact .inl (by simp [LogEvent.quiet, hlost])
    | true =>
      rcases hended with rfl | ⟨-, rfl⟩
      · exact .inr (.inl ⟨rfl, hlast hlost⟩)
      · exact .inr (.inr ⟨rfl, .inl (hlast hlost)⟩)

theorem Failed.lostRetried (h : Failed simple a n ended e t)
    (hended : ended = .requested ∨ (a = false ∧ ended = .awaited)) (hlost : e.lost = true) :
    LostRetried a t.2 e := by
  rcases hended with rfl | ⟨ha, rfl⟩
  · exact ⟨hlost, .inl h.2.2⟩
  · exact ⟨hlost, .inr ⟨ha, h.2.2⟩⟩

/-- The events after which there is no way back. -/
structure Reconnects (a : Bool) (events : List LogEvent) : Prop where
  reconnecting : .reconnecting ∈ events
  lost : ∃ e, LostRetried a events e

/-- A second attempt ends with its reconnect. -/
theorem again_broken (henv : LacksReconnect env simple) (hn : n ≠ 1) (func : Logging ω α)
    {attempts : Nat} (hlt : attempts + 1 < n) :
    Spec (fun t => Manual simple a n t.1.self ∧ ∃ e, LostRetried a t.2 e)
      (Retry.loop PyExc.lost (.runtimeError "")
        (do
          Traced.emit .reconnecting
          reconnect env) func n (attempts + 1))
      (fun _ => Clean simple a n) (Fate simple a n) := by
  rw [Retry.loop]
  refine Spec.tryCatch (E := fun e t => (Manual simple a n t.1.self ∧ Unrelated e) ∧ Reconnects a t.2)
    ?_ fun e => ?_
  · rw [Retry.attempt, onlyIf_true (by omega)]
    refine Spec.bind (Q := fun _ _ => False) ?_ fun _ t ht => ht.elim
    refine Traced.emit_spec (J := fun t => Manual simple a n t.1.self ∧ Reconnects a t.2) ?_
      (reconnect_fails henv (Reconnects a) ?_)
    · rintro s events ⟨hself, e, hlost⟩
      exact ⟨hself, by simp, e, hlost.append _⟩
    · rintro events record ⟨hreconnecting, e, hlost⟩
      exact ⟨List.mem_append_left _ hreconnecting, e, hlost.append _⟩
  · refine Spec.ite (fun hlost t ht => ?_) fun _ => Spec.throw fun t ht => ?_
    · rw [unrelated_not_lost ht.1.2] at hlost
      cases hlost
    · exact ⟨ht.1.1, .inr ⟨hn, ht.2.lost, ht.2.reconnecting, ht.1.2⟩⟩

/-- A call that is repeated: after it has lost the connection there is no second
attempt, or the reconnect before it fails. -/
theorem retry_honest (henv : LacksReconnect env simple) (hn : 1 ≤ n) {func : Logging ω α}
    (hfunc : Spec (Clean simple a n) func (fun _ => Clean simple a n) (Failed simple a n ended))
    (hended : ended = .requested ∨ (a = false ∧ ended = .awaited)) :
    Honest simple a n (retry env func) := by
  unfold retry
  refine Traced.read_spec fun s => ?_
  rintro t ⟨rfl, ht⟩
  rw [ht.1.attempts]
  revert t
  show Spec (Clean simple a n) _ _ _
  obtain ⟨k, rfl⟩ : ∃ k, n = k + 1 := ⟨n - 1, by omega⟩
  rw [Retry.loop]
  refine Spec.tryCatch (E := Failed simple a (k + 1) ended) ?_ fun e => ?_
  · rw [Retry.attempt, onlyIf_false (by simp)]
    exact hfunc
  · refine Spec.ite (fun hlost => ?_) fun hlost => Spec.throw fun t ht => ?_
    · refine Spec.ite (fun hk => Spec.throw fun t ht => ?_) fun hk => ?_
      · exact ht.fate hended fun _ => by omega
      · obtain ⟨j, rfl⟩ : ∃ j, k = j + 1 := ⟨k - 1, by omega⟩
        exact Spec.conseq (again_broken henv (by omega) func (by omega))
          (fun t ht => ⟨ht.1, e, ht.lostRetried hended hlost⟩) (fun _ _ ht => ht) fun _ _ ht => ht
    · exact ht.fate hended fun h => absurd h hlost

end Retried

/-! ### Waiting -/

theorem Honest.pure (x : α) : Honest simple a n (pure x : Logging ω α) := Spec.pure fun _ ht => ht

theorem Honest.throw (e : PyExc) : Honest simple a n (throw e : Logging ω α) :=
  Spec.throw fun _ ht => ht.fate e

theorem Honest.bind {β : Type} {m : Logging ω α} {f : α → Logging ω β} (hm : Honest simple a n m)
    (hf : ∀ x, Honest simple a n (f x)) : Honest simple a n (m >>= f) := Spec.bind hm hf

theorem Honest.log {f : Unit → Logging ω α} (record : Record) (h : Honest simple a n (f ())) :
    Honest simple a n (log record >>= f) := Traced.emit_spec (fun _ _ ht => ht.log record) h

theorem Honest.read {f : State ω → Logging ω α}
    (h : ∀ s, Manual simple a n s.self → Honest simple a n (f s)) :
    Honest simple a n (Traced.lift get >>= f) :=
  Traced.read_spec fun s t ht => h s (ht.1 ▸ ht.2.1) t ht.2

theorem awaitSync_honest (henv : LacksReconnect env simple) (hn : 1 ≤ n) (ha : a = false) (o : Obj)
    (msgid : MsgId) (all : Bool) : Honest simple a n (awaitSync env texts o msgid all) := by
  unfold awaitSync
  refine Honest.read fun s _ => ?_
  have hended : (LogEvent.awaited : Option PyExc → LogEvent) = .requested ∨
      (a = false ∧ (LogEvent.awaited : Option PyExc → LogEvent) = .awaited) := .inr ⟨ha, rfl⟩
  exact retry_honest henv hn (recorded_spec (getResult_keeps o msgid all _) _ _ _ rfl) hended

/-- The record of a reader that has been removed, in front of what follows. -/
theorem removedReader_spec {I J : State ω × List LogEvent → Prop} {f : Unit → Logging ω α}
    {Q : α → State ω × List LogEvent → Prop} {E : PyExc → State ω × List LogEvent → Prop} (fd : Int)
    (hlog : ∀ s events record, I (s, events) → J (s, events ++ [.record record]))
    (h : Spec J (f ()) Q E) : Spec I (removedReader env fd >>= f) Q E :=
  fun t ht => h _ (hlog t.1 t.2 _ ht)

/-- The wait that is not repeated has its error for its fate. -/
theorem Failed.waited {e : PyExc} {t : State ω × List LogEvent} (h : Failed simple a n .awaited e t)
    (ha : a = true) : Fate simple a n e t := by
  refine ⟨h.1, .inl fun event hevent => ?_⟩
  rcases h.2.1 event hevent with hquiet | rfl
  · exact .inl hquiet
  · exact .inr (.inr ⟨rfl, .inr ha⟩)

/-- An error of another kind is not one of a lost connection. -/
theorem Fate.clean {e : PyExc} {t : State ω × List LogEvent} (h : Fate simple a n e t)
    (hlost : e.lost = false) (hunrelated : ¬Unrelated e) : Clean simple a n t := by
  rcases h.2 with htame | hbroken
  · exact ⟨h.1, htame.quiet hlost⟩
  · exact absurd hbroken.unrelated hunrelated

/-- The wait of the asynchronous class raises its own error. -/
theorem ready_honest (ha : a = true) (o : Obj) (msgid : MsgId) (all : Bool) (fd : Int) :
    Honest simple a n (ready env texts o msgid all fd) := by
  unfold ready
  refine Honest.log _ (Spec.tryCatch (E := Failed simple a n .awaited) ?_ fun e => ?_)
  · refine Spec.bind (recorded_spec (getResult_keeps o msgid all 0) _ _ _ rfl) fun response => ?_
    refine Spec.ite (fun _ => Spec.pure fun _ ht => ht) fun _ => ?_
    exact removedReader_spec fd (fun _ _ _ ht => Clean.log ht _) (Spec.pure fun _ ht => ht)
  · -- an error of the two kinds that `_ready` catches goes to the future
    have hraise : Spec (Failed simple a n .awaited e)
        (log (Record.notValid fd) >>= fun _ => removedReader env fd >>= fun _ =>
          (throw e : Logging ω (Option Response)))
        (fun _ => Clean simple a n) (Fate simple a n) := by
      refine Spec.conseq (P := Fate simple a n e) ?_ (fun _ ht => ht.waited ha) (fun _ _ ht => ht)
        fun _ _ ht => ht
      refine Traced.emit_spec (fun _ _ ht => Fate.log ht _) ?_
      exact removedReader_spec fd (fun _ _ _ ht => Fate.log ht _) (Spec.throw fun _ ht => ht)
    cases e with
    | lib err => exact hraise
    | osError => exact hraise
    | _ =>
      refine Spec.pure fun t ht => ⟨ht.1, fun event hevent => ?_⟩
      rcases ht.2.1 event hevent with hquiet | rfl
      · exact hquiet
      · rfl

theorem awaitAsync_honest (ha : a = true) (o : Obj) (msgid : MsgId) (all : Bool) (fd : Int)
    (polls : Nat) : Honest simple a n (awaitAsync env texts o msgid all fd polls) := by
  induction polls with
  | zero => exact Honest.throw _
  | succ polls ih =>
    unfold awaitAsync
    refine Honest.read fun s _ => Spec.bind (Q := fun _ => Clean simple a n) ?_ fun _ => ?_
    · have hreadable : Keeps (fun s => Manual simple a n s.self)
          (Method.onWorld (env.readable o s.self.timeout)) := Method.onWorld_rule fun _ hs => hs
      exact Spec.conseq
        (Traced.lift_spec hreadable fun events : List LogEvent => ∀ event ∈ events, event.quiet = true)
        (fun _ ht => ht) (fun _ _ ht => ht) fun e t ht => Clean.fate ht e
    · refine Honest.bind (ready_honest ha o msgid all fd) fun response => ?_
      cases response with
      | none => exact ih
      | some response => exact Honest.pure _

theorem poll_honest (henv : LacksReconnect env simple) (hn : 1 ≤ n) (o : Obj) (msgid : MsgId)
    (all : Bool) (polls : Nat) : Honest simple a n (poll env texts o msgid all polls) := by
  induction polls with
  | zero => exact Honest.throw _
  | succ polls ih =>
    unfold poll
    refine Honest.read fun before _ => ?_
    refine Spec.bind (Q := fun _ => Clean simple a n)
      (Spec.tryCatch (E := Fate simple a n) ?_ fun e => ?_) fun response => ?_
    · refine Honest.read fun s hs => ?_
      rw [hs.asynchronous]
      cases ha : a with
      | true => exact Honest.log _ (Spec.map (awaitAsync_honest rfl o msgid all _ _) fun _ _ ht => ht)
      | false => exact Spec.map (awaitSync_honest henv hn rfl o msgid all) fun _ _ ht => ht
    · refine Spec.bind (Q := fun _ => Fate simple a n e) ?_ fun _ => ?_
      · refine Spec.onlyIf (fun _ t ht => ?_) fun _ _ ht => ht
        exact Fate.log ht _
      · refine Spec.ite (fun hnone => Spec.pure fun t ht => ?_) fun _ => Spec.throw fun _ ht => ht
        cases e with
        | lib err =>
          have hcls : err.cls = .noResultsReturned := by simpa [PyExc.is] using hnone
          refine ht.clean (by simp [PyExc.lost, hcls]) ?_
          rintro ⟨message, h | h⟩ <;> cases h
        | _ => cases hnone
    · cases response with
      | none => exact Honest.pure _
      | some response => exact Spec.ite (fun _ => ih) fun _ => Honest.pure _

theorem retryRequest_honest (henv : LacksReconnect env simple) (hn : 1 ≤ n) (o : Obj)
    (op : Operation) (keywords : PyStr) :
    Honest simple a n (retry env (request env texts o op keywords)) :=
  retry_honest henv hn (recorded_spec (request_keeps o op) _ _ _ rfl) (.inl rfl)

theorem execute_honest (henv : LacksReconnect env simple) (hn : 1 ≤ n) (polls : Nat) (o : Obj)
    (op : Operation) (keywords : PyStr) :
    Honest simple a n (execute env texts polls o op keywords) := by
  unfold execute
  refine Honest.bind (retryRequest_honest henv hn o op keywords) fun msgid => ?_
  cases msgid with
  | none => exact Honest.pure _
  | some msgid =>
    refine Honest.bind (poll_honest henv hn o msgid true polls) fun response => ?_
    cases response with
    | none => exact Honest.throw _
    | some response =>
      refine Spec.ite (fun _ => Honest.bind (poll_honest henv hn o msgid true polls) fun response' => ?_)
        fun _ => Honest.pure _
      cases response' with
      | none => exact Honest.pure _
      | some response' => exact Honest.throw _

end Logging

/-! ## Operations -/

/-- What is done for an operation: `_execute`, or the request of `_execute_iter` and
each wait for its next response. -/
inductive Execution
  | complete (polls : Nat) (o : Obj) (op : Operation) (keywords : PyStr)
  | send (o : Obj) (op : Operation) (keywords : PyStr)
  | receive (polls : Nat) (o : Obj) (msgid : MsgId) (all : Bool)

namespace Execution

variable (env) in
/-- What it runs. -/
def method : Execution → Method ω Unit
  | .complete polls o op _ => discard (Method.execute env polls o op)
  | .send o op _ => discard (Method.retry env (Method.request env o op))
  | .receive polls o msgid all => discard (Method.poll env o msgid all polls)

variable (env) in
/-- The same with its events. -/
def logging (texts : Texts) : Execution → Logging ω Unit
  | .complete polls o op keywords => discard (Logging.execute env texts polls o op keywords)
  | .send o op keywords => discard (Logging.retry env (Logging.request env texts o op keywords))
  | .receive polls o msgid all => discard (Logging.poll env texts o msgid all polls)

variable (env) in
theorem logging_traces (texts : Texts) (execution : Execution) :
    Traces (execution.logging env texts) (execution.method env) := by
  cases execution with
  | complete polls o op keywords => exact Traces.map _ (Logging.execute_traces env texts polls o op keywords)
  | send o op keywords =>
    exact Traces.map _ (Logging.retry_traces env (Logging.recorded_traces _ _ _ _ _))
  | receive polls o msgid all => exact Traces.map _ (Logging.poll_traces env texts o msgid all polls)

variable (env) in
/-- The events of a run. -/
def events (texts : Texts) (execution : Execution) (s : State ω) : List LogEvent :=
  (final ((execution.logging env texts).run (s, []))).2

theorem honest {a : Bool} {n : Nat} (henv : LacksReconnect env simple) (hn : 1 ≤ n) (texts : Texts)
    (execution : Execution) : Logging.Honest simple a n (execution.logging env texts) := by
  cases execution with
  | complete polls o op keywords =>
    exact Spec.map (Logging.execute_honest henv hn polls o op keywords) fun _ _ ht => ht
  | send o op keywords =>
    exact Spec.map (Logging.retryRequest_honest henv hn o op keywords) fun _ _ ht => ht
  | receive polls o msgid all =>
    exact Spec.map (Logging.poll_honest henv hn o msgid all polls) fun _ _ ht => ht

end Execution

/-- A program that has made its connection without automatic reconnect. -/
def startManual (asynchronous : Bool) (uri : PyStr) (startTls : Bool) (timeout : Int) (n : Nat) (w : ω) :
    Running ω :=
  { state := { self := Connection.init asynchronous uri startTls timeout false n, world := w, calls := [] }
    iters := [] }

/-- Without automatic reconnect, the error of a lost connection is raised as it is, and
nothing reconnects, exactly if there is one attempt or no call that `_retry` repeats
has lost the connection. Otherwise the error is for want of a method `reconnect`, of
an event loop or of a connection. -/
theorem lost_surfaces_iff (henv : LacksReconnect env simple) (texts : Texts) (asynchronous : Bool)
    (uri : PyStr) (startTls : Bool) (timeout : Int) {n : Nat} (hn : 1 ≤ n) (w : ω) (polls : Nat)
    (uses : List Use) (execution : Execution) (s : State ω)
    (hs : s = (after (Running.step env polls) (startManual asynchronous uri startTls timeout n w) uses).state) :
    (Surfaces (execution.events env texts s) (outcomeOf ((execution.method env).run s)) ↔
      n = 1 ∨ ∀ e, ¬LostRetried asynchronous (execution.events env texts s) e) ∧
    (n ≠ 1 → (∃ e, LostRetried asynchronous (execution.events env texts s) e) →
      ∃ e, outcomeOf ((execution.method env).run s) = .error e ∧ Unrelated e) := by
  have hstart : Manual simple asynchronous n (startManual asynchronous uri startTls timeout n w).state.self :=
    ⟨rfl, rfl, rfl, fun o ho => by cases ho⟩
  have hmanual : Manual simple asynchronous n s.self := by
    rw [hs]
    exact after_induction (I := fun r => Manual simple asynchronous n r.state.self)
      (fun r use h _ => step_manual henv polls r use h) hstart
      (along_of_forall (fun _ _ => trivial) _ : Along _ (fun _ _ => True) _ _)
  have hhonest := execution.honest (a := asynchronous) henv hn texts (s, []) ⟨hmanual, fun _ h => by cases h⟩
  rw [← execution.logging_traces env texts (s, []), outcomeOf_forget, Execution.events]
  cases hrun : (execution.logging env texts).run (s, []) with
  | ok x t =>
    rw [hrun] at hhonest
    have hnone : ∀ e, ¬LostRetried asynchronous t.2 e :=
      fun e hlost => not_lost_of_quiet hhonest.2 hlost.lost
    exact ⟨⟨fun _ => .inr hnone, fun _ => surfaces_of_quiet hhonest.2 _⟩,
      fun _ ⟨e, hlost⟩ => absurd hlost (hnone e)⟩
  | error e t =>
    rw [hrun] at hhonest
    rcases hhonest.2 with htame | hbroken
    · refine ⟨⟨fun _ => ?_, fun _ => htame.surfaces⟩, fun hn ⟨e', hlost⟩ => ?_⟩
      · exact (Decidable.em (n = 1)).imp_right fun hn => htame.notRetried hn
      · exact absurd hlost (htame.notRetried hn e')
    · refine ⟨⟨fun hsurfaces => ?_, fun h => ?_⟩, fun _ _ => ⟨e, rfl, hbroken.unrelated⟩⟩
      · exact absurd hbroken.reconnecting hsurfaces.noReconnect
      · obtain ⟨e', hlost⟩ := hbroken.lost
        rcases h with hone | hnone
        · exact absurd hone hbroken.attempts
        · exact absurd hlost (hnone e')

/-! ## A server that goes down -/

/-- The error of python-ldap while the server is down. -/
def down : LdapError := { cls := .serverDown }

/-- Requests fail as often as the world says. The object 1 is a `SimpleLDAPObject`. -/
def downEnv : Env Nat :=
  { Env.idle Nat with
    simpleLDAPObject := fun _ _ => pure 1
    reconnect := fun o _ _ _ =>
      if o = 1 then throw (.attributeError "SimpleLDAPObject has no attribute 'reconnect'") else pure ()
    request := fun _ _ failures =>
      match failures with
      | 0 => .ok (some 1) 0
      | k + 1 => .error (.ldap down) k
    result4 := fun _ number _ _ =>
      pure { type := some .extended, data := none, msgid := some number, ctrls := some [] }
    hasL := fun _ o => o = 1 }

theorem downEnv_lacksReconnect : LacksReconnect downEnv (fun o => o = 1) where
  simpleLDAPObject := fun uri fileno w o w' h => by
    cases h
    rfl
  reconnect := fun o uri n force w ho => by
    rw [ho]
    exact ⟨_, rfl⟩
  getRunningLoop := fun w e w' h => by cases h

/-- The state of a program that has connected. -/
def downState (n failures : Nat) : State Nat :=
  (after (Running.step downEnv 1) (startManual false (py "ldap://localhost") false (-1) n failures)
    [.connect none]).state

/-- A deletion. -/
def deletion : Execution := .complete 1 1 { request := .deleteExt (py "cn=a") } []

/-- Texts for the records. -/
def noTexts : Texts where
  printable := fun _ => true
  exc := fun _ => []
  excStr := fun _ => []
  controls := fun _ => []
  response := fun _ => []
  arguments := fun _ => []

/-- With one attempt the caller sees that the server is down. -/
theorem lost_surfaces_once :
    Surfaces (deletion.events downEnv noTexts (downState 1 1))
      (outcomeOf ((deletion.method downEnv).run (downState 1 1))) :=
  (lost_surfaces_iff downEnv_lacksReconnect noTexts false (py "ldap://localhost") false (-1) (by omega) 1 1
    [.connect none] deletion _ rfl).1.mpr (.inl rfl)

/-- With ten attempts the caller sees an `AttributeError`. -/
theorem lost_hidden :
    Lost (deletion.events downEnv noTexts (downState 10 1)) (.lib down) ∧
    outcomeOf ((deletion.method downEnv).run (downState 10 1)) =
      .error (.attributeError "SimpleLDAPObject has no attribute 'reconnect'") ∧
    ¬Surfaces (deletion.events downEnv noTexts (downState 10 1))
      (outcomeOf ((deletion.method downEnv).run (downState 10 1))) := by
  have hmem : .requested (some (.lib down)) ∈ deletion.events downEnv noTexts (downState 10 1) := by
    decide
  have hlost : Lost (deletion.events downEnv noTexts (downState 10 1)) (.lib down) := ⟨rfl, .inl hmem⟩
  refine ⟨hlost, rfl, fun hsurfaces => ?_⟩
  cases hsurfaces.error _ hlost

end FreeIam.Ldap
