import FreeIam.Ldap.Connection.Simulation
import FreeIam.Ldap.Connection.Usage

/-!
# The identity after a reconnect

A new session is bound twice: by python-ldap, with the last synchronous bind of
the LDAP object, and by FreeIAM, with the credentials of the last `bind`, which
are recorded before the server has seen them and which only `unbind` forgets.
The client is the one it was before if both are accepted and the one that comes
last gives the identity of the session that has ended.
-/

namespace FreeIam.Ldap

open FreeIam.Py FreeIam.Errors FreeIam.Exec FreeIam.Ldap.Method

variable {ω : Type} {env : Env ω}

/-! ## What is recorded -/

/-- The calls that connect, disconnect and bind. -/
def Use.authenticates : Use → Bool
  | .connect _ | .disconnect | .bind _ _ _ | .saslBind _ | .unbind _ => true
  | _ => false

/-- The credentials to be known after a call: those of a `bind` that had an LDAP
object to be tried on, and none after an `unbind`. -/
def Use.attempts (use : Use) (before : State ω) (known : Option SimpleBind) : Option SimpleBind :=
  match use with
  | .bind authzid password _ => if before.self.conn.isSome then some ⟨authzid, password⟩ else known
  | .unbind _ => none
  | _ => known

/-- A running program with the credentials that it has tried last. -/
structure Trying (ω : Type) where
  running : Running ω
  attempted : Option SimpleBind

/-- The program after a call. -/
def Trying.step (env : Env ω) (polls : Nat) (t : Trying ω) (use : Use) : Trying ω where
  running := t.running.step env polls use
  attempted := use.attempts t.running.state t.attempted

/-- A program that has just made its connection. -/
def Trying.start (self : Connection) (w : ω) : Trying ω :=
  { running := { state := { self := self, world := w, calls := [] }, iters := [] }, attempted := none }

/-- What the calls leave for a reconnect to restore: credentials, and no options. -/
structure Recorded (n : Nat) (auth : Option SimpleBind) (slots : Connection) : Prop where
  attempts : slots.maxConnectionAttempts = n
  lastAuthState : slots.lastAuthState = auth
  options : slots.options = []

section Recording

variable {auth : Option SimpleBind} {n : Nat}

theorem recorded_steady (n : Nat) (auth : Option SimpleBind) : Steady (Recorded n auth) where
  startTls := fun _ _ hs => ⟨hs.attempts, hs.lastAuthState, hs.options⟩
  conn := fun _ _ hs => ⟨hs.attempts, hs.lastAuthState, hs.options⟩
  attempts := ⟨n, fun _ hs => hs.attempts⟩

variable (env) in
/-- Nothing but `bind` and `unbind` touches the credentials. -/
theorem method_recorded (polls : Nat) {use : Use} (huse : use.authenticates = true) (s : State ω)
    (hs : Recorded n auth s.self) :
    Recorded n (use.attempts s auth) (final ((use.method env polls).run s)).self := by
  have hsteady := recorded_steady n auth
  cases use with
  | connect fileno => exact (hsteady.connect_keeps fileno).final hs
  | disconnect => exact hsteady.disconnect_keeps.final hs
  | saslBind mechanism => exact (hsteady.synchronous.saslBind_keeps mechanism).final hs
  | unbind controls =>
    refine Spec.final (P := fun t => Recorded n auth t.self) (Spec.map
      ((recorded_steady n none).discipline.unbind_rule polls controls fun t ht => ?_) fun _ _ ht => ht) hs
    exact ⟨ht.attempts, rfl, ht.options⟩
  | bind authzid password controls =>
    refine Spec.final (P := fun t => t = s) (Spec.map
      ((recorded_steady n _).discipline.bind_rule polls authzid password controls ?_ ?_)
      fun _ _ ht => ht) rfl
    · rintro t o rfl hconn
      exact ⟨hs.attempts, by simp [Use.attempts, hconn], hs.options⟩
    · rintro t rfl hconn
      exact ⟨hs.attempts, by simp [Use.attempts, hconn, hs.lastAuthState], hs.options⟩
  | _ => cases huse

/-- What a program keeps. -/
def Trying.Good (n : Nat) (t : Trying ω) : Prop := Recorded n t.attempted t.running.state.self

theorem Trying.step_good {polls : Nat} (t : Trying ω) (use : Use) (h : t.Good n)
    (huse : use.authenticates = true) : (t.step env polls use).Good n := by
  have hmethod := method_recorded env polls huse t.running.state h
  cases use with
  | connect _ | disconnect | bind _ _ _ | saslBind _ | unbind _ => exact hmethod
  | _ => cases huse

end Recording

/-! ## Reconnecting -/

variable {auth : Authentication ω}

/-- A reconnect raises no authentication error, and the client is who it was before. -/
def Preserves (env : Env ω) (auth : Authentication ω) (o : Obj) (s : State ω) : Prop :=
  match (Method.reconnect env).run s with
  | .ok _ s' => auth.identity s'.world o = auth.identity s.world o
  | .error e s' => isRefusal e = false ∧ auth.identity s'.world o = auth.identity s.world o

/-- What a new session is bound with last: the credentials tried last, otherwise
what python-ldap repeats. -/
def Authentication.restored (auth : Authentication ω) (attempted : Option SimpleBind) (w : ω) (o : Obj) :
    Credential :=
  match attempted with
  | some credentials => .simple credentials
  | none => auth.repeated w o

/-- Where a reconnect restores the identity: the servers accept what python-ldap
repeats, and what the session is bound with last gives the identity it has. -/
structure Restorable (auth : Authentication ω) (attempted : Option SimpleBind) (o : Obj) (w : ω) : Prop where
  repeated : auth.verdict w (auth.repeated w o) ≠ none
  restored : auth.verdict w (auth.restored attempted w o) = some (auth.identity w o)

theorem removeReader_run (henv : Authenticates env auth) (s : State ω) :
    (removeReader env).run s = .ok () s := by
  unfold removeReader
  rw [EStateM.run_bind, EStateM.run_get]
  by_cases hfileno : fileno env s ≠ -1
  · simp only [onlyIf_true hfileno, onWorld, run_zoom, henv.getRunningLoop]
  · simp only [onlyIf_false hfileno]
    rfl

theorem restoreOptions_run {s : State ω} (hoptions : s.self.options = []) :
    (restoreOptions env).run s = .ok () s := by
  unfold restoreOptions
  rw [EStateM.run_bind, EStateM.run_get]
  simp only [hoptions]
  rfl

theorem restoreAuthState_run {o : Obj} {s : State ω} (hconn : s.self.conn = some o) :
    (restoreAuthState env).run s =
      match s.self.lastAuthState with
      | none => .ok () s
      | some credentials =>
        match (env.simpleBindS o credentials).run s.world with
        | .ok _ w => .ok () { s with world := w }
        | .error e w => .error e.wrap { s with world := w } := by
  unfold restoreAuthState
  rw [EStateM.run_bind, EStateM.run_get]
  cases hauth : s.self.lastAuthState with
  | none =>
    simp only [hauth]
    rfl
  | some credentials =>
    simp only [hauth, wrap, run_tryCatch, EStateM.run_bind, Method.conn, EStateM.run_get, hconn,
      EStateM.run_pure, onWorld, run_zoom]
    cases (env.simpleBindS o credentials).run s.world with
    | ok u w => rfl
    | error e w => rfl

/-- A reconnect by what it calls, where there are no options to restore. -/
theorem reconnect_run (henv : Authenticates env auth) {o : Obj} {s : State ω} (hconn : s.self.conn = some o)
    (hoptions : s.self.options = []) :
    (Method.reconnect env).run s =
      match (env.reconnect o s.self.uri s.self.maxConnectionAttempts true).run s.world with
      | .error e w => .error e.wrap { s with world := w }
      | .ok _ w =>
        match s.self.lastAuthState with
        | none => .ok () { s with world := w }
        | some credentials =>
          match (env.simpleBindS o credentials).run w with
          | .ok _ w => .ok () { s with world := w }
          | .error e w => .error e.wrap.wrap { s with world := w } := by
  have hremove : (onlyIf (s.self.asynchronous = true) (removeReader env)).run s = .ok () s := by
    by_cases hasync : s.self.asynchronous = true
    · rw [onlyIf_true hasync, removeReader_run henv]
    · rw [onlyIf_false hasync]
      rfl
  unfold Method.reconnect wrap
  simp only [EStateM.run_bind, EStateM.run_get, hremove, run_tryCatch, Method.conn, hconn,
    EStateM.run_pure, onWorld, run_zoom]
  cases (env.reconnect o s.self.uri s.self.maxConnectionAttempts true).run s.world with
  | error e w => rfl
  | ok u w =>
    -- no option is recorded, so only the credentials are restored
    have hrestore : (restoreAuthState env).run { s with world := w } = _ :=
      restoreAuthState_run (o := o) hconn
    simp only [restoreOptions_run (s := { s with world := w }) hoptions, hrestore]
    cases s.self.lastAuthState with
    | none => rfl
    | some credentials =>
      dsimp only
      cases (env.simpleBindS o credentials).run w with
      | ok u w' => rfl
      | error e w' => rfl

/-- The exact condition for one reconnect. -/
theorem preserves_iff (henv : Authenticates env auth) {o : Obj} {s : State ω}
    (hconn : s.self.conn = some o) (hoptions : s.self.options = [])
    (hreachable : auth.reachable s.world o) :
    Preserves env auth o s ↔
      auth.reconnecting s.world o = false ∨ Restorable auth s.self.lastAuthState o s.world := by
  unfold Preserves
  rw [reconnect_run henv hconn hoptions]
  cases hkind : auth.reconnecting s.world o with
  | false =>
    -- an `AttributeError`, and nothing has happened
    obtain ⟨message, hrun⟩ := henv.noReconnect o s.self.uri s.self.maxConnectionAttempts s.world hkind
    rw [hrun]
    exact ⟨fun _ => Or.inl rfl, fun _ => ⟨rfl, rfl⟩⟩
  | true =>
    have hreconnect := henv.reconnect o s.self.uri s.self.maxConnectionAttempts s.world hreachable hkind
    cases hrepeated : auth.verdict s.world (auth.repeated s.world o) with
    | none =>
      -- python-ldap raises what the server answers to its own bind
      rw [hrepeated] at hreconnect
      obtain ⟨e, w, hrun, he⟩ := hreconnect
      rw [hrun]
      constructor
      · rintro ⟨hno, -⟩
        rw [isRefusal_wrap, he] at hno
        cases hno
      · rintro (hfalse | hrestorable)
        · cases hfalse
        · exact absurd hrepeated hrestorable.repeated
    | some identity =>
      rw [hrepeated] at hreconnect
      obtain ⟨w, hrun, hw⟩ := hreconnect
      rw [hrun]
      cases hauth : s.self.lastAuthState with
      | none =>
        dsimp only
        rw [hw.identity]
        constructor
        · intro heq
          exact Or.inr ⟨by simp [hrepeated], by rw [← heq]; exact hrepeated⟩
        · rintro (hfalse | hrestorable)
          · cases hfalse
          · exact Option.some.inj (hrepeated.symm.trans hrestorable.restored)
      | some credentials =>
        dsimp only
        have hbind := henv.simpleBindS o credentials w hw.reachable
        rw [hw.verdict] at hbind
        cases hverdict : auth.verdict s.world (.simple credentials) with
        | none =>
          rw [hverdict] at hbind
          obtain ⟨e, w', hrun', he⟩ := hbind
          rw [hrun']
          constructor
          · rintro ⟨hno, -⟩
            rw [isRefusal_wrap, isRefusal_wrap, he] at hno
            cases hno
          · rintro (hfalse | hrestorable)
            · cases hfalse
            · exact absurd (hverdict.symm.trans hrestorable.restored) (by simp)
        | some identity' =>
          rw [hverdict] at hbind
          obtain ⟨w', hrun', hw'⟩ := hbind
          rw [hrun']
          dsimp only
          rw [hw'.identity]
          constructor
          · intro heq
            exact Or.inr ⟨by simp [hrepeated], by rw [← heq]; exact hverdict⟩
          · rintro (hfalse | hrestorable)
            · cases hfalse
            · exact Option.some.inj (hverdict.symm.trans hrestorable.restored)

/-- After every sequence of connecting, disconnecting and binding, a reconnect
preserves the identity exactly if what is restored gives it. -/
theorem reconnect_preserves_iff (henv : Authenticates env auth) (asynchronous : Bool) (uri : PyStr)
    (startTls : Bool) (timeout : Int) (automaticReconnect : Bool) (maxConnectionAttempts : Nat)
    (polls : Nat) (w : ω) (uses : List Use) (huses : ∀ use ∈ uses, use.authenticates = true)
    (t : Trying ω)
    (ht : t = after (Trying.step env polls) (Trying.start (Connection.init asynchronous uri startTls
      timeout automaticReconnect maxConnectionAttempts) w) uses)
    (o : Obj) (hconn : t.running.state.self.conn = some o)
    (hreachable : auth.reachable t.running.state.world o) :
    Preserves env auth o t.running.state ↔
      auth.reconnecting t.running.state.world o = false ∨
        Restorable auth t.attempted o t.running.state.world := by
  have hgood : t.Good maxConnectionAttempts := by
    rw [ht]
    exact after_induction (fun t use h huse => Trying.step_good t use h huse) ⟨rfl, rfl, rfl⟩
      (along_of_forall huses _)
  rw [preserves_iff henv hconn hgood.options hreachable, hgood.lastAuthState]

section Servers

/-- A server that knows one password. -/
def oneUser : Sim := { passwords := [(⟨some (py "cn=admin"), some (py "secret")⟩, py "cn=admin")] }

/-- A bind with the password. -/
def bindAdmin (password : String) : Use := .bind (some (py "cn=admin")) (some (py password)) none

/-- The client is still the one that has bound. -/
theorem reconnect_preserves_admin :
    Preserves Sim.env Sim.auth 0 (after (Trying.step Sim.env 1)
      (Trying.start (Connection.init false (py "ldap://localhost")) oneUser)
      [.connect none, bindAdmin "secret"]).running.state := by
  refine (reconnect_preserves_iff Sim.authenticates false (py "ldap://localhost") false (-1) true 10 1
    oneUser [.connect none, bindAdmin "secret"] (by decide) _ rfl 0 rfl rfl).mpr (Or.inr ⟨?_, rfl⟩)
  exact fun h => by cases h

/-- After a bind that has failed, the session is anonymous; a reconnect raises the
authentication error of the wrong password again. -/
theorem reconnect_after_failed_bind :
    ¬Preserves Sim.env Sim.auth 0 (after (Trying.step Sim.env 1)
      (Trying.start (Connection.init false (py "ldap://localhost")) oneUser)
      [.connect none, bindAdmin "secret", bindAdmin "wrong"]).running.state := by
  rintro ⟨h, -⟩
  cases h

end Servers

end FreeIam.Ldap
