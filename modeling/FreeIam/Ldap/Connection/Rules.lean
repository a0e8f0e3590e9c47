import FreeIam.Ldap.Connection.Search

/-!
# Rules for the methods

The rules by which a specification of a method follows from those of the calls
it makes: for retrying, for the two ways of waiting, for polling. From them, what
all methods keep that the calls to python-ldap keep: `Discipline` is what has to
be known of the calls.
-/

namespace FreeIam.Ldap.Method

open FreeIam.Py FreeIam.Errors FreeIam.Exec

variable {ω α β : Type} {env : Env ω} {P : State ω → Prop} {Q : α → State ω → Prop}
  {E : PyExc → State ω → Prop}

/-! ## Rules -/

theorem wrap_rule {E' : PyExc → State ω → Prop} {m : Method ω α} (hm : Spec P m Q E')
    (hE : ∀ e s, E' e s → E e.wrap s) : Spec P (wrap m) Q E :=
  Spec.tryCatch hm fun e => Spec.throw fun s hs => hE e s hs

theorem ofExcept_rule {x : Except PyExc α} (hok : ∀ a s, x = .ok a → P s → Q a s)
    (herror : ∀ e s, x = .error e → P s → E e s) : Spec P (ofExcept x) Q E := by
  cases x with
  | ok a => exact Spec.pure fun s hs => hok a s rfl hs
  | error e => exact Spec.throw fun s hs => herror e s rfl hs

/-- The object is that of the state, which `conn` leaves alone. -/
theorem conn_rule {Q : Obj → State ω → Prop} (hsome : ∀ o s, P s → s.self.conn = some o → Q o s)
    (hnone : ∀ s, P s → s.self.conn = none → E (.runtimeError "not connected") s) :
    Spec P (conn : Method ω Obj) Q E := by
  intro s hs
  unfold conn
  rw [EStateM.run_bind, EStateM.run_get]
  cases hc : s.self.conn with
  | none =>
    simp only [hc]
    exact hnone s hs hc
  | some o =>
    simp only [hc]
    exact hsome o s hs hc

theorem run_logged (m : EStateM PyExc ω α) (entry : ω → Except PyExc α → ω → Call ω) (s : State ω) :
    (logged m entry).run s =
      match m.run s.world with
      | .ok a w => .ok a { s with world := w, calls := s.calls ++ [entry s.world (.ok a) w] }
      | .error e w =>
        .error e { s with world := w, calls := s.calls ++ [entry s.world (.error e) w] } := rfl

/-- A request and its log entry. -/
theorem request_run (o : Obj) (op : Operation) (s : State ω) :
    (request env o op).run s =
      match (env.request o op).run s.world with
      | .ok msgid w => .ok (msgid.map fun number => ⟨number, s.calls.length⟩)
          { s with world := w, calls := s.calls ++ [.request o op (.ok msgid) w] }
      | .error e w => .error e.wrap
          { s with world := w, calls := s.calls ++ [.request o op (.error e) w] } := by
  unfold request wrap
  rw [EStateM.run_bind, EStateM.run_get]
  simp only [EStateM.run_bind, run_tryCatch, run_logged]
  cases (env.request o op).run s.world with
  | ok msgid w => rfl
  | error e w => rfl

/-- A wait for a result and its log entry. -/
theorem getResult_run (o : Obj) (msgid : MsgId) (all : Bool) (timeout : Int) (s : State ω) :
    (getResult env o msgid all timeout).run s =
      match (env.result4 o msgid.number all timeout).run s.world with
      | .ok r w => .ok r { s with world := w, calls := s.calls ++ [.result o msgid s.world (.ok r)] }
      | .error e w => .error e.wrap
          { s with world := w, calls := s.calls ++ [.result o msgid s.world (.error e)] } := by
  unfold getResult wrap
  rw [run_tryCatch, run_logged]
  cases (env.result4 o msgid.number all timeout).run s.world with
  | ok r w => rfl
  | error e w => rfl

theorem request_rule {o : Obj} {op : Operation} {Q : Option MsgId → State ω → Prop}
    (hok : ∀ s msgid w, P s → (env.request o op).run s.world = .ok msgid w →
      Q (msgid.map fun number => ⟨number, s.calls.length⟩)
        { s with world := w, calls := s.calls ++ [.request o op (.ok msgid) w] })
    (herror : ∀ s e w, P s → (env.request o op).run s.world = .error e w →
      E e.wrap { s with world := w, calls := s.calls ++ [.request o op (.error e) w] }) :
    Spec P (request env o op) Q E := by
  intro s hs
  rw [request_run]
  cases hrun : (env.request o op).run s.world with
  | ok msgid w => exact hok s msgid w hs hrun
  | error e w => exact herror s e w hs hrun

theorem getResult_rule {o : Obj} {msgid : MsgId} {all : Bool} {timeout : Int}
    {Q : Response → State ω → Prop}
    (hok : ∀ s r w, P s → (env.result4 o msgid.number all timeout).run s.world = .ok r w →
      Q r { s with world := w, calls := s.calls ++ [.result o msgid s.world (.ok r)] })
    (herror : ∀ s e w, P s → (env.result4 o msgid.number all timeout).run s.world = .error e w →
      E e.wrap { s with world := w, calls := s.calls ++ [.result o msgid s.world (.error e)] }) :
    Spec P (getResult env o msgid all timeout) Q E := by
  intro s hs
  rw [getResult_run]
  cases hrun : (env.result4 o msgid.number all timeout).run s.world with
  | ok r w => exact hok s r w hs hrun
  | error e w => exact herror s e w hs hrun

/-- The rounds of `_retry` after the first: each starts with a reconnect, from a
state with `L`, and the step itself from one with `P`. -/
theorem retryLoop_rule {L : State ω → Prop} {m : Method ω α} (hm : Spec P m Q E)
    (hreconnect : Spec L (reconnect env) (fun _ => P) E) {maxAttempts : Nat}
    (hagain : 1 < maxAttempts → ∀ e s, e.lost = true → E e s → L s) (attempts : Nat)
    (hattempts : attempts + 1 < maxAttempts) :
    Spec L (retryLoop env maxAttempts m (attempts + 1)) Q E := by
  induction attempts with
  | zero =>
    rw [retryLoop]
    refine Spec.tryCatch (E := E) ?_ fun e => ?_
    · rw [onlyIf_true (by omega)]
      exact Spec.bind hreconnect fun _ => hm
    · rw [if_pos rfl, ite_self]
      exact Spec.throw fun s hs => hs
  | succ attempts ih =>
    rw [retryLoop]
    refine Spec.tryCatch (E := E) ?_ fun e => ?_
    · rw [onlyIf_true (by omega)]
      exact Spec.bind hreconnect fun _ => hm
    · refine Spec.ite (fun hlost => ?_) fun _ => Spec.throw fun s hs => hs
      rw [if_neg (by omega)]
      exact Spec.conseq (ih (by omega)) (fun s hs => hagain (by omega) e s hlost hs)
        (fun _ _ h => h) fun _ _ h => h

/-- A repeated step: it establishes `Q` from `P`, or fails as `E` describes. With
more than one attempt, a lost connection leaves a state with `L`, from which the
reconnect has to lead back to `P`. -/
theorem retry_rule {L : State ω → Prop} {m : Method ω α} (hm : Spec P m Q E)
    (hreconnect : Spec L (reconnect env) (fun _ => P) E)
    (hagain : ∀ s₀ e s, P s₀ → 1 < s₀.self.maxConnectionAttempts → e.lost = true → E e s → L s)
    (hnone : ∀ s, P s → E (.runtimeError "") s) : Spec P (retry env m) Q E := by
  unfold retry
  refine Spec.bind (Q := fun s₀ s => P s ∧ P s₀) (Spec.get fun s hs => ⟨hs, hs⟩) fun s₀ => ?_
  intro s hs
  obtain ⟨hP, hP₀⟩ := hs
  revert s
  show Spec P _ Q E
  cases hmax : s₀.self.maxConnectionAttempts with
  | zero => exact Spec.throw hnone
  | succ attempts =>
    rw [retryLoop]
    refine Spec.tryCatch (E := E) ?_ fun e => ?_
    · rw [onlyIf_false (by simp)]
      exact Spec.bind (Spec.pure fun s hs => hs) fun _ => hm
    · refine Spec.ite (fun hlost => ?_) fun _ => Spec.throw fun s hs => hs
      cases attempts with
      | zero => exact Spec.throw fun s hs => hs
      | succ attempts =>
        rw [if_neg (by omega)]
        exact Spec.conseq
          (retryLoop_rule hm hreconnect (fun hn e s => hagain s₀ e s hP₀ (hmax ▸ hn)) attempts
            (by omega))
          (fun s hs => hagain s₀ e s hP₀ (by omega) hlost hs) (fun _ _ h => h) fun _ _ h => h

section Waiting

variable {o : Obj} {msgid : MsgId} {all : Bool} {R : Response → State ω → Prop}

/-- What a wait establishes: `P` again after a wait in vain, otherwise `R`. -/
abbrev Waited (P : State ω → Prop) (R : Response → State ω → Prop) : Response → State ω → Prop :=
  fun r s => (r.type = none → P s) ∧ (r.type ≠ none → R r s)

theorem awaitSync_rule {L : State ω → Prop}
    (hresult : ∀ timeout, Spec P (getResult env o msgid all timeout) (Waited P R) E)
    (hreconnect : Spec L (reconnect env) (fun _ => P) E)
    (hagain : ∀ s₀ e s, P s₀ → 1 < s₀.self.maxConnectionAttempts → e.lost = true → E e s → L s)
    (hnone : ∀ s, P s → E (.runtimeError "") s) :
    Spec P (awaitSync env o msgid all) (Waited P R) E := by
  unfold awaitSync
  refine Spec.bind (Q := fun _ => P) (Spec.get fun s hs => hs) fun s₀ => ?_
  exact retry_rule (hresult _) hreconnect hagain hnone

/-- An error that is neither an `LdapError` nor an `OSError` is one wait in vain. -/
theorem awaitAsync_rule (hresult : Spec P (getResult env o msgid all 0) (Waited P R) E)
    (hreadable : ∀ timeout, Spec P (onWorld (env.readable o timeout)) (fun _ => P) E)
    (hvain : ∀ e s, E e s → P s) (hpolling : ∀ s, P s → E .polling s) (polls : Nat) :
    Spec P (awaitAsync env o msgid all polls) (Waited P R) E := by
  induction polls with
  | zero => exact Spec.throw hpolling
  | succ polls ih =>
    rw [awaitAsync]
    refine Spec.bind (Q := fun _ => P) (Spec.get fun s hs => hs) fun s₀ => ?_
    refine Spec.bind (hreadable _) fun _ => ?_
    refine Spec.bind (Q := fun r s => r.elim (P s) fun r => Waited P R r s) ?_ fun r => ?_
    · refine Spec.tryCatch (E := E) (Spec.bind hresult fun r => ?_) fun e => ?_
      · refine Spec.pure fun s hs => ?_
        by_cases ht : r.type = none
        · rw [if_pos ht]
          exact hs.1 ht
        · rw [if_neg ht]
          exact hs
      · cases e with
        | lib err => exact Spec.throw fun s hs => hs
        | osError => exact Spec.throw fun s hs => hs
        | _ => exact Spec.pure fun s hs => hvain _ s hs
    · cases r with
      | none => exact ih
      | some r => exact Spec.pure fun s hs => hs

/-- Polling ends with a response, or with `none` after `NoResultsReturned`. -/
theorem poll_rule {N : State ω → Prop} (hsync : Spec P (awaitSync env o msgid all) (Waited P R) E)
    (hasync : ∀ polls, Spec P (awaitAsync env o msgid all polls) (Waited P R) E)
    (hpolling : ∀ s, P s → E .polling s)
    (hnone : ∀ e s, e.is .noResultsReturned = true → E e s → N s) (polls : Nat) :
    Spec P (poll env o msgid all polls)
      (fun r s => match r with | none => N s | some r => r.type ≠ none ∧ R r s) E := by
  induction polls with
  | zero => exact Spec.throw hpolling
  | succ polls ih =>
    rw [poll]
    refine Spec.bind (Q := fun r s => match r with | none => N s | some r => Waited P R r s)
      ?_ fun r => ?_
    · refine Spec.tryCatch (E := E) ?_ fun e => ?_
      · refine Spec.bind (Q := fun _ => P) (Spec.get fun s hs => hs) fun s₀ => ?_
        refine Spec.ite (fun _ => ?_) fun _ => ?_
        · exact Spec.map (hasync _) fun r s hs => hs
        · exact Spec.map hsync fun r s hs => hs
      · refine Spec.ite (fun he => ?_) fun _ => Spec.throw fun s hs => hs
        exact Spec.pure fun s hs => hnone e s he hs
    · cases r with
      | none => exact Spec.pure fun s hs => hs
      | some r =>
        refine Spec.ite (fun ht => ?_) fun ht => ?_
        · exact Spec.conseq ih (fun s hs => hs.1 ht) (fun _ _ h => h) fun _ _ h => h
        · exact Spec.pure fun s hs => ⟨ht, hs.2 ht⟩

end Waiting

/-- An operation: from `S`, where the request has been sent, `R` is reached with a
response, and `Q` with the last one. -/
theorem execute_rule {o : Obj} {op : Operation} {polls : Nat} {Q : Response → State ω → Prop}
    {S : MsgId → State ω → Prop} {R : MsgId → Response → State ω → Prop}
    (hsend : Spec P (retry env (request env o op)) (fun msgid s => match msgid with
      | none => Q { type := none, data := none, msgid := none, ctrls := some [] } s
      | some msgid => S msgid s) E)
    (hpoll : ∀ msgid, Spec (S msgid) (poll env o msgid true polls) (fun r s => match r with
      | none => E .assertionError s
      | some r => R msgid r s) E)
    (hmore : ∀ msgid r, Spec (R msgid r) (poll env o msgid true polls) (fun r' s => match r' with
      | none => Q r s
      | some _ => E (.runtimeError "Wrong method used! Use _execute_iter instead!") s) E)
    (hlast : ∀ msgid r s, R msgid r s → Q r s) : Spec P (execute env polls o op) Q E := by
  unfold execute
  refine Spec.bind hsend fun msgid => ?_
  cases msgid with
  | none => exact Spec.pure fun s hs => hs
  | some msgid =>
    refine Spec.bind (hpoll msgid) fun r => ?_
    cases r with
    | none => exact Spec.throw fun s hs => hs
    | some r =>
      refine Spec.ite (fun _ => Spec.bind (hmore msgid r) fun r' => ?_) fun _ => ?_
      · cases r' with
        | none => exact Spec.pure fun s hs => hs
        | some r' => exact Spec.throw fun s hs => hs
      · exact Spec.pure fun s hs => hlast msgid r s hs

/-! ## Invariants of the methods -/

theorem wrap_keeps {J : State ω → Prop} {m : Method ω α} (hm : Keeps J m) : Keeps J (wrap m) :=
  wrap_rule hm fun _ _ hs => hs

theorem ofExcept_keeps {J : State ω → Prop} (x : Except PyExc α) : Keeps J (ofExcept x : Method ω α) :=
  ofExcept_rule (fun _ _ _ hs => hs) fun _ _ _ hs => hs

theorem conn_keeps {J : State ω → Prop} : Keeps J (conn : Method ω Obj) :=
  conn_rule (fun _ _ hs _ => hs) fun _ hs _ => hs

/-- `J` holds and `o` is the object of the connection. -/
def Using (J : State ω → Prop) (o : Obj) (s : State ω) : Prop := J s ∧ s.self.conn = some o

/-- A call outside, by what it does there. -/
theorem onWorld_spec {m : EStateM PyExc ω α}
    (h : ∀ s, P s → match m.run s.world with
      | .ok a w => Q a { s with world := w }
      | .error e w => E e { s with world := w }) : Spec P (onWorld m) Q E := by
  intro s hs
  have hm := h s hs
  unfold onWorld
  rw [run_zoom]
  cases hrun : m.run s.world with
  | ok a w =>
    rw [hrun] at hm
    exact hm
  | error e w =>
    rw [hrun] at hm
    exact hm

/-- A call outside, by the state it leaves there. -/
theorem onWorld_rule {J : State ω → Prop} {m : EStateM PyExc ω α}
    (h : ∀ s, P s → J { s with world := final (m.run s.world) }) :
    Spec P (onWorld m) (fun _ => J) (fun _ => J) := by
  refine onWorld_spec fun s hs => ?_
  have hfinal := h s hs
  cases hrun : m.run s.world with
  | ok a w =>
    rw [hrun] at hfinal
    exact hfinal
  | error e w =>
    rw [hrun] at hfinal
    exact hfinal

/-- A call on the object of the connection. -/
theorem onConn_keeps {J : State ω → Prop} {f : Obj → EStateM PyExc ω α}
    (hf : ∀ o, Spec (Using J o) (onWorld (f o)) (fun _ => J) (fun _ => J)) :
    Keeps J (conn >>= fun o => onWorld (f o)) :=
  Spec.bind (Q := fun o => Using J o) (conn_rule (fun _ _ hs hc => ⟨hs, hc⟩) fun _ hs _ => hs) hf

/-- `J` is kept by the calls that only read or set options, and does not depend on
whether StartTLS has to be repeated on a new session. -/
structure Calm (env : Env ω) (J : State ω → Prop) : Prop where
  startTls : ∀ s startTls, J s → J { s with self := { s.self with startTls := startTls } }
  loop : Keeps J (onWorld env.getRunningLoop)
  setOption : ∀ o x v, Spec (Using J o) (onWorld (env.setOption o x v)) (fun _ => J) (fun _ => J)
  getOption : ∀ o x, Spec (Using J o) (onWorld (env.getOption o x)) (fun _ => J) (fun _ => J)

/-- `J` does not depend on the recorded options. -/
def Recordable (J : State ω → Prop) : Prop :=
  ∀ s options, J s → J { s with self := { s.self with options := options } }

namespace Calm

variable {J : State ω → Prop} (h : Calm env J)
include h

/-- Setting an option records it only with `append`. -/
theorem setOption_keeps (x : LdapOption) (v : OptionValue) (append : Bool)
    (hoptions : append = true → Recordable J) : Keeps J (Method.setOption env x v append) := by
  unfold Method.setOption
  refine Spec.bind (Q := fun _ => J) (Spec.onlyIf (fun happend => ?_) fun _ _ hs => hs) fun _ => ?_
  · exact Spec.modify fun s hs => hoptions happend s _ hs
  · exact wrap_keeps (onConn_keeps fun o => h.setOption o x v)

theorem getOption_keeps (x : LdapOption) : Keeps J (Method.getOption env x) :=
  wrap_keeps (onConn_keeps fun o => h.getOption o x)

theorem setControls_keeps (hoptions : Recordable J) (controls : Controls) :
    Keeps J (setControls env controls) := by
  unfold setControls
  refine Keeps.bind ?_ fun _ => ?_
  · cases controls.server with
    | none => exact Keeps.pure _
    | some server => exact h.setOption_keeps _ _ _ fun _ => hoptions
  · cases controls.client with
    | none => exact Keeps.pure _
    | some client => exact h.setOption_keeps _ _ _ fun _ => hoptions

theorem restoreOptions_keeps : Keeps J (restoreOptions env) := by
  unfold restoreOptions
  exact Keeps.bind Keeps.get fun s => Keeps.forM (fun item => h.setOption_keeps _ _ false fun h => by cases h) _

theorem removeReader_keeps : Keeps J (removeReader env) := by
  unfold removeReader
  exact Keeps.bind Keeps.get fun s => Keeps.onlyIf h.loop

end Calm

/-- `J` is kept by the calls that may start a new session, too. -/
structure Reconnecting (env : Env ω) (J : State ω → Prop) : Prop extends Calm env J where
  reconnect : ∀ o uri n force,
    Spec (Using J o) (onWorld (env.reconnect o uri n force)) (fun _ => J) (fun _ => J)
  simpleBindS : ∀ o bind, Spec (Using J o) (onWorld (env.simpleBindS o bind)) (fun _ => J) (fun _ => J)

namespace Reconnecting

variable {J : State ω → Prop} (h : Reconnecting env J)
include h

theorem restoreAuthState_keeps : Keeps J (restoreAuthState env) := by
  unfold restoreAuthState
  refine Keeps.bind Keeps.get fun s => ?_
  cases s.self.lastAuthState with
  | none => exact Keeps.pure _
  | some bind => exact wrap_keeps (onConn_keeps fun o => h.simpleBindS o bind)

theorem reconnect_keeps (force : Bool) : Keeps J (Method.reconnect env force) := by
  unfold Method.reconnect
  refine Keeps.bind Keeps.get fun s => ?_
  refine Keeps.bind (Keeps.onlyIf h.toCalm.removeReader_keeps) fun _ => wrap_keeps ?_
  refine Spec.bind (Q := fun o => Using J o) (conn_rule (fun _ _ hs hc => ⟨hs, hc⟩) fun _ hs _ => hs)
    fun o => ?_
  refine Spec.bind (Q := fun _ => Using J o) (Spec.get fun s hs => hs) fun s₀ => ?_
  refine Spec.bind (h.reconnect o _ _ force) fun _ => ?_
  exact Keeps.bind h.toCalm.restoreOptions_keeps fun _ => h.restoreAuthState_keeps

end Reconnecting

/-- `J` is kept by every method that python-ldap runs to its end before it returns. -/
structure Synchronous (env : Env ω) (J : State ω → Prop) : Prop extends Reconnecting env J where
  saslInteractiveBindS : ∀ o mechanism,
    Spec (Using J o) (onWorld (env.saslInteractiveBindS o mechanism)) (fun _ => J) (fun _ => J)
  whoamiS : ∀ o controls,
    Spec (Using J o) (onWorld (env.whoamiS o controls)) (fun _ => J) (fun _ => J)
  startTlsS : ∀ o, Spec (Using J o) (onWorld (env.startTlsS o)) (fun _ => J) (fun _ => J)

namespace Synchronous

variable {J : State ω → Prop} (h : Synchronous env J)
include h

theorem saslBind_keeps (mechanism : Sasl) : Keeps J (saslBind env mechanism) :=
  wrap_keeps (onConn_keeps fun o => h.saslInteractiveBindS o mechanism)

theorem startTls_keeps : Keeps J (startTls env) := by
  unfold startTls
  refine Keeps.bind (Keeps.modify fun s hs => ?_) fun _ => wrap_keeps (onConn_keeps h.startTlsS)
  exact h.startTls s true hs

theorem whoami_keeps (controls : Option Controls) : Keeps J (whoami env controls) := by
  unfold whoami
  refine Keeps.bind (Keeps.tryCatch (Keeps.map ?_) fun e => ?_) fun dn => ?_
  · exact wrap_keeps (onConn_keeps fun o => h.whoamiS o _)
  · cases e with
    | runtimeError message => exact Keeps.pure _
    | _ => exact Keeps.throw _
  · cases dn with
    | none => exact Keeps.pure _
    | some dn => exact Keeps.ite (Keeps.map (ofExcept_keeps _)) (Keeps.pure _)

end Synchronous

/-- What a running method holds: nothing, an LDAP object it has read from the
connection, or the ID of a request it has made there. -/
inductive Holding
  | nothing
  | object (o : Obj)
  | message (o : Obj) (msgid : MsgId)

/-- What has to be known of the calls for the methods to keep an invariant. `I h`
is the invariant while `h` is held, `L h` holds where moreover a reconnect is
allowed: so it has to be after a lost connection, unless there is one attempt only. -/
structure Discipline (env : Env ω) (I L : Holding → State ω → Prop) : Prop where
  calm : ∀ h, Calm env (I h)
  reconnecting : ∀ h, Reconnecting env (L h)
  keep : ∀ h s, L h s → I h s
  attempts : ∃ n, ∀ h s, I h s → s.self.maxConnectionAttempts = n
  object : ∀ h o s, I h s → s.self.conn = some o → I (.object o) s
  release : ∀ h s, I h s → I .nothing s
  answered : ∀ o msgid s, I (.message o msgid) s → I (.object o) s
  readable : ∀ o msgid timeout, Keeps (I (.message o msgid)) (onWorld (env.readable o timeout))
  request : ∀ o op, Spec (I (.object o)) (Method.request env o op)
    (fun msgid s => match msgid with | none => I (.object o) s | some msgid => I (.message o msgid) s)
    (fun e s => I (.object o) s ∧
      (e.lost = true → 1 < s.self.maxConnectionAttempts → L (.object o) s))
  result : ∀ o msgid all timeout, Spec (I (.message o msgid)) (getResult env o msgid all timeout)
    (fun _ => I (.message o msgid))
    (fun e s => I (.message o msgid) s ∧
      (e.lost = true → 1 < s.self.maxConnectionAttempts → L (.message o msgid) s))

namespace Discipline

variable {I L : Holding → State ω → Prop} (h : Discipline env I L)
include h

/-- The reconnect between two attempts. -/
theorem reconnect_again (held : Holding) (force : Bool) :
    Spec (L held) (Method.reconnect env force) (fun _ => I held)
      (fun e s => I held s ∧ (e.lost = true → 1 < s.self.maxConnectionAttempts → L held s)) :=
  Spec.conseq ((h.reconnecting held).reconnect_keeps force) (fun _ hs => hs)
    (fun _ s hs => h.keep held s hs) fun _ s hs => ⟨h.keep held s hs, fun _ _ => hs⟩

/-- A lost connection allows the reconnect. -/
theorem lost_again {held : Holding} (s₀ : State ω) (e : PyExc) (s : State ω) (h₀ : I held s₀)
    (hn : 1 < s₀.self.maxConnectionAttempts) (hlost : e.lost = true)
    (hs : I held s ∧ (e.lost = true → 1 < s.self.maxConnectionAttempts → L held s)) : L held s := by
  obtain ⟨n, hattempts⟩ := h.attempts
  have heq : s.self.maxConnectionAttempts = s₀.self.maxConnectionAttempts := by
    rw [hattempts held s hs.1, hattempts held s₀ h₀]
  exact hs.2 hlost (by omega)

theorem retry_request (o : Obj) (op : Operation) :
    Spec (I (.object o)) (retry env (Method.request env o op))
      (fun msgid s => match msgid with | none => I (.object o) s | some msgid => I (.message o msgid) s)
      (fun _ => I (.object o)) := by
  refine Spec.conseq (retry_rule (h.request o op) (h.reconnect_again _ true) h.lost_again ?_)
    (fun _ hs => hs) (fun _ _ hs => hs) fun _ _ hs => hs.1
  exact fun s hs => ⟨hs, fun hlost => by cases hlost⟩

theorem poll_keeps (o : Obj) (msgid : MsgId) (all : Bool) (polls : Nat) :
    Keeps (I (.message o msgid)) (poll env o msgid all polls) := by
  have hresult : ∀ timeout, Spec (I (.message o msgid)) (getResult env o msgid all timeout)
      (Waited (I (.message o msgid)) fun _ => I (.message o msgid))
      (fun e s => I (.message o msgid) s ∧
        (e.lost = true → 1 < s.self.maxConnectionAttempts → L (.message o msgid) s)) :=
    fun timeout => Spec.conseq (h.result o msgid all timeout) (fun _ hs => hs)
      (fun _ _ hs => ⟨fun _ => hs, fun _ => hs⟩) fun _ _ hs => hs
  have hsync : Spec (I (.message o msgid)) (awaitSync env o msgid all)
      (Waited (I (.message o msgid)) fun _ => I (.message o msgid)) (fun _ => I (.message o msgid)) :=
    Spec.conseq
      (awaitSync_rule hresult (h.reconnect_again _ true) h.lost_again
        fun s hs => ⟨hs, fun hlost => by cases hlost⟩)
      (fun _ hs => hs) (fun _ _ hs => hs) fun _ _ hs => hs.1
  have hasync : ∀ polls, Spec (I (.message o msgid)) (awaitAsync env o msgid all polls)
      (Waited (I (.message o msgid)) fun _ => I (.message o msgid)) (fun _ => I (.message o msgid)) :=
    awaitAsync_rule
      (Spec.conseq (hresult 0) (fun _ hs => hs) (fun _ _ hs => hs) fun _ _ hs => hs.1)
      (h.readable o msgid) (fun _ _ hs => hs) fun _ hs => hs
  refine Spec.conseq (poll_rule hsync hasync (fun _ hs => hs) (fun _ _ _ hs => hs) polls)
    (fun _ hs => hs) (fun r s hs => ?_) fun _ _ hs => hs
  cases r with
  | none => exact hs
  | some r => exact hs.2

theorem execute_keeps (polls : Nat) (o : Obj) (op : Operation) :
    Keeps (I (.object o)) (execute env polls o op) := by
  -- the ID is held while the loop polls, and released with the answer
  refine execute_rule (S := fun msgid => I (.message o msgid)) (R := fun msgid _ => I (.message o msgid))
    ?_ (fun msgid => ?_) (fun msgid r => ?_) fun msgid r s hs => h.answered o msgid s hs
  · exact h.retry_request o op
  · refine Spec.conseq (h.poll_keeps o msgid true polls) (fun _ hs => hs) (fun r s hs => ?_)
      fun _ s hs => h.answered o msgid s hs
    cases r with
    | none => exact h.answered o msgid s hs
    | some r => exact hs
  · refine Spec.conseq (h.poll_keeps o msgid true polls) (fun _ hs => hs) (fun r' s hs => ?_)
      fun _ s hs => h.answered o msgid s hs
    cases r' with
    | none => exact h.answered o msgid s hs
    | some r' => exact h.answered o msgid s hs

/-- An operation on the object of the connection. -/
theorem onConn_execute {f : Obj → Method ω α} (hf : ∀ o, Keeps (I (.object o)) (f o)) :
    Keeps (I .nothing) (conn >>= f) := by
  refine Spec.bind (Q := fun o => I (.object o))
    (conn_rule (fun o s hs hc => h.object _ o s hs hc) fun _ hs _ => hs) fun o => ?_
  exact Spec.conseq (hf o) (fun _ hs => hs) (fun _ s hs => h.release _ s hs) fun _ s hs => h.release _ s hs

theorem executeResult_keeps (polls : Nat) (request : Request) (controls : Option Controls)
    (dn : Option PyStr) : Keeps (I .nothing) (executeResult env polls request controls dn) :=
  h.onConn_execute fun o => Keeps.bind (h.execute_keeps polls o _) fun _ => ofExcept_keeps _

/-- Binding records its credentials before it sends them. -/
theorem bind_rule (polls : Nat) (authzid password : Option PyStr) (controls : Option Controls)
    (hrecord : ∀ s o, P s → s.self.conn = some o →
      I (.object o) { s with self := { s.self with lastAuthState := some ⟨authzid, password⟩ } })
    (hnone : ∀ s, P s → s.self.conn = none → I .nothing s) :
    Spec P (Method.bind env polls authzid password controls) (fun _ => I .nothing)
      (fun _ => I .nothing) := by
  refine Spec.bind (Q := fun o s => P s ∧ s.self.conn = some o)
    (conn_rule (fun o s hs hc => ⟨hs, hc⟩) hnone) fun o => ?_
  refine Spec.bind (Q := fun _ => I (.object o)) (Spec.modify fun s hs => hrecord s o hs.1 hs.2) fun _ => ?_
  refine Spec.conseq (Keeps.bind (h.execute_keeps polls o _) fun _ => ofExcept_keeps _)
    (fun _ hs => hs) (fun _ s hs => h.release _ s hs) fun _ s hs => h.release _ s hs

theorem bind_keeps (polls : Nat) (authzid password : Option PyStr) (controls : Option Controls)
    (hauth : ∀ held s auth, I held s → I held { s with self := { s.self with lastAuthState := auth } }) :
    Keeps (I .nothing) (Method.bind env polls authzid password controls) :=
  h.bind_rule polls authzid password controls (fun s o hs hc => hauth _ s _ (h.object _ o s hs hc))
    fun _ hs _ => hs

/-- Unbinding forgets the credentials before anything else. -/
theorem unbind_rule (polls : Nat) (controls : Option Controls)
    (hforget : ∀ s, P s → I .nothing { s with self := { s.self with lastAuthState := none } }) :
    Spec P (unbind env polls controls) (fun _ => I .nothing) (fun _ => I .nothing) := by
  unfold unbind
  refine Spec.bind (Q := fun _ => I .nothing) (Spec.modify hforget) fun _ => ?_
  refine Spec.bind (Q := fun s₀ s => s₀ = s ∧ I .nothing s) (Spec.get fun s hs => ⟨rfl, hs⟩)
    fun s₀ => ?_
  cases hc : s₀.self.conn with
  | none => exact Spec.pure fun s hs => hs.2
  | some o =>
    refine Spec.bind (Q := fun _ => I (.object o)) (E := fun _ => I .nothing) ?_ fun response => ?_
    · refine Spec.tryCatch (E := fun _ => I (.object o)) ?_ fun e => ?_
      · refine Spec.map (Q := fun _ => I (.object o)) ?_ fun _ _ hs => hs
        exact Spec.conseq (h.execute_keeps polls o _)
          (fun s hs => h.object _ o s hs.2 (hs.1 ▸ hc)) (fun _ _ hs => hs) fun _ _ hs => hs
      · refine Spec.ite (fun _ => Spec.pure fun s hs => hs) fun _ => Spec.throw fun s hs => h.release _ s hs
    · cases response with
      | none => exact Spec.pure fun s hs => h.release _ s hs
      | some response =>
        refine Spec.map (Q := fun _ => I .nothing) ?_ fun _ _ hs => hs
        exact Spec.conseq (ofExcept_keeps _) (fun s hs => h.release _ s hs) (fun _ _ hs => hs) fun _ _ hs => hs

theorem unbind_keeps (polls : Nat) (controls : Option Controls)
    (hauth : ∀ held s auth, I held s → I held { s with self := { s.self with lastAuthState := auth } }) :
    Keeps (I .nothing) (unbind env polls controls) :=
  h.unbind_rule polls controls fun s hs => hauth _ s none hs

theorem cancel_keeps (polls msgid : Nat) (controls : Option Controls) :
    Keeps (I .nothing) (cancel env polls msgid controls) := by
  unfold cancel
  refine Spec.bind (Q := fun s₀ s => s₀ = s ∧ I .nothing s) (Spec.get fun s hs => ⟨rfl, hs⟩)
    fun s₀ => ?_
  cases hc : s₀.self.conn with
  | none => exact Spec.pure fun s hs => hs.2
  | some o =>
    refine Spec.tryCatch (E := fun _ => I .nothing) ?_ fun e => ?_
    · refine Spec.bind (Q := fun _ => I .nothing) ?_ fun _ => Spec.pure fun s hs => hs
      exact Spec.conseq (h.execute_keeps polls o _)
        (fun s hs => h.object _ o s hs.2 (hs.1 ▸ hc)) (fun _ s hs => h.release _ s hs)
        fun _ s hs => h.release _ s hs
    · exact Keeps.ite (Keeps.pure _) (Keeps.ite (Keeps.pure _) (Keeps.throw _))

theorem extended_keeps (polls : Nat) (request : ExtendedRequest)
    (responseClass : Option ExtendedResponse) (controls : Option Controls) :
    Keeps (I .nothing) (extended env polls request responseClass controls) := by
  refine h.onConn_execute fun o => Keeps.bind (h.execute_keeps polls o _) fun response => ?_
  exact Keeps.bind (wrap_keeps (ofExcept_keeps _)) fun _ => ofExcept_keeps _

omit h in
theorem searchedFor_rule {args : SearchArgs} {m : Method ω α} {J : State ω → Prop}
    (hm : Spec P m Q (fun _ => J)) : Spec P (searchedFor env args m) Q (fun _ => J) := by
  refine Spec.tryCatch hm fun e => ?_
  have hthrow : ∀ e : PyExc, Spec J (throw e : Method ω α) Q (fun _ => J) :=
    fun e => Spec.throw fun s hs => hs
  cases e with
  | lib err =>
    refine Spec.ite (fun _ => ?_) fun _ => hthrow _
    exact Spec.bind (ofExcept_keeps _) fun _ => hthrow _
  | _ => exact hthrow _

theorem search_keeps (polls : Nat) (args : SearchArgs) : Keeps (I .nothing) (search env polls args) := by
  refine h.onConn_execute fun o => Keeps.bind (ofExcept_keeps _) fun controls => ?_
  refine searchedFor_rule (Keeps.bind Keeps.get fun s₀ => ?_)
  refine Keeps.bind (h.execute_keeps polls o _) fun response => Keeps.bind ?_ fun results => ?_
  · unfold responseResults
    cases response.data with
    | none => exact Keeps.throw _
    | some data => exact ofExcept_keeps _
  · exact Keeps.bind (Keeps.onlyIf (Keeps.throw _)) fun _ => Keeps.pure _

/-- What a generator that `next` has left suspended holds. -/
def held : SearchIter → Holding
  | .suspended _ _ o msgid _ _ _ => .message o msgid
  | _ => .nothing

/-- The message ID that closing a generator cancels: that of its last response. -/
def lastMsgid : SearchIter → Option Nat
  | .suspended _ _ _ _ response _ _ => response.msgid
  | _ => none

theorem searchLoop_rule (args : SearchArgs) (o : Obj) (msgid : MsgId) (polls : Nat) :
    ∀ controls allResults, Spec (I (.message o msgid))
      (searchLoop env args o msgid polls controls allResults)
      (fun step s => I (held step.2) s) (fun _ => I .nothing) := by
  induction polls with
  | zero => exact fun _ _ => Spec.throw fun s hs => h.release _ s hs
  | succ polls ih =>
    intro controls allResults
    rw [searchLoop]
    have hpoll : Spec (I (.message o msgid)) (poll env o msgid false (polls + 1))
        (fun _ => I (.message o msgid)) (fun _ => I .nothing) :=
      Spec.conseq (h.poll_keeps o msgid false _) (fun _ hs => hs) (fun _ _ hs => hs)
        fun _ s hs => h.release _ s hs
    refine Spec.bind hpoll fun response => ?_
    cases response with
    | none => exact Spec.pure fun s hs => h.release _ s hs
    | some response =>
      refine Spec.bind (Q := fun _ => I (.message o msgid)) ?_ fun results => ?_
      · unfold responseResults
        cases response.data with
        | none => exact Spec.throw fun s hs => h.release _ s hs
        | some data => exact ofExcept_rule (fun _ _ _ hs => hs) fun _ s _ hs => h.release _ s hs
      · refine Spec.bind (Q := fun _ => I (.message o msgid))
          (Spec.onlyIf (fun _ => Spec.throw fun s hs => h.release _ s hs) fun _ _ hs => hs) fun _ => ?_
        cases results with
        | cons result rest => exact Spec.pure fun s hs => hs
        | nil => exact Spec.ite (fun _ => ih _ _) fun _ => Spec.pure fun s hs => h.release _ s hs

/-- `next` starts from what the generator holds, and leaves what it then holds. -/
theorem next_rule (polls : Nat) (iter : SearchIter) :
    Spec (I (held iter)) (next env polls iter) (fun step s => I (held step.2) s) (fun _ => I .nothing) := by
  cases iter with
  | finished => exact Spec.pure fun s hs => hs
  | suspended args controls o msgid response rest allResults =>
    cases rest with
    | cons result rest => exact Spec.pure fun s hs => hs
    | nil =>
      refine Spec.ite (fun _ => ?_) fun _ => Spec.pure fun s hs => h.release _ s hs
      exact searchedFor_rule (h.searchLoop_rule args o msgid polls controls allResults)
  | created args =>
    refine Spec.bind (Q := fun o => I (.object o))
      (conn_rule (fun o s hs hc => h.object _ o s hs hc) fun _ hs _ => hs) fun o => ?_
    refine Spec.bind (Q := fun _ => I (.object o))
      (ofExcept_rule (fun _ _ _ hs => hs) fun _ s _ hs => h.release _ s hs) fun controls => ?_
    refine searchedFor_rule (Spec.bind (Q := fun _ => I (.object o)) (Spec.get fun s hs => hs) fun s₀ => ?_)
    refine Spec.bind (Spec.conseq (h.retry_request o _) (fun _ hs => hs) (fun _ _ hs => hs)
      fun _ s hs => h.release _ s hs) fun msgid => ?_
    cases msgid with
    | none => exact Spec.pure fun s hs => h.release _ s hs
    | some msgid => exact h.searchLoop_rule args o msgid polls controls []

omit h in
/-- Closing a generator cancels its operation: by the connection itself, or by the
synchronous connection inside. -/
theorem close_rule {J K : State ω → Prop} (polls : Nat) (iter : SearchIter) (hJK : ∀ s, J s → K s)
    (hsync : ∀ msgid, lastMsgid iter = some msgid →
      Spec (fun s => J s ∧ s.self.asynchronous = false) (cancel env polls msgid) (fun _ => K) (fun _ => K))
    (hasync : ∀ msgid, lastMsgid iter = some msgid →
      Spec (fun s => J s ∧ s.self.asynchronous = true) (onSyncConnection (cancel env polls msgid))
        (fun _ => K) (fun _ => K)) :
    Spec J (close env polls iter) (fun _ => K) (fun _ => K) := by
  cases iter with
  | created args => exact Spec.pure hJK
  | finished => exact Spec.pure hJK
  | suspended args controls o msgid response rest allResults =>
    refine searchedFor_rule (Spec.tryCatch (E := fun _ => K) ?_ fun e =>
      Keeps.ite (Keeps.pure _) (Keeps.throw _))
    cases hmsgid : response.msgid with
    | none => exact Spec.throw hJK
    | some msgid =>
      refine Spec.bind (Q := fun s₀ s => s = s₀ ∧ J s) (Spec.get fun s hs => ⟨rfl, hs⟩) fun s₀ => ?_
      refine Spec.ite (fun hs₀ => ?_) fun hs₀ => ?_
      · refine Spec.conseq (Spec.map (hasync msgid hmsgid) fun _ _ hs => hs) ?_ (fun _ _ hs => hs) fun _ _ hs => hs
        rintro s ⟨rfl, hs⟩
        exact ⟨hs, hs₀⟩
      · refine Spec.conseq (Spec.map (hsync msgid hmsgid) fun _ _ hs => hs) ?_ (fun _ _ hs => hs) fun _ _ hs => hs
        rintro s ⟨rfl, hs⟩
        exact ⟨hs, by simpa using hs₀⟩

end Discipline

end FreeIam.Ldap.Method
