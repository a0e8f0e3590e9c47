import FreeIam.Lib.Replay
import FreeIam.Ldap.Connection.Rules

/-!
# Options over reconnects

`set_option` records what it sets, and `reconnect` sets the recorded options once
more. The record is written before the LDAP object has been asked, so that a value
it rejects is among those that every later reconnect sets.
-/

namespace FreeIam.Ldap

open FreeIam.Py FreeIam.Errors FreeIam.Exec FreeIam.Replay

/-! ## The properties -/

namespace LdapOption

/-- `Option.Dereference` -/
def dereference : LdapOption := .option 2

/-- `Option.Sizelimit` -/
def sizelimit : LdapOption := .option 3

/-- `Option.Timelimit` -/
def timelimit : LdapOption := .option 4

/-- `Option.Referrals` -/
def referrals : LdapOption := .option 8

/-- `Option.ProtocolVersion` -/
def protocolVersion : LdapOption := .option 0x11

/-- `Option.NetworkTimeout` -/
def networkTimeout : LdapOption := .option 0x5005

end LdapOption

/-- `OptionValue.Off` -/
def OptionValue.off : OptionValue := .int 0

/-- `OptionValue.On` -/
def OptionValue.on : OptionValue := .int 1

namespace Method

variable {ω : Type} (env : Env ω)

/-- `Connection.protocol_version = value` -/
def setProtocolVersion (value : Int) : Method ω Unit :=
  setOption env LdapOption.protocolVersion (.int value)

/-- `Connection.timelimit = value` -/
def setTimelimit (value : Int) : Method ω Unit := setOption env LdapOption.timelimit (.int value)

/-- `Connection.network_timeout = value` -/
def setNetworkTimeout (value : Int) : Method ω Unit :=
  setOption env LdapOption.networkTimeout (.int value)

/-- `Connection.dereference = value` -/
def setDereference (value : Int) : Method ω Unit :=
  setOption env LdapOption.dereference (.int value)

/-- `Connection.follow_referrals = value` -/
def setFollowReferrals (value : Bool) : Method ω Unit :=
  setOption env LdapOption.referrals (if value then OptionValue.on else OptionValue.off)

/-- `Connection.sizelimit = value` -/
def setSizelimit (value : Int) : Method ω Unit := setOption env LdapOption.sizelimit (.int value)

end Method

/-- A call on a connection that sets options or reconnects; the properties are
assigned. -/
inductive OptionCall
  | setOption (option : LdapOption) (value : OptionValue) (append : Bool)
  | setControls (controls : Controls)
  | protocolVersion (value : Int)
  | timelimit (value : Int)
  | networkTimeout (value : Int)
  | dereference (value : Int)
  | followReferrals (value : Bool)
  | sizelimit (value : Int)
  | reconnect (force : Bool)

/-- A call of `set_option`: the option, the value and whether it is recorded. -/
abbrev OptionSetting := LdapOption × OptionValue × Bool

namespace OptionCall

variable {ω : Type} (env : Env ω)

/-- The method of a call. -/
def method : OptionCall → Method ω Unit
  | .setOption option value append => Method.setOption env option value append
  | .setControls controls => Method.setControls env controls
  | .protocolVersion value => Method.setProtocolVersion env value
  | .timelimit value => Method.setTimelimit env value
  | .networkTimeout value => Method.setNetworkTimeout env value
  | .dereference value => Method.setDereference env value
  | .followReferrals value => Method.setFollowReferrals env value
  | .sizelimit value => Method.setSizelimit env value
  | .reconnect force => Method.reconnect env force

/-- The connection after a call whose exception the caller catches. -/
def step (s : State ω) (call : OptionCall) : State ω := final ((call.method env).run s)

/-- The calls of `set_option` that a call consists of, up to one that raises. -/
def settings : OptionCall → List OptionSetting
  | .setOption option value append => [(option, value, append)]
  | .setControls controls =>
    (controls.server.map fun server => (.serverControls, .controls server, true)).toList ++
      (controls.client.map fun client => (.clientControls, .controls client, true)).toList
  | .protocolVersion value => [(.protocolVersion, .int value, true)]
  | .timelimit value => [(.timelimit, .int value, true)]
  | .networkTimeout value => [(.networkTimeout, .int value, true)]
  | .dereference value => [(.dereference, .int value, true)]
  | .followReferrals value => [(.referrals, if value then .on else .off, true)]
  | .sizelimit value => [(.sizelimit, .int value, true)]
  | .reconnect _ => []

end OptionCall

namespace Method

variable {ω α β : Type} {env : Env ω}

/-- The calls of `set_option` one after the other. -/
def setOptions (env : Env ω) (settings : List OptionSetting) : Method ω Unit :=
  settings.forM fun setting => setOption env setting.1 setting.2.1 setting.2.2

theorem setOptions_singleton (setting : OptionSetting) :
    setOptions env [setting] = setOption env setting.1 setting.2.1 setting.2.2 :=
  bind_pure_unit

/-- Every call but `reconnect` is its calls of `set_option`. -/
theorem method_eq_setOptions (call : OptionCall) (hcall : ∀ force, call ≠ .reconnect force) :
    call.method env = setOptions env call.settings := by
  cases call with
  | setControls controls =>
    obtain ⟨server, client, response⟩ := controls
    show setControls env _ = setOptions env (_ ++ _)
    unfold setControls setOptions
    rw [List.forM_eq_forM, List.forM_append]
    cases server with
    | none =>
      cases client with
      | none => rfl
      | some client => exact congrArg _ (funext fun _ => bind_pure_unit.symm)
    | some server =>
      have hserver : setOptions env [(.serverControls, .controls server, true)] = _ :=
        setOptions_singleton _
      cases client with
      | none => exact congrArg (· >>= fun _ => pure ()) hserver.symm
      | some client =>
        have hclient : setOptions env [(.clientControls, .controls client, true)] = _ :=
          setOptions_singleton _
        exact congrArg₂ (fun a b => a >>= fun _ => b) hserver.symm hclient.symm
  | reconnect force => exact absurd rfl (hcall force)
  | setOption x v append => exact (setOptions_singleton (x, v, append)).symm
  | followReferrals value => exact (setOptions_singleton (_, _, true)).symm
  | _ => exact (setOptions_singleton (_, .int _, true)).symm

/-! ## Setting and restoring -/

/-- The connection with a call of `set_option` recorded. -/
def recorded (self : Connection) (setting : OptionSetting) : Connection :=
  if setting.2.2 then { self with options := self.options ++ [(setting.1, setting.2.1)] } else self

@[simp] theorem recorded_conn (self : Connection) (setting : OptionSetting) :
    (recorded self setting).conn = self.conn := by
  unfold recorded
  split <;> rfl

/-- `set_option` records, asks the object and leaves the rest alone. -/
theorem setOption_run {o : Obj} {s : State ω} (hconn : s.self.conn = some o) (setting : OptionSetting) :
    (setOption env setting.1 setting.2.1 setting.2.2).run s =
      match (env.setOption o setting.1 setting.2.1).run s.world with
      | .ok _ w => .ok () { s with self := recorded s.self setting, world := w }
      | .error e w => .error e.wrap { s with self := recorded s.self setting, world := w } := by
  obtain ⟨x, v, append⟩ := setting
  have hrecord : (onlyIf (append = true)
      (modifySelf fun self : Connection => { self with options := self.options ++ [(x, v)] })).run s =
        .ok () { s with self := recorded s.self (x, v, append) } := by
    cases append <;> rfl
  unfold setOption
  rw [EStateM.run_bind, hrecord]
  have hc := recorded_conn s.self (x, v, append)
  unfold wrap conn
  simp only [run_tryCatch, EStateM.run_bind, EStateM.run_get, hc, hconn, EStateM.run_pure]
  unfold onWorld
  rw [run_zoom]
  cases (env.setOption o x v).run s.world <;> rfl

/-- An exception of either part is wrapped on its own. -/
theorem wrap_bind (m : Method ω α) (f : α → Method ω β) :
    wrap (m >>= f) = wrap m >>= fun a => wrap (f a) := by
  funext s
  show (wrap (m >>= f)).run s = (wrap m >>= fun a => wrap (f a)).run s
  unfold wrap
  simp only [run_tryCatch, EStateM.run_bind]
  cases hrun : m.run s with
  | ok a s' => rfl
  | error e s' => rfl

/-- `Connection.reconnect` up to the point where it restores the options. -/
def reopen (env : Env ω) (force : Bool) : Method ω Unit := do
  onlyIf (← get).self.asynchronous (removeReader env)
  wrap do
    let o ← conn
    let self := (← get).self
    onWorld (env.reconnect o self.uri self.maxConnectionAttempts force)

theorem reconnect_eq (force : Bool) :
    Method.reconnect env force =
      reopen env force >>= fun _ => wrap (restoreOptions env) >>= fun _ => wrap (restoreAuthState env) := by
  unfold Method.reconnect reopen
  simp only [← wrap_bind, bind_assoc]

end Method

/-! ## What the LDAP object does with options -/

/-- An LDAP object holds a value for each option, which is the one it accepted last,
also over its own reconnects. A value it has accepted once it accepts again, as long
as it has a connection. -/
structure OptionObject {ω : Type} (env : Env ω) (o : Obj) where
  value : ω → LdapOption → OptionValue
  accepted : ω → LdapOption → OptionValue → Prop
  accepts : ∀ w x v, env.hasL w o = true → accepted w x v →
    ∃ w', (env.setOption o x v).run w = .ok () w'
  sets : ∀ w w' x v, (env.setOption o x v).run w = .ok () w' →
    value w' = Function.update (value w) x v ∧ accepted w' x v ∧ env.hasL w' o = env.hasL w o
  rejects : ∀ w w' x v e, (env.setOption o x v).run w = .error e w' → value w' = value w
  remembers : ∀ w x v x' v', accepted w x' v' → accepted (final ((env.setOption o x v).run w)) x' v'
  reconnect : ∀ w uri n force, value (final ((env.reconnect o uri n force).run w)) = value w ∧
    ∀ x v, accepted w x v → accepted (final ((env.reconnect o uri n force).run w)) x v
  reconnected : ∀ w w' uri n force, (env.reconnect o uri n force).run w = .ok () w' →
    env.hasL w' o = true
  simpleBindS : ∀ w bind, value (final ((env.simpleBindS o bind).run w)) = value w ∧
    ∀ x v, accepted w x v → accepted (final ((env.simpleBindS o bind).run w)) x v
  loop : ∀ w, value (final (env.getRunningLoop.run w)) = value w ∧
    ∀ x v, accepted w x v → accepted (final (env.getRunningLoop.run w)) x v

/-! ## What is required of the calls -/

/-- A call of `set_option` that raises leaves the recorded options as they are: of
these calls, the one that raises, if there is one. -/
def RejectedUnrecorded {ω : Type} (env : Env ω) : State ω → List OptionSetting → Prop
  | _, [] => True
  | s, setting :: settings =>
    match (Method.setOption env setting.1 setting.2.1 setting.2.2).run s with
    | .ok _ s' => RejectedUnrecorded env s' settings
    | .error _ s' => s'.self.options = s.self.options

/-- Every call of `set_option` that is recorded is accepted by the object. -/
def RecordsAccepted {ω : Type} (env : Env ω) (o : Obj) : ω → List OptionSetting → Prop
  | _, [] => True
  | w, setting :: settings =>
    match (env.setOption o setting.1 setting.2.1).run w with
    | .ok _ w' => RecordsAccepted env o w' settings
    | .error _ _ => setting.2.2 = false

namespace OptionObject

variable {ω : Type} {env : Env ω} {o : Obj} (object : OptionObject env o)

/-- What is required of a call: a rejected option is not recorded, and a reconnect
that reaches the server does not fail at an option and leaves all options at the
values they had. -/
def Restores (s : State ω) : OptionCall → Prop
  | .reconnect force =>
    ∀ s', (Method.reopen env force).run s = .ok () s' →
      raised ((Method.restoreOptions env).run s') = false ∧
        object.value (OptionCall.step env s (.reconnect force)).world = object.value s.world
  | call => RejectedUnrecorded env s call.settings

/-- The condition on a call: what it records is accepted, and at a reconnect that
reaches the server, what is recorded last for an option is its value. -/
def Clean (s : State ω) : OptionCall → Prop
  | .reconnect force =>
    raised ((Method.reopen env force).run s) = false →
      Current s.self.options (object.value s.world)
  | call => RecordsAccepted env o s.world call.settings

/-- The object is the one of the connection and has accepted all recorded options. -/
structure Recorded (s : State ω) : Prop where
  conn : s.self.conn = some o
  accepted : ∀ item ∈ s.self.options, object.accepted s.world item.1 item.2

/-! ## Calls that set options -/

/-- A call of `set_option` keeps the record, if it is accepted or not recorded. -/
theorem Recorded.set {s : State ω} (hs : object.Recorded s) (setting : OptionSetting) {w : ω}
    (hw : w = final ((env.setOption o setting.1 setting.2.1).run s.world))
    (hnew : setting.2.2 = true → object.accepted w setting.1 setting.2.1) :
    object.Recorded { s with self := Method.recorded s.self setting, world := w } where
  conn := (Method.recorded_conn s.self setting).trans hs.conn
  accepted := by
    intro item hitem
    have hold : ∀ item ∈ s.self.options, object.accepted w item.1 item.2 := by
      intro item hitem
      rw [hw]
      exact object.remembers _ _ _ _ _ (hs.accepted item hitem)
    by_cases happend : setting.2.2 = true
    · have hoptions : (Method.recorded s.self setting).options =
          s.self.options ++ [(setting.1, setting.2.1)] := by
        unfold Method.recorded
        rw [if_pos happend]
      rw [hoptions] at hitem
      rcases List.mem_append.mp hitem with hitem | hitem
      · exact hold item hitem
      · rw [List.mem_singleton.mp hitem]
        exact hnew happend
    · have hself : Method.recorded s.self setting = s.self := if_neg happend
      rw [hself] at hitem
      exact hold item hitem

/-- A rejected call of `set_option` leaves the recorded options as they are exactly
if it does not record. -/
theorem recorded_options_eq_iff (self : Connection) (setting : OptionSetting) :
    (Method.recorded self setting).options = self.options ↔ setting.2.2 = false := by
  unfold Method.recorded
  cases setting.2.2 with
  | false => exact ⟨fun _ => rfl, fun _ => rfl⟩
  | true =>
    refine ⟨fun heq => ?_, fun h => Bool.noConfusion h⟩
    have hlength := congrArg List.length heq
    rw [if_pos rfl, List.length_append, List.length_singleton] at hlength
    omega

/-- Over the calls of `set_option` that a call consists of. -/
theorem setOptions_step {s : State ω} (hs : object.Recorded s) (settings : List OptionSetting) :
    (RejectedUnrecorded env s settings ↔ RecordsAccepted env o s.world settings) ∧
      (RecordsAccepted env o s.world settings →
        object.Recorded (final ((Method.setOptions env settings).run s))) := by
  induction settings generalizing s with
  | nil => exact ⟨Iff.rfl, fun _ => hs⟩
  | cons setting settings ih =>
    have hrun : (Method.setOption env setting.1 setting.2.1 setting.2.2).run s = _ :=
      Method.setOption_run hs.conn setting
    have hcons : Method.setOptions env (setting :: settings) =
        Method.setOption env setting.1 setting.2.1 setting.2.2 >>= fun _ =>
          Method.setOptions env settings := rfl
    rw [RejectedUnrecorded, RecordsAccepted, hcons, EStateM.run_bind, hrun]
    cases hset : (env.setOption o setting.1 setting.2.1).run s.world with
    | ok u w =>
      have haccepted := (object.sets _ _ _ _ hset).2.1
      have hs' := hs.set object setting (w := w) (by rw [hset]; rfl) fun _ => haccepted
      exact ih hs'
    | error e w =>
      refine ⟨recorded_options_eq_iff s.self setting, fun hunrecorded => ?_⟩
      refine hs.set object setting (w := w) (by rw [hset]; rfl) fun happend => ?_
      rw [hunrecorded] at happend
      cases happend

/-! ## Reconnects -/

/-- The connection and the values of the options are those of `s₀`, and nothing has
been forgotten that was accepted. -/
structure Kept (s₀ s : State ω) : Prop where
  self : s.self = s₀.self
  value : object.value s.world = object.value s₀.world
  accepted : ∀ x v, object.accepted s₀.world x v → object.accepted s.world x v

/-- A call outside that keeps the values and what has been accepted. -/
theorem Kept.call {α : Type} {m : EStateM PyExc ω α}
    (hm : ∀ w, object.value (final (m.run w)) = object.value w ∧
      ∀ x v, object.accepted w x v → object.accepted (final (m.run w)) x v) {s₀ s : State ω}
    (hs : object.Kept s₀ s) : object.Kept s₀ { s with world := final (m.run s.world) } where
  self := hs.self
  value := (hm s.world).1.trans hs.value
  accepted := fun x v hv => (hm s.world).2 x v (hs.accepted x v hv)

/-- The LDAP object has its connection again once `reconnect` gets to the options. -/
theorem reopen_spec (force : Bool) {s₀ : State ω} (hconn : s₀.self.conn = some o) :
    Spec (fun s => s = s₀) (Method.reopen env force)
      (fun _ s => object.Kept s₀ s ∧ env.hasL s.world o = true) (fun _ => object.Kept s₀) := by
  unfold Method.reopen
  refine Spec.bind (Q := fun _ => object.Kept s₀) (Spec.get ?_) fun s₁ => ?_
  · rintro s rfl
    exact ⟨rfl, rfl, fun _ _ hv => hv⟩
  refine Spec.bind (Q := fun _ => object.Kept s₀) (Spec.onlyIf (fun _ => ?_) fun _ _ hs => hs) fun _ => ?_
  · unfold Method.removeReader
    refine Spec.bind (Q := fun _ => object.Kept s₀) (Spec.get fun _ hs => hs) fun s₂ => ?_
    refine Spec.onlyIf (fun _ => ?_) fun _ _ hs => hs
    exact Method.onWorld_rule fun s hs => hs.call object object.loop
  · refine Method.wrap_rule ?_ fun _ _ hs => hs
    refine Spec.bind (Q := fun o' s => o' = o ∧ object.Kept s₀ s) (Method.conn_rule ?_ ?_) fun o' => ?_
    · intro o' s hs hc
      rw [hs.self, hconn] at hc
      exact ⟨(Option.some.inj hc).symm, hs⟩
    · exact fun s hs _ => hs
    · refine Spec.assume fun ho => ?_
      subst ho
      refine Spec.bind (Q := fun _ => object.Kept s₀) (Spec.get fun _ hs => hs) fun s₁ => ?_
      refine Method.onWorld_spec fun s hs => ?_
      have hkept := hs.call object (object.reconnect · s₁.self.uri s₁.self.maxConnectionAttempts force)
      cases hrun : (env.reconnect o' s₁.self.uri s₁.self.maxConnectionAttempts force).run s.world with
      | ok u w =>
        rw [hrun] at hkept
        exact ⟨hkept, object.reconnected _ _ _ _ _ hrun⟩
      | error e w =>
        rw [hrun] at hkept
        exact hkept

/-- A reconnect records nothing. -/
theorem reconnect_options (s : State ω) (force : Bool) :
    (OptionCall.step env s (.reconnect force)).self.options = s.self.options := by
  have hkeeps : Keeps (fun s' : State ω => s'.self.options = s.self.options)
      (Method.reconnect env force) :=
    (Method.Reconnecting.reconnect_keeps
      { startTls := fun _ _ hs => hs
        loop := Method.onWorld_rule fun _ hs => hs
        setOption := fun _ _ _ => Method.onWorld_rule fun _ hs => hs.1
        getOption := fun _ _ => Method.onWorld_rule fun _ hs => hs.1
        reconnect := fun _ _ _ _ => Method.onWorld_rule fun _ hs => hs.1
        simpleBindS := fun _ _ => Method.onWorld_rule fun _ hs => hs.1 } force)
  exact hkeeps.final rfl

/-- Setting options that have been accepted before, without recording them again:
none is rejected, and each has the value set last. -/
theorem restore_run (items : List (LdapOption × OptionValue)) {s : State ω}
    (hconn : s.self.conn = some o) (hconnected : env.hasL s.world o = true)
    (haccepted : ∀ item ∈ items, object.accepted s.world item.1 item.2) :
    ∃ w, (items.forM fun item => Method.setOption env item.1 item.2 false).run s =
        .ok () { s with world := w } ∧
      object.value w = replay (object.value s.world) items ∧
      ∀ x v, object.accepted s.world x v → object.accepted w x v := by
  induction items generalizing s with
  | nil => exact ⟨s.world, rfl, rfl, fun _ _ hv => hv⟩
  | cons item items ih =>
    obtain ⟨x, v⟩ := item
    obtain ⟨w, hset⟩ := object.accepts s.world x v hconnected (haccepted _ List.mem_cons_self)
    obtain ⟨hvalue, -, hhasL⟩ := object.sets _ _ _ _ hset
    have hremembers := object.remembers s.world x v
    rw [hset, final_ok] at hremembers
    have hrun : (Method.setOption env x v false).run s = .ok () { s with world := w } := by
      rw [Method.setOption_run hconn (x, v, false), hset]
      rfl
    obtain ⟨w', hrest, hvalue', haccepted'⟩ := ih (s := { s with world := w }) hconn
      (hhasL.trans hconnected) fun item hitem =>
        hremembers _ _ (haccepted item (List.mem_cons_of_mem _ hitem))
    refine ⟨w', ?_, ?_, fun x' v' hv => haccepted' x' v' (hremembers x' v' hv)⟩
    · show (Method.setOption env x v false >>= fun _ => items.forM fun item =>
        Method.setOption env item.1 item.2 false).run s = _
      rw [EStateM.run_bind, hrun]
      exact hrest
    · rw [hvalue', replay_cons, hvalue]

theorem restoreAuthState_keeps (s₀ : State ω) (hconn : s₀.self.conn = some o) :
    Keeps (object.Kept s₀) (Method.restoreAuthState env) := by
  unfold Method.restoreAuthState
  refine Keeps.bind Keeps.get fun s => ?_
  cases s.self.lastAuthState with
  | none => exact Keeps.pure _
  | some bind =>
    refine Method.wrap_keeps (Method.onConn_keeps fun o' => Method.onWorld_rule fun s hs => ?_)
    have ho : o' = o := by
      have hc := hs.2
      rw [hs.1.self, hconn] at hc
      exact (Option.some.inj hc).symm
    subst ho
    exact hs.1.call object fun w => object.simpleBindS w bind

/-- What a reconnect from a state with all recorded options accepted comes to: either
the object has not got a connection, or the options are set as they are recorded. -/
theorem reconnect_run {s : State ω} (hs : object.Recorded s) (force : Bool) :
    (∃ e s', (Method.reopen env force).run s = .error e s' ∧ object.Kept s s' ∧
      (Method.reconnect env force).run s = .error e s') ∨
    ∃ s' w, (Method.reopen env force).run s = .ok () s' ∧
      (Method.restoreOptions env).run s' = .ok () { s' with world := w } ∧
      object.value (final ((Method.reconnect env force).run s)).world =
        replay (object.value s.world) s.self.options ∧
      object.Recorded (final ((Method.reconnect env force).run s)) := by
  have hreopen := object.reopen_spec force hs.conn s rfl
  rw [Method.reconnect_eq, EStateM.run_bind]
  cases hrun : (Method.reopen env force).run s with
  | error e s' =>
    rw [hrun] at hreopen
    exact .inl ⟨e, s', rfl, hreopen, rfl⟩
  | ok u s' =>
    rw [hrun] at hreopen
    obtain ⟨hkept, hconnected⟩ := hreopen
    have hconn : s'.self.conn = some o := (congrArg (·.conn) hkept.self).trans hs.conn
    obtain ⟨w, hrestore, hvalue, haccepted⟩ := object.restore_run s'.self.options hconn hconnected
      fun item hitem => hkept.accepted _ _ (hs.accepted item (by rwa [hkept.self] at hitem))
    have hrestored : (Method.restoreOptions env).run s' = .ok () { s' with world := w } := hrestore
    refine .inr ⟨s', w, rfl, hrestored, ?_⟩
    have hwrap : (Method.wrap (Method.restoreOptions env)).run s' = .ok () { s' with world := w } := by
      unfold Method.wrap
      rw [run_tryCatch, hrestored]
    -- binding again changes no option
    have hauth := (Method.wrap_keeps (object.restoreAuthState_keeps { s' with world := w } hconn)).final
      (s := { s' with world := w }) ⟨rfl, rfl, fun _ _ hv => hv⟩
    show object.value (final ((Method.wrap (Method.restoreOptions env) >>= fun _ =>
        Method.wrap (Method.restoreAuthState env)).run s')).world = _ ∧
      object.Recorded (final ((Method.wrap (Method.restoreOptions env) >>= fun _ =>
        Method.wrap (Method.restoreAuthState env)).run s'))
    rw [EStateM.run_bind, hwrap]
    refine ⟨?_, ?_, ?_⟩
    · rw [hauth.value, hvalue, hkept.value, hkept.self]
    · exact (congrArg (·.conn) hauth.self).trans hconn
    · intro item hitem
      rw [hauth.self, hkept.self] at hitem
      exact hauth.accepted _ _ (haccepted _ _ (hkept.accepted _ _ (hs.accepted item hitem)))

/-! ## Every sequence of calls -/

/-- One call does what is required exactly under the condition, and then the record
is as before. -/
theorem call_step {s : State ω} (hs : object.Recorded s) (call : OptionCall) :
    (object.Restores s call ↔ object.Clean s call) ∧
      (object.Clean s call → object.Recorded (OptionCall.step env s call)) := by
  have setting (hcall : ∀ force, call ≠ .reconnect force)
      (hrestores : object.Restores s call = RejectedUnrecorded env s call.settings)
      (hclean : object.Clean s call = RecordsAccepted env o s.world call.settings) :
      (object.Restores s call ↔ object.Clean s call) ∧
        (object.Clean s call → object.Recorded (OptionCall.step env s call)) := by
    rw [hrestores, hclean, OptionCall.step, Method.method_eq_setOptions call hcall]
    exact object.setOptions_step hs call.settings
  cases call with
  | reconnect force =>
    rcases object.reconnect_run hs force with
      ⟨e, s', hreopen, hkept, hrun⟩ | ⟨s', w, hreopen, hrestore, hvalue, hrecorded⟩
    · -- the object has no connection, and no option has been set
      have hstep : OptionCall.step env s (.reconnect force) = s' := by
        show final ((Method.reconnect env force).run s) = s'
        rw [hrun]
        rfl
      refine ⟨⟨fun _ h => ?_, fun _ s'' h => ?_⟩, fun _ => ?_⟩
      · rw [hreopen] at h
        cases h
      · rw [hreopen] at h
        cases h
      · rw [hstep]
        refine ⟨(congrArg (·.conn) hkept.self).trans hs.conn, fun item hitem => ?_⟩
        rw [hkept.self] at hitem
        exact hkept.accepted _ _ (hs.accepted item hitem)
    -- the options are what the replay of the record makes of them
    · refine ⟨?_, fun _ => hrecorded⟩
      have hiff := replay_eq_self_iff (object.value s.world) s.self.options
      constructor
      · intro h _
        have h' := (h s' hreopen).2
        exact hiff.mp (hvalue.symm.trans h')
      · intro h s'' hs''
        have heq : s'' = s' := by
          rw [hreopen] at hs''
          cases hs''
          rfl
        subst heq
        rw [hrestore]
        exact ⟨rfl, hvalue.trans (hiff.mpr (h (by rw [hreopen]; rfl)))⟩
  -- every other call sets options
  | _ => exact setting (fun _ h => by cases h) rfl rfl

/-- Every reconnect restores exactly the options in effect and no rejected option is
recorded, in every sequence of calls whose recorded options are accepted and whose
reconnects find them recorded with the values they have; in no other. -/
theorem options_restored_iff {s : State ω} (hs : object.Recorded s) (calls : List OptionCall) :
    Along (OptionCall.step env) object.Restores s calls ↔
      Along (OptionCall.step env) object.Clean s calls := by
  induction calls generalizing s with
  | nil => exact Iff.rfl
  | cons call calls ih =>
    obtain ⟨hiff, hstep⟩ := object.call_step hs call
    constructor
    · intro h
      have hclean := hiff.mp h.1
      exact ⟨hclean, (ih (hstep hclean)).mp h.2⟩
    · intro h
      exact ⟨hiff.mpr h.1, (ih (hstep h.1)).mpr h.2⟩

end OptionObject

/-! ## An LDAP object that knows two protocol versions -/

/-- `set_option` of another protocol version raises. -/
def versionedEnv : Env (LdapOption → OptionValue) :=
  { Env.idle (LdapOption → OptionValue) with
    getOption := fun _ x w => .ok (w x) w
    setOption := fun _ x v w =>
      if x = .protocolVersion ∧ v ≠ .int 2 ∧ v ≠ .int 3 then .error (.valueError "option error") w
      else .ok () (Function.update w x v) }

theorem versionedEnv_setOption (o : Obj) (x : LdapOption) (v : OptionValue) (w : LdapOption → OptionValue) :
    (versionedEnv.setOption o x v).run w =
      if x = .protocolVersion ∧ v ≠ .int 2 ∧ v ≠ .int 3 then .error (.valueError "option error") w
      else .ok () (Function.update w x v) := rfl

/-- The values are the state, and accepted are all but other protocol versions. -/
def versionedObject : OptionObject versionedEnv 0 where
  value := id
  accepted := fun _ x v => ¬(x = .protocolVersion ∧ v ≠ .int 2 ∧ v ≠ .int 3)
  accepts := fun w x v _ h => ⟨Function.update w x v, by rw [versionedEnv_setOption, if_neg h]⟩
  sets := fun w w' x v h => by
    rw [versionedEnv_setOption] at h
    split at h
    · cases h
    · cases h
      exact ⟨rfl, ‹_›, rfl⟩
  rejects := fun w w' x v e h => by
    rw [versionedEnv_setOption] at h
    split at h
    · cases h
      rfl
    · cases h
  remembers := fun _ _ _ _ _ h => h
  reconnect := fun _ _ _ _ => ⟨rfl, fun _ _ h => h⟩
  reconnected := fun _ _ _ _ _ _ => rfl
  simpleBindS := fun _ _ => ⟨rfl, fun _ _ h => h⟩
  loop := fun _ => ⟨rfl, fun _ _ h => h⟩

/-- A connection with its object and no options recorded. -/
def versionedState : State (LdapOption → OptionValue) :=
  { self := { Connection.init true [] with conn := some 0 }, world := fun _ => .int 0, calls := [] }

theorem versionedState_recorded : versionedObject.Recorded versionedState :=
  ⟨rfl, fun _ h => by cases h⟩

/-- Versions and limits that are set; one limit is not recorded, and has been set again since. -/
theorem options_restored_versions :
    Along (OptionCall.step versionedEnv) versionedObject.Restores versionedState
      [.protocolVersion 3, .setOption .sizelimit (.int 7) false, .sizelimit 5, .reconnect true,
        .protocolVersion 2, .reconnect true] := by
  have hrecorded (w : LdapOption → OptionValue) :
      Current [(LdapOption.protocolVersion, OptionValue.int 3), (LdapOption.sizelimit, OptionValue.int 5)]
        (Function.update (Function.update w .protocolVersion (.int 3)) .sizelimit (.int 5)) := by
    have hnone : Current [] w := fun _ _ h => by cases h
    exact (hnone.record LdapOption.protocolVersion (.int 3)).record LdapOption.sizelimit (.int 5)
  refine (versionedObject.options_restored_iff versionedState_recorded _).mpr
    ⟨trivial, trivial, trivial, fun _ => ?_, trivial, fun _ => ?_, trivial⟩
  · -- the limit that is not recorded is overwritten
    have hfirst := hrecorded versionedState.world
    rw [← Function.update_idem (f := Function.update _ _ _) (v := OptionValue.int 7)] at hfirst
    exact hfirst
  · -- the first reconnect has set what is recorded
    exact (hrecorded _).record LdapOption.protocolVersion (.int 2)

/-- A version that is rejected has been recorded all the same, and the next reconnect
fails at it. -/
theorem reconnect_fails_at_rejected :
    ¬Along (OptionCall.step versionedEnv) versionedObject.Restores versionedState
      [.protocolVersion 9, .reconnect true] ∧
    (OptionCall.step versionedEnv versionedState (.protocolVersion 9)).self.options =
      [(.protocolVersion, .int 9)] ∧
    raised ((Method.reconnect versionedEnv true).run
      (OptionCall.step versionedEnv versionedState (.protocolVersion 9))) = true := by
  refine ⟨fun h => ?_, rfl, rfl⟩
  have hunrecorded : [(LdapOption.protocolVersion, OptionValue.int 9)] = [] := h.1
  cases hunrecorded

end FreeIam.Ldap
