import FreeIam.Ldap.Connection.Log
import FreeIam.Ldap.Connection.Options
import FreeIam.Ldap.Connection.Transaction

/-!
# The controls of a connection over a transaction

`transaction` sets its control as the only server control of the connection, and ends by
setting none at all. Both are recorded, so that a reconnect comes to the same.
-/

namespace FreeIam.Ldap

open FreeIam.Py FreeIam.Errors FreeIam.Exec FreeIam.Replay

/-! ## Controls in effect -/

/-- The controls of a value. -/
def OptionValue.list : OptionValue → List Control
  | .controls list => list
  | _ => []

/-- Besides what an LDAP object does with options: requests and the waits for results leave
them alone. -/
structure SteadyObject {ω : Type} (env : Env ω) (o : Obj) extends OptionObject env o where
  request : ∀ w o' op, value (final ((env.request o' op).run w)) = value w ∧
    ∀ x v, accepted w x v → accepted (final ((env.request o' op).run w)) x v
  result4 : ∀ w o' msgid all timeout,
    value (final ((env.result4 o' msgid all timeout).run w)) = value w ∧
      ∀ x v, accepted w x v → accepted (final ((env.result4 o' msgid all timeout).run w)) x v
  readable : ∀ w o' timeout, value (final ((env.readable o' timeout).run w)) = value w ∧
    ∀ x v, accepted w x v → accepted (final ((env.readable o' timeout).run w)) x v

namespace OptionObject

variable {ω : Type} {env : Env ω} {o : Obj} (object : OptionObject env o)

/-- A value is in effect for an option, and is the one recorded last. -/
structure Recalled (x : LdapOption) (v : OptionValue) (s : State ω) : Prop extends object.Recorded s where
  value : object.value s.world x = v
  last : lastRecorded s.self.options x = some v

/-- The value comes back with a reconnect, whatever becomes of it. -/
theorem Recalled.reconnect {x : LdapOption} {v : OptionValue} {s : State ω}
    (hs : object.Recalled x v s) (force : Bool) :
    object.Recalled x v (OptionCall.step env s (.reconnect force)) := by
  have hoptions : (OptionCall.step env s (.reconnect force)).self.options = s.self.options :=
    reconnect_options s force
  rcases object.reconnect_run hs.toRecorded force with
    ⟨e, s', -, hkept, hrun⟩ | ⟨s', w, -, -, hvalue, hrecorded⟩
  · have hstep : OptionCall.step env s (.reconnect force) = s' := by
      show final ((Method.reconnect env force).run s) = s'
      rw [hrun]
      rfl
    rw [hstep]
    refine ⟨⟨?_, fun item hitem => ?_⟩, ?_, ?_⟩
    · rw [hkept.self]
      exact hs.conn
    · rw [hkept.self] at hitem
      exact hkept.accepted _ _ (hs.accepted item hitem)
    · rw [hkept.value]
      exact hs.value
    · rw [hkept.self]
      exact hs.last
  · refine ⟨hrecorded, ?_, ?_⟩
    · show object.value (final ((Method.reconnect env force).run s)).world x = v
      rw [hvalue, replay_apply, hs.last]
      rfl
    · rw [hoptions]
      exact hs.last

end OptionObject

namespace SteadyObject

variable {ω : Type} {env : Env ω} {o : Obj} (object : SteadyObject env o)

theorem recalled_abides (x : LdapOption) (v : OptionValue) (o' : Obj) (op : Operation) :
    Method.Abides env (object.Recalled x v) o' op := by
  have hcall {s : State ω} (hs : object.Recalled x v s) (w : ω) (calls : List (Call ω))
      (hw : object.value w = object.value s.world ∧
        ∀ x v, object.accepted s.world x v → object.accepted w x v) :
      object.Recalled x v { s with world := w, calls := calls } :=
    ⟨⟨hs.conn, fun item hitem => hw.2 _ _ (hs.accepted item hitem)⟩,
      (congrFun hw.1 x).trans hs.value, hs.last⟩
  constructor
  · constructor
    · intro msgid all timeout
      refine Method.getResult_rule (fun s r w hs hrun => ?_) fun s e w hs hrun => ?_
      all_goals
        have hw := object.result4 s.world o' msgid.number all timeout
        rw [hrun] at hw
        exact hcall hs w _ hw
    · intro timeout
      exact Method.onWorld_rule fun s hs => hcall hs _ _ (object.readable s.world o' timeout)
    · exact Keeps.of_final fun s hs => hs.reconnect object.toOptionObject true
  · refine Method.request_rule (fun s msgid w hs hrun => ?_) fun s e w hs hrun => ?_
    all_goals
      have hw := object.request s.world o' op
      rw [hrun] at hw
      exact hcall hs w _ hw

end SteadyObject

/-! ## Entering and leaving -/

section

variable {ω : Type} (env : Env ω) (polls : Nat) (setControls : Bool) (body : Option Bytes → Method ω Unit)

/-- A run of the context manager: it is entered, and the body ends, normally or with an
exception. Then no controls are set, before the transaction is committed or aborted. -/
structure Left (txnId : Option Bytes) (s s₁ s₂ s₃ : State ω) : Prop where
  enter : (Method.enterTransaction env polls setControls).run s = .ok txnId s₁
  body : final ((body txnId).run s₁) = s₂
  reset : (Method.resetControls env).run s₂ = .ok () s₃

variable {env polls setControls body} {txnId : Option Bytes} {s s₁ s₂ s₃ : State ω}

/-- In each of the ways to leave, the end of the transaction is the last that happens. -/
theorem Left.final_eq (h : Left env polls setControls body txnId s s₁ s₂ s₃) :
    ∃ commit, final ((Method.transaction env polls setControls body).run s) =
      final ((Method.endTransaction env polls txnId commit).run s₃) := by
  cases hbody : (body txnId).run s₁ with
  | ok u s' =>
    obtain rfl : s' = s₂ := by rw [← h.body, hbody, final_ok]
    refine ⟨true, ?_⟩
    rw [transaction_returned h.enter hbody]
    cases hend : (Method.endTransaction env polls txnId true).run s₃ with
    | ok result s'' =>
      unfold Method.commitTransaction
      rw [EStateM.run_bind, h.reset]
      simp only [run_tryCatch, EStateM.run_bind, hend]
      rfl
    | error e s'' =>
      rw [commitTransaction_failed h.reset hend]
      split <;> rfl
  | error e s' =>
    obtain rfl : s' = s₂ := by rw [← h.body, hbody, final_error]
    refine ⟨false, ?_⟩
    rw [transaction_raised h.enter hbody]
    cases hend : (Method.endTransaction env polls txnId false).run s₃ with
    | ok result s'' =>
      unfold Method.abortTransaction
      rw [EStateM.run_bind, h.reset]
      simp only [EStateM.run_bind, hend]
      rfl
    | error e' s'' =>
      rw [abortTransaction_failed h.reset hend]
      rfl

end

namespace SteadyObject

variable {ω : Type} {env : Env ω} {o : Obj} (object : SteadyObject env o) {polls : Nat} {setControls : Bool}
  {body : Option Bytes → Method ω Unit} {txnId : Option Bytes} {s s₁ s₂ s₃ : State ω}

/-- What is required of a transaction: the controls that were set are sent in it besides its
own, and are in effect after it, and after a reconnect. -/
structure KeepsControls (setControls : Bool) (txnId : Option Bytes) (s s₁ s' : State ω) : Prop where
  sent : ∀ control ∈ (object.value s.world .serverControls).list,
    control ∈ (object.value s₁.world .serverControls).list
  own : setControls = true →
    transactionControl txnId ∈ (object.value s₁.world .serverControls).list
  effect : object.value s'.world .serverControls = object.value s.world .serverControls
  restored : ∀ force, object.value (OptionCall.step env s' (.reconnect force)).world .serverControls =
    object.value s.world .serverControls

/-- With no controls set, the transaction is ended, and none are set after it. -/
theorem left_recalled (h : Left env polls setControls body txnId s s₁ s₂ s₃)
    (hbody : object.Recorded s₂) : object.Recalled .serverControls (.controls [])
      (final ((Method.transaction env polls setControls body).run s)) := by
  obtain ⟨commit, hfinal⟩ := h.final_eq
  rw [hfinal]
  refine (Method.Abides.extended_keeps (object.recalled_abides .serverControls (.controls [])) polls
    (.endTransactionRequest commit txnId) (some Method.endTransactionResponse)).final ?_
  have hset := h.reset
  unfold Method.resetControls at hset
  rw [Method.setOption_run hbody.conn (.serverControls, .controls [], true)] at hset
  cases hrun : (env.setOption o .serverControls (.controls [])).run s₂.world with
  | error e w =>
    rw [hrun] at hset
    cases hset
  | ok u w =>
    rw [hrun] at hset
    cases hset
    obtain ⟨hvalue, haccepted, -⟩ := object.sets _ _ _ _ hrun
    refine ⟨hbody.set object.toOptionObject (.serverControls, .controls [], true) ?_ fun _ => haccepted, ?_, ?_⟩
    · rw [hrun]
      rfl
    · rw [hvalue, Function.update_self]
    · exact (lastRecorded_append _ _ _ _).trans (if_pos rfl)

/-- The control of the transaction is the only one while its body runs. -/
theorem enter_sets (hconn : s.self.conn = some o)
    (h : (Method.enterTransaction env polls true).run s = .ok txnId s₁) :
    object.value s₁.world .serverControls = .controls [transactionControl txnId] := by
  have hgrowing : Growing fun _ : List (Call ω) => True := fun _ _ _ => trivial
  have hlogged : Keeps (Logged (fun _ => True) o s.self.maxConnectionAttempts)
      (Method.extended env polls .startTransactionRequest (some (Method.startTransactionResponse env))) :=
    (Method.logged_discipline hgrowing).extended_keeps polls _ _ none
  unfold Method.enterTransaction at h
  rw [EStateM.run_bind] at h
  cases hstart : (Method.extended env polls .startTransactionRequest
      (some (Method.startTransactionResponse env))).run s with
  | error e s' =>
    rw [hstart] at h
    cases h
  | ok result s' =>
    rw [hstart] at h
    have hconn' : s'.self.conn = some o := (hlogged.ok ⟨trivial, hconn, rfl⟩ hstart).conn
    have hset : (Method.setTransaction env (Method.txnId result)).run s' =
        (Method.setOptions env [(.serverControls, .controls [transactionControl (Method.txnId result)],
          true)]).run s' := rfl
    dsimp only at h
    rw [onlyIf_true (show true = true from rfl), EStateM.run_bind, hset, Method.setOptions_singleton,
      Method.setOption_run hconn'] at h
    cases hrun : (env.setOption o .serverControls
        (.controls [transactionControl (Method.txnId result)])).run s'.world with
    | error e w =>
      rw [hrun] at h
      cases h
    | ok u w =>
      rw [hrun] at h
      cases h
      rw [(object.sets _ _ _ _ hrun).1, Function.update_self]

/-- A transaction keeps the controls of the connection exactly where there are none. -/
theorem transaction_keeps_controls_iff (hconn : s.self.conn = some o)
    (h : Left env polls setControls body txnId s s₁ s₂ s₃) (hbody : object.Recorded s₂) :
    object.KeepsControls setControls txnId s s₁
        (final ((Method.transaction env polls setControls body).run s)) ↔
      object.value s.world .serverControls = .controls [] := by
  have hrecalled := object.left_recalled h hbody
  constructor
  · intro hkeeps
    exact hkeeps.effect.symm.trans hrecalled.value
  · intro hnone
    refine ⟨?_, ?_, ?_, fun force => ?_⟩
    · intro control hcontrol
      rw [hnone] at hcontrol
      cases hcontrol
    · rintro rfl
      rw [object.enter_sets hconn h.enter]
      exact List.mem_singleton_self _
    · rw [hrecalled.value, hnone]
    · rw [(hrecalled.reconnect object.toOptionObject force).value, hnone]

end SteadyObject

/-! ## An LDAP object that takes all options -/

/-- Options are set, and every operation is an extended one that is answered. -/
def takesOptions : Env (LdapOption → OptionValue) :=
  { Env.idle (LdapOption → OptionValue) with
    getOption := fun _ x w => .ok (w x) w
    setOption := fun _ x v w => .ok () (Function.update w x v)
    result4 := fun _ msgid _ _ w => .ok
      { type := some .extended, data := none, msgid := some msgid, ctrls := some [], value := some [4, 1, 49] } w }

theorem takesOptions_sets {w w' : LdapOption → OptionValue} {x : LdapOption} {v : OptionValue}
    (h : (takesOptions.setOption 0 x v).run w = .ok () w') : w' = Function.update w x v := by
  cases h
  rfl

def takingObject : SteadyObject takesOptions 0 where
  value := id
  accepted := fun _ _ _ => True
  accepts := fun w x v _ _ => ⟨Function.update w x v, rfl⟩
  sets := fun _ _ _ _ h => ⟨takesOptions_sets h, trivial, rfl⟩
  rejects := fun _ _ _ _ _ h => by cases h
  remembers := fun _ _ _ _ _ _ => trivial
  reconnect := fun _ _ _ _ => ⟨rfl, fun _ _ _ => trivial⟩
  reconnected := fun _ _ _ _ _ _ => rfl
  simpleBindS := fun _ _ => ⟨rfl, fun _ _ _ => trivial⟩
  loop := fun _ => ⟨rfl, fun _ _ _ => trivial⟩
  request := fun _ _ _ => ⟨rfl, fun _ _ _ => trivial⟩
  result4 := fun _ _ _ _ _ => ⟨rfl, fun _ _ _ => trivial⟩
  readable := fun _ _ _ => ⟨rfl, fun _ _ _ => trivial⟩

/-- A connection that has set these server controls. -/
def controlledState (controls : List Control) : State (LdapOption → OptionValue) :=
  { self := { Connection.init false (py "ldap://localhost") with
      conn := some 0, options := [(.serverControls, .controls controls)] }
    world := Function.update (fun _ => .int 0) .serverControls (.controls controls)
    calls := [] }

/-- The run of a transaction with a body that does nothing. -/
theorem controlledState_left (controls : List Control) :
    ∃ s₁ s₂ s₃, Left takesOptions 1 true (fun _ => pure ()) (some [4, 1, 49]) (controlledState controls)
      s₁ s₂ s₃ ∧ takingObject.Recorded s₂ :=
  ⟨_, _, _, ⟨rfl, rfl, rfl⟩, rfl, fun _ _ => trivial⟩

/-- Where no controls are set, none are after the transaction. -/
theorem transaction_keeps_controls_iff_none :
    ∃ s₁, (Method.enterTransaction takesOptions 1 true).run (controlledState []) = .ok (some [4, 1, 49]) s₁ ∧
      takingObject.KeepsControls true (some [4, 1, 49]) (controlledState []) s₁
        (final ((Method.transaction takesOptions 1 true fun _ => pure ()).run (controlledState []))) := by
  obtain ⟨s₁, s₂, s₃, hleft, hrecorded⟩ := controlledState_left []
  exact ⟨s₁, hleft.enter, (takingObject.transaction_keeps_controls_iff rfl hleft hrecorded).mpr rfl⟩

/-- The control that relaxes rules. -/
def relaxRules : Control :=
  { controlType := "1.3.6.1.4.1.4203.666.5.12", criticality := true, value := .encoded none }

/-- A control that was set is not sent in the transaction, and is not set after it. -/
theorem transaction_drops_controls :
    ∃ s₁, (Method.enterTransaction takesOptions 1 true).run (controlledState [relaxRules]) =
        .ok (some [4, 1, 49]) s₁ ∧
      ¬ takingObject.KeepsControls true (some [4, 1, 49]) (controlledState [relaxRules]) s₁
        (final ((Method.transaction takesOptions 1 true fun _ => pure ()).run
          (controlledState [relaxRules]))) := by
  refine ⟨_, rfl, fun hkeeps => ?_⟩
  have heffect : OptionValue.controls [] = .controls [relaxRules] := hkeeps.effect
  cases OptionValue.controls.inj heffect

end FreeIam.Ldap
