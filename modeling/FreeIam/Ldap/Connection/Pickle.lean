import FreeIam.Ldap.Connection.SchemaCache

/-!
# Pickling

`__getstate__` leaves the private slots out, and `__setstate__` does not go through
`__init__`. A connection that was connected is connected again, which assigns two of
the three private slots; nothing assigns the cache of the schemata.
-/

namespace FreeIam.Ldap

open FreeIam.Py FreeIam.Errors FreeIam.Exec

/-- The state that a connection is pickled with: its public slots but `_conn`, and
whether it is connected. -/
structure Pickled where
  /-- The class. -/
  asynchronous : Bool
  uri : PyStr
  timeout : Int
  automaticReconnect : Bool
  maxConnectionAttempts : Nat
  startTls : Bool
  lastAuthState : Option SimpleBind
  options : List (LdapOption × OptionValue)
  connected : Bool
  deriving DecidableEq

variable {ω α : Type} (lib : Schemata ω)

namespace SchemaState

/-- `Connection.__getstate__` -/
def getstate (s : SchemaState ω) : Pickled :=
  { asynchronous := s.state.self.asynchronous, uri := s.state.self.uri
    timeout := s.state.self.timeout, automaticReconnect := s.state.self.automaticReconnect
    maxConnectionAttempts := s.state.self.maxConnectionAttempts
    startTls := s.state.self.startTls, lastAuthState := s.state.self.lastAuthState
    options := s.state.self.options, connected := Method.connected lib.toEnv s.state }

/-- Every slot that a method reads is assigned; the synchronous class reads no `__conn_s`. -/
structure Initialised (s : SchemaState ω) : Prop where
  schema : s.schema.isSome = true
  reconnectsCounter : s.reconnectsCounter.isSome = true
  connS : s.state.self.asynchronous = true → s.connSAssigned = true

end SchemaState

namespace Pickled

/-- The object that `__setstate__` is called on, in the surroundings of `s`, once it
has assigned the slots of the pickled state. -/
def assigned (p : Pickled) (s : SchemaState ω) : SchemaState ω :=
  { state :=
      { self :=
          { asynchronous := p.asynchronous, uri := p.uri, timeout := p.timeout
            automaticReconnect := p.automaticReconnect
            maxConnectionAttempts := p.maxConnectionAttempts, conn := none
            startTls := p.startTls, lastAuthState := p.lastAuthState, options := p.options
            connS := none }
        world := s.state.world
        calls := s.state.calls }
    schema := none
    reconnectsCounter := none
    connSAssigned := false
    aliases := s.aliases
    connects := 0
    made := s.made }

end Pickled

namespace SchemaMethod

/-- `Connection.__setstate__` from there on. -/
def setstate (connected : Bool) : SchemaMethod ω Unit := do
  onlyIf connected do
    connect lib none
    onState (Method.restoreOptions lib.toEnv)
  onState (Method.restoreAuthState lib.toEnv)

end SchemaMethod

/-- `pickle.loads(pickle.dumps(conn))` -/
def loadsDumps (s : SchemaState ω) : EStateM.Result PyExc (SchemaState ω) Unit :=
  (SchemaMethod.setstate lib (s.getstate lib).connected).run ((s.getstate lib).assigned s)

/-! ## What a round trip is -/

/-- What a run returns or raises. -/
def outcome {ε σ : Type} : EStateM.Result ε σ α → Except ε α
  | .ok a _ => .ok a
  | .error e _ => .error e

/-- A run raises `AttributeError`. -/
def RaisesAttributeError {σ : Type} (result : EStateM.Result PyExc σ α) : Prop :=
  ∃ message, outcome result = .error (.attributeError message)

/-- The copy of a connection: connected if and only if that was, then with the same
options and identity, and with all slots assigned that a method reads, so that the
methods that read private slots raise `AttributeError` only where the original does. -/
structure Copies (s copy : SchemaState ω) : Prop where
  connected : Method.connected lib.toEnv copy.state = Method.connected lib.toEnv s.state
  options : Method.connected lib.toEnv s.state = true →
    copy.state.self.options = s.state.self.options ∧
      ∀ option, outcome ((Method.getOption lib.toEnv option).run copy.state) =
        outcome ((Method.getOption lib.toEnv option).run { s.state with world := copy.state.world })
  identity : Method.connected lib.toEnv s.state = true →
    outcome ((Method.whoami lib.toEnv none).run copy.state) =
      outcome ((Method.whoami lib.toEnv none).run { s.state with world := copy.state.world })
  initialised : copy.Initialised
  getSchema : ∀ polls key,
    RaisesAttributeError ((SchemaMethod.getSchema lib polls key).run copy) →
      RaisesAttributeError ((SchemaMethod.getSchema lib polls key).run
        { s with state := { s.state with world := copy.state.world } })
  syncConnection : s.state.self.asynchronous = true →
    RaisesAttributeError (SchemaMethod.syncConnection.run copy) →
      RaisesAttributeError (SchemaMethod.syncConnection.run s)

/-- Loading what was dumped succeeds with a copy. -/
def RoundTrips (s : SchemaState ω) : Prop :=
  ∃ copy, loadsDumps lib s = .ok () copy ∧ Copies lib s copy

/-! ## What is never assigned -/

namespace SchemaMethod

variable {lib}

/-- A method that leaves the private slots alone. -/
theorem onState_keeps {I : SchemaState ω → Prop}
    (hI : ∀ s state, I s → I { s with state := state }) (m : Method ω α) : Keeps I (onState m) :=
  Keeps.zoom fun s hs => hI s _ hs

/-- Connecting assigns no dictionary of schemata. -/
theorem connect_schema (fileno : Option Int) :
    Keeps (fun s : SchemaState ω => s.schema = none) (connect lib fileno) := by
  unfold connect
  refine Keeps.bind (onState_keeps (fun _ _ hs => hs) _) fun _ => ?_
  refine Keeps.bind (Keeps.modify fun _ hs => hs) fun _ => ?_
  exact onState_keeps (fun _ _ hs => hs) _

/-- Neither does `__setstate__`. -/
theorem setstate_schema (connected : Bool) :
    Keeps (fun s : SchemaState ω => s.schema = none) (setstate lib connected) := by
  unfold setstate
  refine Keeps.bind (Keeps.onlyIf (Keeps.bind (connect_schema none) fun _ => ?_)) fun _ => ?_
  · exact onState_keeps (fun _ _ hs => hs) _
  · exact onState_keeps (fun _ _ hs => hs) _

/-- Without the dictionary, `get_schema` of a connection with an object raises
`AttributeError`, whatever it is asked for. -/
theorem getSchema_unassigned {s : SchemaState ω} {o : Obj} {counter : Nat}
    (hconn : s.state.self.conn = some o) (hschema : s.schema = none)
    (hcounter : s.reconnectsCounter = some counter) (polls : Nat) (key : SchemaKey) :
    RaisesAttributeError ((getSchema lib polls key).run s) := by
  have hslot : schema.run s = .error (.attributeError "_Connection__schema") s := by
    unfold schema
    rw [EStateM.run_bind, EStateM.run_get]
    simp only [hschema]
    rfl
  refine ⟨"_Connection__schema", ?_⟩
  unfold getSchema getSchemaOr
  rw [EStateM.run_bind, onState_ok (Method.conn_ok hconn)]
  simp only
  unfold invalidate
  rw [EStateM.run_bind, EStateM.run_bind, reconnected_run (s := { s with state := s.state }) hcounter]
  by_cases hout : Outdated lib counter s.state.world o
  · simp only [hout, decide_true, if_true]
    unfold delSchema
    rw [EStateM.run_bind, EStateM.run_bind, hslot]
    rfl
  · simp only [hout, decide_false]
    rw [if_neg Bool.false_ne_true, EStateM.run_pure]
    simp only
    rw [EStateM.run_bind, hslot]
    rfl

end SchemaMethod

/-- The dictionary of schemata is among the slots that methods read, and no copy has it. -/
theorem pickle_never_round_trips (s : SchemaState ω) : ¬RoundTrips lib s := by
  rintro ⟨copy, hloads, hcopies⟩
  have hkeeps : (final (loadsDumps lib s)).schema = none :=
    (SchemaMethod.setstate_schema (s.getstate lib).connected).final rfl
  have hassigned := hcopies.initialised.schema
  rw [hloads] at hkeeps
  rw [show copy.schema = none from hkeeps] at hassigned
  cases hassigned

/-! ## What is restored -/

/-- Without a connection there is nobody to bind to. -/
theorem Method.restoreAuthState_none {env : Env ω} {s : State ω} (hconn : s.self.conn = none) :
    (restoreAuthState env).run s =
      if s.self.lastAuthState = none then .ok () s else .error (.runtimeError "not connected") s := by
  unfold restoreAuthState
  rw [EStateM.run_bind, EStateM.run_get]
  cases hauth : s.self.lastAuthState with
  | none =>
    simp only [hauth]
    rfl
  | some bind =>
    simp only [hauth]
    unfold wrap
    rw [run_tryCatch, EStateM.run_bind, conn_none hconn]
    rfl

/-- A connection that is not connected is loaded exactly if it remembers no
credentials; all its public slots are as they were. -/
theorem loads_disconnected {s : SchemaState ω} (hs : Method.connected lib.toEnv s.state = false) :
    loadsDumps lib s =
      if s.state.self.lastAuthState = none then .ok () ((s.getstate lib).assigned s)
      else .error (.runtimeError "not connected") ((s.getstate lib).assigned s) := by
  have hconnected : (s.getstate lib).connected = false := hs
  have hauth : (Method.restoreAuthState lib.toEnv).run ((s.getstate lib).assigned s).state =
      if s.state.self.lastAuthState = none then .ok () ((s.getstate lib).assigned s).state
      else .error (.runtimeError "not connected") ((s.getstate lib).assigned s).state :=
    Method.restoreAuthState_none rfl
  unfold loadsDumps SchemaMethod.setstate
  rw [hconnected, EStateM.run_bind, onlyIf_false Bool.false_ne_true, EStateM.run_pure]
  simp only
  rw [SchemaMethod.run_onState, hauth]
  by_cases hnone : s.state.self.lastAuthState = none
  · simp only [if_pos hnone]
  · simp only [if_neg hnone]

/-! ## A copy without schemata -/

/-- A connection that has been connected. -/
def deskConnected : SchemaState SchemaDesk :=
  final ((SchemaMethod.connect schemaDesk none).run (.init schemaState []))

/-- One that has been bound and disconnected since. -/
def deskDisconnected : SchemaState SchemaDesk :=
  final (EStateM.run (do
    discard (SchemaMethod.onState (Method.bind schemaDesk.toEnv 1 none none none))
    SchemaMethod.disconnect schemaDesk) deskConnected)

/-- The copy of the one is loaded and has no schema, where the original has one; that
of the other is not loaded at all. -/
theorem pickled_copy_has_no_schema :
    raised (loadsDumps schemaDesk deskConnected) = false ∧
    raised ((SchemaMethod.getSchema schemaDesk 1 none).run deskConnected) = false ∧
    RaisesAttributeError ((SchemaMethod.getSchema schemaDesk 1 none).run
      (final (loadsDumps schemaDesk deskConnected))) ∧
    outcome (loadsDumps schemaDesk deskDisconnected) = .error (.runtimeError "not connected") := by
  refine ⟨by decide +kernel, by decide +kernel, ?_, ?_⟩
  · exact SchemaMethod.getSchema_unassigned rfl rfl rfl 1 none
  · rfl

end FreeIam.Ldap
