import FreeIam.Errors
import FreeIam.Lib.Exec
import FreeIam.Lib.Replay
import Mathlib.Data.List.Nodup

/-!
# TLS settings

`set_tls` sets the options of libldap for all connections one by one, and then has it make a
new TLS context of them. An option that is left out stays as it is, also if it was set by a
call that failed before it came to its context.
-/

namespace FreeIam.Ldap

open FreeIam.Py FreeIam.Errors FreeIam.Exec FreeIam.Replay

/-- `TLSOption`, as far as `set_tls` uses it. -/
inductive TLSOption
  | caCertfile | caCertdir | certfile | keyfile | protocolMin | cipherSuite
  | requireCert | requireSAN | crlFile | crlCheck
  | newContext
  deriving DecidableEq

/-- `TLSRequireCert` -/
inductive TLSRequireCert
  | never | allow | try_ | demand | hard
  deriving DecidableEq

/-- `TLSProtocol` -/
inductive TLSProtocol
  | ssl3 | tls10 | tls11 | tls12 | tls13
  deriving DecidableEq

/-- `TLSCRLCheck` -/
inductive TLSCRLCheck
  | none_ | peer | all
  deriving DecidableEq

/-- The value of a TLS option. -/
inductive TLSValue
  | text (text : PyStr)
  | requireCert (level : TLSRequireCert)
  | protocol (version : TLSProtocol)
  | crlCheck (check : TLSCRLCheck)
  | int (value : Int)
  deriving DecidableEq

/-- The arguments of `set_tls`. -/
structure TLSSettings where
  caCertfile : Option PyStr := none
  caCertdir : Option PyStr := none
  certfile : Option PyStr := none
  keyfile : Option PyStr := none
  requireCert : TLSRequireCert := .demand
  requireSan : Option TLSRequireCert := none
  minimumProtocol : Option TLSProtocol := none
  cipherSuite : Option PyStr := none
  crlfile : Option PyStr := none
  crlCheck : Option TLSCRLCheck := none

/-- The options with their values, in the order in which they are set. -/
def TLSSettings.items (call : TLSSettings) : List (TLSOption × Option TLSValue) :=
  [(.caCertfile, call.caCertfile.map .text), (.caCertdir, call.caCertdir.map .text),
   (.certfile, call.certfile.map .text), (.keyfile, call.keyfile.map .text),
   (.protocolMin, call.minimumProtocol.map .protocol), (.cipherSuite, call.cipherSuite.map .text),
   (.requireCert, some (.requireCert call.requireCert)), (.requireSAN, call.requireSan.map .requireCert),
   (.crlFile, call.crlfile.map .text), (.crlCheck, call.crlCheck.map .crlCheck)]

section

variable {ω : Type} (setGlobalOption : TLSOption → TLSValue → EStateM PyExc ω Unit)

/-- The loop of `set_tls`: `if value is not None: cls.set_global_option(option, value)` -/
def setItems (items : List (TLSOption × Option TLSValue)) : EStateM PyExc ω Unit :=
  items.forM fun item =>
    match item.2 with
    | none => pure ()
    | some value => setGlobalOption item.1 value

/-- `Connection.set_tls` -/
def setTls (call : TLSSettings) : EStateM PyExc ω Unit := do
  setItems setGlobalOption call.items
  setGlobalOption .newContext (.int 0)

theorem setItems_some (x : TLSOption) (v : TLSValue) (items : List (TLSOption × Option TLSValue)) :
    setItems setGlobalOption ((x, some v) :: items) =
      setGlobalOption x v >>= fun _ => setItems setGlobalOption items := rfl

/-- The state after a call, also one that has raised. -/
def setTlsStep (w : ω) (call : TLSSettings) : ω := final ((setTls setGlobalOption call).run w)

/-! ## What libldap does -/

/-- The settings and the TLS context of libldap: an option that is accepted is a setting, and
a new context is made of the settings at the time. What is refused changes nothing, save
that it is not said which context there is where a new one could not be made. -/
structure TLSLibrary where
  settings : ω → TLSOption → Option TLSValue
  context : ω → TLSOption → Option TLSValue
  sets : ∀ w w' x v, x ≠ .newContext → (setGlobalOption x v).run w = .ok () w' →
    settings w' = Function.update (settings w) x (some v) ∧ context w' = context w
  creates : ∀ w w' v, (setGlobalOption .newContext v).run w = .ok () w' →
    settings w' = settings w ∧ context w' = settings w
  refuses : ∀ w w' x v e, (setGlobalOption x v).run w = .error e w' →
    settings w' = settings w ∧ (x ≠ .newContext → context w' = context w)

/-- The items that are accepted, up to the first that is refused. -/
def acceptedItems (w : ω) : List (TLSOption × Option TLSValue) → List (TLSOption × Option TLSValue)
  | [] => []
  | (_, none) :: items => acceptedItems w items
  | (x, some v) :: items =>
    match (setGlobalOption x v).run w with
    | .ok () w' => (x, some v) :: acceptedItems w' items
    | .error _ _ => []

/-- All that the calls had accepted. -/
def acceptedCalls (w : ω) : List TLSSettings → List (TLSOption × Option TLSValue)
  | [] => []
  | call :: calls =>
    acceptedItems setGlobalOption w call.items ++ acceptedCalls (setTlsStep setGlobalOption w call) calls

/-- The call gets to its new context, which is made. -/
def Completes (w : ω) (call : TLSSettings) : Prop := raised ((setTls setGlobalOption call).run w) = false

/-- An option of the call is refused, so that it does not get to its new context. -/
def OptionRefused (w : ω) (call : TLSSettings) : Prop := raised ((setItems setGlobalOption call.items).run w) = true

end

namespace TLSLibrary

variable {ω : Type} {setGlobalOption : TLSOption → TLSValue → EStateM PyExc ω Unit}
  (library : TLSLibrary setGlobalOption)

/-- The options of a call are different, and none is `NewContext`. -/
theorem items_distinct (call : TLSSettings) : (call.items.map Prod.fst).Nodup := by
  show [TLSOption.caCertfile, .caCertdir, .certfile, .keyfile, .protocolMin, .cipherSuite, .requireCert,
    .requireSAN, .crlFile, .crlCheck].Nodup
  decide

theorem items_ne_newContext (call : TLSSettings) : ∀ item ∈ call.items, item.1 ≠ .newContext := by
  have hmem : TLSOption.newContext ∉ call.items.map Prod.fst := by
    show TLSOption.newContext ∉ [TLSOption.caCertfile, .caCertdir, .certfile, .keyfile, .protocolMin,
      .cipherSuite, .requireCert, .requireSAN, .crlFile, .crlCheck]
    decide
  exact fun item hitem heq => hmem (heq ▸ List.mem_map_of_mem hitem)

/-- The loop sets what is accepted, and leaves the context alone. -/
theorem setItems_run (items : List (TLSOption × Option TLSValue)) (hitems : ∀ item ∈ items, item.1 ≠ .newContext)
    (w : ω) :
    library.settings (final ((setItems setGlobalOption items).run w)) =
        replay (library.settings w) (acceptedItems setGlobalOption w items) ∧
      library.context (final ((setItems setGlobalOption items).run w)) = library.context w := by
  induction items generalizing w with
  | nil => exact ⟨rfl, rfl⟩
  | cons item items ih =>
    have hrest := fun item hitem => hitems item (List.mem_cons_of_mem _ hitem)
    obtain ⟨x, value⟩ := item
    cases value with
    | none => exact ih hrest w
    | some v =>
      have hx : x ≠ .newContext := hitems (x, some v) List.mem_cons_self
      rw [setItems_some, EStateM.run_bind, acceptedItems]
      cases hrun : (setGlobalOption x v).run w with
      | error e w' => exact ⟨(library.refuses _ _ _ _ _ hrun).1, (library.refuses _ _ _ _ _ hrun).2 hx⟩
      | ok u w' =>
        obtain ⟨hsettings, hcontext⟩ := library.sets _ _ _ _ hx hrun
        obtain ⟨ihsettings, ihcontext⟩ := ih hrest w'
        dsimp only
        rw [replay_cons, ← hsettings, ← hcontext]
        exact ⟨ihsettings, ihcontext⟩

/-- A loop that comes to its end has set all items that are given. -/
theorem acceptedItems_of_ok {items : List (TLSOption × Option TLSValue)} {w w' : ω}
    (h : (setItems setGlobalOption items).run w = .ok () w') :
    acceptedItems setGlobalOption w items = items.filter fun item => item.2.isSome := by
  induction items generalizing w with
  | nil => rfl
  | cons item items ih =>
    obtain ⟨x, value⟩ := item
    cases value with
    | none => exact ih h
    | some v =>
      rw [setItems_some, EStateM.run_bind] at h
      rw [acceptedItems, List.filter_cons_of_pos rfl]
      cases hrun : (setGlobalOption x v).run w with
      | error e w'' =>
        rw [hrun] at h
        cases h
      | ok u w'' =>
        rw [hrun] at h
        dsimp only
        rw [ih h]

/-- A call changes the settings by what it has accepted. -/
theorem settings_step (w : ω) (call : TLSSettings) :
    library.settings (setTlsStep setGlobalOption w call) =
      replay (library.settings w) (acceptedItems setGlobalOption w call.items) := by
  have hloop := (library.setItems_run call.items (items_ne_newContext call) w).1
  unfold setTlsStep setTls
  rw [EStateM.run_bind]
  cases hrun : (setItems setGlobalOption call.items).run w with
  | error e w' =>
    rw [hrun] at hloop
    exact hloop
  | ok u w' =>
    rw [hrun, final_ok] at hloop
    rw [← hloop]
    dsimp only
    cases hnew : (setGlobalOption .newContext (.int 0)).run w' with
    | ok u w'' => exact (library.creates _ _ _ hnew).1
    | error e w'' => exact (library.refuses _ _ _ _ _ hnew).1

theorem settings_after (w : ω) (calls : List TLSSettings) :
    library.settings (after (setTlsStep setGlobalOption) w calls) =
      replay (library.settings w) (acceptedCalls setGlobalOption w calls) := by
  induction calls generalizing w with
  | nil => rfl
  | cons call calls ih =>
    rw [acceptedCalls, replay_append, ← library.settings_step]
    exact ih _

/-- A call that completes makes a context of the settings with its items, all of which are set. -/
theorem context_step {w : ω} {call : TLSSettings} (h : Completes setGlobalOption w call) :
    library.context (setTlsStep setGlobalOption w call) =
      replay (library.settings w) (call.items.filter fun item => item.2.isSome) := by
  have hloop := (library.setItems_run call.items (items_ne_newContext call) w).1
  unfold Completes setTls at h
  unfold setTlsStep setTls
  rw [EStateM.run_bind] at h ⊢
  cases hrun : (setItems setGlobalOption call.items).run w with
  | error e w' =>
    rw [hrun] at h
    cases h
  | ok u w' =>
    rw [hrun] at h hloop
    rw [acceptedItems_of_ok hrun, final_ok] at hloop
    rw [← hloop]
    dsimp only at h ⊢
    cases hnew : (setGlobalOption .newContext (.int 0)).run w' with
    | ok u w'' => exact (library.creates _ _ _ hnew).2
    | error e w'' =>
      rw [hnew] at h
      cases h

/-- A call that is refused leaves the context alone. -/
theorem context_refused {w : ω} {call : TLSSettings} (h : OptionRefused setGlobalOption w call) :
    library.context (setTlsStep setGlobalOption w call) = library.context w := by
  have hloop := (library.setItems_run call.items (items_ne_newContext call) w).2
  unfold OptionRefused at h
  unfold setTlsStep setTls
  rw [EStateM.run_bind]
  cases hrun : (setItems setGlobalOption call.items).run w with
  | error e w' =>
    rw [hrun] at hloop
    exact hloop
  | ok u w' =>
    rw [hrun] at h
    cases h

end TLSLibrary

/-- The TLS context in use after any calls is that of the last one that completed: each option
it gives has its value there, so that a certificate is demanded unless it says otherwise; an
option it leaves out has the value that was last accepted in the calls before, whether these
completed or failed, and else the value it had before all of them. -/
theorem tls_context_in_use {ω : Type} {setGlobalOption : TLSOption → TLSValue → EStateM PyExc ω Unit}
    (library : TLSLibrary setGlobalOption) (w : ω) (earlier later : List TLSSettings) (call : TLSSettings)
    (hcompletes : Completes setGlobalOption (after (setTlsStep setGlobalOption) w earlier) call)
    (hlater : Along (setTlsStep setGlobalOption) (OptionRefused setGlobalOption)
      (setTlsStep setGlobalOption (after (setTlsStep setGlobalOption) w earlier) call) later) :
    let context := library.context (after (setTlsStep setGlobalOption) w (earlier ++ call :: later))
    context .requireCert = some (.requireCert call.requireCert) ∧
    (∀ x v, (x, some v) ∈ call.items → context x = some v) ∧
    ∀ x, (x, none) ∈ call.items →
      context x = (lastRecorded (acceptedCalls setGlobalOption w earlier) x).getD (library.settings w x) := by
  intro context
  have hcontext : context = replay (library.settings (after (setTlsStep setGlobalOption) w earlier))
      (call.items.filter fun item => item.2.isSome) := by
    show library.context (after (setTlsStep setGlobalOption) w (earlier ++ call :: later)) = _
    rw [← library.context_step hcompletes]
    unfold after
    rw [List.foldl_append, List.foldl_cons]
    exact after_induction (I := fun w' => library.context w' = library.context
      (setTlsStep setGlobalOption (after (setTlsStep setGlobalOption) w earlier) call))
      (fun w' call' heq hrefused => (library.context_refused hrefused).trans heq) rfl hlater
  have hgiven (x : TLSOption) (v : TLSValue) (hmem : (x, some v) ∈ call.items) : context x = some v := by
    have hdistinct : ((call.items.filter fun item => item.2.isSome).map Prod.fst).Nodup :=
      (TLSLibrary.items_distinct call).sublist (List.filter_sublist.map Prod.fst)
    rw [hcontext, replay_apply, lastRecorded_of_mem hdistinct (List.mem_filter.mpr ⟨hmem, rfl⟩)]
    rfl
  refine ⟨hgiven _ _ ?_, hgiven, fun x hmem => ?_⟩
  · simp [TLSSettings.items]
  · have hnone : lastRecorded (call.items.filter fun item => item.2.isSome) x = none := by
      refine lastRecorded_eq_none fun item hitem heq => ?_
      obtain ⟨hitem, hsome⟩ := List.mem_filter.mp hitem
      have hsame := List.inj_on_of_nodup_map (TLSLibrary.items_distinct call) hitem hmem heq
      rw [hsame] at hsome
      cases hsome
    rw [hcontext, replay_apply, hnone, Option.getD_none, library.settings_after, replay_apply]

/-- A library without checks of revocation lists: the settings and the context. -/
def withoutCrl (x : TLSOption) (v : TLSValue) :
    EStateM PyExc ((TLSOption → Option TLSValue) × (TLSOption → Option TLSValue)) Unit := fun w =>
  match x with
  | .newContext => .ok () (w.1, w.1)
  | .crlCheck => .error (.valueError "option error") w
  | x => .ok () (Function.update w.1 x (some v), w.2)

def withoutCrlLibrary : TLSLibrary withoutCrl where
  settings := Prod.fst
  context := Prod.snd
  sets := fun w w' x v hx h => by
    cases x with
    | newContext => exact absurd rfl hx
    | crlCheck => cases h
    | _ =>
      cases h
      exact ⟨rfl, rfl⟩
  creates := fun w w' v h => by
    cases h
    exact ⟨rfl, rfl⟩
  refuses := fun w w' x v e h => by
    cases x with
    | crlCheck =>
      cases h
      exact ⟨rfl, fun _ => rfl⟩
    | _ => cases h

/-- The certificate of a call that failed is in the context of the next one. -/
theorem tls_context_in_use_certfile :
    let context := (after (setTlsStep withoutCrl) (fun _ => none, fun _ => none)
      ([{ certfile := some (py "client.pem"), crlCheck := some .all }] ++
        { caCertfile := some (py "ca.pem") } :: [{ requireCert := .never, crlCheck := some .peer }])).2
    context .requireCert = some (.requireCert .demand) ∧ context .certfile = some (.text (py "client.pem")) := by
  have h := tls_context_in_use withoutCrlLibrary (fun _ => none, fun _ => none)
    [{ certfile := some (py "client.pem"), crlCheck := some .all }]
    [{ requireCert := .never, crlCheck := some .peer }] { caCertfile := some (py "ca.pem") } rfl ⟨rfl, trivial⟩
  refine ⟨h.1, (h.2.2 .certfile ?_).trans rfl⟩
  simp [TLSSettings.items]

end FreeIam.Ldap
