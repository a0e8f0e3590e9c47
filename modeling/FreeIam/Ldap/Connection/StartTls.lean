import FreeIam.Ldap.Connection.Simulation
import FreeIam.Ldap.Connection.Usage

/-!
# Requests and StartTLS

A connection that is made with `start_tls=True` sends no request before StartTLS
has succeeded, as long as its program does not go on with an LDAP object on which
`connect` or `start_tls` has not returned. It can: `connect` stores the object
before it starts TLS, and the synchronous connection of a `with` statement does
not start TLS at all.
-/

namespace FreeIam.Ldap

open FreeIam.Py FreeIam.Errors FreeIam.Exec FreeIam.Ldap.Method

variable {ω : Type} {env : Env ω} {net : Network ω}

/-! ## Secured links -/

/-- `start_tls_s` has succeeded on the object, and StartTLS on its session. -/
structure Covered (wire : List Wire) (l : Link) : Prop where
  startTls : l.startTls = true
  session : ∀ s, l.session = some s → .startTls s true ∈ wire

theorem Covered.mono {wire wire' : List Wire} {l : Link} (h : Covered wire l) (hwire : wire ⊆ wire') :
    Covered wire' l :=
  ⟨h.startTls, fun s hs => hwire (h.session s hs)⟩

/-- On a covered link every request is protected, whatever a synchronous method does. -/
theorem Moves.covered {l l' : Link} {wire wire' : List Wire} (h : Moves l wire l' wire')
    (hl : Covered wire l) (hp : Protected wire) :
    Covered wire' l' ∧ Protected wire' ∧ wire ⊆ wire' := by
  induction h with
  | done l wire => exact ⟨hl, hp, List.Subset.refl wire⟩
  | @request l l' wire wire' s hs _ ih =>
    -- the session has been secured before
    have hsub : wire ⊆ wire ++ [.request s] := List.subset_append_left _ _
    obtain ⟨hl', hp', hsub'⟩ := ih (hl.mono hsub) (hp.snoc fun s' hs' => by
      cases hs'
      exact hl.session s hs)
    exact ⟨hl', hp', List.Subset.trans hsub hsub'⟩
  | @failedTls l l' wire wire' s hs _ ih =>
    have hsub : wire ⊆ wire ++ [.startTls s false] := List.subset_append_left _ _
    obtain ⟨hl', hp', hsub'⟩ := ih (hl.mono hsub) (hp.snoc nofun)
    exact ⟨hl', hp', List.Subset.trans hsub hsub'⟩
  | @close l l' wire wire' s hs _ ih =>
    have hsub : wire ⊆ wire ++ [.closed s] := List.subset_append_left _ _
    obtain ⟨hl', hp', hsub'⟩ := ih ⟨hl.startTls, nofun⟩
      (hp.snoc nofun)
    exact ⟨hl', hp', List.Subset.trans hsub hsub'⟩
  | plain s hr hnone hplain _ ih =>
    -- a covered link goes on with no session in plain text
    rw [hl.startTls] at hplain
    cases hplain
  | @secured l l' wire wire' s hr hnone htls _ ih =>
    have hsub : wire ⊆ wire ++ [.opened s] ++ [.startTls s true] := by
      rw [List.append_assoc]
      exact List.subset_append_left _ _
    -- to open a session is no request, and StartTLS follows at once
    have hopened : Protected (wire ++ [.opened s]) := hp.snoc nofun
    obtain ⟨hl', hp', hsub'⟩ := ih
      ⟨htls, fun s' hs' => by
        cases hs'
        exact List.mem_append_right _ (List.mem_singleton.mpr rfl)⟩
      (hopened.snoc nofun)
    exact ⟨hl', hp', List.Subset.trans hsub hsub'⟩
  | @refused l l' wire wire' s hr hnone htls _ ih =>
    have hsub : wire ⊆ wire ++ [.opened s] ++ [.startTls s false] ++ [.closed s] := by
      rw [List.append_assoc, List.append_assoc]
      exact List.subset_append_left _ _
    have hopened : Protected (wire ++ [.opened s]) := hp.snoc nofun
    have hrefused : Protected (wire ++ [.opened s] ++ [.startTls s false]) := hopened.snoc nofun
    obtain ⟨hl', hp', hsub'⟩ := ih (hl.mono hsub) (hrefused.snoc nofun)
    exact ⟨hl', hp', List.Subset.trans hsub hsub'⟩

/-- The wire is protected, and so are the links of the objects in `secured`. -/
structure Guarded (net : Network ω) (secured : List Obj) (w : ω) : Prop where
  wire : Protected (net.wire w)
  links : ∀ o ∈ secured, ∃ l, net.links w o = some l ∧ Covered (net.wire w) l

namespace Guarded

variable {secured : List Obj} {w w' : ω} {o : Obj}

theorem subset {secured' : List Obj} (h : Guarded net secured w) (hsub : secured' ⊆ secured) :
    Guarded net secured' w :=
  ⟨h.wire, fun o ho => h.links o (hsub ho)⟩

theorem same (h : Guarded net secured w) (hsame : net.Same w w') : Guarded net secured w' := by
  refine ⟨?_, fun o ho => ?_⟩
  · rw [hsame.wire]
    exact h.wire
  · rw [hsame.wire, hsame.links]
    exact h.links o ho

theorem sent (h : Guarded net secured w) (ho : o ∈ secured) (hsent : net.Sent o w w') :
    Guarded net secured w' := by
  obtain ⟨s, hsession, hwire⟩ := hsent.wire
  obtain ⟨l, hl, hcovered⟩ := h.links o ho
  refine ⟨?_, fun o' ho' => ?_⟩
  · rw [hwire]
    refine h.wire.snoc fun s' hs' => ?_
    cases hs'
    rw [Network.session, hl] at hsession
    exact hcovered.session s hsession
  · obtain ⟨l', hl', hcovered'⟩ := h.links o' ho'
    rw [hwire, hsent.links]
    exact ⟨l', hl', hcovered'.mono (List.subset_append_left _ _)⟩

/-- What happens on the link of one object, where that keeps covered links covered. -/
theorem on {R : Link → List Wire → Link → List Wire → Prop} (h : Guarded net secured w)
    (hon : net.On o R w w')
    (hR : ∀ l l', net.links w o = some l → R l (net.wire w) l' (net.wire w') →
      Protected (net.wire w') ∧ net.wire w ⊆ net.wire w' ∧
        (o ∈ secured → Covered (net.wire w) l → Covered (net.wire w') l')) :
    Guarded net secured w' := by
  cases hlink : net.links w o with
  | none =>
    obtain ⟨hnone, hwire⟩ := hon.missing hlink
    refine h.same ⟨funext fun o' => ?_, hwire⟩
    by_cases heq : o' = o
    · rw [heq, hnone, hlink]
    · exact hon.others o' heq
  | some l =>
    obtain ⟨l', hl', hstep⟩ := hon.link l hlink
    obtain ⟨hp, hsub, hkeep⟩ := hR l l' hlink hstep
    refine ⟨hp, fun o' ho' => ?_⟩
    obtain ⟨l₀, hl₀, hcovered⟩ := h.links o' ho'
    by_cases heq : o' = o
    · subst heq
      obtain rfl : l₀ = l := Option.some.inj (hl₀.symm.trans hlink)
      exact ⟨l', hl', hkeep ho' hcovered⟩
    · rw [hon.others o' heq]
      exact ⟨l₀, hl₀, hcovered.mono hsub⟩

theorem moves (h : Guarded net secured w) (ho : o ∈ secured) (hon : net.On o Moves w w') :
    Guarded net secured w' := by
  refine h.on hon fun l l' hlink hmoves => ?_
  obtain ⟨l₀, hl₀, hcovered⟩ := h.links o ho
  obtain rfl : l₀ = l := Option.some.inj (hl₀.symm.trans hlink)
  obtain ⟨hcovered', hp, hsub⟩ := hmoves.covered hcovered h.wire
  exact ⟨hp, hsub, fun _ _ => hcovered'⟩

theorem secures (h : Guarded net secured w) (ho : o ∈ secured) (hon : net.On o Secures w w') :
    Guarded net secured w' := by
  refine h.on hon fun l l' hlink hsecures => ?_
  obtain ⟨l₀, hl₀, hcovered⟩ := h.links o ho
  obtain rfl : l₀ = l := Option.some.inj (hl₀.symm.trans hlink)
  obtain ⟨l₁, wire₁, s, hmoves, hs, rfl, hwire⟩ := hsecures
  obtain ⟨hcovered', hp, hsub⟩ := hmoves.covered hcovered h.wire
  rw [hwire]
  refine ⟨hp.snoc nofun, List.Subset.trans hsub (List.subset_append_left _ _), fun _ _ => ?_⟩
  exact ⟨rfl, fun s' hs' => List.mem_append_left _ (hcovered'.session s' hs')⟩

/-- Closing a session sends no request, on whatever object. -/
theorem closes (h : Guarded net secured w) (hon : net.On o Closes w w') : Guarded net secured w' := by
  refine h.on hon fun l l' hlink hcloses => ?_
  obtain ⟨rfl, hwire | ⟨s, hs, hwire⟩⟩ := hcloses
  · rw [hwire]
    exact ⟨h.wire, List.Subset.refl _, fun _ hcovered => ⟨hcovered.startTls, nofun⟩⟩
  · rw [hwire]
    exact ⟨h.wire.snoc nofun, List.subset_append_left _ _,
      fun _ hcovered => ⟨hcovered.startTls, nofun⟩⟩

theorem made {reconnecting : Bool} (h : Guarded net secured w) (hmade : net.Made o reconnecting w w') :
    Guarded net secured w' := by
  obtain ⟨s, hlink, hwire⟩ := hmade.link
  refine ⟨?_, fun o' ho' => ?_⟩
  · rw [hwire]
    exact h.wire.snoc nofun
  · obtain ⟨l, hl, hcovered⟩ := h.links o' ho'
    -- a new object is none of the secured ones
    have hne : o' ≠ o := by
      rintro rfl
      rw [hmade.fresh] at hl
      cases hl
    rw [hmade.others o' hne, hwire]
    exact ⟨l, hl, hcovered.mono (List.subset_append_left _ _)⟩

end Guarded

/-! ## What the methods keep -/

/-- The world is guarded; the object of the connection is secured, and so is what
a method holds. -/
structure SecuredBy (net : Network ω) (secured : List Obj) (attempts : Nat) (held : Holding)
    (s : State ω) : Prop where
  world : Guarded net secured s.world
  conn : ∀ o, s.self.conn = some o → o ∈ secured
  attempts : s.self.maxConnectionAttempts = attempts
  held : match held with
    | .nothing => True
    | .object o => o ∈ secured
    | .message o _ => o ∈ secured

section Keeping

variable {secured : List Obj} {attempts : Nat}

theorem SecuredBy.withWorld {held : Holding} {s : State ω} (h : SecuredBy net secured attempts held s)
    {w : ω} (hw : Guarded net secured w) (calls : List (Call ω)) :
    SecuredBy net secured attempts held { s with world := w, calls := calls } :=
  ⟨hw, h.conn, h.attempts, h.held⟩

/-- Calls that change nothing on the network keep what depends on it alone. -/
theorem guarded_calm (hdoc : Documented env net) :
    Calm env fun s => Guarded net secured s.world where
  startTls := fun _ _ hs => hs
  loop := onWorld_rule fun _ hs => hs.same (hdoc.getRunningLoop _)
  setOption := fun o x v => onWorld_rule fun _ hs => hs.1.same (hdoc.setOption o x v _)
  getOption := fun o x => onWorld_rule fun _ hs => hs.1.same (hdoc.getOption o x _)

theorem securedBy_calm (hdoc : Documented env net) (held : Holding) :
    Calm env (SecuredBy net secured attempts held) where
  startTls := fun _ _ hs => ⟨hs.world, hs.conn, hs.attempts, hs.held⟩
  loop := onWorld_rule fun s hs => hs.withWorld (hs.world.same (hdoc.getRunningLoop _)) s.calls
  setOption := fun o x v => onWorld_rule fun s hs =>
    hs.1.withWorld (hs.1.world.same (hdoc.setOption o x v _)) s.calls
  getOption := fun o x => onWorld_rule fun s hs =>
    hs.1.withWorld (hs.1.world.same (hdoc.getOption o x _)) s.calls

theorem securedBy_synchronous (hdoc : Documented env net) (held : Holding) :
    Synchronous env (SecuredBy net secured attempts held) where
  toCalm := securedBy_calm hdoc held
  reconnect := fun o uri n force => onWorld_rule fun s hs =>
    hs.1.withWorld (hs.1.world.moves (hs.1.conn o hs.2) (hdoc.reconnect o uri n force _)) s.calls
  simpleBindS := fun o bind => onWorld_rule fun s hs =>
    hs.1.withWorld (hs.1.world.moves (hs.1.conn o hs.2) (hdoc.simpleBindS o bind _)) s.calls
  saslInteractiveBindS := fun o mechanism => onWorld_rule fun s hs =>
    hs.1.withWorld (hs.1.world.moves (hs.1.conn o hs.2) (hdoc.saslInteractiveBindS o mechanism _)) s.calls
  whoamiS := fun o controls => onWorld_rule fun s hs =>
    hs.1.withWorld (hs.1.world.moves (hs.1.conn o hs.2) (hdoc.whoamiS o controls _)) s.calls
  startTlsS := fun o => onWorld_rule fun s hs => by
    refine hs.1.withWorld ?_ s.calls
    have hstart := hdoc.startTlsS o s.world
    cases hrun : (env.startTlsS o).run s.world with
    | ok u w =>
      rw [hrun] at hstart
      exact hs.1.world.secures (hs.1.conn o hs.2) hstart.2
    | error e w =>
      rw [hrun] at hstart
      exact hs.1.world.moves (hs.1.conn o hs.2) hstart

/-- The world after a request: on a secured object, or one that unbinds. -/
theorem Guarded.request (hdoc : Documented env net) {o : Obj} (op : Operation) {w : ω}
    (h : Guarded net secured w) (ho : o ∈ secured ∨ op.request = .unbindExt) :
    Guarded net secured (final ((env.request o op).run w)) := by
  by_cases hop : op.request = .unbindExt
  · have hunbind := hdoc.unbind o op w hop
    cases hrun : (env.request o op).run w with
    | ok msgid w' =>
      rw [hrun] at hunbind
      exact h.closes hunbind.2
    | error e w' =>
      rw [hrun] at hunbind
      exact h.closes hunbind.2
  · have ho := ho.resolve_right hop
    have hrequest := hdoc.request o op w hop
    cases hrun : (env.request o op).run w with
    | ok msgid w' =>
      rw [hrun] at hrequest
      exact h.sent ho hrequest
    | error e w' =>
      rw [hrun] at hrequest
      exact hrequest.elim (fun hsame => h.same hsame) fun hsent => h.sent ho hsent

theorem securedBy_discipline (hdoc : Documented env net) :
    Discipline env (SecuredBy net secured attempts) (SecuredBy net secured attempts) where
  calm := securedBy_calm hdoc
  reconnecting := fun held => (securedBy_synchronous hdoc held).toReconnecting
  keep := fun _ _ hs => hs
  attempts := ⟨attempts, fun _ _ hs => hs.attempts⟩
  object := fun _ o s hs hc => ⟨hs.world, hs.conn, hs.attempts, hs.conn o hc⟩
  release := fun _ s hs => ⟨hs.world, hs.conn, hs.attempts, trivial⟩
  answered := fun _ _ s hs => ⟨hs.world, hs.conn, hs.attempts, hs.held⟩
  readable := fun o _ timeout => onWorld_rule fun s hs =>
    hs.withWorld (hs.world.same (hdoc.readable o timeout _)) s.calls
  request := fun o op => by
    refine request_rule (fun s msgid w hs hrun => ?_) fun s e w hs hrun => ?_
    · have hw := hs.world.request hdoc op (Or.inl hs.held)
      rw [hrun] at hw
      cases msgid with
      | none => exact hs.withWorld hw _
      | some number => exact ⟨hw, hs.conn, hs.attempts, hs.held⟩
    · have hw := hs.world.request hdoc op (Or.inl hs.held)
      rw [hrun] at hw
      exact ⟨hs.withWorld hw _, fun _ _ => hs.withWorld hw _⟩
  result := fun o msgid all timeout => by
    refine getResult_rule (fun s r w hs hrun => ?_) fun s e w hs hrun => ?_
    · have hresult := hdoc.result4 o msgid.number all timeout s.world
      rw [hrun] at hresult
      exact hs.withWorld (hs.world.same hresult.1) _
    · have hresult := hdoc.result4 o msgid.number all timeout s.world
      rw [hrun] at hresult
      exact ⟨hs.withWorld (hs.world.same hresult) _, fun _ _ => hs.withWorld (hs.world.same hresult) _⟩

/-! ## Connecting -/

/-- StartTLS on an object: either it is secured already, or its connection holds. -/
theorem Guarded.startTls (hdoc : Documented env net) {o : Obj} {w : ω} (h : Guarded net secured w)
    (hholds : o ∉ secured → ¬net.breaks w o) :
    match (env.startTlsS o).run w with
    | .ok _ w' => Guarded net (o :: secured) w'
    | .error _ w' => Guarded net secured w' := by
  have hstart := hdoc.startTlsS o w
  by_cases ho : o ∈ secured
  -- the object is secured already
  · cases hrun : (env.startTlsS o).run w with
    | ok u w' =>
      rw [hrun] at hstart
      have hguarded := h.secures ho hstart.2
      refine ⟨hguarded.wire, fun o' ho' => ?_⟩
      rcases List.mem_cons.mp ho' with rfl | ho'
      · exact hguarded.links o' ho
      · exact hguarded.links o' ho'
    | error e w' =>
      rw [hrun] at hstart
      exact h.moves ho hstart
  -- the connection holds, so what is secured is the session that is there
  · have hquiet := hdoc.startTlsS_holds o w (hholds ho)
    have hguarded : Guarded net secured (final ((env.startTlsS o).run w)) := by
      refine h.on hquiet fun l l' hlink hstep => ?_
      obtain ⟨-, -, hwire | ⟨s, success, hwire⟩⟩ := hstep
      · rw [hwire]
        exact ⟨h.wire, List.Subset.refl _, fun hmem => absurd hmem ho⟩
      · rw [hwire]
        exact ⟨h.wire.snoc nofun, List.subset_append_left _ _, fun hmem => absurd hmem ho⟩
    cases hrun : (env.startTlsS o).run w with
    | ok u w' =>
      rw [hrun] at hstart hguarded
      obtain ⟨hsome, hsecures⟩ := hstart
      refine ⟨hguarded.wire, fun o' ho' => ?_⟩
      rcases List.mem_cons.mp ho' with rfl | ho'
      · obtain ⟨l, hl⟩ := Option.ne_none_iff_exists'.mp hsome
        obtain ⟨l', hl', l₁, wire₁, s, -, hs, rfl, hwire⟩ := hsecures.link l hl
        refine ⟨_, hl', rfl, fun s' hs' => ?_⟩
        obtain rfl : s = s' := Option.some.inj (hs.symm.trans hs')
        rw [hwire]
        exact List.mem_append_right _ (List.mem_singleton.mpr rfl)
      · exact hguarded.links o' ho'
    | error e w' =>
      rw [hrun] at hguarded
      exact hguarded

/-- `start_tls` on any object of the connection. -/
theorem startTls_guarded (hdoc : Documented env net) {s₀ : State ω}
    (h : Guarded net secured s₀.world)
    (hholds : ∀ o, s₀.self.conn = some o → o ∉ secured → ¬net.breaks s₀.world o) :
    Spec (fun s => s = s₀) (startTls env)
      (fun _ s => Guarded net (s.self.conn.toList ++ secured) s.world)
      (fun _ s => Guarded net secured s.world) := by
  unfold startTls
  refine Spec.bind (Q := fun _ s => s.world = s₀.world ∧ s.self.conn = s₀.self.conn)
    (Spec.modify ?_) fun _ => ?_
  · rintro s rfl
    exact ⟨rfl, rfl⟩
  refine wrap_rule ?_ fun _ _ hs => hs
  refine Spec.bind (Q := fun o s => s.world = s₀.world ∧ s.self.conn = some o ∧ s₀.self.conn = some o)
    (conn_rule ?_ ?_) fun o => ?_
  · rintro o s ⟨hw, hconn⟩ hc
    exact ⟨hw, hc, hconn ▸ hc⟩
  · rintro s ⟨hw, -⟩ -
    rw [hw]
    exact h
  refine onWorld_spec ?_
  rintro s ⟨hw, hc, hc₀⟩
  have hstart := Guarded.startTls hdoc h (hholds o hc₀)
  rw [hw]
  cases hrun : (env.startTlsS o).run s₀.world with
  | ok u w =>
    rw [hrun] at hstart
    show Guarded net (s.self.conn.toList ++ secured) w
    rw [hc]
    exact hstart
  | error e w =>
    rw [hrun] at hstart
    exact hstart

/-- The constructor makes a new object. -/
theorem newLdapObject_guarded (hdoc : Documented env net) {s₀ : State ω} (fileno : Option Int)
    (h : Guarded net secured s₀.world) :
    Spec (fun s => s = s₀) (newLdapObject env s₀.self fileno)
      (fun _ s => s.self = s₀.self ∧ Guarded net secured s.world)
      (fun _ s => Guarded net secured s.world) :=
  newLdapObject_rule hdoc fileno (fun _ _ hmade => ⟨rfl, h.made hmade⟩) fun _ _ hsame => h.same hsame

/-- `connect` stores a new object, and starts TLS on it where it has to. -/
theorem connect_guarded (hdoc : Documented env net) {s₀ : State ω} (fileno : Option Int)
    (h : Guarded net secured s₀.world)
    (hholds : s₀.self.startTls = true → ∀ o s, (newLdapObject env s₀.self fileno).run s₀ = .ok o s →
      ¬net.breaks s.world o) :
    Spec (fun s => s = s₀) (connect env fileno)
      (fun _ s => Guarded net ((if s.self.startTls then s.self.conn.toList else []) ++ secured) s.world)
      (fun _ s => Guarded net secured s.world) := by
  unfold connect
  refine Spec.bind (Q := fun s₁ s => s₁ = s₀ ∧ s = s₀) (Spec.get fun s hs => ⟨hs, hs⟩) fun s₁ => ?_
  refine Spec.bind (Q := fun _ s => s = s₀)
    (Spec.onlyIf (fun _ => Spec.throw ?_) fun _ s hs => hs.2) fun _ => ?_
  · rintro s ⟨-, rfl⟩
    exact h
  refine Spec.bind (Q := fun s₂ s => s₂ = s₀ ∧ s = s₀) (Spec.get fun s hs => ⟨hs, hs⟩) fun s₂ => ?_
  -- the run of the constructor is named, for the condition on the new object
  refine Spec.bind (Q := fun o s => (newLdapObject env s₀.self fileno).run s₀ = .ok o s ∧
    s.self = s₀.self ∧ Guarded net secured s.world) ?_ fun o => ?_
  · rintro s ⟨rfl, rfl⟩
    have hnew := newLdapObject_guarded hdoc fileno h s rfl
    cases hrun : (newLdapObject env s.self fileno).run s with
    | ok o s' =>
      rw [hrun] at hnew
      exact ⟨rfl, hnew⟩
    | error e s' =>
      rw [hrun] at hnew
      exact hnew
  refine Spec.bind (Q := fun _ s => Guarded net secured s.world ∧ s.self.conn = some o ∧
    s.self.startTls = s₀.self.startTls ∧ (s₀.self.startTls = true → ¬net.breaks s.world o))
    (Spec.modify ?_) fun _ => ?_
  · rintro s ⟨hrun, hself, hguarded⟩
    exact ⟨hguarded, rfl, by rw [hself], fun htls => hholds htls o s hrun⟩
  refine Spec.bind (Q := fun s₃ s => s₃ = s ∧ Guarded net secured s.world ∧ s.self.conn = some o ∧
    s.self.startTls = s₀.self.startTls ∧ (s₀.self.startTls = true → ¬net.breaks s.world o))
    (Spec.get fun s hs => ⟨rfl, hs⟩) fun s₃ => ?_
  refine Spec.onlyIf (fun htls => ?_) fun htls => ?_
  · refine Spec.of_forall ?_
    rintro s ⟨rfl, hguarded, hc, hsame, hbreaks⟩
    have hstart := startTls_guarded hdoc hguarded (fun o' hc' _ => by
      rw [hc] at hc'
      cases hc'
      exact hbreaks (hsame ▸ htls))
    refine Spec.conseq hstart (fun _ hs => hs) (fun _ s hs => hs.subset ?_) fun _ _ hs => hs
    by_cases htls' : s.self.startTls = true
    · rw [if_pos htls']
      exact List.Subset.refl _
    · rw [if_neg htls']
      exact List.subset_append_right _ _
  · rintro s ⟨rfl, hguarded, hc, -⟩
    rw [if_neg htls]
    exact hguarded

/-- Disconnecting. -/
theorem disconnect_guarded (hdoc : Documented env net) :
    Keeps (fun s => Guarded net secured s.world) (disconnect env) := by
  unfold disconnect
  refine Keeps.bind Keeps.get fun s => ?_
  refine Keeps.bind (Keeps.onlyIf (guarded_calm hdoc).removeReader_keeps) fun _ => ?_
  exact Keeps.modify fun s hs => hs

/-- Unbinding sends no request and does not reconnect, on whatever object. -/
theorem unbind_guarded (hdoc : Documented env net) (polls : Nat) (controls : Option Controls) :
    Keeps (fun s => Guarded net secured s.world) (unbind env polls controls) := by
  have hretry : ∀ o, Spec (fun s => Guarded net secured s.world)
      (retry env (Method.request env o (Request.unbindExt.with controls)))
      (fun msgid s => msgid = none ∧ Guarded net secured s.world)
      (fun _ s => Guarded net secured s.world) := by
    intro o
    -- an error of unbinding is no lost connection
    refine Spec.conseq (retry_rule (L := fun _ => False)
      (E := fun e s => e.lost = false ∧ Guarded net secured s.world) ?_ (fun _ hs => hs.elim) ?_ ?_)
      (fun _ hs => hs) (fun _ _ hs => hs) fun _ _ hs => hs.2
    · refine request_rule (fun s msgid w hs hrun => ?_) fun s e w hs hrun => ?_
      · have hw := Guarded.request hdoc (o := o) (Request.unbindExt.with controls) hs (Or.inr rfl)
        have hunbind := hdoc.unbind o (Request.unbindExt.with controls) s.world rfl
        rw [hrun] at hw hunbind
        exact ⟨by rw [hunbind.1]; rfl, hw⟩
      · have hw := Guarded.request hdoc (o := o) (Request.unbindExt.with controls) hs (Or.inr rfl)
        have hunbind := hdoc.unbind o (Request.unbindExt.with controls) s.world rfl
        rw [hrun] at hw hunbind
        obtain ⟨⟨message, rfl⟩, -⟩ := hunbind
        exact ⟨rfl, hw⟩
    · intro s₀ e s _ _ hlost hs
      rw [hs.1] at hlost
      cases hlost
    · exact fun s hs => ⟨rfl, hs⟩
  have hexecute : ∀ o, Keeps (fun s => Guarded net secured s.world)
      (execute env polls o (Request.unbindExt.with controls)) := by
    intro o
    refine execute_rule (S := fun _ _ => False) (R := fun _ _ _ => False) ?_
      (fun _ _ hs => hs.elim) (fun _ _ _ hs => hs.elim) fun _ _ _ hs => hs.elim
    refine Spec.conseq (hretry o) (fun _ hs => hs) (fun msgid s hs => ?_) fun _ _ hs => hs
    obtain ⟨rfl, hs⟩ := hs
    exact hs
  unfold unbind
  refine Keeps.bind (Keeps.modify fun s hs => hs) fun _ => Keeps.bind Keeps.get fun s => ?_
  cases s.self.conn with
  | none => exact Keeps.pure _
  | some o =>
    refine Keeps.bind (Keeps.tryCatch (Keeps.map (hexecute o)) fun e => ?_) fun response => ?_
    · exact Keeps.ite (Keeps.pure _) (Keeps.throw _)
    · cases response with
      | none => exact Keeps.pure _
      | some response => exact Keeps.map (ofExcept_keeps _)

end Keeping

/-! ## Programs -/

/-- A synchronous connection that its owner has dropped while the program still has it,
with its generators. -/
structure LeftBehind where
  slots : Slots
  iters : List SearchIter

/-- A program with a connection, the synchronous connection of its `with` statement,
those left behind and the generators of all of them. With it, the objects on which
StartTLS has been completed, as the program knows from the calls that have returned. -/
structure Program (ω : Type) where
  running : Running ω
  entered : Bool
  syncIters : List SearchIter
  left : List LeftBehind
  secured : List Obj

/-- What a program does next: call a method of its connection, enter or exit one
of the context managers, call a method of the synchronous connection, or of one that
has been left behind. -/
inductive Action
  | self (use : Use)
  | aenter
  | aexit
  | enter
  | exit
  | sync (use : Use)
  | left (i : Nat) (use : Use)

variable (env) (net) (polls : Nat)

/-- The object on which a call has completed StartTLS: `connect`, where it starts
TLS, or `start_tls`, and only if it has returned. -/
def Use.secures (use : Use) (before : State ω) : List Obj :=
  match use, (use.method env polls).run before with
  | .connect _, .ok _ after => if after.self.startTls then after.self.conn.toList else []
  | .startTls, .ok _ after => after.self.conn.toList
  | _, _ => []

namespace Program

/-- A synchronous connection, as a running program of its own. -/
def within (p : Program ω) (l : LeftBehind) : Running ω where
  state := { p.running.state with self := { toSlots := l.slots, connS := none } }
  iters := l.iters

/-- The synchronous connection inside. -/
def inside (p : Program ω) : Running ω := p.within ⟨syncConnection p.running.state.self, p.syncIters⟩

/-- The program with its connection in another state. Where the connection has dropped
the synchronous one, that of the `with` statement is left behind. -/
def moveTo (p : Program ω) (inner : Slots) (running : Running ω) : Program ω :=
  if p.entered && running.state.self.connS.isNone then
    { p with running := running, entered := false, syncIters := []
             left := p.left ++ [⟨inner, p.syncIters⟩] }
  else { p with running := running }

/-- A call of a method of the connection. -/
def callSelf (p : Program ω) (use : Use) : Program ω :=
  { p with secured := use.secures env polls p.running.state ++ p.secured }.moveTo
    (syncConnection p.running.state.self) (p.running.step env polls use)

/-- A call of a method of the synchronous connection. -/
def callSync (p : Program ω) (use : Use) : Program ω :=
  { p with
    running :=
      { state := { (p.inside.step env polls use).state with
          self := { p.running.state.self with
            connS := some (p.inside.step env polls use).state.self.toSlots } }
        iters := p.running.iters }
    syncIters := (p.inside.step env polls use).iters
    secured := use.secures env polls p.inside.state ++ p.secured }

/-- A call of a method of a synchronous connection that has been left behind. -/
def callLeft (p : Program ω) (i : Nat) (l : LeftBehind) (use : Use) : Program ω :=
  { p with
    running :=
      { state := { ((p.within l).step env polls use).state with self := p.running.state.self }
        iters := p.running.iters }
    left := p.left.set i
      ⟨((p.within l).step env polls use).state.self.toSlots, ((p.within l).step env polls use).iters⟩
    secured := use.secures env polls (p.within l).state ++ p.secured }

/-- The state after a context manager has been left. -/
def leave (p : Program ω) (inner : Slots) (after : State ω) : Program ω :=
  p.moveTo inner { p.running with state := after }

/-- The program after an action. A `with` statement whose entry raises has no body. -/
def step (p : Program ω) : Action → Program ω
  | .self use => p.callSelf env polls use
  | .aenter => p.callSelf env polls (.connect none)
  | .aexit =>
    p.leave (syncConnection p.running.state.self) (final ((Method.aexit env polls).run p.running.state))
  | .enter =>
    { p.callSync env polls (.connect none) with
      entered := p.entered || !raised ((Method.enter env).run p.running.state) }
  | .exit =>
    p.leave (syncConnection (final ((onSyncConnection (Method.aexit env polls)).run p.running.state)).self)
      (final ((Method.exit env polls).run p.running.state))
  | .sync use => if p.entered then p.callSync env polls use else p
  | .left i use =>
    match p.left[i]? with
    | none => p
    | some l => p.callLeft env polls i l use

end Program

/-! ## The condition -/

/-- The calls that may send a request. -/
def Use.sends : Use → Bool
  | .connect _ | .disconnect | .startTls | .setOption _ _ _ | .getOption _ | .unbind _
  | .searchIter _ => false
  | _ => true

/-- A call is allowed on a connection whose object is secured, or if it sends
nothing; closing a generator of an asynchronous connection sends on the
synchronous one. Where a call starts TLS on an object that is not secured, the
connection is not lost meanwhile. -/
structure Use.Allowed (use : Use) (secured : List Obj) (s : State ω) : Prop where
  sends : use.sends = true → ∀ o, s.self.conn = some o → o ∈ secured
  close : ∀ i, use = .close i → s.self.asynchronous = true →
    ∀ o, (syncConnection s.self).conn = some o → o ∈ secured
  connect : ∀ fileno, use = .connect fileno → s.self.startTls = true → ∀ o s',
    (newLdapObject env s.self fileno).run s = .ok o s' → ¬net.breaks s'.world o
  startTls : use = .startTls → ∀ o, s.self.conn = some o → o ∉ secured → ¬net.breaks s.world o

/-- A program is careful if it makes only calls that are allowed. -/
def Careful (p : Program ω) : Action → Prop
  | .self use => use.Allowed env net p.secured p.running.state
  | .aenter => (Use.connect none).Allowed env net p.secured p.running.state
  | .enter => (Use.connect none).Allowed env net p.secured p.inside.state
  | .sync use => p.entered = true → use.Allowed env net p.secured p.inside.state
  | .left i use => ∀ l, p.left[i]? = some l → use.Allowed env net p.secured (p.within l).state
  | .aexit => True
  | .exit => True

/-! ## Careful programs -/

section Run

variable {env net polls} {secured : List Obj}

/-- A generator holds a secured object only. -/
def HoldsSecured (secured : List Obj) (iter : SearchIter) : Prop :=
  match Discipline.held iter with
  | .nothing => True
  | .object o => o ∈ secured
  | .message o _ => o ∈ secured

/-- What a program keeps: the world is guarded, and its generators hold secured objects. -/
structure Program.Safe (net : Network ω) (p : Program ω) : Prop where
  world : Guarded net p.secured p.running.state.world
  iters : ∀ iter ∈ p.running.iters, HoldsSecured p.secured iter
  syncIters : ∀ iter ∈ p.syncIters, HoldsSecured p.secured iter
  left : ∀ l ∈ p.left, ∀ iter ∈ l.iters, HoldsSecured p.secured iter

theorem Use.Allowed.securedBy {use : Use} {s : State ω} (h : use.Allowed env net secured s)
    (hsends : use.sends = true) (hw : Guarded net secured s.world) :
    SecuredBy net secured s.self.maxConnectionAttempts .nothing s :=
  ⟨hw, h.sends hsends, rfl, trivial⟩

/-- Only the calls that start TLS complete it. -/
theorem Use.secures_nil {use : Use} (hconnect : ∀ fileno, use ≠ .connect fileno)
    (hstartTls : use ≠ .startTls) (s : State ω) : use.secures env polls s = [] := by
  cases use with
  | connect fileno => exact absurd rfl (hconnect fileno)
  | startTls => exact absurd rfl hstartTls
  | _ => unfold Use.secures; split <;> simp_all

/-- A call of a method other than those on generators. -/
theorem method_guarded (hdoc : Documented env net) {use : Use} {s : State ω}
    (hallowed : use.Allowed env net secured s) (hw : Guarded net secured s.world) :
    Guarded net (use.secures env polls s ++ secured) (final ((use.method env polls).run s)).world := by
  have hdiscipline : Discipline env (SecuredBy net secured s.self.maxConnectionAttempts)
    (SecuredBy net secured s.self.maxConnectionAttempts) := securedBy_discipline hdoc
  have hsynchronous : Synchronous env (SecuredBy net secured s.self.maxConnectionAttempts .nothing) :=
    securedBy_synchronous hdoc .nothing
  cases use with
  | connect fileno =>
    have hconnect := connect_guarded hdoc fileno hw (hallowed.connect fileno rfl)
    unfold Use.secures
    cases hrun : ((Use.connect fileno).method env polls).run s with
    | ok u s' => exact hconnect.ok rfl hrun
    | error e s' => exact hconnect.error rfl hrun
  | startTls =>
    have hstart := startTls_guarded hdoc hw (hallowed.startTls rfl)
    unfold Use.secures
    cases hrun : (Use.startTls.method env polls).run s with
    | ok u s' => exact hstart.ok rfl hrun
    | error e s' => exact hstart.error rfl hrun
  | disconnect =>
    rw [Use.secures_nil (by simp) (by simp)]
    exact (disconnect_guarded hdoc).final hw
  | unbind controls =>
    rw [Use.secures_nil (by simp) (by simp)]
    exact (Keeps.discard (unbind_guarded hdoc polls controls)).final hw
  | setOption _ _ _ | getOption _ =>
    rw [Use.secures_nil (by simp) (by simp)]
    exact (Use.option_keeps (guarded_calm hdoc) (fun _ _ hs => hs) rfl).final hw
  | reconnect _ | saslBind _ | whoami _ =>
    rw [Use.secures_nil (by simp) (by simp)]
    exact ((Use.synchronous_keeps hsynchronous rfl).final (hallowed.securedBy rfl hw)).world
  | bind authzid password controls =>
    rw [Use.secures_nil (by simp) (by simp)]
    exact ((Use.binding_keeps hdiscipline (fun _ _ _ hs => ⟨hs.world, hs.conn, hs.attempts, hs.held⟩)
      rfl).final (hallowed.securedBy rfl hw)).world
  | execute _ _ _ | extended _ _ _ | cancel _ _ | search _ =>
    rw [Use.secures_nil (by simp) (by simp)]
    exact ((Use.operation_keeps hdiscipline rfl).final (hallowed.securedBy rfl hw)).world
  | _ =>
    -- the calls on generators are those of `running_guarded`
    rw [Use.secures_nil (by simp) (by simp)]
    exact hw

variable (polls) in
/-- A resumed generator holds a secured object again. -/
theorem next_guarded (hdoc : Documented env net) {s : State ω} {i : Nat} {iter : SearchIter}
    (hallowed : (Use.next i).Allowed env net secured s) (hw : Guarded net secured s.world)
    (hiter : HoldsSecured secured iter) :
    Spec (fun t => t = s) (Method.next env polls iter)
      (fun step t => Guarded net secured t.world ∧ HoldsSecured secured step.2)
      (fun _ t => Guarded net secured t.world) := by
  have hdiscipline : Discipline env (SecuredBy net secured s.self.maxConnectionAttempts)
    (SecuredBy net secured s.self.maxConnectionAttempts) := securedBy_discipline hdoc
  refine Spec.conseq (hdiscipline.next_rule polls iter) ?_ (fun _ t ht => ⟨ht.world, ht.held⟩)
    fun _ t ht => ht.world
  rintro t rfl
  exact ⟨hw, hallowed.sends rfl, rfl, hiter⟩

/-- Closing a generator cancels its operation on a secured object. -/
theorem close_guarded (hdoc : Documented env net) {s : State ω} {i : Nat} (iter : SearchIter)
    (hallowed : (Use.close i).Allowed env net secured s) (hw : Guarded net secured s.world) :
    Spec (fun t => t = s) (Method.close env polls iter) (fun _ t => Guarded net secured t.world)
      (fun _ t => Guarded net secured t.world) := by
  refine Discipline.close_rule polls iter ?_ (fun msgid _ => ?_) fun msgid _ => ?_
  · rintro t rfl
    exact hw
  · have hdiscipline : Discipline env (SecuredBy net secured s.self.maxConnectionAttempts)
      (SecuredBy net secured s.self.maxConnectionAttempts) := securedBy_discipline hdoc
    refine Spec.conseq (hdiscipline.cancel_keeps polls msgid none) ?_ (fun _ t ht => ht.world)
      fun _ t ht => ht.world
    rintro t ⟨rfl, -⟩
    exact hallowed.securedBy rfl hw
  · refine Spec.zoom ?_
    rintro t ⟨rfl, hasync⟩
    have hdiscipline : Discipline env
      (SecuredBy net secured (syncConnection t.self).maxConnectionAttempts)
      (SecuredBy net secured (syncConnection t.self).maxConnectionAttempts) := securedBy_discipline hdoc
    refine Spec.conseq (hdiscipline.cancel_keeps polls msgid none) ?_ (fun _ _ ht => ht.world)
      fun _ _ ht => ht.world
    rintro u rfl
    exact ⟨hw, hallowed.close i rfl hasync, rfl, trivial⟩

theorem HoldsSecured.mono {secured' : List Obj} {iter : SearchIter} (h : HoldsSecured secured iter)
    (hsub : secured ⊆ secured') : HoldsSecured secured' iter := by
  unfold HoldsSecured at h ⊢
  cases hheld : Discipline.held iter with
  | nothing => trivial
  | object o =>
    rw [hheld] at h
    exact hsub h
  | message o msgid =>
    rw [hheld] at h
    exact hsub h

/-- Generators hold secured objects also when a call has secured others. -/
theorem holdsSecured_append {iters : List SearchIter} (objects : List Obj)
    (hiters : ∀ iter ∈ iters, HoldsSecured secured iter) :
    ∀ iter ∈ iters, HoldsSecured (objects ++ secured) iter := by
  intro iter hmem
  exact (hiters iter hmem).mono (List.subset_append_right _ _)

/-- A generator replaced by one that holds a secured object. -/
theorem holdsSecured_set {iters : List SearchIter} {i : Nat} {iter : SearchIter}
    (hiters : ∀ iter ∈ iters, HoldsSecured secured iter) (hiter : HoldsSecured secured iter) :
    ∀ iter' ∈ iters.set i iter, HoldsSecured secured iter' := by
  intro iter' hmem
  rcases List.mem_or_eq_of_mem_set hmem with hmem | rfl
  · exact hiters iter' hmem
  · exact hiter

/-- A call of a running program. -/
theorem running_guarded (hdoc : Documented env net) {use : Use} {r : Running ω}
    (hallowed : use.Allowed env net secured r.state) (hw : Guarded net secured r.state.world)
    (hiters : ∀ iter ∈ r.iters, HoldsSecured secured iter) :
    Guarded net (use.secures env polls r.state ++ secured) (r.step env polls use).state.world ∧
      ∀ iter ∈ (r.step env polls use).iters,
        HoldsSecured (use.secures env polls r.state ++ secured) iter := by
  cases use with
  | searchIter args =>
    rw [Use.secures_nil (by simp) (by simp)]
    refine ⟨hw, fun iter hmem => ?_⟩
    rcases List.mem_append.mp hmem with hmem | hmem
    · exact hiters iter hmem
    · rw [List.mem_singleton.mp hmem]
      exact trivial
  | next i =>
    rw [Use.secures_nil (by simp) (by simp)]
    -- an index without a generator is a finished one
    have hiter : HoldsSecured secured (r.iter i) := by
      unfold Running.iter
      rw [List.getD_eq_getElem?_getD]
      cases hget : r.iters[i]? with
      | none => exact trivial
      | some iter => exact hiters iter (List.mem_of_getElem? hget)
    have hnext := next_guarded polls hdoc hallowed hw hiter
    show Guarded net secured (r.resume i ((Method.next env polls (r.iter i)).run r.state)).state.world ∧
      ∀ iter ∈ (r.resume i ((Method.next env polls (r.iter i)).run r.state)).iters,
        HoldsSecured secured iter
    cases hrun : (Method.next env polls (r.iter i)).run r.state with
    | ok step s =>
      have hok := hnext.ok rfl hrun
      exact ⟨hok.1, holdsSecured_set hiters hok.2⟩
    | error e s => exact ⟨hnext.error rfl hrun, holdsSecured_set hiters trivial⟩
  | close i =>
    rw [Use.secures_nil (by simp) (by simp)]
    refine ⟨?_, holdsSecured_set hiters trivial⟩
    exact (close_guarded hdoc (r.iter i) hallowed hw).final rfl
  | _ =>
    exact ⟨method_guarded hdoc hallowed hw, holdsSecured_append _ hiters⟩

/-- Leaving a context manager of the connection unbinds and disconnects. -/
theorem aexit_guarded (hdoc : Documented env net) :
    Keeps (fun s => Guarded net secured s.world) (Method.aexit env polls) :=
  Keeps.bind (unbind_guarded hdoc polls none) fun _ => disconnect_guarded hdoc

theorem exit_guarded (hdoc : Documented env net) :
    Keeps (fun s => Guarded net secured s.world) (Method.exit env polls) :=
  Keeps.bind (Keeps.zoom fun _ hs => (aexit_guarded hdoc).final hs) fun _ => disconnect_guarded hdoc

/-- The generators of what is left behind hold what they have held before. -/
theorem Program.moveTo_safe {p : Program ω} (inner : Slots) {running : Running ω}
    (hw : Guarded net p.secured running.state.world)
    (hiters : ∀ iter ∈ running.iters, HoldsSecured p.secured iter)
    (hsyncIters : ∀ iter ∈ p.syncIters, HoldsSecured p.secured iter)
    (hleft : ∀ l ∈ p.left, ∀ iter ∈ l.iters, HoldsSecured p.secured iter) :
    (p.moveTo inner running).Safe net := by
  unfold Program.moveTo
  split
  · refine ⟨hw, hiters, fun iter hmem => absurd hmem List.not_mem_nil, fun l hl => ?_⟩
    rcases List.mem_append.mp hl with hl | hl
    · exact hleft l hl
    · rw [List.mem_singleton.mp hl]
      exact hsyncIters
  · exact ⟨hw, hiters, hsyncIters, hleft⟩

/-- A step of a careful program. -/
theorem Program.step_safe (hdoc : Documented env net) (p : Program ω) (action : Action)
    (h : p.Safe net) (hcareful : Careful env net p action) : (p.step env polls action).Safe net := by
  have hself : ∀ use : Use, use.Allowed env net p.secured p.running.state →
      (p.callSelf env polls use).Safe net := by
    intro use hallowed
    obtain ⟨hw, hiters⟩ := running_guarded hdoc hallowed h.world h.iters
    exact moveTo_safe _ hw hiters (holdsSecured_append _ h.syncIters)
      fun l hl => holdsSecured_append _ (h.left l hl)
  have hsync : ∀ use : Use, use.Allowed env net p.secured p.inside.state →
      (p.callSync env polls use).Safe net := by
    intro use hallowed
    obtain ⟨hw, hiters⟩ := running_guarded (r := p.inside) hdoc hallowed h.world h.syncIters
    exact ⟨hw, holdsSecured_append _ h.iters, hiters, fun l hl => holdsSecured_append _ (h.left l hl)⟩
  cases action with
  | self use => exact hself use hcareful
  | aenter => exact hself _ hcareful
  | enter =>
    have hcall := hsync _ hcareful
    exact ⟨hcall.world, hcall.iters, hcall.syncIters, hcall.left⟩
  | sync use =>
    show (if p.entered = true then p.callSync env polls use else p).Safe net
    by_cases hentered : p.entered = true
    · rw [if_pos hentered]
      exact hsync use (hcareful hentered)
    · rw [if_neg hentered]
      exact h
  | left i use =>
    show (match p.left[i]? with
      | none => p
      | some l => p.callLeft env polls i l use).Safe net
    cases hl : p.left[i]? with
    | none => exact h
    | some l =>
      obtain ⟨hw, hiters⟩ := running_guarded (r := p.within l) hdoc (hcareful l hl) h.world
        (h.left l (List.mem_of_getElem? hl))
      refine ⟨hw, holdsSecured_append _ h.iters, holdsSecured_append _ h.syncIters, fun l' hl' => ?_⟩
      rcases List.mem_or_eq_of_mem_set hl' with hl' | rfl
      · exact holdsSecured_append _ (h.left l' hl')
      · exact hiters
  | aexit => exact moveTo_safe _ ((aexit_guarded hdoc).final h.world) h.iters h.syncIters h.left
  | exit => exact moveTo_safe _ ((exit_guarded hdoc).final h.world) h.iters h.syncIters h.left

/-- A program that has just made its connection. -/
def Program.start (self : Connection) (w : ω) : Program ω :=
  { running := { state := { self := self, world := w, calls := [] }, iters := [] }
    entered := false, syncIters := [], left := [], secured := [] }

theorem Program.start_safe (self : Connection) {w : ω} (hw : net.wire w = []) :
    (Program.start self w).Safe net where
  world := ⟨hw ▸ protected_nil, fun _ ho => absurd ho List.not_mem_nil⟩
  iters := fun _ hmem => absurd hmem List.not_mem_nil
  syncIters := fun _ hmem => absurd hmem List.not_mem_nil
  left := fun _ hmem => absurd hmem List.not_mem_nil

/-- In every run of a careful program no request is sent on a session on which
StartTLS has not succeeded. -/
theorem careful_protected (hdoc : Documented env net) (asynchronous : Bool) (uri : PyStr)
    (timeout : Int) (automaticReconnect : Bool) (maxConnectionAttempts : Nat) (polls : Nat) (w : ω)
    (hw : net.wire w = []) (actions : List Action)
    (hcareful : Along (Program.step env polls) (Careful env net)
      (Program.start (Connection.init asynchronous uri true timeout automaticReconnect
        maxConnectionAttempts) w) actions) :
    Protected (net.wire (after (Program.step env polls)
      (Program.start (Connection.init asynchronous uri true timeout automaticReconnect
        maxConnectionAttempts) w) actions).running.state.world) :=
  (after_induction (Program.step_safe hdoc) (Program.start_safe _ hw) hcareful).world.wire

/-- A `bind` in an `async with` is protected: its entry has started TLS. -/
theorem careful_protected_bind :
    Protected (Sim.net.wire (after (Program.step Sim.env 1)
      (Program.start (Connection.init true (py "ldap://localhost") true) {})
      [.aenter, .self (.bind (some (py "cn=admin")) (some (py "secret")) none)]).running.state.world) := by
  refine careful_protected Sim.documented true (py "ldap://localhost") (-1) true 10 1 {} rfl _
    ⟨⟨?_, ?_, ?_, ?_⟩, ⟨?_, ?_, ?_, ?_⟩, trivial⟩
  · exact fun h => by cases h
  · exact fun i h => by cases h
  · exact fun _ _ _ _ _ _ h => h
  · exact fun h => by cases h
  · -- the object that the entry has stored is secured
    intro _ o ho
    exact List.mem_singleton.mpr (Option.some.inj ho).symm
  · exact fun i h => by cases h
  · exact fun _ h => by cases h
  · exact fun h => by cases h

/-- A `bind` in a `with` is not: the synchronous connection is made without `start_tls`. -/
theorem start_tls_dropped :
    ¬Protected (Sim.net.wire (after (Program.step Sim.env 1)
      (Program.start (Connection.init true (py "ldap://localhost") true) {})
      [.enter, .sync (.bind (some (py "cn=admin")) (some (py "secret")) none)]).running.state.world) := by
  intro h
  have hwire : Sim.net.wire (after (Program.step Sim.env 1)
      (Program.start (Connection.init true (py "ldap://localhost") true) {})
      [.enter, .sync (.bind (some (py "cn=admin")) (some (py "secret")) none)]).running.state.world =
      [.opened 0] ++ .request 0 :: [] := rfl
  have htls := h [.opened 0] 0 [] hwire
  simp at htls

end Run

end FreeIam.Ldap
