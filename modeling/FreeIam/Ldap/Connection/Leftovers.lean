import FreeIam.Ldap.Connection.Log
import FreeIam.Ldap.Connection.Paging

/-!
# What searches leave in the caller's controls

A search places its sorting, paging or list view control in the `Controls` object
that the caller has passed, and does not take it out. The next search that is
given the object carries what it does not replace itself.
-/

namespace FreeIam.Ldap

open FreeIam.Py FreeIam.Errors FreeIam.Exec

/-! ## Calls and their own controls -/

/-- A search that is given the caller's controls, and runs to its end. -/
inductive SearchCall
  | search (args : SearchArgs)
  | searchIter (args : SearchArgs)
  | searchPaginated (args : SearchArgs) (pageSize : Int)
  | searchPaged (args : SearchArgs) (pageSize : Int)

/-- The types of controls. -/
def types (controls : List Control) : List String := controls.map Control.controlType

/-- The controls of other types than these. -/
def without (types : List String) (controls : List Control) : List Control :=
  controls.filter fun control => control.controlType ∉ types

/-- A server list with controls in the place of those of the same types. -/
def put (own : List Control) (server : Option (List Control)) : Option (List Control) :=
  server.map fun server => without (types own) server ++ own

variable {ω : Type}

/-- The control is one of a response in the log. -/
def Reported (calls : List (Call ω)) (control : Control) : Prop :=
  ∃ o msgid before r, .result o msgid before (.ok r) ∈ calls ∧ control ∈ r.ctrls.getD []

/-- The cookie is the empty one, or has been reported. -/
def FreshCookie (calls : List (Call ω)) (cookie : Bytes) : Prop :=
  cookie = [] ∨ ∃ control size, Reported calls control ∧ control.value = .paged size cookie

/-- There is no context yet, or it has been reported. -/
def FreshContext (calls : List (Call ω)) (contextId : Option Bytes) : Prop :=
  contextId = none ∨ ∃ control n, Reported calls control ∧ control.value = .vlvResponse n contextId

namespace SearchCall

/-- The method of a call. -/
def program (env : Env ω) (polls : Nat) : SearchCall → Shared ω (List Result)
  | .search args => Shared.search env polls args
  | .searchIter args => Shared.searchIter env polls args
  | .searchPaginated args pageSize => Shared.searchPaginated env polls args pageSize
  | .searchPaged args pageSize => Shared.searchPaged env polls args pageSize

/-- The types of the controls that a call replaces, by `set_server`. -/
def replaces : SearchCall → List String
  | .search args | .searchIter args | .searchPaged args _ => types (sortingControls args false)
  | .searchPaginated _ _ => [sortingType, vlvType]

/-- The types of the controls that a call places, by `set_server` or `append_server`. -/
def places : SearchCall → List String
  | .searchPaged args _ => pagedType :: types (sortingControls args false)
  | call => call.replaces

/-- The controls that a request of the call may have of its own, with cookies that
were reported to this call. -/
def Own (calls : List (Call ω)) : SearchCall → List Control → Prop
  | .search args, own => own = sortingControls args false
  | .searchIter args, own => own = sortingControls args true
  | .searchPaginated args pageSize, own => ∃ offset contextId, FreshContext calls contextId ∧
      own = [serverSideSorting args.sorting, virtualListView 0 (pageSize - 1) offset 0 contextId true]
  | .searchPaged args pageSize, own => ∃ cookie, FreshCookie calls cookie ∧
      own = simplePagedResults pageSize cookie true :: sortingControls args false

/-- A request carries the original controls plus only own ones, of distinct types. -/
def Carries (original : Controls) (calls : List (Call ω)) (call : SearchCall) (op : Operation) :
    Prop :=
  (∃ own, call.Own calls own ∧ op.serverctrls = put own original.server) ∧
    ∀ server, op.serverctrls = some server → (types server).Nodup

/-- The state and the object after a call. -/
def outcome (env : Env ω) (polls : Nat) (controls : Controls) (call : State ω × SearchCall) :
    State ω × Option Controls :=
  final ((call.2.program env polls).run (call.1, some controls))

/-- The object after a call. -/
def controlsAfter (env : Env ω) (polls : Nat) (controls : Controls) (call : State ω × SearchCall) :
    Controls :=
  (outcome env polls controls call).2.getD controls

/-- Every request of a call, from whatever state of a connection it is made, carries
the original controls plus only its own. -/
def OnlyOwn (env : Env ω) (polls : Nat) (original controls : Controls)
    (call : State ω × SearchCall) : Prop :=
  ∀ o op result w,
    .request o op result w ∈ (outcome env polls controls call).1.calls.drop call.1.calls.length →
      call.2.Carries original ((outcome env polls controls call).1.calls.drop call.1.calls.length) op

/-- Each call replaces what the one before it has placed, and no paged search adds a
second paging control to the caller's. -/
def Tidy (original : Controls) : List String → List SearchCall → Prop
  | _, [] => True
  | left, call :: calls =>
    (left ⊆ call.replaces ∧
      ∀ args pageSize, call = .searchPaged args pageSize →
        ∀ server, original.server = some server → pagedType ∉ types server) ∧
    Tidy original call.places calls

end SearchCall

/-! ## Server lists -/

section

variable {own : List Control} {l : List Control} {server : Option (List Control)}

@[simp] theorem types_nil : types [] = [] := rfl

@[simp] theorem types_cons (control : Control) (l : List Control) :
    types (control :: l) = control.controlType :: types l := rfl

@[simp] theorem types_append (l l' : List Control) : types (l ++ l') = types l ++ types l' :=
  List.map_append

@[simp] theorem without_nil (l : List Control) : without [] l = l := by
  unfold without
  exact List.filter_eq_self.mpr fun control _ => by simp

theorem without_append (ts : List String) (l l' : List Control) :
    without ts (l ++ l') = without ts l ++ without ts l' := List.filter_append ..

theorem without_without (ts ts' : List String) (l : List Control) :
    without ts (without ts' l) = without (ts ++ ts') l := by
  unfold without
  rw [List.filter_filter]
  exact List.filter_congr fun control _ => by simp [not_or]

/-- Taking types out again changes nothing. -/
theorem without_of_disjoint {ts : List String} (h : ∀ t ∈ types l, t ∉ ts) : without ts l = l := by
  unfold without
  exact List.filter_eq_self.mpr fun control hmem => by
    simpa using h _ (List.mem_map_of_mem hmem)

/-- Only controls of these types. -/
theorem without_of_subset {ts : List String} (h : types l ⊆ ts) : without ts l = [] := by
  unfold without
  exact List.filter_eq_nil_iff.mpr fun control hmem => by
    simpa using h (List.mem_map_of_mem hmem)

theorem without_congr {ts ts' : List String} (h : ∀ t, t ∈ ts ↔ t ∈ ts') (l : List Control) :
    without ts l = without ts' l := by
  unfold without
  exact List.filter_congr fun control _ => by simp [h]

/-- Lists that agree without some types agree without more. -/
theorem without_mono {ts ts' : List String} {l' : List Control} (hsub : ts ⊆ ts')
    (h : without ts l = without ts l') : without ts' l = without ts' l' := by
  have hunion : ∀ t, t ∈ ts' ++ ts ↔ t ∈ ts' := fun t => by
    rw [List.mem_append]
    exact ⟨fun ht => ht.elim id fun ht => hsub ht, .inl⟩
  rw [← without_congr hunion l, ← without_congr hunion l', ← without_without, ← without_without, h]

@[simp] theorem put_nil (server : Option (List Control)) : put [] server = server := by
  cases server with
  | none => rfl
  | some l => simp [put]

/-- The types of a list with own controls are distinct where theirs are. -/
theorem nodup_put (hown : (types own).Nodup) (hl : (types l).Nodup) :
    (types (without (types own) l ++ own)).Nodup := by
  rw [types_append, List.nodup_append]
  refine ⟨?_, hown, ?_⟩
  · exact hl.sublist (List.filter_sublist.map _)
  · rintro t ht t' ht' rfl
    obtain ⟨control, hmem, rfl⟩ := List.mem_map.mp ht
    have hout := (List.mem_filter.mp hmem).2
    simp at hout
    exact hout ht'

/-- The list differs from the original in controls of these types only. -/
def Residual (left : List String) (original server : Option (List Control)) : Prop :=
  server.map (without left) = original.map (without left)

theorem Residual.cases {left : List String} {original : Option (List Control)}
    (h : Residual left original server) :
    (server = none ∧ original = none) ∨
      ∃ l l', server = some l ∧ original = some l' ∧ without left l = without left l' := by
  unfold Residual at h
  cases server with
  | none => cases original with
    | none => exact .inl ⟨rfl, rfl⟩
    | some l' => cases h
  | some l => cases original with
    | none => cases h
    | some l' => exact .inr ⟨l, l', rfl, rfl, Option.some.inj h⟩

theorem Residual.mono {left left' : List String} {original : Option (List Control)}
    (hsub : left ⊆ left') (h : Residual left original server) : Residual left' original server := by
  rcases h.cases with ⟨rfl, rfl⟩ | ⟨l, l', rfl, rfl, hl⟩
  · exact rfl
  · exact congrArg some (without_mono hsub hl)

/-- What is replaced does not depend on what is left. -/
theorem Residual.put_eq {original : Option (List Control)} (h : Residual (types own) original server) :
    put own server = put own original := by
  rcases h.cases with ⟨rfl, rfl⟩ | ⟨l, l', rfl, rfl, hl⟩
  · rfl
  · rw [put, put, Option.map_some, Option.map_some, hl]

/-- Own controls of these types may be put in. -/
theorem Residual.put {left : List String} {original : Option (List Control)}
    (hsub : types own ⊆ left) (h : Residual left original server) :
    Residual left original (put own server) := by
  unfold Residual at h ⊢
  rw [← h]
  cases server with
  | none => rfl
  | some l =>
    rw [FreeIam.Ldap.put, Option.map_some, Option.map_some, Option.map_some, without_append,
      without_of_subset hsub, List.append_nil, without_without]
    congr 1
    exact without_congr (fun t => by
      rw [List.mem_append]
      exact ⟨fun ht => ht.elim id fun ht => hsub ht, .inl⟩) l

/-- And a control of these types may be appended. -/
theorem Residual.append {left : List String} {original : Option (List Control)} {control : Control}
    (hmem : control.controlType ∈ left) (h : Residual left original server) :
    Residual left original (server.map (· ++ [control])) := by
  unfold Residual at h ⊢
  rw [← h, Option.map_map]
  congr 1
  funext l
  show without left (l ++ [control]) = without left l
  rw [without_append, without_of_subset (l := [control]) (by simpa using hmem), List.append_nil]

end

/-! ## What is reported stays reported -/

theorem drop_subset_append (start : Nat) (calls : List (Call ω)) (call : Call ω) :
    calls.drop start ⊆ (calls ++ [call]).drop start := by
  rw [List.drop_append]
  exact List.subset_append_left _ _

theorem Reported.mono {calls calls' : List (Call ω)} {control : Control} (hsub : calls ⊆ calls')
    (h : Reported calls control) : Reported calls' control := by
  obtain ⟨o, msgid, before, r, hmem, hcontrol⟩ := h
  exact ⟨o, msgid, before, r, hsub hmem, hcontrol⟩

namespace SearchCall

variable {call : SearchCall} {own : List Control}

theorem Own.mono {calls calls' : List (Call ω)} (hsub : calls ⊆ calls') (h : call.Own calls own) :
    call.Own calls' own := by
  cases call with
  | search args => exact h
  | searchIter args => exact h
  | searchPaginated args pageSize =>
    obtain ⟨offset, contextId, hnone | ⟨control, n, hreported, hvalue⟩, hown⟩ := h
    · exact ⟨offset, contextId, .inl hnone, hown⟩
    · exact ⟨offset, contextId, .inr ⟨control, n, hreported.mono hsub, hvalue⟩, hown⟩
  | searchPaged args pageSize =>
    obtain ⟨cookie, hempty | ⟨control, size, hreported, hvalue⟩, hown⟩ := h
    · exact ⟨cookie, .inl hempty, hown⟩
    · exact ⟨cookie, .inr ⟨control, size, hreported.mono hsub, hvalue⟩, hown⟩

theorem types_sortingControls (args : SearchArgs) (criticality : Bool) :
    types (sortingControls args criticality) = if args.sorting.isEmpty then [] else [sortingType] := by
  unfold sortingControls
  split <;> rfl

/-- A call has one control of each type. -/
theorem Own.nodup {calls : List (Call ω)} (h : call.Own calls own) : (types own).Nodup := by
  have hsorting : ∀ args criticality, (types (sortingControls args criticality)).Nodup ∧
      pagedType ∉ types (sortingControls args criticality) := by
    intro args criticality
    rw [types_sortingControls]
    split
    · exact ⟨List.nodup_nil, List.not_mem_nil⟩
    · exact ⟨by decide, by decide⟩
  cases call with
  | search args => exact h ▸ (hsorting args false).1
  | searchIter args => exact h ▸ (hsorting args true).1
  | searchPaginated args pageSize =>
    obtain ⟨offset, contextId, -, rfl⟩ := h
    show [sortingType, vlvType].Nodup
    decide
  | searchPaged args pageSize =>
    obtain ⟨cookie, -, rfl⟩ := h
    rw [types_cons, List.nodup_cons]
    exact ⟨(hsorting args false).2, (hsorting args false).1⟩

/-- What the log says of the requests of a call that began when it had a length. -/
def Told (original : Controls) (call : SearchCall) (start : Nat) (s : State ω) : Prop :=
  start ≤ s.calls.length ∧ ∀ o op result w, .request o op result w ∈ s.calls.drop start →
    call.Carries original (s.calls.drop start) op

/-- The same, with own controls for the next request. -/
def Telling (original : Controls) (call : SearchCall) (start : Nat) (own : List Control)
    (s : State ω) : Prop :=
  Told original call start s ∧ call.Own (s.calls.drop start) own

theorem Told.append {original : Controls} {start : Nat} {s : State ω} (h : Told original call start s)
    (entry : Call ω) (hentry : ∀ o op result w, entry = .request o op result w →
      call.Carries original (s.calls.drop start) op) :
    Told original call start { s with calls := s.calls ++ [entry] } := by
  have hsub := drop_subset_append start s.calls entry
  have hmono : ∀ op, call.Carries original (s.calls.drop start) op →
      call.Carries original ((s.calls ++ [entry]).drop start) op := by
    rintro op ⟨⟨own, hown, hserver⟩, hnodup⟩
    exact ⟨⟨own, hown.mono hsub, hserver⟩, hnodup⟩
  refine ⟨by simpa using Nat.le_succ_of_le h.1, ?_⟩
  intro o op result w hmem
  change _ ∈ (s.calls ++ [entry]).drop start at hmem
  rw [List.drop_append] at hmem
  rcases List.mem_append.mp hmem with hmem | hmem
  · exact hmono op (h.2 o op result w hmem)
  · exact hmono op (hentry o op result w (List.mem_singleton.mp (List.mem_of_mem_drop hmem)).symm)

/-- A request with the original controls and the own ones is admitted. -/
theorem telling_admits {original : Controls} {start : Nat} {op : Operation}
    (horiginal : ∀ server, original.server = some server → (types server).Nodup)
    (hop : op.serverctrls = put own original.server) :
    Method.Admits (Telling (ω := ω) original call start own) op where
  world := fun s w hs => hs
  startTls := fun s startTls hs => hs
  result := fun s o msgid before outcome hs =>
    ⟨hs.1.append _ (by intros; contradiction), hs.2.mono (drop_subset_append start s.calls _)⟩
  request := by
    intro s o outcome after hs
    refine ⟨hs.1.append _ ?_, hs.2.mono (drop_subset_append start s.calls _)⟩
    rintro o' op' result w ⟨⟩
    refine ⟨⟨own, hs.2, hop⟩, fun server hserver => ?_⟩
    rw [hop] at hserver
    cases hl : original.server with
    | none =>
      rw [hl] at hserver
      cases hserver
    | some l =>
      rw [hl] at hserver
      cases hserver
      exact nodup_put hs.2.nodup (horiginal l hl)

end SearchCall

/-! ## Rules for programs on the object -/

namespace Shared

variable {env : Env ω} {α : Type}

/-- A method that leaves the object alone. -/
theorem lift_rule {m : Method ω α} {P : State ω → Prop} {Q : α → State ω → Prop}
    {E : PyExc → State ω → Prop} (C : Option Controls → Prop) (h : Spec P m Q E) :
    Spec (fun p => P p.1 ∧ C p.2) (lift m) (fun a p => Q a p.1 ∧ C p.2) (fun e p => E e p.1 ∧ C p.2) := by
  refine Spec.zoom fun p hp => ?_
  rintro s rfl
  have hm := h p.1 hp.1
  cases hrun : m.run p.1 with
  | ok a s' =>
    rw [hrun] at hm
    exact ⟨hm, hp.2⟩
  | error e s' =>
    rw [hrun] at hm
    exact ⟨hm, hp.2⟩

/-- The handler of a search raises again, and changes nothing. -/
theorem searchedFor_rule {args : SearchArgs} {m : Shared ω α}
    {P E : State ω × Option Controls → Prop} {Q : α → State ω × Option Controls → Prop}
    (hm : Spec P m Q (fun _ => E)) : Spec P (searchedFor env args m) Q (fun _ => E) := by
  refine Spec.tryCatch hm fun e => ?_
  rintro ⟨s, controls⟩ hp
  have hthrow : Spec (fun s' => s' = s) (Method.searchedFor env args (throw e : Method ω α))
      (fun _ _ => False) (fun _ s' => s' = s) :=
    Method.Discipline.searchedFor_rule (Spec.throw fun _ hs => hs)
  have hlift := lift_rule (fun c => c = controls) hthrow (s, controls) ⟨rfl, rfl⟩
  cases hrun : (lift (Method.searchedFor env args (throw e : Method ω α))).run (s, controls) with
  | ok a p =>
    rw [hrun] at hlift
    exact hlift.1.elim
  | error e' p =>
    rw [hrun] at hlift
    obtain ⟨s', controls'⟩ := p
    obtain ⟨rfl, rfl⟩ := hlift
    exact hp

/-- The object has this server list. -/
def Has (server : Option (List Control)) (controls : Option Controls) : Prop :=
  ∃ c, controls = some c ∧ c.server = server

/-- `J` holds of the connection, and the object has this server list. -/
def At (J : State ω → Prop) (server : Option (List Control)) (p : State ω × Option Controls) : Prop :=
  J p.1 ∧ Has server p.2

/-- The response controls in the object were reported since the log had a length. -/
def Informed (start : Nat) (p : State ω × Option Controls) : Prop :=
  ∀ c control, p.2 = some c → control ∈ c.response.getD [] → Reported (p.1.calls.drop start) control

variable {J : State ω → Prop} {server : Option (List Control)}

variable (server) in
/-- `set_server` puts its control in, or fails as there is no list. -/
theorem setServer_rule (control : Control) :
    Spec (At J server) (update fun controls => Controls.setServer controls control)
      (fun _ => At J (put [control] server)) (fun _ => At J server) := by
  rintro ⟨s, controls⟩ ⟨hJ, c, rfl, rfl⟩
  cases hs : c.server with
  | none =>
    have hrun : (update fun controls => Controls.setServer controls control).run (s, some c) =
        .error .assertionError (s, some c) := by
      unfold update
      simp [EStateM.run, Controls.setServer, hs]
    rw [hrun]
    exact ⟨hJ, c, rfl, hs⟩
  | some l =>
    have hrun : (update fun controls => Controls.setServer controls control).run (s, some c) =
        .ok () (s, some { c with server := put [control] (some l) }) := by
      unfold update
      simp [EStateM.run, Controls.setServer, hs, put, without, bne]
      exact List.filter_congr fun ctrl _ => by
        by_cases htype : ctrl.controlType = control.controlType <;> simp [htype]
    rw [hrun]
    exact ⟨hJ, _, rfl, rfl⟩

/-- `append_server` adds its control at the end. -/
theorem appendServer_rule (control : Control) :
    Spec (At J server) (update fun controls => Controls.appendServer controls control)
      (fun _ => At J (server.map (· ++ [control]))) (fun _ => At J server) := by
  rintro ⟨s, controls⟩ ⟨hJ, c, rfl, rfl⟩
  cases hs : c.server with
  | none =>
    have hrun : (update fun controls => Controls.appendServer controls control).run (s, some c) =
        .error .assertionError (s, some c) := by
      unfold update
      simp [EStateM.run, Controls.appendServer, hs]
    rw [hrun]
    exact ⟨hJ, c, rfl, hs⟩
  | some l =>
    have hrun : (update fun controls => Controls.appendServer controls control).run (s, some c) =
        .ok () (s, some { c with server := some (l ++ [control]) }) := by
      unfold update
      simp [EStateM.run, Controls.appendServer, hs]
    rw [hrun]
    exact ⟨hJ, _, rfl, rfl⟩

/-- The sorting control is put in where there are sorting rules. -/
theorem setSorting_rule (args : SearchArgs) (criticality : Bool) :
    Spec (At J server) (setSorting args criticality)
      (fun _ => At J (put (sortingControls args criticality) server)) (fun _ => At J server) := by
  unfold setSorting sortingControls
  cases hsort : args.sorting.isEmpty with
  | true =>
    rw [onlyIf_false (by simp)]
    refine Spec.pure fun p hp => ?_
    rw [if_pos rfl, put_nil]
    exact hp
  | false =>
    rw [onlyIf_true rfl, if_neg (by simp)]
    exact setServer_rule _ _

/-- The object gets the controls of the response. -/
theorem setControls_rule (start : Nat) (response : Response) :
    Spec (fun p => At (fun s => J s ∧ (Method.Heard start response s.calls ∨ response.ctrls = some []))
        server p)
      (setControls response) (fun _ p => At J server p ∧ Informed start p) (fun _ => At J server) := by
  refine Spec.modify ?_
  rintro ⟨s, controls⟩ ⟨⟨hJ, hheard⟩, c, rfl, rfl⟩
  refine ⟨⟨hJ, _, rfl, rfl⟩, ?_⟩
  intro c' control hc' hmem
  cases hc'
  rcases hheard with ⟨o, msgid, before, hres⟩ | hnone
  · exact ⟨o, msgid, before, response, hres, hmem⟩
  · change control ∈ response.ctrls.getD [] at hmem
    rw [hnone] at hmem
    cases hmem

/-! ## What a search does to the object -/

theorem lift_ofExcept_rule {P : State ω × Option Controls → Prop} {x : Except PyExc α}
    {Q : α → State ω × Option Controls → Prop} {E : PyExc → State ω × Option Controls → Prop}
    (hok : ∀ a p, x = .ok a → P p → Q a p) (herror : ∀ e p, P p → E e p) :
    Spec P (lift (ofExcept x)) Q E := by
  intro p hp
  cases x with
  | ok a => exact hok a p rfl hp
  | error e => exact herror e p hp

theorem lift_ofExcept_keeps {I : State ω × Option Controls → Prop} (x : Except PyExc α) :
    Keeps I (lift (ofExcept x)) :=
  lift_ofExcept_rule (fun _ _ _ hp => hp) fun _ _ hp => hp

theorem lift_responseResults_keeps {I : State ω × Option Controls → Prop}
    (controls : Option Controls) (response : Response) :
    Keeps I (lift (Method.responseResults env controls response)) := by
  unfold Method.responseResults
  cases response.data with
  | none => exact lift_ofExcept_keeps (.error .assertionError)
  | some data => exact lift_ofExcept_keeps _

variable {start polls : Nat} {args : SearchArgs}

/-- The request of a search has the list of the object. -/
theorem Has.serverctrls {controls : Option Controls} (h : Has server controls) (args : SearchArgs)
    (timeout : Int) : (args.operation timeout controls).serverctrls = server := by
  obtain ⟨c, rfl, rfl⟩ := h
  rfl

variable (env polls) in
/-- `search` sends the list it has made, and hands on the controls of its response. -/
theorem search_rule
    (hJ : ∀ op : Operation, op.serverctrls = put (sortingControls args false) server → Method.Admits J op)
    (hstart : ∀ s, J s → start ≤ s.calls.length) :
    Spec (At J server) (search env polls args)
      (fun _ p => At J (put (sortingControls args false) server) p ∧ Informed start p)
      (fun _ p => At J server p ∨ At J (put (sortingControls args false) server) p) := by
  refine Spec.bind (Spec.conseq (lift_rule (Has server) Method.conn_keeps) (fun _ hp => hp)
    (fun _ _ hp => hp) fun _ _ hp => .inl hp) fun o => ?_
  refine Spec.bind (Spec.conseq (setSorting_rule args false) (fun _ hp => hp) (fun _ _ hp => hp)
    fun _ _ hp => .inl hp) fun _ => ?_
  refine Spec.conseq (searchedFor_rule (E := At J (put (sortingControls args false) server)) ?_)
    (fun _ hp => hp) (fun _ _ hp => hp) fun _ _ hp => .inr hp
  refine Spec.bind (Q := fun p₀ p => Has (put (sortingControls args false) server) p₀.2 ∧
    At J (put (sortingControls args false) server) p) (Spec.get fun p hp => ⟨hp.2, hp⟩)
    fun p₀ => Spec.assume fun hp₀ => ?_
  have hadmits := hJ _ (hp₀.serverctrls args p₀.1.self.timeout)
  refine Spec.bind (Spec.conseq (lift_rule (Has _) (hadmits.execute_heard hstart o))
    (fun _ hp => hp) (fun _ _ hp => hp) fun _ _ hp => hp) fun response => ?_
  refine Spec.bind (setControls_rule start response) fun _ => ?_
  -- what follows leaves both alone
  refine Spec.conseq (Keeps.bind Keeps.get fun p => Keeps.bind (lift_responseResults_keeps _ _)
    fun results => Keeps.bind (Keeps.onlyIf (Keeps.throw _)) fun _ => Keeps.pure results)
    (fun _ hp => hp) (fun _ _ hp => hp) fun _ _ hp => hp.1

/-- The loop of `search_iter` hands on the controls of the last response, if it yields
any result. -/
theorem responses_rule {op : Operation} (hJ : Method.Admits J op)
    (hstart : ∀ s, J s → start ≤ s.calls.length) (o : Obj) (msgid : MsgId) (rounds : Nat) :
    ∀ allResults : List Result, Spec
      (fun p => At J server p ∧ (allResults ≠ [] → Informed start p))
      (responses env args o msgid polls rounds allResults)
      (fun results p => At J server p ∧ (results ≠ [] → Informed start p)) (fun _ => At J server) := by
  induction rounds with
  | zero => exact fun _ => Spec.throw fun _ hp => hp.1
  | succ rounds ih =>
    intro allResults
    refine Spec.of_forall fun p₀ hp₀ => ?_
    rw [responses]
    -- while the loop polls, the object stays as it is and the log grows
    have hgrow : Method.Admits
        (fun s => J s ∧ (allResults ≠ [] → Informed start (s, p₀.2))) op :=
      { world := fun s w hs => ⟨hJ.world s w hs.1, hs.2⟩
        startTls := fun s startTls hs => ⟨hJ.startTls s startTls hs.1, hs.2⟩
        result := fun s o msgid before outcome hs => ⟨hJ.result s o msgid before outcome hs.1,
          fun hne c control hc hmem => (hs.2 hne c control hc hmem).mono (drop_subset_append start s.calls _)⟩
        request := fun s o outcome after hs => ⟨hJ.request s o outcome after hs.1,
          fun hne c control hc hmem => (hs.2 hne c control hc hmem).mono (drop_subset_append start s.calls _)⟩ }
    refine Spec.bind (Spec.conseq (lift_rule (fun c => c = p₀.2 ∧ Has server c)
      (hgrow.poll_heard (fun s hs => hstart s hs.1) o msgid false)) (fun p hp => ?_) (fun _ _ hp => hp)
      fun _ p hp => ⟨hp.1.1, hp.2.2⟩) fun response => ?_
    · subst hp
      exact ⟨⟨hp₀.1.1, hp₀.2⟩, rfl, hp₀.1.2⟩
    · cases response with
      | none =>
        refine Spec.pure fun p hp => ⟨⟨hp.1.1.1, hp.2.2⟩, fun hne => ?_⟩
        have hinformed := hp.1.1.2 hne
        rw [← hp.2.1] at hinformed
        exact hinformed
      | some response =>
        refine Spec.bind (Spec.conseq (setControls_rule (J := J) start response)
          (fun p hp => ⟨⟨hp.1.1.1, .inl (hp.1.2 response rfl)⟩, hp.2.2⟩) (fun _ _ hp => hp)
          fun _ _ hp => hp) fun _ => ?_
        refine Spec.bind (Q := fun _ p => At J server p ∧ Informed start p) (Spec.get fun p hp => hp)
          fun p₁ => ?_
        refine Spec.bind (Spec.conseq (lift_responseResults_keeps _ _) (fun _ hp => hp)
          (fun _ _ hp => hp) fun _ _ hp => hp.1) fun results => ?_
        refine Spec.bind (Q := fun _ p => At J server p ∧ Informed start p)
          (Spec.onlyIf (fun _ => Spec.throw fun _ hp => hp.1) fun _ _ hp => hp) fun _ => ?_
        refine Spec.ite (fun _ => ?_) fun _ => Spec.pure fun p hp => ⟨hp.1, fun _ => hp.2⟩
        exact Spec.conseq (ih _) (fun p hp => ⟨hp.1, fun _ => hp.2⟩) (fun _ _ hp => hp) fun _ _ hp => hp

variable (env polls) in
/-- `search_iter` sends the list it has made, and hands on the controls of its last
response, if it yields any result. -/
theorem searchIter_rule
    (hJ : ∀ op : Operation, op.serverctrls = put (sortingControls args true) server → Method.Admits J op)
    (hstart : ∀ s, J s → start ≤ s.calls.length) :
    Spec (At J server) (searchIter env polls args)
      (fun results p => At J (put (sortingControls args true) server) p ∧
        (results ≠ [] → Informed start p))
      (fun _ p => At J server p ∨ At J (put (sortingControls args true) server) p) := by
  refine Spec.bind (Spec.conseq (lift_rule (Has server) Method.conn_keeps) (fun _ hp => hp)
    (fun _ _ hp => hp) fun _ _ hp => .inl hp) fun o => ?_
  refine Spec.bind (Spec.conseq (setSorting_rule args true) (fun _ hp => hp) (fun _ _ hp => hp)
    fun _ _ hp => .inl hp) fun _ => ?_
  refine Spec.conseq (searchedFor_rule (E := At J (put (sortingControls args true) server)) ?_)
    (fun _ hp => hp) (fun _ _ hp => hp) fun _ _ hp => .inr hp
  refine Spec.bind (Q := fun p₀ p => Has (put (sortingControls args true) server) p₀.2 ∧
    At J (put (sortingControls args true) server) p) (Spec.get fun p hp => ⟨hp.2, hp⟩)
    fun p₀ => Spec.assume fun hp₀ => ?_
  have hadmits := hJ _ (hp₀.serverctrls args p₀.1.self.timeout)
  refine Spec.bind (lift_rule (Has _) (hadmits.retry_request o)) fun msgid => ?_
  cases msgid with
  | none => exact Spec.pure fun p hp => ⟨hp, fun hne => absurd rfl hne⟩
  | some msgid =>
    exact Spec.conseq (responses_rule hadmits hstart o msgid polls []) 
      (fun p hp => ⟨hp, fun hne => absurd rfl hne⟩) (fun _ _ hp => hp) fun _ _ hp => hp

/-- A page is searched for with the list as it is. -/
theorem search_pageArgs_rule (args : SearchArgs)
    (hJ : ∀ op : Operation, op.serverctrls = server → Method.Admits J op)
    (hstart : ∀ s, J s → start ≤ s.calls.length) :
    Spec (At J server) (search env polls (pageArgs args))
      (fun _ p => At J server p ∧ Informed start p) (fun _ => At J server) := by
  have hput : put (sortingControls (pageArgs args) false) server = server := put_nil server
  have hrule := search_rule env polls (fun op hop => hJ op (hop.trans hput)) hstart
  rw [hput] at hrule
  exact Spec.conseq hrule (fun _ hp => hp) (fun _ _ hp => hp) fun _ _ hp => hp.elim id id

theorem searchIter_pageArgs_rule (args : SearchArgs)
    (hJ : ∀ op : Operation, op.serverctrls = server → Method.Admits J op)
    (hstart : ∀ s, J s → start ≤ s.calls.length) :
    Spec (At J server) (searchIter env polls (pageArgs args))
      (fun results p => At J server p ∧ (results ≠ [] → Informed start p)) (fun _ => At J server) := by
  have hput : put (sortingControls (pageArgs args) true) server = server := put_nil server
  have hrule := searchIter_rule env polls (fun op hop => hJ op (hop.trans hput)) hstart
  rw [hput] at hrule
  exact Spec.conseq hrule (fun _ hp => hp) (fun _ _ hp => hp) fun _ _ hp => hp.elim id id

end Shared

/-! ## The calls -/

namespace SearchCall

open Shared

variable {env : Env ω} {polls start : Nat} {original : Controls} {server : Option (List Control)}

/-- What holds after a call: the list differs from the original in what the call places. -/
structure Settled (original : Controls) (call : SearchCall) (start : Nat)
    (p : State ω × Option Controls) : Prop where
  told : Told original call start p.1
  residual : ∃ server, Has server p.2 ∧ Residual call.places original.server server

theorem settled_of_at {call : SearchCall} {own : List Control} {p : State ω × Option Controls}
    (hres : Residual call.places original.server server)
    (hp : At (Telling original call start own) server p) : Settled original call start p :=
  ⟨hp.1.1, server, hp.2, hres⟩

/-- A list in which the own controls are put is settled. -/
theorem settled_of_put {call : SearchCall} {own : List Control} {p : State ω × Option Controls}
    (hsub : types own ⊆ call.places)
    (hp : At (Telling original call start own) (put own original.server) p) :
    Settled original call start p :=
  settled_of_at (Residual.put hsub rfl) hp

theorem search_settles
    (horiginal : ∀ server, original.server = some server → (types server).Nodup) (args : SearchArgs)
    (hres : Residual (replaces (.search args)) original.server server) :
    Spec (At (Told original (.search args) start) server) (Shared.search env polls args)
      (fun _ => Settled original (.search args) start) (fun _ => Settled original (.search args) start) := by
  have hput : put (sortingControls args false) server =
      put (sortingControls args false) original.server := Residual.put_eq hres
  have hsettled : ∀ p, At (Telling (ω := ω) original (.search args) start (sortingControls args false))
      (put (sortingControls args false) server) p → Settled original (.search args) start p := by
    intro p hp
    rw [hput] at hp
    exact settled_of_put (List.Subset.refl _) hp
  refine Spec.conseq (search_rule env polls
    (J := Telling original (.search args) start (sortingControls args false))
    (fun op hop => telling_admits horiginal (hop.trans hput)) fun s hs => hs.1.1)
    (fun p hp => ⟨⟨hp.1, rfl⟩, hp.2⟩) (fun _ p hp => hsettled p hp.1) fun _ p hp => ?_
  exact hp.elim (settled_of_at hres) (hsettled p)

theorem searchIter_settles
    (horiginal : ∀ server, original.server = some server → (types server).Nodup) (args : SearchArgs)
    (hres : Residual (replaces (.searchIter args)) original.server server) :
    Spec (At (Told original (.searchIter args) start) server) (Shared.searchIter env polls args)
      (fun _ => Settled original (.searchIter args) start)
      (fun _ => Settled original (.searchIter args) start) := by
  have htypes : types (sortingControls args true) = types (sortingControls args false) := by
    rw [types_sortingControls, types_sortingControls]
  have hput : put (sortingControls args true) server =
      put (sortingControls args true) original.server := Residual.put_eq (by rw [htypes]; exact hres)
  have hsettled : ∀ p, At (Telling (ω := ω) original (.searchIter args) start (sortingControls args true))
      (put (sortingControls args true) server) p → Settled original (.searchIter args) start p := by
    intro p hp
    rw [hput] at hp
    exact settled_of_put (by rw [htypes]; exact List.Subset.refl _) hp
  refine Spec.conseq (searchIter_rule env polls
    (J := Telling original (.searchIter args) start (sortingControls args true))
    (fun op hop => telling_admits horiginal (hop.trans hput)) fun s hs => hs.1.1)
    (fun p hp => ⟨⟨hp.1, rfl⟩, hp.2⟩) (fun _ p hp => hsettled p hp.1) fun _ p hp => ?_
  exact hp.elim (settled_of_at hres) (hsettled p)

/-! ### search_paged -/

/-- Appending the paging control to a list that differs in the sorting only puts it in. -/
theorem put_append {args : SearchArgs} {pageSize : Int}
    (hfresh : ∀ server, original.server = some server → pagedType ∉ types server)
    (hres : Residual (types (sortingControls args false)) original.server server) :
    put (sortingControls args false) (server.map (· ++ [simplePagedResults pageSize [] true])) =
      put (pagedControls args pageSize []) original.server := by
  unfold Residual at hres
  cases server with
  | none => cases horiginal : original.server with
    | none => rfl
    | some l' =>
      rw [horiginal] at hres
      cases hres
  | some l => cases horiginal : original.server with
    | none =>
      rw [horiginal] at hres
      cases hres
    | some l' =>
      rw [horiginal, Option.map_some, Option.map_some, Option.some_inj] at hres
      have hsorting : pagedType ∉ types (sortingControls args false) := by
        rw [types_sortingControls]
        split
        · exact List.not_mem_nil
        · decide
      have hpaged : without (types (sortingControls args false)) [simplePagedResults pageSize [] true] =
          [simplePagedResults pageSize [] true] :=
        without_of_disjoint fun t ht => by
          rw [List.mem_singleton.mp ht]
          exact hsorting
      -- the original has no paging control to take out
      have hnone : without (pagedType :: types (sortingControls args false)) l' =
          without (types (sortingControls args false)) l' := by
        have hout := without_of_disjoint
          (l := without (types (sortingControls args false)) l') fun t ht heq => by
            rw [List.mem_singleton.mp heq] at ht
            exact hfresh l' horiginal ((List.filter_sublist.map _).subset ht)
        rw [without_without] at hout
        exact hout
      rw [put, put, Option.map_some, Option.map_some, Option.map_some, without_append, hpaged, hres,
        types_cons]
      show some _ = some (without (pagedType :: _) l' ++ _)
      rw [hnone, List.append_assoc]
      rfl

/-- The cookie of a response control of this call is fresh. -/
theorem freshCookie_of_response {p : State ω × Option Controls} {control : Control} {cookie : Bytes}
    (hserver : Has server p.2) (hinformed : Informed start p)
    (hcontrol : responseControl p.2 pagedType = some control)
    (hcookie : Shared.cookie control = .ok cookie) : FreshCookie (p.1.calls.drop start) cookie := by
  obtain ⟨c, hc, -⟩ := hserver
  rw [hc] at hcontrol
  have hreported := hinformed c control hc (List.mem_of_find?_eq_some hcontrol)
  unfold Shared.cookie at hcookie
  split at hcookie
  · rename_i size cookie' hvalue
    cases hcookie
    exact .inr ⟨control, size, hreported, hvalue⟩
  · cases hcookie

theorem pages_settles
    (horiginal : ∀ server, original.server = some server → (types server).Nodup) (args : SearchArgs)
    (pageSize : Int) (rounds : Nat) : ∀ (page : Int) (cookie : Bytes),
    Spec (At (Telling original (.searchPaged args pageSize) start (pagedControls args pageSize cookie))
        (put (pagedControls args pageSize cookie) original.server))
      (pages env args pageSize polls rounds page)
      (fun _ => Settled original (.searchPaged args pageSize) start)
      (fun _ => Settled original (.searchPaged args pageSize) start) := by
  have hsettled : ∀ cookie p, At (Telling (ω := ω) original (.searchPaged args pageSize) start
      (pagedControls args pageSize cookie)) (put (pagedControls args pageSize cookie) original.server) p →
        Settled original (.searchPaged args pageSize) start p :=
    fun cookie p hp => settled_of_put (List.Subset.refl _) hp
  induction rounds with
  | zero => exact fun page cookie => Spec.throw fun p hp => hsettled cookie p hp
  | succ rounds ih =>
    intro page cookie
    rw [pages]
    refine Spec.bind (Spec.conseq (searchIter_pageArgs_rule args
      (fun op hop => telling_admits horiginal hop) fun s hs => hs.1.1)
      (fun p hp => hp) (fun _ p hp => hp) fun _ p hp => hsettled cookie p hp) fun results => ?_
    refine Spec.ite (fun _ => Spec.pure fun p hp => hsettled cookie p hp.1) fun hne => ?_
    have hne' : results ≠ [] := fun hnil => hne (by rw [hnil]; rfl)
    refine Spec.bind (Q := fun p₀ p => p = p₀ ∧
      At (Telling original (.searchPaged args pageSize) start (pagedControls args pageSize cookie))
        (put (pagedControls args pageSize cookie) original.server) p ∧ Informed start p)
      (Spec.get fun p hp => ⟨rfl, hp.1, hp.2 hne'⟩) fun p₀ => ?_
    cases hcontrol : responseControl p₀.2 pagedType with
    | none => exact Spec.pure fun p hp => hsettled cookie p hp.2.1
    | some control =>
      -- the cookie is one that a response of this call has reported
      refine Spec.bind (Q := fun cookie' =>
          At (Telling original (.searchPaged args pageSize) start (pagedControls args pageSize cookie'))
            (put (pagedControls args pageSize cookie) original.server))
        (lift_ofExcept_rule ?_ fun _ p hp => hsettled cookie p hp.2.1) fun cookie' => ?_
      · rintro cookie' p hcookie ⟨rfl, hat, hinformed⟩
        exact ⟨⟨hat.1.1, cookie', freshCookie_of_response hat.2 hinformed hcontrol hcookie, rfl⟩, hat.2⟩
      · refine Spec.bind (Q := fun _ =>
          At (Telling original (.searchPaged args pageSize) start (pagedControls args pageSize cookie'))
            (put (pagedControls args pageSize cookie') original.server)) (Spec.modify ?_) fun _ => ?_
        · rintro ⟨s, controls⟩ ⟨htelling, c, rfl, hserver⟩
          refine ⟨htelling, _, rfl, ?_⟩
          show c.server.map _ = _
          rw [hserver]
          cases original.server with
          | none => rfl
          | some l => exact congrArg some (set_pagedControls args pageSize cookie cookie' _)
        · refine Spec.ite (fun _ => Spec.pure fun p hp => hsettled cookie' p hp) fun _ => ?_
          exact Spec.map (ih (page + 1) cookie') fun _ _ hp => hp

theorem searchPaged_settles
    (horiginal : ∀ server, original.server = some server → (types server).Nodup) (args : SearchArgs)
    (pageSize : Int) (hfresh : ∀ server, original.server = some server → pagedType ∉ types server)
    (hres : Residual (replaces (.searchPaged args pageSize)) original.server server) :
    Spec (At (Told original (.searchPaged args pageSize) start) server)
      (Shared.searchPaged env polls args pageSize)
      (fun _ => Settled original (.searchPaged args pageSize) start)
      (fun _ => Settled original (.searchPaged args pageSize) start) := by
  have hres' : Residual (places (.searchPaged args pageSize)) original.server server :=
    hres.mono fun t ht => List.mem_cons_of_mem _ ht
  refine Spec.bind (Spec.conseq (appendServer_rule (simplePagedResults pageSize [] true)
    (J := Telling original (.searchPaged args pageSize) start (pagedControls args pageSize [])))
    (fun p hp => ⟨⟨hp.1, [], .inl rfl, rfl⟩, hp.2⟩) (fun _ _ hp => hp)
    fun _ p hp => settled_of_at hres' hp) fun _ => ?_
  refine Spec.bind (Spec.conseq (setSorting_rule args false) (fun p hp => hp) (fun _ p hp => ?_)
    fun _ p hp => settled_of_at (hres'.append List.mem_cons_self) hp) fun _ =>
      pages_settles horiginal args pageSize polls 1 []
  rw [put_append hfresh hres] at hp
  exact hp

/-! ### search_paginated -/

/-- The controls of a paginated search at an offset. -/
abbrev viewControls (args : SearchArgs) (pageSize offset : Int) (contextId : Option Bytes) :
    List Control :=
  [serverSideSorting args.sorting, virtualListView 0 (pageSize - 1) offset 0 contextId true]

/-- Putting in one control after the other. -/
theorem put_put (control : Control) {own : List Control} (h : control.controlType ∉ types own)
    (server : Option (List Control)) : put [control] (put own server) = put (own ++ [control]) server := by
  cases server with
  | none => rfl
  | some l =>
    have hown : without [control.controlType] own = own := without_of_disjoint fun t ht heq =>
      h (by rw [← List.mem_singleton.mp heq]; exact ht)
    rw [put, put, put, Option.map_some, Option.map_some, Option.map_some, types_append, types_cons,
      types_nil, without_append, hown, without_without, List.append_assoc]
    congr 2
    exact without_congr (fun t => by rw [List.mem_append, List.mem_append, or_comm]) l

/-- Putting in a control in the place of the last one. -/
theorem put_replace {control control' : Control} (htype : control'.controlType = control.controlType)
    {own : List Control} (h : control.controlType ∉ types own) (server : Option (List Control)) :
    put [control'] (put (own ++ [control]) server) = put (own ++ [control']) server := by
  have htypes : types [control'] = types [control] := by rw [types_cons, types_cons, htype]
  cases server with
  | none => rfl
  | some l =>
    have hown : without (types [control]) (own ++ [control]) = own := by
      rw [without_append, without_of_subset (List.Subset.refl (types [control])), List.append_nil]
      exact without_of_disjoint fun t ht heq => h (by rw [← List.mem_singleton.mp heq]; exact ht)
    rw [put, put, put, Option.map_some, Option.map_some, Option.map_some, types_append, types_append,
      htypes, without_append, hown, without_without, List.append_assoc]
    congr 2
    exact without_congr (fun t => by simp only [List.mem_append]; tauto) l

theorem vlvType_ne_sorting : vlvType ∉ [sortingType] := by decide

/-- The context of a response control of this call is fresh. -/
theorem freshContext_of_response {p : State ω × Option Controls} {vlv : Int × Option Bytes}
    (hserver : Has server p.2) (hinformed : Informed start p) (hvlv : listView p.2 = .ok vlv) :
    FreshContext (p.1.calls.drop start) vlv.2 := by
  obtain ⟨c, hc, -⟩ := hserver
  rw [hc] at hvlv
  unfold listView responseControl at hvlv
  cases hcontrol : c.get vlvResponseType with
  | none =>
    rw [Option.bind_some, hcontrol] at hvlv
    cases hvlv
  | some control =>
    rw [Option.bind_some, hcontrol] at hvlv
    have hreported := hinformed c control hc (List.mem_of_find?_eq_some hcontrol)
    simp only at hvlv
    split at hvlv
    · rename_i n contextId hvalue
      cases hvlv
      exact .inr ⟨control, n, hreported, hvalue⟩
    · cases hvlv

theorem views_settles
    (horiginal : ∀ server, original.server = some server → (types server).Nodup) (args : SearchArgs)
    (pageSize : Int) (rounds : Nat) :
    ∀ (page : Int) (contextId : Option Bytes) (length last : Option Int)
      (server : Option (List Control)),
    (∀ offset contextId, put [virtualListView 0 (pageSize - 1) offset 0 contextId true] server =
      put (viewControls args pageSize offset contextId) original.server) →
    Residual (places (.searchPaginated args pageSize)) original.server server →
    Spec (fun p => FreshContext (p.1.calls.drop start) contextId ∧
        At (Told original (.searchPaginated args pageSize) start) server p)
      (views env args pageSize polls rounds page contextId length last)
      (fun _ => Settled original (.searchPaginated args pageSize) start)
      (fun _ => Settled original (.searchPaginated args pageSize) start) := by
  have hsettled : ∀ offset contextId p,
      At (Telling (ω := ω) original (.searchPaginated args pageSize) start
        (viewControls args pageSize offset contextId))
        (put (viewControls args pageSize offset contextId) original.server) p →
      Settled original (.searchPaginated args pageSize) start p :=
    fun offset contextId p hp => settled_of_put (List.Subset.refl _) hp
  induction rounds with
  | zero =>
    intro page contextId length last server hput hres
    exact Spec.throw fun p hp => ⟨hp.2.1, server, hp.2.2, hres⟩
  | succ rounds ih =>
    intro page contextId length last server hput hres
    rw [views]
    have hset := setServer_rule server
      (J := Telling (ω := ω) original (.searchPaginated args pageSize) start
        (viewControls args pageSize ((page - 1) * pageSize + 1) contextId))
      (virtualListView 0 (pageSize - 1) ((page - 1) * pageSize + 1) 0 contextId true)
    rw [hput] at hset
    refine Spec.bind (Spec.conseq hset (fun p hp => ⟨⟨hp.2.1, _, contextId, hp.1, rfl⟩, hp.2.2⟩)
      (fun _ _ hp => hp) fun _ p hp => settled_of_at hres hp) fun _ => ?_
    refine Spec.ite (fun _ => Spec.pure fun p hp => hsettled _ _ p hp) fun _ => ?_
    refine Spec.bind (Spec.conseq (search_pageArgs_rule args
      (fun op hop => telling_admits horiginal hop) fun s hs => hs.1.1)
      (fun p hp => hp) (fun _ p hp => hp) fun _ p hp => hsettled _ _ p hp) fun results => ?_
    refine Spec.ite (fun _ => Spec.pure fun p hp => hsettled _ _ p hp.1) fun _ => ?_
    refine Spec.bind (Q := fun p₀ p => p = p₀ ∧
      At (Telling original (.searchPaginated args pageSize) start
        (viewControls args pageSize ((page - 1) * pageSize + 1) contextId))
        (put (viewControls args pageSize ((page - 1) * pageSize + 1) contextId) original.server) p ∧
      Informed start p) (Spec.get fun p hp => ⟨rfl, hp⟩) fun p₀ => ?_
    refine Spec.bind (lift_ofExcept_rule (fun _ _ _ hp => hp) fun _ p hp => hsettled _ _ p hp.2.1)
      fun lengths => ?_
    obtain ⟨length', last'⟩ := lengths
    -- the context is one that a response of this call has reported
    refine Spec.bind (Q := fun vlv p => FreshContext (p.1.calls.drop start) vlv.2 ∧
        At (Told original (.searchPaginated args pageSize) start)
          (put (viewControls args pageSize ((page - 1) * pageSize + 1) contextId) original.server) p)
      (lift_ofExcept_rule ?_ fun _ p hp => hsettled _ _ p hp.2.1) fun vlv => ?_
    · rintro vlv p hvlv ⟨rfl, hat, hinformed⟩
      exact ⟨freshContext_of_response hat.2 hinformed hvlv, hat.1.1, hat.2⟩
    · refine Spec.map (ih (page + 1) vlv.2 (some vlv.1) last' _ (fun offset contextId' => ?_)
        (Residual.put (List.Subset.refl _) rfl)) fun _ _ hp => hp
      have htype : (virtualListView 0 (pageSize - 1) offset 0 contextId' true).controlType =
          (virtualListView 0 (pageSize - 1) ((page - 1) * pageSize + 1) 0 contextId true).controlType := rfl
      have hsorting :
          (virtualListView 0 (pageSize - 1) ((page - 1) * pageSize + 1) 0 contextId true).controlType
            ∉ types [serverSideSorting args.sorting] := vlvType_ne_sorting
      exact put_replace htype hsorting _

theorem searchPaginated_settles
    (horiginal : ∀ server, original.server = some server → (types server).Nodup) (args : SearchArgs)
    (pageSize : Int) (hres : Residual (replaces (.searchPaginated args pageSize)) original.server server) :
    Spec (At (Told original (.searchPaginated args pageSize) start) server)
      (Shared.searchPaginated env polls args pageSize)
      (fun _ => Settled original (.searchPaginated args pageSize) start)
      (fun _ => Settled original (.searchPaginated args pageSize) start) := by
  refine Spec.bind (Spec.conseq (setServer_rule _ (serverSideSorting args.sorting)) (fun _ hp => hp)
    (fun _ _ hp => hp) fun _ p hp => ⟨hp.1, server, hp.2, hres⟩) fun _ => ?_
  refine Spec.conseq (views_settles horiginal args pageSize polls 1 none none none
    (put [serverSideSorting args.sorting] server) (fun offset contextId => ?_)
    (Residual.put (List.cons_subset_cons _ (List.nil_subset _)) hres))
    (fun p hp => ⟨.inl rfl, hp⟩) (fun _ _ hp => hp) fun _ _ hp => hp
  rw [put_put _ vlvType_ne_sorting]
  exact Residual.put_eq hres

/-! ### Any call -/

/-- A call that replaces what is left sends only its own controls with the original
ones, and leaves what it places. -/
theorem program_settles
    (horiginal : ∀ server, original.server = some server → (types server).Nodup) (call : SearchCall)
    (hfresh : ∀ args pageSize, call = .searchPaged args pageSize →
      ∀ server, original.server = some server → pagedType ∉ types server)
    (hres : Residual call.replaces original.server server) :
    Spec (At (Told original call start) server) (call.program env polls)
      (fun _ => Settled original call start) (fun _ => Settled original call start) := by
  cases call with
  | search args => exact search_settles horiginal args hres
  | searchIter args => exact searchIter_settles horiginal args hres
  | searchPaginated args pageSize => exact searchPaginated_settles horiginal args pageSize hres
  | searchPaged args pageSize =>
    exact searchPaged_settles horiginal args pageSize (hfresh args pageSize rfl) hres

variable (env polls) in
/-- One call from any state, with an object in which only controls that the call
replaces are left. -/
theorem outcome_settled
    (horiginal : ∀ server, original.server = some server → (types server).Nodup)
    {controls : Controls} {call : State ω × SearchCall}
    (hfresh : ∀ args pageSize, call.2 = .searchPaged args pageSize →
      ∀ server, original.server = some server → pagedType ∉ types server)
    (hres : Residual call.2.replaces original.server controls.server) :
    Settled original call.2 call.1.calls.length (outcome env polls controls call) := by
  refine (program_settles horiginal call.2 hfresh hres).final ⟨⟨Nat.le_refl _, ?_⟩, controls, rfl, rfl⟩
  intro o op result w hmem
  rw [List.drop_length] at hmem
  cases hmem

/-- What one call leaves, as the next one finds it. -/
theorem Settled.controlsAfter {controls : Controls} {call : State ω × SearchCall}
    (h : Settled original call.2 call.1.calls.length (outcome env polls controls call)) :
    Residual call.2.places original.server (controlsAfter env polls controls call).server := by
  obtain ⟨-, server, ⟨c, hc, rfl⟩, hres⟩ := h
  unfold SearchCall.controlsAfter
  rw [hc]
  exact hres

/-- In a tidy sequence, or without a server list, every call sends only its own
controls with the original ones. -/
theorem tidy_along
    (horiginal : ∀ server, original.server = some server → (types server).Nodup)
    {calls : List (State ω × SearchCall)} {left : List String}
    (h : original.server = none ∨ Tidy original left (calls.map Prod.snd)) {controls : Controls}
    (hres : Residual left original.server controls.server) :
    Along (SearchCall.controlsAfter env polls) (OnlyOwn env polls original) controls calls := by
  induction calls generalizing left controls with
  | nil => exact trivial
  | cons call calls ih =>
    rcases h with hnone | ⟨⟨hleft, hfresh⟩, htidy⟩
    · -- without a list nothing can be left in it
      have hcontrols : controls.server = none := by
        rw [Residual, hnone] at hres
        exact Option.map_eq_none_iff.mp hres
      have hsettled := outcome_settled env polls horiginal
        (fun _ _ _ server hserver => by rw [hnone] at hserver; cases hserver)
        (hcontrols ▸ hnone ▸ rfl : Residual call.2.replaces original.server controls.server)
      exact ⟨hsettled.told.2, ih (.inl hnone) hsettled.controlsAfter⟩
    · have hsettled := outcome_settled env polls horiginal hfresh (hres.mono hleft)
      exact ⟨hsettled.told.2, ih (.inr htidy) hsettled.controlsAfter⟩

end SearchCall

/-! ## The law -/

/-- In a tidy sequence of searches with one object, each from any state of any
connection, every request carries the original controls plus only those of its own
search. -/
theorem searches_leave_nothing (env : Env ω) (polls : Nat) (c : Controls)
    (hc : ∀ server, c.server = some server → (types server).Nodup)
    (calls : List (State ω × SearchCall))
    (h : c.server = none ∨ SearchCall.Tidy c [] (calls.map Prod.snd)) :
    Along (SearchCall.controlsAfter env polls) (SearchCall.OnlyOwn env polls c) c calls :=
  SearchCall.tidy_along hc h rfl

/-! ### A search after a paged one -/

/-- A server that answers every search with no entry. -/
def barren : Env Unit :=
  { Env.idle Unit with
    result4 := fun _ _ _ _ =>
      pure { type := some .searchResult, data := some [], msgid := some 1, ctrls := some [] } }

/-- A synchronous connection to it. -/
def barrenState : State Unit :=
  { self := { Connection.init false (py "ldap://localhost") with conn := some 0 }, world := (), calls := [] }

/-- Paginated searches with one object, after a sorted one. -/
theorem searches_leave_nothing_paginated :
    Along (SearchCall.controlsAfter barren 1) (SearchCall.OnlyOwn barren 1 { server := some [] })
      { server := some [] }
      [(barrenState, .search {}), (barrenState, .search { sorting := [.text (py "cn")] }),
        (barrenState, .searchPaginated { sorting := [.text (py "sn")] } 10)] :=
  searches_leave_nothing barren 1 { server := some [] }
    (fun server hserver => by cases hserver; exact List.nodup_nil) _ (.inr (by
      simp [SearchCall.Tidy, SearchCall.replaces, SearchCall.places, SearchCall.types_sortingControls]))

/-- After a paged search the next one carries its paging control. -/
theorem search_carries_leftover :
    ¬ Along (SearchCall.controlsAfter barren 1) (SearchCall.OnlyOwn barren 1 { server := some [] })
      { server := some [] }
      [(barrenState, .searchPaged {} 2), (barrenState, .search {})] := by
  rintro ⟨-, hsearch, -⟩
  obtain ⟨⟨own, hown, hserver⟩, -⟩ := hsearch 0
    (SearchArgs.operation {} (-1) (some { server := some [simplePagedResults 2 [] true], response := some [] }))
    (.ok (some 1)) () (by
      show _ ∈ List.drop 0 _
      exact List.mem_cons_self)
  cases hown
  cases hserver

end FreeIam.Ldap
