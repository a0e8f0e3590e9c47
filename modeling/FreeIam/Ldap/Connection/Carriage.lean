import FreeIam.Ldap.Connection.Delivery
import FreeIam.Ldap.Connection.Log
import FreeIam.Ldap.Connection.Write

/-!
# Controls of writes

The operations that change entries pass the caller's controls to the request they
are named after. The rename that `modify_ml` makes on its own and the deletes of
the children in `delete_recursive` are made without them.
-/

namespace FreeIam.Ldap

open FreeIam.Py FreeIam.Errors FreeIam.Exec

/-! ## Calls and their requests -/

/-- The requests that change an entry. -/
def Request.isWrite : Request → Bool
  | .addExt _ _ | .modifyExt _ _ | .deleteExt _ | .rename _ _ _ _ => true
  | _ => false

/-- A call of an operation that changes entries. -/
inductive WriteCall
  | modify (dn : DnArg) (oldattr newattr : List (PyStr × List Bytes))
  | modifyMl (dn : DnArg) (ml : List Modification)
  | move (dn newposition : DnArg)
  | modrdn (dn newrdn : DnArg) (deleteOld : Bool)
  | deleteRecursive (dn : DnArg)

variable {ω α : Type} (lib : Modlists ω) (polls : Nat)

/-- The method of a call, with the nested calls that Python allows. -/
def WriteCall.method (depth : Nat) (controls : Option Controls) : WriteCall → Method ω Result
  | .modify dn oldattr newattr => Method.modify lib polls dn oldattr newattr controls
  | .modifyMl dn ml => Method.modifyMl lib polls dn ml controls
  | .move dn newposition => Method.move lib polls dn newposition controls
  | .modrdn dn newrdn deleteOld => Method.modrdn lib polls dn newrdn deleteOld controls
  | .deleteRecursive dn => Method.deleteRecursive lib polls depth dn controls

/-- A write carries the controls. -/
def Operation.CarriesIfWrite (controls : Option Controls) (op : Operation) : Prop :=
  op.request.isWrite = true → (op.serverctrls, op.clientctrls) = Controls.expand controls

/-- Every write that was sent since the log had a length carries the controls. -/
def Carried (controls : Option Controls) (start : Nat) (s : State ω) : Prop :=
  ∀ o op outcome w, .request o op outcome w ∈ s.calls.drop start → op.CarriesIfWrite controls

namespace Method

variable {env : Env ω} {R : List (Call ω) → Prop} {o : Obj} {n : Nat}

/-! ## Controls that are passed on -/

/-- Writes with the second controls carry the first. -/
def Passes (controls controls' : Option Controls) : Prop :=
  ∀ request : Request, (request.with controls').CarriesIfWrite controls

theorem Passes.self (controls : Option Controls) : Passes controls controls := fun _ _ => rfl

/-- Controls that expand to nothing are carried by every request without controls. -/
theorem Passes.empty {controls : Option Controls} (h : Controls.expand controls = (none, none)) :
    Passes controls none := fun _ _ => h.symm

section

variable {lib : Modlists ω} {polls : Nat} {controls controls' : Option Controls} {start : Nat}

theorem executeWrite_carries (h : Passes controls controls') (o' : Obj) (request : Request)
    (dn : DnArg) : Keeps (Logged (Sends start (Operation.CarriesIfWrite controls)) o n)
      (executeWrite lib polls o' request dn controls') :=
  Keeps.bind (execute_sends polls (h request) o') fun _ => ofExcept_keeps _

theorem rename_carries (h : Passes controls controls') (dn newdn : DnArg) (deleteOld : Bool) :
    Keeps (Logged (Sends start (Operation.CarriesIfWrite controls)) o n)
      (rename lib polls dn newdn deleteOld controls') :=
  Keeps.bind conn_keeps fun o' => Keeps.bind (ofExcept_keeps _) fun _ =>
    Keeps.bind (ofExcept_keeps _) fun _ => executeWrite_carries h o' _ _

theorem move_carries (h : Passes controls controls') (dn newposition : DnArg) :
    Keeps (Logged (Sends start (Operation.CarriesIfWrite controls)) o n)
      (move lib polls dn newposition controls') :=
  Keeps.bind (ofExcept_keeps _) fun _ => Keeps.bind (ofExcept_keeps _) fun _ =>
    Keeps.bind (ofExcept_keeps _) fun _ => rename_carries h _ _ _

theorem modrdn_carries (h : Passes controls controls') (dn newrdn : DnArg) (deleteOld : Bool) :
    Keeps (Logged (Sends start (Operation.CarriesIfWrite controls)) o n)
      (modrdn lib polls dn newrdn deleteOld controls') :=
  Keeps.bind (ofExcept_keeps _) fun _ => Keeps.bind (ofExcept_keeps _) fun _ =>
    Keeps.bind (ofExcept_keeps _) fun _ => rename_carries h _ _ _

theorem delete_carries (h : Passes controls controls') (dn : DnArg) :
    Keeps (Logged (Sends start (Operation.CarriesIfWrite controls)) o n)
      (delete lib polls dn controls') :=
  Keeps.bind conn_keeps fun o' => executeWrite_carries h o' _ _

/-- A search is no write. -/
theorem search_carries (args : SearchArgs) :
    Keeps (Logged (Sends start (Operation.CarriesIfWrite controls)) o n)
      (search lib.toEnv polls args) := by
  refine Keeps.bind conn_keeps fun o' => Keeps.bind (ofExcept_keeps _) fun searchControls => ?_
  refine Discipline.searchedFor_rule (Keeps.bind Keeps.get fun s₀ => ?_)
  have hop : (args.operation s₀.self.timeout searchControls).CarriesIfWrite controls :=
    fun hwrite => by cases hwrite
  refine Keeps.bind (execute_sends polls hop o') fun response => Keeps.bind ?_ fun results => ?_
  · unfold responseResults
    cases response.data with
    | none => exact Keeps.throw _
    | some data => exact ofExcept_keeps _
  · exact Keeps.bind (Keeps.onlyIf (Keeps.throw _)) fun _ => Keeps.pure _

theorem forChildren_keeps {J : State ω → Prop} {body : DN → Method ω Unit}
    (h : ∀ child, Keeps J (body child)) (results : List Result) :
    Keeps J (forChildren body results) := by
  induction results with
  | nil => exact Keeps.pure _
  | cons result results ih =>
    rw [forChildren]
    cases result.dn with
    | none => exact Keeps.throw _
    | some child => exact Keeps.bind (h child) fun _ => ih

/-- The recursive delete keeps what its deletes, with the controls and without, and
its searches keep. -/
theorem deleteRecursive_keeps {J : State ω → Prop}
    (hdelete : ∀ dn, Keeps J (delete lib polls dn controls'))
    (hnested : ∀ dn, Keeps J (delete lib polls dn none))
    (hsearch : ∀ args, Keeps J (search lib.toEnv polls args)) (depth : Nat) (dn : DnArg) :
    Keeps J (deleteRecursive lib polls depth dn controls') := by
  induction depth generalizing dn controls' with
  | zero => exact Keeps.throw _
  | succ depth ih =>
    rw [deleteRecursive]
    refine Keeps.bind (Keeps.tryCatch (Keeps.map (hdelete dn)) fun e => ?_) fun deleted => ?_
    · refine Keeps.ite (Keeps.bind (hsearch _) fun results => ?_) (Keeps.throw _)
      exact Keeps.bind (forChildren_keeps (fun child => Keeps.discard (ih hnested _)) results)
        fun _ => Keeps.pure _
    · cases deleted with
      | none => exact hdelete dn
      | some result => exact Keeps.pure _

theorem modifyMl_carries (h : Passes controls controls') (hnone : Passes controls none) (dn : DnArg)
    (ml : List Modification) :
    Keeps (Logged (Sends start (Operation.CarriesIfWrite controls)) o n)
      (modifyMl lib polls dn ml controls') := by
  refine Keeps.bind conn_keeps fun o' => Keeps.bind (ofExcept_keeps _) fun old => ?_
  refine Keeps.bind (ofExcept_keeps _) fun newDn => Keeps.bind ?_ fun dn => ?_
  · exact Keeps.ite (Keeps.pure _) (Keeps.map (rename_carries hnone _ _ _))
  · exact executeWrite_carries h o' _ _

end

/-! ## Requests that are sent -/

/-- The operation was sent since the log had a length. -/
def Reached (start : Nat) (o : Obj) (op : Operation) (calls : List (Call ω)) : Prop :=
  ∃ outcome w, .request o op outcome w ∈ calls.drop start

/-- The log has reached a length. -/
def Since (start : Nat) (calls : List (Call ω)) : Prop := start ≤ calls.length

theorem reached_growing (start : Nat) (o : Obj) (op : Operation) :
    Growing (ω := ω) (Reached start o op) := by
  rintro calls call ⟨outcome, w, hmem⟩
  exact ⟨outcome, w, by
    rw [List.drop_append]
    exact List.mem_append_left _ hmem⟩

theorem since_growing (start : Nat) : Growing (ω := ω) (Since start) := by
  intro calls call h
  show start ≤ (calls ++ [call]).length
  rw [List.length_append]
  exact Nat.le_add_right_of_le h

theorem Since.reached {start : Nat} {calls : List (Call ω)} (h : Since start calls) (o : Obj)
    (op : Operation) (outcome : Except PyExc (Option Nat)) (w : ω) :
    Reached start o op (calls ++ [.request o op outcome w]) := by
  refine ⟨outcome, w, ?_⟩
  rw [List.drop_append_of_le_length h]
  exact List.mem_append_right _ (List.mem_singleton_self _)

section

variable {lib : Modlists ω} {polls : Nat} {controls : Option Controls} {start : Nat}

/-- With an attempt left the request of an operation is sent. -/
theorem execute_reaches (hn : 0 < n) (o' : Obj) (op : Operation) :
    Spec (Logged (Since start) o n) (execute env polls o' op)
      (fun _ => Logged (Reached start o' op) o n) (fun _ => Logged (Reached start o' op) o n) := by
  have hkeep : Discipline env (fun _ => Logged (Reached start o' op) o n)
      (fun _ => Logged (Reached start o' op) o n) := logged_discipline (reached_growing start o' op)
  have hrequest : Spec (Logged (Since start) o n) (request env o' op)
      (fun _ => Logged (Reached start o' op) o n) (fun _ => Logged (Reached start o' op) o n) :=
    request_rule (fun s msgid w hs _ => ⟨hs.log.reached o' op _ w, hs.conn, hs.attempts⟩)
      fun s e w hs _ => ⟨hs.log.reached o' op _ w, hs.conn, hs.attempts⟩
  -- a further attempt only adds to the log
  have hagain : ∀ attempts, attempts < n →
      Keeps (Logged (Reached start o' op) o n) (retryLoop env n (request env o' op) attempts) := by
    intro attempts hattempts
    cases attempts with
    | zero => exact Keeps.throw _
    | succ attempts =>
      have hkept : Keeps (Logged (Reached start o' op) o n) (request env o' op) :=
        Spec.conseq (hkeep.request o' op) (fun _ hs => hs)
          (fun msgid s hs => by cases msgid <;> exact hs) fun _ _ hs => hs.1
      exact retryLoop_rule hkept (logged_synchronous.toReconnecting.reconnect_keeps true)
        (fun _ _ _ _ hs => hs) attempts hattempts
  have hretry : Spec (Logged (Since start) o n) (retry env (request env o' op))
      (fun _ => Logged (Reached start o' op) o n) (fun _ => Logged (Reached start o' op) o n) := by
    unfold retry
    refine Spec.bind (Q := fun s₀ s => s₀.self.maxConnectionAttempts = n ∧ Logged (Since start) o n s)
      (Spec.get fun s hs => ⟨hs.attempts, hs⟩) fun s₀ => Spec.assume fun hs₀ => ?_
    obtain ⟨attempts, rfl⟩ := Nat.exists_eq_succ_of_ne_zero (Nat.ne_of_gt hn)
    simp only [hs₀]
    rw [retryLoop]
    refine Spec.tryCatch (E := fun _ => Logged (Reached start o' op) o (attempts + 1)) ?_ fun e => ?_
    · rw [onlyIf_false (by simp)]
      exact Spec.bind (Spec.pure fun s hs => hs) fun _ => hrequest
    · refine Keeps.ite (Keeps.ite (Keeps.throw _) (hagain attempts (Nat.lt_succ_self _))) (Keeps.throw _)
  -- once the request is logged the polls keep it
  refine execute_rule (S := fun _ => Logged (Reached start o' op) o n)
    (R := fun _ _ => Logged (Reached start o' op) o n) ?_ (fun msgid => ?_) (fun msgid r => ?_)
    fun _ _ _ hs => hs
  · refine Spec.conseq hretry (fun _ hs => hs) (fun msgid s hs => ?_) fun _ _ hs => hs
    cases msgid with
    | none => exact hs
    | some msgid => exact hs
  · refine Spec.conseq (hkeep.poll_keeps o' msgid true polls) (fun _ hs => hs) (fun r s hs => ?_)
      fun _ _ hs => hs
    cases r with
    | none => exact hs
    | some r => exact hs
  · refine Spec.conseq (hkeep.poll_keeps o' msgid true polls) (fun _ hs => hs) (fun r' s hs => ?_)
      fun _ _ hs => hs
    cases r' with
    | none => exact hs
    | some r' => exact hs

/-- `conn` is the object of the connection. -/
theorem conn_logged {R : List (Call ω) → Prop} {E : PyExc → State ω → Prop} :
    Spec (Logged R o n) (conn : Method ω Obj) (fun o' s => o' = o ∧ Logged R o n s) E := by
  refine conn_rule (fun o' s hs hc => ⟨?_, hs⟩) fun s hs hc => ?_
  · exact Option.some.inj (hc.symm.trans hs.conn)
  · rw [hs.conn] at hc
    cases hc

/-- Operations on entries keep what further calls keep. -/
theorem delete_keeps (hR : Growing R) (dn : DnArg) (controls : Option Controls) :
    Keeps (Logged R o n) (delete lib polls dn controls) :=
  Keeps.bind conn_keeps fun o' =>
    Keeps.bind ((logged_discipline hR).execute_keeps polls o' _) fun _ => ofExcept_keeps _

theorem search_keeps (hR : Growing R) (args : SearchArgs) :
    Keeps (Logged R o n) (search lib.toEnv polls args) :=
  (logged_discipline hR).search_keeps polls args

theorem delete_reaches (hn : 0 < n) (dn : DnArg) (controls : Option Controls) :
    Spec (Logged (Since start) o n) (delete lib polls dn controls)
      (fun _ => Logged (Reached start o ((Request.deleteExt (DN.str lib dn)).with controls)) o n)
      (fun _ => Logged (Reached start o ((Request.deleteExt (DN.str lib dn)).with controls)) o n) := by
  refine Spec.bind conn_logged fun o' => Spec.assume ?_
  rintro rfl
  exact Spec.bind (execute_reaches hn o' _) fun _ => ofExcept_keeps _

theorem rename_reaches (hn : 0 < n) {dn : DnArg} {newdn : DN} {deleteOld : Bool} {request : Request}
    (hrequest : renameRequest lib dn newdn deleteOld = .ok request) (controls : Option Controls) :
    Spec (Logged (Since start) o n) (rename lib polls dn (.dn newdn) deleteOld controls)
      (fun _ => Logged (Reached start o (request.with controls)) o n)
      (fun _ => Logged (Reached start o (request.with controls)) o n) := by
  refine Spec.bind conn_logged fun o' => Spec.assume ?_
  rintro rfl
  refine Spec.bind (Q := fun newdn' s => newdn' = newdn ∧ Logged (Since start) o' n s)
    (Spec.pure fun s hs => ⟨rfl, hs⟩) fun newdn' => Spec.assume ?_
  rintro rfl
  rw [hrequest]
  refine Spec.bind (Q := fun request' s => request' = request ∧ Logged (Since start) o' n s)
    (Spec.pure fun s hs => ⟨rfl, hs⟩) fun request' => Spec.assume ?_
  rintro rfl
  exact Spec.bind (execute_reaches hn o' _) fun _ => ofExcept_keeps _

end

end Method

/-! ## Steps without the controls -/

/-- The modifications change a naming attribute: `modify_ml` renames the entry first. -/
def RenamesFirst (dn : DnArg) (ml : List Modification) : Prop :=
  ∃ old newDn request, DN.get lib.toNames dn = .ok old ∧ computeChangedDn lib old ml = .ok newDn ∧
    newDn.eq lib.toNames old = false ∧ renameRequest lib dn newDn true = .ok request

/-- The server refuses the delete because of the children of the entry, and names one. -/
def HasChild (controls : Option Controls) (dn : DnArg) (s : State ω) : Prop :=
  ∃ e s₁ result results s₂, (Method.delete lib polls dn controls).run s = .error e s₁ ∧
    e.is (.other "NotAllowedOnNonleaf") = true ∧
    (Method.search lib.toEnv polls (Method.childrenArgs lib dn)).run s₁ = .ok (result :: results) s₂ ∧
    result.dn.isSome = true

/-- The call makes a step of its own besides the one it is named after. -/
def WriteCall.Detour (controls : Option Controls) (s : State ω) : WriteCall → Prop
  | .modify dn oldattr newattr => RenamesFirst lib dn (lib.modifyModlist oldattr newattr)
  | .modifyMl dn ml => RenamesFirst lib dn ml
  | .move _ _ => False
  | .modrdn _ _ _ => False
  | .deleteRecursive dn => HasChild lib polls controls dn s

/-- Nothing is sent: there is no session, or no attempt allowed. -/
def Idle (s : State ω) : Prop := s.self.conn = none ∨ s.self.maxConnectionAttempts = 0

variable {lib polls}

namespace Method

variable {controls : Option Controls} {s : State ω} {o : Obj} {n : Nat}

/-- What holds while no write without the controls has been sent since `s`. -/
abbrev Clean (controls : Option Controls) (s : State ω) (o : Obj) (n : Nat) : State ω → Prop :=
  Logged (Sends s.calls.length (Operation.CarriesIfWrite controls)) o n

theorem clean_start (hconn : s.self.conn = some o) (hn : s.self.maxConnectionAttempts = n) :
    Clean controls s o n s where
  log := by
    intro o' op outcome w hmem
    rw [List.drop_length] at hmem
    cases hmem
  conn := hconn
  attempts := hn

/-- Without a rename of its own a modification carries the controls. -/
theorem modifyMl_direct {dn : DnArg} {ml : List Modification} (h : ¬ RenamesFirst lib dn ml) :
    Keeps (Clean controls s o n) (modifyMl lib polls dn ml controls) := by
  have hpasses := Passes.self controls
  refine Keeps.bind conn_keeps fun o' => ?_
  refine Spec.bind (Q := fun old s' => DN.get lib.toNames dn = .ok old ∧ Clean controls s o n s')
    (ofExcept_rule (fun _ _ heq hs => ⟨heq, hs⟩) fun _ _ _ hs => hs) fun old => Spec.assume fun hold => ?_
  refine Spec.bind (Q := fun newDn s' => computeChangedDn lib old ml = .ok newDn ∧ Clean controls s o n s')
    (ofExcept_rule (fun _ _ heq hs => ⟨heq, hs⟩) fun _ _ _ hs => hs) fun newDn => Spec.assume fun hnew => ?_
  refine Keeps.bind ?_ fun dn => executeWrite_carries hpasses o' _ _
  rw [renameChanged]
  cases heq : newDn.eq lib.toNames old with
  | true => exact Keeps.pure _
  | false =>
    rw [if_neg Bool.false_ne_true]
    cases hrequest : renameRequest lib dn newDn true with
    | ok request => exact absurd ⟨old, newDn, request, hold, hnew, heq, hrequest⟩ h
    | error e =>
      -- the arguments of the rename cannot be computed, so it is not sent
      refine Keeps.map (Keeps.bind conn_keeps fun o' => ?_)
      refine Spec.bind (Q := fun newdn s' => newdn = newDn ∧ Clean controls s o n s')
        (Spec.pure fun s hs => ⟨rfl, hs⟩) fun newdn => Spec.assume ?_
      rintro rfl
      rw [hrequest]
      exact Spec.bind (Q := fun _ _ => False) (Spec.throw fun s hs => hs) fun _ _ hs => hs.elim

/-- With a rename of its own a modification sends a request without controls. -/
theorem modifyMl_detour (hn : 0 < n) {dn : DnArg} {ml : List Modification}
    (h : RenamesFirst lib dn ml) (controls : Option Controls) {start : Nat} :
    ∃ request : Request, request.isWrite = true ∧
      Spec (Logged (Since start) o n) (modifyMl lib polls dn ml controls)
        (fun _ => Logged (Reached start o (request.with none)) o n)
        (fun _ => Logged (Reached start o (request.with none)) o n) := by
  obtain ⟨old, newDn, request, hold, hnew, heq, hrequest⟩ := h
  have hwrite : request.isWrite = true := by
    rw [renameRequest] at hrequest
    cases hfirst : newDn.first lib with
    | error e => rw [hfirst] at hrequest; cases hrequest
    | ok newrdn =>
      cases hparent : newDn.parent lib.toNames with
      | error e => rw [hfirst, hparent] at hrequest; cases hrequest
      | ok parent =>
        rw [hfirst, hparent] at hrequest
        cases hrequest
        rfl
  have hkeep : Discipline lib.toEnv (fun _ => Logged (Reached start o (request.with none)) o n)
      (fun _ => Logged (Reached start o (request.with none)) o n) :=
    logged_discipline (reached_growing start o (request.with none))
  refine ⟨request, hwrite, ?_⟩
  -- nothing is sent before the rename
  refine Spec.bind (Q := fun _ => Logged (Since start) o n)
    (conn_rule (fun _ _ hs _ => hs) fun s hs hc => ?_) fun o' => ?_
  · rw [hs.conn] at hc
    cases hc
  rw [hold]
  refine Spec.bind (Q := fun old' s => old' = old ∧ Logged (Since start) o n s)
    (Spec.pure fun s hs => ⟨rfl, hs⟩) fun old' => Spec.assume ?_
  rintro rfl
  rw [hnew]
  refine Spec.bind (Q := fun newDn' s => newDn' = newDn ∧ Logged (Since start) o n s)
    (Spec.pure fun s hs => ⟨rfl, hs⟩) fun newDn' => Spec.assume ?_
  rintro rfl
  rw [renameChanged, heq, if_neg Bool.false_ne_true]
  refine Spec.bind (Q := fun _ => Logged (Reached start o (request.with none)) o n)
    (Spec.map (rename_reaches hn hrequest none) fun _ _ hs => hs) fun dn => ?_
  exact Keeps.bind (hkeep.execute_keeps polls o' _) fun _ => ofExcept_keeps _

/-- Without a child to delete the recursive delete carries the controls. -/
theorem deleteRecursive_direct {dn : DnArg} (h : ¬ HasChild lib polls controls dn s)
    (hs : Clean controls s o n s) (depth : Nat) :
    Clean controls s o n
      (final ((deleteRecursive lib polls (depth + 1) dn controls).run s)) := by
  have hdelete : Keeps (Clean controls s o n) (delete lib polls dn controls) :=
    delete_carries (Passes.self controls) dn
  rw [deleteRecursive, EStateM.run_bind, run_tryCatch, run_map]
  cases hrun : (delete lib polls dn controls).run s with
  | ok result s₁ => exact hdelete.ok hs hrun
  | error e s₁ =>
    have hs₁ := hdelete.error hs hrun
    simp only
    by_cases he : e.is (.other "NotAllowedOnNonleaf") = true
    · rw [if_pos he, EStateM.run_bind]
      have hsearch : Keeps (Clean controls s o n) (search lib.toEnv polls (childrenArgs lib dn)) :=
        search_carries (childrenArgs lib dn)
      cases hfound : (search lib.toEnv polls (childrenArgs lib dn)).run s₁ with
      | error e' s₂ => exact hsearch.error hs₁ hfound
      | ok results s₂ =>
        have hs₂ := hsearch.ok hs₁ hfound
        cases results with
        | nil => exact hdelete.final hs₂
        | cons result results =>
          cases hchild : result.dn with
          | some child =>
            exact absurd ⟨e, s₁, result, results, s₂, hrun, he, hfound, by rw [hchild]; rfl⟩ h
          | none =>
            simp only
            rw [EStateM.run_bind, forChildren, hchild]
            exact hs₂
    · rw [if_neg he]
      exact hs₁

/-- With a child to delete it sends a request without controls. -/
theorem deleteRecursive_detour (hn : 0 < n) {dn : DnArg} (h : HasChild lib polls controls dn s)
    (hconn : s.self.conn = some o) (hattempts : s.self.maxConnectionAttempts = n) (depth : Nat) :
    ∃ request : Request, request.isWrite = true ∧
      Logged (Reached s.calls.length o (request.with none)) o n
        (final ((deleteRecursive lib polls (depth + 2) dn controls).run s)) := by
  obtain ⟨e, s₁, result, results, s₂, hrun, he, hfound, hsome⟩ := h
  obtain ⟨child, hchild⟩ := Option.isSome_iff_exists.mp hsome
  have hs : Logged (Since s.calls.length) o n s := ⟨Nat.le_refl _, hconn, hattempts⟩
  have hs₁ := (delete_keeps (since_growing s.calls.length) dn controls).error hs hrun
  have hs₂ := (search_keeps (since_growing s.calls.length) (childrenArgs lib dn)).ok hs₁ hfound
  let op := (Request.deleteExt (DN.str lib (.dn child))).with none
  have hgrow := reached_growing (ω := ω) s.calls.length o op
  -- the delete of the child comes first, what follows only makes the log longer
  have hnested : Spec (Logged (Since s.calls.length) o n)
      (deleteRecursive lib polls (depth + 1) (.dn child) none)
      (fun _ => Logged (Reached s.calls.length o op) o n)
      (fun _ => Logged (Reached s.calls.length o op) o n) := by
    rw [deleteRecursive]
    refine Spec.bind (Q := fun _ => Logged (Reached s.calls.length o op) o n)
      (Spec.tryCatch (Spec.map (delete_reaches hn (.dn child) none) fun _ _ hs => hs) fun e => ?_)
      fun deleted => ?_
    · refine Keeps.ite (Keeps.bind (search_keeps hgrow _) fun results => ?_) (Keeps.throw _)
      exact Keeps.bind (forChildren_keeps (fun child => Keeps.discard
        (deleteRecursive_keeps (fun dn => delete_keeps hgrow dn none)
          (fun dn => delete_keeps hgrow dn none) (search_keeps hgrow) depth _)) results)
        fun _ => Keeps.pure _
    · cases deleted with
      | none => exact delete_keeps hgrow _ _
      | some result => exact Keeps.pure _
  have hchildren : Spec (Logged (Since s.calls.length) o n)
      (forChildren (fun child => discard (deleteRecursive lib polls (depth + 1) (.dn child) none))
        (result :: results))
      (fun _ => Logged (Reached s.calls.length o op) o n)
      (fun _ => Logged (Reached s.calls.length o op) o n) := by
    rw [forChildren, hchild]
    refine Spec.bind (Q := fun _ => Logged (Reached s.calls.length o op) o n)
      (Spec.map hnested fun _ _ hs => hs) fun _ => ?_
    exact forChildren_keeps (fun child => Keeps.discard
      (deleteRecursive_keeps (fun dn => delete_keeps hgrow dn none)
        (fun dn => delete_keeps hgrow dn none) (search_keeps hgrow) (depth + 1) _)) results
  refine ⟨.deleteExt (DN.str lib (.dn child)), rfl, ?_⟩
  rw [deleteRecursive, EStateM.run_bind, run_tryCatch, run_map, hrun]
  simp only
  rw [if_pos he, EStateM.run_bind, hfound]
  simp only
  rw [EStateM.run_bind]
  cases hloop : (forChildren
      (fun child => discard (deleteRecursive lib polls (depth + 1) (.dn child) none))
      (result :: results)).run s₂ with
  | error e' s₃ => exact hchildren.error hs₂ hloop
  | ok u s₃ => exact (delete_keeps hgrow dn controls).final (hchildren.ok hs₂ hloop)

/-! ## Without a session -/

/-- The run fails at once. -/
def FailsAt (m : Method ω α) (s : State ω) : Prop := ∃ e, m.run s = .error e s

/-- What follows a value computed from names fails if it does for every value. -/
theorem FailsAt.ofExcept {β : Type} {x : Except PyExc β} {f : β → Method ω α}
    (hf : ∀ a, FailsAt (f a) s) : FailsAt (ofExcept x >>= f) s := by
  cases x with
  | error e => exact ⟨e, rfl⟩
  | ok a =>
    obtain ⟨e, he⟩ := hf a
    exact ⟨e, he⟩

theorem execute_idle {env : Env ω} (h : s.self.maxConnectionAttempts = 0) (o : Obj)
    (op : Operation) : (execute env polls o op).run s = .error (.runtimeError "") s := by
  unfold execute retry
  rw [EStateM.run_bind, EStateM.run_bind, EStateM.run_get]
  simp only [h]
  rfl

/-- An operation on the object of the connection, of which there is none, or which
has no attempt. -/
theorem FailsAt.conn (h : Idle s) {f : Obj → Method ω α}
    (hf : s.self.maxConnectionAttempts = 0 → ∀ o, FailsAt (f o) s) : FailsAt (conn >>= f) s := by
  cases hconn : s.self.conn with
  | none => exact ⟨_, by rw [EStateM.run_bind, conn_none hconn]⟩
  | some o =>
    have hattempts := h.resolve_left (by rw [hconn]; simp)
    obtain ⟨e, he⟩ := hf hattempts o
    exact ⟨e, by rw [EStateM.run_bind, conn_ok hconn]; exact he⟩

theorem rename_idle (h : Idle s) (dn newdn : DnArg) (deleteOld : Bool) (controls : Option Controls) :
    FailsAt (rename lib polls dn newdn deleteOld controls) s :=
  FailsAt.conn h fun hattempts o => FailsAt.ofExcept fun _ => FailsAt.ofExcept fun _ =>
    ⟨_, by rw [executeWrite, EStateM.run_bind, execute_idle hattempts]⟩

theorem modifyMl_idle (h : Idle s) (dn : DnArg) (ml : List Modification)
    (controls : Option Controls) : FailsAt (modifyMl lib polls dn ml controls) s := by
  refine FailsAt.conn h fun hattempts o => FailsAt.ofExcept fun old => FailsAt.ofExcept fun newDn => ?_
  rw [renameChanged]
  by_cases heq : newDn.eq lib.toNames old = true
  · rw [if_pos heq]
    exact ⟨_, by rw [pure_bind, executeWrite, EStateM.run_bind, execute_idle hattempts]⟩
  · obtain ⟨e, he⟩ := rename_idle h dn (.dn newDn) true none
    rw [if_neg heq]
    exact ⟨e, by rw [EStateM.run_bind, run_map, he]⟩

theorem delete_idle (h : Idle s) (dn : DnArg) (controls : Option Controls) :
    ∃ message, (delete lib polls dn controls).run s = .error (.runtimeError message) s := by
  unfold delete
  rw [EStateM.run_bind]
  cases hconn : s.self.conn with
  | none => exact ⟨_, by rw [conn_none hconn]⟩
  | some o =>
    have hattempts := h.resolve_left (by rw [hconn]; simp)
    exact ⟨"", by
      rw [conn_ok hconn]
      simp only
      rw [executeWrite, EStateM.run_bind, execute_idle hattempts]⟩

/-- Without a session, or without an attempt, no call sends anything. -/
theorem method_idle (h : Idle s) (depth : Nat) (call : WriteCall) :
    FailsAt (call.method lib polls (depth + 1) controls) s := by
  cases call with
  | modify dn oldattr newattr => exact modifyMl_idle h dn _ controls
  | modifyMl dn ml => exact modifyMl_idle h dn ml controls
  | move dn newposition =>
    exact FailsAt.ofExcept fun _ => FailsAt.ofExcept fun _ => FailsAt.ofExcept fun _ =>
      rename_idle h _ _ _ _
  | modrdn dn newrdn deleteOld =>
    exact FailsAt.ofExcept fun _ => FailsAt.ofExcept fun _ => FailsAt.ofExcept fun _ =>
      rename_idle h _ _ _ _
  | deleteRecursive dn =>
    obtain ⟨message, hdelete⟩ := delete_idle h dn controls
    refine ⟨.runtimeError message, ?_⟩
    show (deleteRecursive lib polls (depth + 1) dn controls).run s = _
    rw [deleteRecursive, EStateM.run_bind, run_tryCatch, run_map, hdelete]
    rfl

/-- Controls that expand to nothing are carried by every request. -/
theorem method_empty (hempty : Controls.expand controls = (none, none)) (depth : Nat)
    (call : WriteCall) :
    Keeps (Clean controls s o n) (call.method lib polls depth controls) := by
  have hself := Passes.self controls
  have hnone := Passes.empty hempty
  cases call with
  | modify dn oldattr newattr => exact modifyMl_carries hself hnone dn _
  | modifyMl dn ml => exact modifyMl_carries hself hnone dn ml
  | move dn newposition => exact move_carries hself dn newposition
  | modrdn dn newrdn deleteOld => exact modrdn_carries hself dn newrdn deleteOld
  | deleteRecursive dn =>
    exact deleteRecursive_keeps (delete_carries hself) (delete_carries hnone) search_carries depth dn

/-- A call without a detour sends its writes with the controls. -/
theorem method_direct (depth : Nat) {call : WriteCall} (h : ¬ call.Detour lib polls controls s)
    (hs : Clean controls s o n s) :
    Clean controls s o n (final ((call.method lib polls (depth + 1) controls).run s)) := by
  have hself := Passes.self controls
  cases call with
  | modify dn oldattr newattr => exact (modifyMl_direct h).final hs
  | modifyMl dn ml => exact (modifyMl_direct h).final hs
  | move dn newposition => exact (move_carries hself dn newposition).final hs
  | modrdn dn newrdn deleteOld => exact (modrdn_carries hself dn newrdn deleteOld).final hs
  | deleteRecursive dn => exact deleteRecursive_direct h hs depth

/-- A call with a detour sends a write without controls. -/
theorem method_detour (hn : 0 < n) (depth : Nat) {call : WriteCall}
    (h : call.Detour lib polls controls s) (hconn : s.self.conn = some o)
    (hattempts : s.self.maxConnectionAttempts = n) :
    ∃ request : Request, request.isWrite = true ∧
      Reached s.calls.length o (request.with none)
        (final ((call.method lib polls (depth + 2) controls).run s)).calls := by
  have hs : Logged (Since s.calls.length) o n s := ⟨Nat.le_refl _, hconn, hattempts⟩
  have hmodify : ∀ dn ml, RenamesFirst lib dn ml → ∃ request : Request, request.isWrite = true ∧
      Reached s.calls.length o (request.with none)
        (final ((modifyMl lib polls dn ml controls).run s)).calls := by
    intro dn ml hml
    obtain ⟨request, hwrite, hspec⟩ := modifyMl_detour hn hml controls
    exact ⟨request, hwrite, (hspec.final hs).log⟩
  cases call with
  | modify dn oldattr newattr => exact hmodify dn _ h
  | modifyMl dn ml => exact hmodify dn ml h
  | move dn newposition => exact h.elim
  | modrdn dn newrdn deleteOld => exact h.elim
  | deleteRecursive dn =>
    obtain ⟨request, hwrite, hlog⟩ := deleteRecursive_detour hn h hconn hattempts depth
    exact ⟨request, hwrite, hlog.log⟩

end Method

/-! ## The law -/

variable (lib polls)

/-- Every write that a call sends carries the caller's controls exactly when these are
empty, or nothing is sent, or the call makes no step of its own besides the one it
is named after. -/
theorem controls_reach_writes_iff (depth : Nat) (call : WriteCall) (c : Controls) (s : State ω) :
    Carried (some c) s.calls.length (final ((call.method lib polls (depth + 2) (some c)).run s)) ↔
      Controls.expand (some c) = (none, none) ∨ Idle s ∨ ¬ call.Detour lib polls (some c) s := by
  constructor
  · intro h
    by_contra hnot
    simp only [not_or, not_not] at hnot
    obtain ⟨hne, hbusy, hdetour⟩ := hnot
    obtain ⟨o, hconn⟩ := Option.ne_none_iff_exists'.mp fun hc => hbusy (.inl hc)
    have hn : 0 < s.self.maxConnectionAttempts := Nat.pos_of_ne_zero fun hn => hbusy (.inr hn)
    obtain ⟨request, hwrite, outcome, w, hmem⟩ := Method.method_detour hn depth hdetour hconn rfl
    exact hne (h o _ outcome w hmem hwrite).symm
  · intro h
    by_cases hidle : Idle s
    · obtain ⟨e, he⟩ := Method.method_idle hidle (depth + 1) call
      rw [he]
      intro o op outcome w hmem
      rw [final_error, List.drop_length] at hmem
      cases hmem
    · obtain ⟨o, hconn⟩ := Option.ne_none_iff_exists'.mp fun hc => hidle (.inl hc)
      have hs : Method.Clean (some c) s o s.self.maxConnectionAttempts s := Method.clean_start hconn rfl
      rcases h with hempty | hidle' | hdirect
      · exact ((Method.method_empty hempty (depth + 2) call).final hs).log
      · exact absurd hidle' hidle
      · exact (Method.method_direct (depth + 1) hdirect hs).log

/-- A server that answers every request with success. -/
def obliging : Modlists Unit :=
  { simpleNames with
    result4 := fun _ _ _ _ =>
      pure { type := some .modify, data := some [], msgid := some 1, ctrls := some [] }
    modifyModlist := fun _ _ => [] }

/-- Controls with an assertion control of the caller. -/
def assertion : Controls := { server := some [⟨"1.3.6.1.1.12", true, .encoded (some [])⟩] }

/-- The first value of `cn` is replaced. -/
def newCn : WriteCall := .modifyMl (.text (py "cn=foo,dc=org")) [(2, py "cn", .list [[98, 97, 114]])]

/-- The rename of a modification of `cn` is sent without the caller's control. -/
theorem modify_ml_renames_without_controls :
    ¬ Carried (some assertion) 0 (final ((newCn.method obliging 1 2 (some assertion)).run
      { self := { Connection.init false [] with conn := some 1 }, world := (), calls := [] })) := by
  intro h
  have hdetour : newCn.Detour obliging 1 (some assertion)
      { self := { Connection.init false [] with conn := some 1 }, world := (), calls := [] } := by
    refine ⟨⟨py "cn=foo,dc=org", [[(py "cn", py "foo", 1)], [(py "dc", py "org", 1)]]⟩,
      ⟨py "cn=bar,dc=org", [[(py "cn", py "bar", 1)], [(py "dc", py "org", 1)]]⟩,
      .rename (py "cn=foo,dc=org") (py "cn=bar") (some (py "dc=org")) true, by rfl, by rfl, ?_, by rfl⟩
    rw [Bool.eq_false_iff]
    intro heq
    have hnormal := (DN.eq_iff simpleNames_noCollision).mp heq
    revert hnormal
    decide
  obtain ⟨request, hwrite, outcome, w, hmem⟩ :=
    Method.method_detour (n := 10) (by decide) 0 hdetour rfl rfl
  have hcarried := h 1 _ outcome w hmem hwrite
  cases hcarried

end FreeIam.Ldap
