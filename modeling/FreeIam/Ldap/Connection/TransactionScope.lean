import FreeIam.Ldap.Connection.Carriage
import FreeIam.Ldap.Connection.Classes
import FreeIam.Ldap.Connection.TransactionControls

/-!
# What belongs to a transaction

While a transaction is open its control is the server control of the connection, which
libldap sends with every request that is made without server controls of its own. So it
depends on the controls of a call whether its requests belong to the transaction.
-/

namespace FreeIam.Ldap

open FreeIam.Py FreeIam.Errors FreeIam.Exec FreeIam.Replay

/-! ## What every operation keeps -/

/-- A request that is no extended operation. -/
def Request.Plain : Request → Prop
  | .extop _ => False
  | _ => True

theorem renameRequest_plain {ω : Type} {lib : Modlists ω} {dn : DnArg} {newdn : DN} {deleteOld : Bool}
    {request : Request} (h : renameRequest lib dn newdn deleteOld = .ok request) : request.Plain := by
  unfold renameRequest at h
  cases hrdn : newdn.first lib with
  | error e =>
    rw [hrdn] at h
    cases h
  | ok newrdn =>
    cases hparent : newdn.parent lib.toNames with
    | error e =>
      rw [hrdn, hparent] at h
      cases h
    | ok parent =>
      rw [hrdn, hparent] at h
      cases h
      trivial

/-- The operations of an order are all right with the controls of the call. -/
def Order.Passes (ok : Operation → Prop) : Order → Prop
  | .add _ _ controls | .addAl _ _ controls | .modify _ _ _ controls | .modifyMl _ _ controls
  | .move _ _ controls | .rename _ _ _ controls | .modrdn _ _ _ controls | .delete _ controls
  | .deleteRecursive _ controls | .changePassword _ _ _ controls | .compare _ _ _ controls
  | .get _ _ _ _ controls | .exist _ _ controls =>
    ∀ request : Request, request.Plain → ok (request.with controls)
  | .search args | .searchDn args => ∀ controls, args.searchControls false = .ok controls →
    ∀ request : Request, request.Plain → ok (request.with controls)
  | .compareDn _ _ => True
  | .getRootDse _ _ => True
  | .extended request _ controls => ok ((Request.extop request).with controls)

theorem Order.passes_true (order : Order) : order.Passes fun _ => True := by
  cases order with
  | search args => exact fun _ _ _ _ => trivial
  | searchDn args => exact fun _ _ _ _ => trivial
  | compareDn entry dn => trivial
  | getRootDse attrs filterExpr => trivial
  | extended request responseClass controls => trivial
  | _ => exact fun _ _ => trivial

namespace Method

variable {ω : Type} {lib : Modlists ω} {J : State ω → Prop} {ok : Operation → Prop} {polls : Nat}

/-- What follows an expression is reached with its value. -/
theorem ofExcept_bind_keeps {α β : Type} {x : Except PyExc α} {f : α → Method ω β}
    (hf : ∀ a, x = .ok a → Keeps J (f a)) : Keeps J (ofExcept x >>= f) := by
  cases x with
  | ok a => exact hf a rfl
  | error e => exact fun s hs => hs

/-- `J` is kept by the operations that are all right, and those without controls are. -/
structure Executing (lib : Modlists ω) (polls : Nat) (ok : Operation → Prop) (J : State ω → Prop) : Prop where
  execute : ∀ o op, ok op → Keeps J (execute lib.toEnv polls o op)
  bare : ∀ request : Request, request.Plain → ok (request.with none)

namespace Executing

variable (h : Executing lib polls ok J)
include h

theorem executeWrite_keeps (o : Obj) {request : Request} (dn : DnArg) {controls : Option Controls}
    (hok : ok (request.with controls)) : Keeps J (executeWrite lib polls o request dn controls) :=
  Keeps.bind (h.execute o _ hok) fun _ => ofExcept_keeps _

/-- The controls of a search are the caller's, with the sorting control. -/
theorem search_keeps {args : SearchArgs} (hok : ∀ controls, args.searchControls false = .ok controls →
    ∀ request : Request, request.Plain → ok (request.with controls)) :
    Keeps J (search lib.toEnv polls args) := by
  refine Keeps.bind conn_keeps fun o => ofExcept_bind_keeps fun controls hcontrols => ?_
  refine Discipline.searchedFor_rule (Keeps.bind Keeps.get fun s₀ => ?_)
  refine Keeps.bind (h.execute o _ (hok controls hcontrols _ trivial)) fun response => Keeps.bind ?_ fun results => ?_
  · unfold responseResults
    cases response.data with
    | none => exact Keeps.throw _
    | some data => exact ofExcept_keeps _
  · exact Keeps.bind (Keeps.onlyIf (Keeps.throw _)) fun _ => Keeps.pure _

theorem getObject_keeps {controls : Option Controls}
    (hok : ∀ request : Request, request.Plain → ok (request.with controls)) (dn : PyStr) (attrs : Option (List PyStr)) (filterExpr : PyStr) (unique : Bool) :
    Keeps J (getObject lib.toEnv polls dn attrs filterExpr unique controls) := by
  refine Keeps.bind (h.search_keeps fun controls' hcontrols => ?_) fun results => Keeps.pure _
  cases hcontrols
  exact hok

theorem existsObject_keeps {controls : Option Controls}
    (hok : ∀ request : Request, request.Plain → ok (request.with controls)) (dn : PyStr) (unique : Bool) : Keeps J (existsObject lib.toEnv polls dn unique controls) :=
  Keeps.tryCatch (Keeps.bind (h.getObject_keeps hok dn _ _ unique) fun _ => Keeps.pure _) fun _ =>
    Keeps.ite (Keeps.pure _) (Keeps.throw _)

theorem compare_keeps {controls : Option Controls}
    (hok : ∀ request : Request, request.Plain → ok (request.with controls)) (dn : DnArg) (attr : PyStr) (value : Bytes) : Keeps J (compare lib polls dn attr value controls) := by
  refine Keeps.bind conn_keeps fun o => Keeps.bind (Keeps.tryCatch ?_ fun e => ?_) fun result => ?_
  · exact Keeps.bind (h.execute o _ (hok _ trivial)) fun _ => Keeps.pure _
  · cases e with
    | lib err =>
      refine Keeps.ite (Keeps.bind (ofExcept_keeps _) fun _ => Keeps.throw _) ?_
      exact Keeps.ite (Keeps.pure _) (Keeps.ite (Keeps.pure _) (Keeps.throw _))
    | _ => exact Keeps.throw _
  · cases result with
    | none => exact Keeps.throw _
    | some equal => exact Keeps.pure _

theorem compareRdn_keeps (entry parent : DN) (rdn : List Ava) :
    Keeps J (compareRdn lib polls entry parent rdn) := by
  induction rdn with
  | nil => exact Keeps.pure _
  | cons ava avas ih =>
    have hava : Keeps J (compareAva lib polls entry parent ava) := by
      refine Keeps.tryCatch (Keeps.bind (ofExcept_keeps _) fun value => h.compare_keeps h.bare _ _ value) fun e => ?_
      refine Keeps.ite (Keeps.bind (ofExcept_keeps _) fun top => ?_) (Keeps.throw _)
      exact Keeps.ite (Keeps.pure _) (Keeps.throw _)
    exact Keeps.bind hava fun equal => Keeps.ite ih (Keeps.pure _)

theorem compareParents_keeps (entry dn : DN) (raised : Option PyExc) (parents : List DN) (i : Nat) :
    Keeps J (compareParents lib polls entry dn raised i parents) := by
  induction parents generalizing i with
  | nil =>
    cases raised with
    | none => exact Keeps.pure _
    | some e => exact Keeps.throw _
  | cons parent parents ih =>
    refine Keeps.bind (ofExcept_keeps _) fun rdn => Keeps.bind (h.compareRdn_keeps entry parent rdn) fun equal => ?_
    exact Keeps.ite (ih (i + 1)) (Keeps.pure _)

theorem compareDn_keeps (entry dn : DnArg) : Keeps J (compareDn lib polls entry dn) :=
  Keeps.bind (ofExcept_keeps _) fun dn => Keeps.bind (ofExcept_keeps _) fun entry =>
    h.compareParents_keeps entry dn _ _ 0

theorem extended_keeps {controls : Option Controls} {request : ExtendedRequest}
    (hok : ok ((Request.extop request).with controls)) (responseClass : Option ExtendedResponse) :
    Keeps J (extended lib.toEnv polls request responseClass controls) := by
  refine Keeps.bind conn_keeps fun o => Keeps.bind (h.execute o _ hok) fun response => ?_
  exact Keeps.bind (wrap_keeps (ofExcept_keeps _)) fun _ => ofExcept_keeps _

section Writes

variable {controls : Option Controls} (hok : ∀ request : Request, request.Plain → ok (request.with controls))
include hok

theorem write_keeps (request : Obj → Request) (dn : DnArg) (hrequest : ∀ o, (request o).Plain) :
    Keeps J (conn >>= fun o => executeWrite lib polls o (request o) dn controls) :=
  Keeps.bind conn_keeps fun o => h.executeWrite_keeps o dn (hok _ (hrequest o))

theorem rename_keeps (dn newdn : DnArg) (deleteOld : Bool) :
    Keeps J (rename lib polls dn newdn deleteOld controls) := by
  refine Keeps.bind conn_keeps fun o => Keeps.bind (ofExcept_keeps _) fun _ => ?_
  exact ofExcept_bind_keeps fun _ hrequest => h.executeWrite_keeps o _ (hok _ (renameRequest_plain hrequest))

/-- The rename that `modify_ml` makes on its own has no controls. -/
theorem modifyMl_keeps (dn : DnArg) (ml : List Modification) : Keeps J (modifyMl lib polls dn ml controls) := by
  refine Keeps.bind conn_keeps fun o => Keeps.bind (ofExcept_keeps _) fun old => ?_
  refine Keeps.bind (ofExcept_keeps _) fun newDn => Keeps.bind ?_ fun dn => h.executeWrite_keeps o dn (hok _ ?_)
  · exact Keeps.ite (Keeps.pure _) (Keeps.map (h.rename_keeps h.bare _ _ _))
  · trivial

end Writes

/-- The children are searched for and deleted without controls. -/
theorem deleteRecursive_keeps {controls : Option Controls}
    (hok : ∀ request : Request, request.Plain → ok (request.with controls)) (depth : Nat) (dn : DnArg) :
    Keeps J (deleteRecursive lib polls depth dn controls) := by
  induction depth generalizing dn controls with
  | zero => exact Keeps.throw _
  | succ depth ih =>
    have hdelete : Keeps J (delete lib polls dn controls) := h.write_keeps hok _ dn fun _ => by trivial
    unfold deleteRecursive
    refine Keeps.bind (Keeps.tryCatch (Keeps.map hdelete) fun e => ?_) fun deleted => ?_
    · have hchildren : Keeps J (search lib.toEnv polls (childrenArgs lib dn)) :=
        h.search_keeps fun controls hcontrols => by
          cases hcontrols
          exact h.bare
      refine Keeps.ite (Keeps.bind hchildren fun results => ?_) (Keeps.throw _)
      exact Keeps.bind (forChildren_keeps (fun child => Keeps.discard (ih h.bare _)) results)
        fun _ => Keeps.pure _
    · cases deleted with
      | none => exact hdelete
      | some result => exact Keeps.pure _

end Executing

end Method

open Method in
/-- Every method keeps what the operations keep that it executes. -/
theorem Order.method_keeps {ω : Type} {lib : Modlists ω} {polls : Nat} (depth : Nat) {ok : Operation → Prop}
    {J : State ω → Prop} (h : Executing lib polls ok J)
    (addModlist : List (PyStr × List Bytes) → List (PyStr × List Bytes)) {order : Order}
    (hok : order.Passes ok) : Keeps J (order.method lib addModlist depth polls) := by
  cases order with
  | add dn attrs controls => exact Keeps.map (h.write_keeps hok _ dn fun _ => by trivial)
  | addAl dn al controls => exact Keeps.map (h.write_keeps hok _ dn fun _ => by trivial)
  | modify dn oldattr newattr controls => exact Keeps.map (h.modifyMl_keeps hok dn _)
  | modifyMl dn ml controls => exact Keeps.map (h.modifyMl_keeps hok dn ml)
  | move dn newposition controls =>
    refine Keeps.map (Keeps.bind (ofExcept_keeps _) fun _ => Keeps.bind (ofExcept_keeps _) fun _ => ?_)
    exact Keeps.bind (ofExcept_keeps _) fun _ => h.rename_keeps hok _ _ _
  | rename dn newdn deleteOld controls => exact Keeps.map (h.rename_keeps hok dn newdn deleteOld)
  | modrdn dn newrdn deleteOld controls =>
    refine Keeps.map (Keeps.bind (ofExcept_keeps _) fun _ => Keeps.bind (ofExcept_keeps _) fun _ => ?_)
    exact Keeps.bind (ofExcept_keeps _) fun _ => h.rename_keeps hok _ _ _
  | delete dn controls => exact Keeps.map (h.write_keeps hok _ dn fun _ => by trivial)
  | deleteRecursive dn controls => exact Keeps.map (h.deleteRecursive_keeps hok depth dn)
  | changePassword dn oldPassword newPassword controls => exact Keeps.map (h.write_keeps hok _ dn fun _ => by trivial)
  | compare dn attr value controls => exact Keeps.map (h.compare_keeps hok dn attr value)
  | compareDn entry dn => exact Keeps.map (h.compareDn_keeps entry dn)
  | search args => exact Keeps.map (h.search_keeps hok)
  | get dn attrs filterExpr unique controls => exact Keeps.map (h.getObject_keeps hok dn _ _ unique)
  | getRootDse attrs filterExpr => exact Keeps.map (h.getObject_keeps h.bare _ _ _ false)
  | exist dn unique controls => exact Keeps.map (h.existsObject_keeps hok dn unique)
  | searchDn args => exact Keeps.map (Keeps.bind (h.search_keeps hok) fun _ => ofExcept_keeps _)
  | extended request responseClass controls => exact Keeps.map (h.extended_keeps hok responseClass)

/-! ## The controls that requests are sent with -/

namespace OptionObject

variable {ω : Type} {env : Env ω} {o : Obj} (object : OptionObject env o)

theorem Recorded.reconnect {s : State ω} (hs : object.Recorded s) (force : Bool) :
    object.Recorded (final ((Method.reconnect env force).run s)) := by
  rcases object.reconnect_run hs force with ⟨e, s', -, hkept, hrun⟩ | ⟨s', w, -, -, -, hrecorded⟩
  · rw [hrun]
    refine ⟨(congrArg (·.conn) hkept.self).trans hs.conn, fun item hitem => ?_⟩
    have hitem : item ∈ s'.self.options := hitem
    rw [hkept.self] at hitem
    exact hkept.accepted _ _ (hs.accepted item hitem)
  · exact hrecorded

/-- A value that was set is in effect and recorded last. -/
theorem Recorded.setOption {s s' : State ω} (hs : object.Recorded s) {x : LdapOption} {v : OptionValue}
    (h : (Method.setOption env x v true).run s = .ok () s') :
    object.Recalled x v s' ∧ s'.calls = s.calls := by
  rw [Method.setOption_run hs.conn (x, v, true)] at h
  cases hrun : (env.setOption o x v).run s.world with
  | error e w =>
    rw [hrun] at h
    cases h
  | ok u w =>
    rw [hrun] at h
    cases h
    obtain ⟨hvalue, haccepted, -⟩ := object.sets _ _ _ _ hrun
    refine ⟨⟨hs.set object (x, v, true) ?_ fun _ => haccepted, ?_, ?_⟩, rfl⟩
    · rw [hrun]
      rfl
    · rw [hvalue, Function.update_self]
    · exact (lastRecorded_append _ _ _ _).trans (if_pos rfl)

end OptionObject

namespace SteadyObject

variable {ω : Type} {env : Env ω} {o : Obj} (object : SteadyObject env o)

/-- The server controls that libldap sends with a request: its own, or those of the
connection if it has none. -/
def sent (w : ω) (op : Operation) : List Control :=
  op.serverctrls.getD (object.value w .serverControls).list

/-- The server controls of the connection are these, and since the log had a length the
requests were all right and were sent with these unless they had their own. -/
structure Scope (controls : List Control) (ok : Operation → Prop) (start : Nat) (s : State ω) : Prop
    extends object.Recalled .serverControls (.controls controls) s where
  log : ∀ o' op outcome w, .request o' op outcome w ∈ s.calls.drop start →
    ok op ∧ object.sent w op = op.serverctrls.getD controls

variable {object} {controls : List Control} {ok : Operation → Prop} {start : Nat}

theorem Scope.init {s : State ω} (hs : object.Recalled .serverControls (.controls controls) s) :
    object.Scope controls ok s.calls.length s := by
  refine ⟨hs, fun o' op outcome w hmem => ?_⟩
  rw [List.drop_length] at hmem
  cases hmem

/-- The world after a call, with the entry that the log has of it. -/
theorem Scope.call {s : State ω} (hs : object.Scope controls ok start s) {w : ω} {call : Call ω}
    (hw : object.value w = object.value s.world ∧ ∀ x v, object.accepted s.world x v → object.accepted w x v)
    (hcall : ∀ o' op outcome w', call = .request o' op outcome w' →
      ok op ∧ object.sent w' op = op.serverctrls.getD controls) :
    object.Scope controls ok start { s with world := w, calls := s.calls ++ [call] } where
  conn := hs.conn
  accepted item hitem := hw.2 _ _ (hs.accepted item hitem)
  value := (congrFun hw.1 _).trans hs.value
  last := hs.last
  log o' op outcome w' hmem := by
    rw [List.drop_append] at hmem
    rcases List.mem_append.mp hmem with hmem | hmem
    · exact hs.log o' op outcome w' hmem
    · exact hcall o' op outcome w' (List.mem_singleton.mp (List.mem_of_mem_drop hmem)).symm

/-- Waiting for results and reconnecting leave the controls alone, and a request is sent
with them. -/
theorem Scope.abides (o' : Obj) {op : Operation} (hop : ok op) :
    Method.Abides env (object.Scope controls ok start) o' op where
  result msgid all timeout := by
    refine Method.getResult_rule (fun s r w hs hrun => ?_) fun s e w hs hrun => ?_
    all_goals
      have hw := object.result4 s.world o' msgid.number all timeout
      rw [hrun] at hw
      exact hs.call hw (by intros; contradiction)
  readable timeout := by
    refine Method.onWorld_rule fun s hs => ?_
    have hw := object.readable s.world o' timeout
    exact ⟨⟨⟨hs.conn, fun item hitem => hw.2 _ _ (hs.accepted item hitem)⟩,
      (congrFun hw.1 _).trans hs.value, hs.last⟩, hs.log⟩
  reconnect := by
    refine Keeps.of_final fun s hs => ⟨hs.toRecalled.reconnect object.toOptionObject true, ?_⟩
    have hcalls : (final ((Method.reconnect env true).run s)).calls = s.calls :=
      ((Method.reconnecting_calls fun calls => calls = s.calls).reconnect_keeps true).final rfl
    rw [hcalls]
    exact hs.log
  request := by
    have hsent {s : State ω} (hs : object.Scope controls ok start s) {w : ω}
        (hw : object.value w = object.value s.world) : ok op ∧ object.sent w op = op.serverctrls.getD controls := by
      refine ⟨hop, ?_⟩
      unfold sent
      rw [hw, hs.value]
      rfl
    refine Method.request_rule (fun s msgid w hs hrun => ?_) fun s e w hs hrun => ?_
    all_goals
      have hw := object.request s.world o' op
      rw [hrun] at hw
      refine hs.call hw ?_
      rintro _ _ _ _ ⟨⟩
      exact hsent hs hw.1

theorem scope_executing {lib : Modlists ω} (object : SteadyObject lib.toEnv o) (controls : List Control)
    (ok : Operation → Prop) (start polls : Nat)
    (hbare : ∀ request : Request, request.Plain → ok (request.with none)) :
    Method.Executing lib polls ok (object.Scope controls ok start) where
  execute o' _ hop := (Scope.abides o' hop).execute_keeps polls
  bare := hbare

theorem recorded_abides (o' : Obj) (op : Operation) : Method.Abides env object.Recorded o' op where
  result msgid all timeout := by
    refine Method.getResult_rule (fun s r w hs hrun => ?_) fun s e w hs hrun => ?_
    all_goals
      have hw := object.result4 s.world o' msgid.number all timeout
      rw [hrun] at hw
      exact ⟨hs.conn, fun item hitem => hw.2 _ _ (hs.accepted item hitem)⟩
  readable timeout := Method.onWorld_rule fun s hs =>
    ⟨hs.conn, fun item hitem => (object.readable s.world o' timeout).2 _ _ (hs.accepted item hitem)⟩
  reconnect := Keeps.of_final fun s hs => hs.reconnect object.toOptionObject true
  request := by
    refine Method.request_rule (fun s msgid w hs hrun => ?_) fun s e w hs hrun => ?_
    all_goals
      have hw := object.request s.world o' op
      rw [hrun] at hw
      exact ⟨hs.conn, fun item hitem => hw.2 _ _ (hs.accepted item hitem)⟩

end SteadyObject

/-! ## Programs in a transaction -/

section

variable {ω : Type} {lib : Modlists ω} {o : Obj} (object : SteadyObject lib.toEnv o) {polls depth : Nat}
  {addModlist : List (PyStr × List Bytes) → List (PyStr × List Bytes)} {txnId : Option Bytes}
  {s s₁ s₂ s₃ : State ω}

/-- Entered with its control, a transaction has it as the server control of the connection. -/
theorem SteadyObject.enter_recalled (hs : object.Recorded s)
    (h : (Method.enterTransaction lib.toEnv polls true).run s = .ok txnId s₁) :
    object.Recalled .serverControls (.controls [transactionControl txnId]) s₁ := by
  unfold Method.enterTransaction at h
  rw [EStateM.run_bind] at h
  cases hstart : (Method.extended lib.toEnv polls .startTransactionRequest
      (some (Method.startTransactionResponse lib.toEnv))).run s with
  | error e s' =>
    rw [hstart] at h
    cases h
  | ok result s' =>
    rw [hstart] at h
    have hs' : object.Recorded s' :=
      (Method.Abides.extended_keeps object.recorded_abides polls _ _).ok hs hstart
    have hset : (Method.setTransaction lib.toEnv (Method.txnId result)).run s' =
        (Method.setOptions lib.toEnv [(.serverControls, .controls [transactionControl (Method.txnId result)],
          true)]).run s' := rfl
    dsimp only at h
    rw [onlyIf_true (show true = true from rfl), EStateM.run_bind, hset, Method.setOptions_singleton] at h
    cases hrun : (Method.setOption lib.toEnv .serverControls
        (.controls [transactionControl (Method.txnId result)]) true).run s' with
    | error e s'' =>
      rw [hrun] at h
      cases h
    | ok u s'' =>
      rw [hrun] at h
      cases h
      exact (hs'.setOption object.toOptionObject hrun).1

/-- The request belongs to the transaction. -/
def SteadyObject.Belongs (txnId : Option Bytes) : Call ω → Prop
  | .request _ op _ w => transactionControl txnId ∈ object.sent w op
  | .result _ _ _ _ => True

/-- In a transaction around a program, the requests of the program are sent with the control
of the transaction exactly if they have no server controls of their own, or have it among
them; all belong to it if the program gives no server controls; and the requests that come
after the program, up to the one that ends the transaction, do not have it. -/
theorem transaction_scope (program : Option Bytes → Client Order Reply PyExc Unit) (hs : object.Recorded s)
    (h : Left lib.toEnv polls true (fun txnId => (program txnId).run (Order.method lib addModlist depth) polls)
      txnId s s₁ s₂ s₃) :
    (∀ o' op outcome w, .request o' op outcome w ∈ s₂.calls.drop s₁.calls.length →
      object.sent w op = op.serverctrls.getD [transactionControl txnId]) ∧
    ((program txnId).All (Order.Passes fun op => op.serverctrls = none) →
      ∀ call ∈ s₂.calls.drop s₁.calls.length, object.Belongs txnId call) ∧
    ∀ o' op outcome w, .request o' op outcome w ∈
        (final ((Method.transaction lib.toEnv polls true fun txnId =>
          (program txnId).run (Order.method lib addModlist depth) polls).run s)).calls.drop s₂.calls.length →
      op.serverctrls = none ∧ object.sent w op = [] := by
  have hentered := object.enter_recalled hs h.enter
  have hprogram (ok : Operation → Prop) (hbare : ∀ request : Request, request.Plain → ok (request.with none))
      (hok : (program txnId).All (Order.Passes ok)) :
      object.Scope [transactionControl txnId] ok s₁.calls.length s₂ := by
    have hexecuting := object.scope_executing [transactionControl txnId] ok s₁.calls.length polls hbare
    have hkeeps := Keeps.client (fun _ horder => Order.method_keeps depth hexecuting addModlist horder) hok
    exact h.body ▸ hkeeps.final (SteadyObject.Scope.init hentered)
  have hall := hprogram (fun _ => True) (fun _ _ => trivial)
    (Client.all_of_forall Order.passes_true (program txnId))
  refine ⟨fun o' op outcome w hmem => (hall.log o' op outcome w hmem).2, fun hplain call hcall => ?_, ?_⟩
  · cases call with
    | result o' msgid before outcome => trivial
    | request o' op outcome w =>
      obtain ⟨hnone, hsent⟩ := (hprogram _ (fun _ _ => rfl) hplain).log o' op outcome w hcall
      show transactionControl txnId ∈ object.sent w op
      rw [hsent, hnone]
      exact List.mem_singleton_self _
  · obtain ⟨commit, hfinal⟩ := h.final_eq
    obtain ⟨hreset, hcalls⟩ := hall.toRecorded.setOption object.toOptionObject h.reset
    have hexecuting := object.scope_executing [] (fun op => op.serverctrls = none) s₃.calls.length polls
      fun _ _ => rfl
    have hend : Keeps (object.Scope [] (fun op => op.serverctrls = none) s₃.calls.length)
        (Method.endTransaction lib.toEnv polls txnId commit) :=
      hexecuting.extended_keeps (show ((Request.extop _).with none).serverctrls = none from rfl) _
    intro o' op outcome w hmem
    rw [hfinal, ← hcalls] at hmem
    obtain ⟨hnone, hsent⟩ := (hend.final (SteadyObject.Scope.init hreset)).log o' op outcome w hmem
    rw [hnone] at hsent
    exact ⟨hnone, hsent⟩

end

/-- Names without escapes, on the LDAP object that takes all options. -/
def takesOptionsLib : Modlists (LdapOption → OptionValue) where
  toEnv := takesOptions
  dn2str := simpleNames.dn2str
  lower := simpleNames.lower
  hash := simpleNames.hash
  modifyModlist := fun _ _ => []

/-- The deletion of an entry, without controls and with none. -/
def deleteTwice : Client Order Reply PyExc Unit :=
  .call (.delete (.text (py "cn=foo")) none) fun _ =>
    .call (.delete (.text (py "cn=bar")) (some { server := some [relaxRules] })) fun _ => .done ()

/-- The first of two deletions belongs to the transaction, and the second has its own controls. -/
theorem transaction_scope_delete : ∃ s₁ s₂ s₃,
    Left takesOptionsLib.toEnv 1 true
      (fun _ => deleteTwice.run (Order.method takesOptionsLib id 1) 1) (some [4, 1, 49]) (controlledState [])
      s₁ s₂ s₃ ∧
    ∀ o' op outcome w, .request o' op outcome w ∈ s₂.calls.drop s₁.calls.length →
      takingObject.sent w op = op.serverctrls.getD [transactionControl (some [4, 1, 49])] := by
  have hleft : ∃ s₁ s₂ s₃, Left takesOptionsLib.toEnv 1 true
      (fun _ => deleteTwice.run (Order.method takesOptionsLib id 1) 1) (some [4, 1, 49]) (controlledState [])
      s₁ s₂ s₃ := ⟨_, _, _, ⟨rfl, rfl, rfl⟩⟩
  obtain ⟨s₁, s₂, s₃, h⟩ := hleft
  have hrecorded : takingObject.Recorded (controlledState []) := ⟨rfl, fun _ _ => trivial⟩
  let object : SteadyObject takesOptionsLib.toEnv 0 := takingObject
  exact ⟨s₁, s₂, s₃, h, (transaction_scope object (fun _ => deleteTwice) hrecorded h).1⟩

end FreeIam.Ldap
