import FreeIam.Lib.Agreement
import FreeIam.Ldap.Connection.Atomicity
import FreeIam.Ldap.Connection.CompareDn
import FreeIam.Ldap.Connection.Exchange
import FreeIam.Ldap.Connection.Schema

/-!
# The two classes

`create_sync.sh` makes the synchronous class from the asynchronous one by textual
substitution, and the wait for a result is all that it changes. Where the connection
holds, a program cannot tell the classes apart: it sends the same requests and sees
the same results, however the LDAP objects number their messages and whenever the
answers arrive.
-/

namespace FreeIam.Ldap

open FreeIam.Py FreeIam.Errors FreeIam.Exec

variable {ω D α : Type}

/-! ## Two connections in step -/

/-- A connection to a server that answers this way. -/
structure Serving (lib : Modlists ω) (answer : D → Operation → Except LdapError Response × D) where
  self : Connection
  object : Obj
  conn : self.conn = some object
  attempts : 0 < self.maxConnectionAttempts
  server : Server lib.toEnv self.toSlots object D
  answers : server.answer = answer

/-- The servers of two connections are in the same state, and the connections have sent
the same requests since they had sent `before` and `before'`. -/
structure InStep {lib : Modlists ω} {answer : D → Operation → Except LdapError Response × D}
    (a b : Serving lib answer) (before before' : List Operation) (s s' : State ω) : Prop where
  left : s.self = a.self
  right : s'.self = b.self
  server : ∃ d, a.server.state s.world = some d ∧ b.server.state s'.world = some d
  requests : ∃ log, requested s.calls = before ++ log ∧ requested s'.calls = before' ++ log

namespace Method

section Agreement

variable {lib : Modlists ω} {answer : D → Operation → Except LdapError Response × D} {a b : Serving lib answer}
  {before before' : List Operation}

/-- One request and its answer. -/
theorem execute_agree (op : Operation) (hreplied : op.request.replied = true) :
    Agree (InStep a b before before') (fun polls => execute lib.toEnv polls a.object op)
      (fun polls => execute lib.toEnv polls b.object op) := by
  rintro ⟨self, w, calls⟩ ⟨self', w', calls'⟩ ⟨rfl, rfl, ⟨d, hd, hd'⟩, log, hlog, hlog'⟩
  obtain ⟨n, w₁, log₁, hnext, hsent, hrun⟩ :=
    execute_exchange calls a.attempts (a.server.exchange op hd hreplied)
  obtain ⟨n', w₁', log₁', hnext', hsent', hrun'⟩ :=
    execute_exchange calls' b.attempts (b.server.exchange op hd' hreplied)
  have hsame : b.server.answer d op = a.server.answer d op := by rw [a.answers, b.answers]
  rw [hsame] at hnext' hrun'
  have hanswered : ∀ s : State ω, answered s (a.server.answer d op).1 =
      ended s ((a.server.answer d op).1.mapError PyExc.lib) := by
    intro s
    cases (a.server.answer d op).1 <;> rfl
  refine ⟨max n n', (a.server.answer d op).1.mapError PyExc.lib, ⟨a.self, w₁, calls ++ log₁⟩,
    ⟨b.self, w₁', calls' ++ log₁'⟩, ⟨rfl, rfl, ⟨_, hnext, hnext'⟩, log ++ [op], ?_, ?_⟩, fun polls hpolls => ⟨?_, ?_⟩⟩
  · rw [requested_append, hlog, hsent, List.append_assoc]
  · rw [requested_append, hlog', hsent', List.append_assoc]
  · rw [hrun polls (Nat.le_trans (Nat.le_max_left n n') hpolls), hanswered]
  · rw [hrun' polls (Nat.le_trans (Nat.le_max_right n n') hpolls), hanswered]

/-- Each connection uses its own object. -/
theorem onConn_agree {f f' : Obj → Nat → Method ω α}
    (hf : Agree (InStep a b before before') (f a.object) (f' b.object)) :
    Agree (InStep a b before before') (fun polls => conn >>= fun o => f o polls)
      (fun polls => conn >>= fun o => f' o polls) := by
  intro s s' hs
  obtain ⟨n, x, t, t', ht, hrun⟩ := hf s s' hs
  refine ⟨n, x, t, t', ht, fun polls hpolls => ?_⟩
  have hconn : s.self.conn = some a.object := by rw [hs.left, a.conn]
  have hconn' : s'.self.conn = some b.object := by rw [hs.right, b.conn]
  rw [EStateM.run_bind, EStateM.run_bind, conn_ok hconn, conn_ok hconn']
  exact hrun polls hpolls

theorem wrap_agree {m m' : Nat → Method ω α} (h : Agree (InStep a b before before') m m') :
    Agree (InStep a b before before') (fun polls => wrap (m polls)) (fun polls => wrap (m' polls)) :=
  h.tryCatch fun e => Agree.throw e.wrap

/-! ## Reading -/

theorem searchedFor_agree (args : SearchArgs) {m m' : Nat → Method ω α}
    (h : Agree (InStep a b before before') m m') :
    Agree (InStep a b before before') (fun polls => searchedFor lib.toEnv args (m polls))
      (fun polls => searchedFor lib.toEnv args (m' polls)) := by
  refine h.tryCatch fun e => ?_
  cases e with
  | lib err => exact Agree.ite ((Agree.ofExcept _).bind fun _ => Agree.throw _) (Agree.throw _)
  | _ => exact Agree.throw _

theorem responseResults_agree (controls : Option Controls) (response : Response) :
    Agree (InStep a b before before') (fun _ => responseResults lib.toEnv controls response)
      (fun _ => responseResults lib.toEnv controls response) := by
  unfold responseResults
  cases response.data with
  | none => exact Agree.throw _
  | some data => exact Agree.ofExcept _

/-- The time limit of a search is that of the connection. -/
theorem search_agree (htimeout : a.self.timeout = b.self.timeout) (args : SearchArgs) :
    Agree (InStep a b before before') (fun polls => search lib.toEnv polls args)
      (fun polls => search lib.toEnv polls args) := by
  refine onConn_agree ((Agree.ofExcept _).bind fun controls => searchedFor_agree args ?_)
  refine Agree.get fun s s' hs => ?_
  have hsame : s'.self.timeout = s.self.timeout := by rw [hs.left, hs.right, htimeout]
  simp only [hsame]
  refine (execute_agree _ rfl).bind fun response => (responseResults_agree _ response).bind fun results => ?_
  exact (Agree.onlyIf (Agree.throw _)).bind fun _ => Agree.pure results

theorem getObject_agree (htimeout : a.self.timeout = b.self.timeout) (dn : PyStr)
    (attrs : Option (List PyStr)) (filterExpr : PyStr) (unique : Bool) (controls : Option Controls) :
    Agree (InStep a b before before')
      (fun polls => getObject lib.toEnv polls dn attrs filterExpr unique controls)
      (fun polls => getObject lib.toEnv polls dn attrs filterExpr unique controls) :=
  (search_agree htimeout _).bind fun results => Agree.pure results.head?

theorem existsObject_agree (htimeout : a.self.timeout = b.self.timeout) (dn : PyStr) (unique : Bool)
    (controls : Option Controls) :
    Agree (InStep a b before before') (fun polls => existsObject lib.toEnv polls dn unique controls)
      (fun polls => existsObject lib.toEnv polls dn unique controls) := by
  refine Agree.tryCatch ((getObject_agree htimeout dn _ _ unique controls).bind fun _ => Agree.pure true)
    fun e => ?_
  exact Agree.ite (Agree.pure false) (Agree.throw e)

theorem compare_agree (dn : DnArg) (attr : PyStr) (value : Bytes) (controls : Option Controls) :
    Agree (InStep a b before before') (fun polls => compare lib polls dn attr value controls)
      (fun polls => compare lib polls dn attr value controls) := by
  refine onConn_agree (Agree.bind ?_ fun result => ?_)
  · refine Agree.tryCatch ((execute_agree _ rfl).bind fun _ => Agree.pure none) fun e => ?_
    cases e with
    | lib err =>
      refine Agree.ite ((Agree.ofExcept _).bind fun _ => Agree.throw _) ?_
      exact Agree.ite (Agree.pure _) (Agree.ite (Agree.pure _) (Agree.throw _))
    | _ => exact Agree.throw _
  · cases result with
    | none => exact Agree.throw _
    | some equal => exact Agree.pure equal

theorem compareRdn_agree (entry parent : DN) (rdn : List Ava) :
    Agree (InStep a b before before') (fun polls => compareRdn lib polls entry parent rdn)
      (fun polls => compareRdn lib polls entry parent rdn) := by
  induction rdn with
  | nil => exact Agree.pure true
  | cons ava avas ih =>
    have hava : Agree (InStep a b before before') (fun polls => compareAva lib polls entry parent ava)
        (fun polls => compareAva lib polls entry parent ava) := by
      refine Agree.tryCatch ((Agree.ofExcept _).bind fun value => compare_agree _ _ value none) fun e => ?_
      refine Agree.ite ((Agree.ofExcept _).bind fun top => ?_) (Agree.throw e)
      exact Agree.ite (Agree.pure true) (Agree.throw e)
    exact hava.bind fun equal => Agree.ite ih (Agree.pure false)

theorem compareParents_agree (entry dn : DN) (raised : Option PyExc) (parents : List DN) (i : Nat) :
    Agree (InStep a b before before') (fun polls => compareParents lib polls entry dn raised i parents)
      (fun polls => compareParents lib polls entry dn raised i parents) := by
  induction parents generalizing i with
  | nil =>
    cases raised with
    | none => exact Agree.pure true
    | some e => exact Agree.throw e
  | cons parent parents ih =>
    refine (Agree.ofExcept _).bind fun rdn => (compareRdn_agree entry parent rdn).bind fun equal => ?_
    exact Agree.ite (ih (i + 1)) (Agree.pure false)

theorem compareDn_agree (entry dn : DnArg) :
    Agree (InStep a b before before') (fun polls => compareDn lib polls entry dn)
      (fun polls => compareDn lib polls entry dn) :=
  (Agree.ofExcept _).bind fun dn => (Agree.ofExcept _).bind fun entry => compareParents_agree entry dn _ _ 0

theorem extended_agree (request : ExtendedRequest) (responseClass : Option ExtendedResponse)
    (controls : Option Controls) :
    Agree (InStep a b before before')
      (fun polls => extended lib.toEnv polls request responseClass controls)
      (fun polls => extended lib.toEnv polls request responseClass controls) := by
  refine onConn_agree ((execute_agree _ rfl).bind fun response => ?_)
  exact (wrap_agree (Agree.ofExcept _)).bind fun _ => Agree.ofExcept _

/-! ## Writing -/

theorem executeWrite_agree {request : Request} (hreplied : request.replied = true) (dn : DnArg)
    (controls : Option Controls) :
    Agree (InStep a b before before') (fun polls => executeWrite lib polls a.object request dn controls)
      (fun polls => executeWrite lib polls b.object request dn controls) :=
  (execute_agree (request.with controls) hreplied).bind fun _ => Agree.ofExcept _

theorem addAl_agree (dn : DnArg) (al : List (PyStr × List Bytes)) (controls : Option Controls) :
    Agree (InStep a b before before') (fun polls => addAl lib polls dn al controls)
      (fun polls => addAl lib polls dn al controls) :=
  onConn_agree (executeWrite_agree rfl dn controls)

theorem changePassword_agree (dn : DnArg) (oldPassword newPassword : PyStr) (controls : Option Controls) :
    Agree (InStep a b before before')
      (fun polls => changePassword lib polls dn oldPassword newPassword controls)
      (fun polls => changePassword lib polls dn oldPassword newPassword controls) :=
  onConn_agree (executeWrite_agree rfl dn controls)

theorem rename_agree (dn newdn : DnArg) (deleteOld : Bool) (controls : Option Controls) :
    Agree (InStep a b before before') (fun polls => rename lib polls dn newdn deleteOld controls)
      (fun polls => rename lib polls dn newdn deleteOld controls) :=
  onConn_agree (Agree.ofExcept_bind fun newdn _ => Agree.ofExcept_bind fun _ hrequest =>
    executeWrite_agree (renameRequest_replied hrequest) (.dn newdn) controls)

theorem modifyMl_agree (dn : DnArg) (ml : List Modification) (controls : Option Controls) :
    Agree (InStep a b before before') (fun polls => modifyMl lib polls dn ml controls)
      (fun polls => modifyMl lib polls dn ml controls) := by
  refine onConn_agree (Agree.ofExcept_bind fun old _ => Agree.ofExcept_bind fun newDn _ => ?_)
  refine Agree.bind ?_ fun dn => executeWrite_agree rfl dn controls
  exact Agree.ite (Agree.pure dn) ((rename_agree dn (.dn newDn) true none).map _)

theorem move_agree (dn newposition : DnArg) (controls : Option Controls) :
    Agree (InStep a b before before') (fun polls => move lib polls dn newposition controls)
      (fun polls => move lib polls dn newposition controls) :=
  Agree.ofExcept_bind fun dn _ => Agree.ofExcept_bind fun _ _ => Agree.ofExcept_bind fun newdn _ =>
    rename_agree (.dn dn) (.dn newdn) true controls

theorem modrdn_agree (dn newrdn : DnArg) (deleteOld : Bool) (controls : Option Controls) :
    Agree (InStep a b before before') (fun polls => modrdn lib polls dn newrdn deleteOld controls)
      (fun polls => modrdn lib polls dn newrdn deleteOld controls) :=
  Agree.ofExcept_bind fun _ _ => Agree.ofExcept_bind fun _ _ => Agree.ofExcept_bind fun newdn _ =>
    rename_agree dn (.dn newdn) deleteOld controls

theorem delete_agree (dn : DnArg) (controls : Option Controls) :
    Agree (InStep a b before before') (fun polls => delete lib polls dn controls)
      (fun polls => delete lib polls dn controls) :=
  onConn_agree (executeWrite_agree rfl dn controls)

theorem forChildren_agree {body body' : DN → Nat → Method ω Unit}
    (h : ∀ child, Agree (InStep a b before before') (body child) (body' child)) (results : List Result) :
    Agree (InStep a b before before') (fun polls => forChildren (fun child => body child polls) results)
      (fun polls => forChildren (fun child => body' child polls) results) := by
  induction results with
  | nil => exact Agree.pure ()
  | cons result results ih =>
    unfold forChildren
    cases result.dn with
    | none => exact Agree.throw _
    | some child => exact (h child).bind fun _ => ih

/-- The recursion goes as deep on both sides. -/
theorem deleteRecursive_agree (htimeout : a.self.timeout = b.self.timeout) (depth : Nat) (dn : DnArg)
    (controls : Option Controls) :
    Agree (InStep a b before before') (fun polls => deleteRecursive lib polls depth dn controls)
      (fun polls => deleteRecursive lib polls depth dn controls) := by
  induction depth generalizing dn controls with
  | zero => exact Agree.throw _
  | succ depth ih =>
    unfold deleteRecursive
    refine Agree.bind (Agree.tryCatch ((delete_agree dn controls).map some) fun e => ?_) fun deleted => ?_
    · refine Agree.ite ((search_agree htimeout _).bind fun results => ?_) (Agree.throw e)
      exact (forChildren_agree (fun child => (ih (.dn child) none).map fun _ => ()) results).bind fun _ =>
        Agree.pure none
    · cases deleted with
      | none => exact delete_agree dn controls
      | some result => exact Agree.pure result

end Agreement

end Method

/-! ## Programs -/

/-- A call of a method that reads or changes entries. -/
inductive Order
  | add (dn : DnArg) (attrs : List (PyStr × List Bytes)) (controls : Option Controls)
  | addAl (dn : DnArg) (al : List (PyStr × List Bytes)) (controls : Option Controls)
  | modify (dn : DnArg) (oldattr newattr : List (PyStr × List Bytes)) (controls : Option Controls)
  | modifyMl (dn : DnArg) (ml : List Modification) (controls : Option Controls)
  | move (dn newposition : DnArg) (controls : Option Controls)
  | rename (dn newdn : DnArg) (deleteOld : Bool) (controls : Option Controls)
  | modrdn (dn newrdn : DnArg) (deleteOld : Bool) (controls : Option Controls)
  | delete (dn : DnArg) (controls : Option Controls)
  | deleteRecursive (dn : DnArg) (controls : Option Controls)
  | changePassword (dn : DnArg) (oldPassword newPassword : PyStr) (controls : Option Controls)
  | compare (dn : DnArg) (attr : PyStr) (value : Bytes) (controls : Option Controls)
  | compareDn (entry dn : DnArg)
  | search (args : SearchArgs)
  | get (dn : PyStr) (attrs : Option (List PyStr)) (filterExpr : PyStr) (unique : Bool)
      (controls : Option Controls)
  | getRootDse (attrs : Option (List PyStr)) (filterExpr : PyStr)
  | exist (dn : PyStr) (unique : Bool) (controls : Option Controls)
  | searchDn (args : SearchArgs)
  | extended (request : ExtendedRequest) (responseClass : Option ExtendedResponse)
      (controls : Option Controls)

/-- What the methods return. -/
inductive Reply
  | result (result : Result)
  | found (result : Option Result)
  | results (results : List Result)
  | names (names : List DN)
  | truth (b : Bool)

section

variable (lib : Modlists ω)
  (addModlist : List (PyStr × List Bytes) → List (PyStr × List Bytes)) (depth : Nat)

/-- The method of a call, with `ldap.modlist.addModlist` and the number of nested calls
that Python allows. -/
def Order.method : Order → Nat → Method ω Reply
  | .add dn attrs controls, polls => .result <$> Method.add lib polls addModlist dn attrs controls
  | .addAl dn al controls, polls => .result <$> Method.addAl lib polls dn al controls
  | .modify dn oldattr newattr controls, polls => .result <$> Method.modify lib polls dn oldattr newattr controls
  | .modifyMl dn ml controls, polls => .result <$> Method.modifyMl lib polls dn ml controls
  | .move dn newposition controls, polls => .result <$> Method.move lib polls dn newposition controls
  | .rename dn newdn deleteOld controls, polls => .result <$> Method.rename lib polls dn newdn deleteOld controls
  | .modrdn dn newrdn deleteOld controls, polls => .result <$> Method.modrdn lib polls dn newrdn deleteOld controls
  | .delete dn controls, polls => .result <$> Method.delete lib polls dn controls
  | .deleteRecursive dn controls, polls => .result <$> Method.deleteRecursive lib polls depth dn controls
  | .changePassword dn oldPassword newPassword controls, polls =>
    .result <$> Method.changePassword lib polls dn oldPassword newPassword controls
  | .compare dn attr value controls, polls => .truth <$> Method.compare lib polls dn attr value controls
  | .compareDn entry dn, polls => .truth <$> Method.compareDn lib polls entry dn
  | .search args, polls => .results <$> Method.search lib.toEnv polls args
  | .get dn attrs filterExpr unique controls, polls =>
    .found <$> Method.getObject lib.toEnv polls dn attrs filterExpr unique controls
  | .getRootDse attrs filterExpr, polls => .found <$> Method.getRootDse lib.toEnv polls attrs filterExpr
  | .exist dn unique controls, polls => .truth <$> Method.existsObject lib.toEnv polls dn unique controls
  | .searchDn args, polls => .names <$> Method.searchDn lib.toEnv polls args
  | .extended request responseClass controls, polls =>
    .result <$> Method.extended lib.toEnv polls request responseClass controls

variable {lib} {answer : D → Operation → Except LdapError Response × D} {a b : Serving lib answer}
  {before before' : List Operation}

open Method in
/-- Each method agrees with itself on the other connection. -/
theorem Order.method_agree (htimeout : a.self.timeout = b.self.timeout) (order : Order) :
    Agree (InStep a b before before') (order.method lib addModlist depth)
      (order.method lib addModlist depth) := by
  cases order with
  | add dn attrs controls => exact (addAl_agree dn _ controls).map _
  | addAl dn al controls => exact (addAl_agree dn al controls).map _
  | modify dn oldattr newattr controls => exact (modifyMl_agree dn _ controls).map _
  | modifyMl dn ml controls => exact (modifyMl_agree dn ml controls).map _
  | move dn newposition controls => exact (move_agree dn newposition controls).map _
  | rename dn newdn deleteOld controls => exact (rename_agree dn newdn deleteOld controls).map _
  | modrdn dn newrdn deleteOld controls => exact (modrdn_agree dn newrdn deleteOld controls).map _
  | delete dn controls => exact (delete_agree dn controls).map _
  | deleteRecursive dn controls => exact (deleteRecursive_agree htimeout depth dn controls).map _
  | changePassword dn oldPassword newPassword controls =>
    exact (changePassword_agree dn oldPassword newPassword controls).map _
  | compare dn attr value controls => exact (compare_agree dn attr value controls).map _
  | compareDn entry dn => exact (compareDn_agree entry dn).map _
  | search args => exact (search_agree htimeout args).map _
  | get dn attrs filterExpr unique controls =>
    exact (getObject_agree htimeout dn attrs filterExpr unique controls).map _
  | getRootDse attrs filterExpr => exact (getObject_agree htimeout _ _ filterExpr false none).map _
  | exist dn unique controls => exact (existsObject_agree htimeout dn unique controls).map _
  | searchDn args => exact ((search_agree htimeout _).bind fun _ => Agree.ofExcept _).map _
  | extended request responseClass controls => exact (extended_agree request responseClass controls).map _

end

/-- Two connections of either class, whose servers answer alike, are one to every program:
from servers in the same state it comes to the same value or error, has sent the same
requests in the same order, and leaves the servers in the same state. -/
theorem classes_agree {lib : Modlists ω} {answer : D → Operation → Except LdapError Response × D}
    (a b : Serving lib answer) (htimeout : a.self.timeout = b.self.timeout)
    (addModlist : List (PyStr × List Bytes) → List (PyStr × List Bytes)) (depth : Nat)
    (client : Client Order Reply PyExc α) {d : D} {w w' : ω} (hw : a.server.state w = some d)
    (hw' : b.server.state w' = some d) :
    ∃ n x t t', (∀ polls, n ≤ polls →
        (client.run (Order.method lib addModlist depth) polls).run ⟨a.self, w, []⟩ = ended t x ∧
        (client.run (Order.method lib addModlist depth) polls).run ⟨b.self, w', []⟩ = ended t' x) ∧
      requested t.calls = requested t'.calls ∧
      ∃ d', a.server.state t.world = some d' ∧ b.server.state t'.world = some d' := by
  have hstart : InStep a b [] [] ⟨a.self, w, []⟩ ⟨b.self, w', []⟩ :=
    ⟨rfl, rfl, ⟨d, hw, hw'⟩, [], rfl, rfl⟩
  obtain ⟨n, x, t, t', ht, hrun⟩ :=
    Agree.client (fun order => order.method_agree addModlist depth htimeout) client _ _ hstart
  obtain ⟨log, hlog, hlog'⟩ := ht.requests
  exact ⟨n, x, t, t', hrun, hlog.trans hlog'.symm, ht.server⟩

/-- A connection of a class. -/
def connectedAs (asynchronous : Bool) : Connection :=
  { Connection.init asynchronous (py "ldap://localhost") with conn := some 0 }

theorem connectedAs_attempts (asynchronous : Bool) :
    0 < (connectedAs asynchronous).maxConnectionAttempts := Nat.succ_pos 9

/-- A connection of a class to the server that renames only. -/
def renamesFor (asynchronous : Bool) : Serving (serving renamesOnly) renamesOnly where
  self := connectedAs asynchronous
  object := 0
  conn := rfl
  attempts := connectedAs_attempts asynchronous
  server := servingServer renamesOnly_proper (connectedAs asynchronous).toSlots
  answers := rfl

/-- A modification of the naming attribute, and the deletion of the entry where it fails. -/
def modifyOrDelete : Client Order Reply PyExc Bool :=
  .call (.modifyMl (.text (py "cn=foo,dc=org")) [(2, py "cn", .list [[98, 97, 114]])] none) fun modified =>
    match modified with
    | .ok _ => .done true
    | .error _ => .call (.delete (.text (py "cn=foo,dc=org")) none) fun _ => .done false

/-- The two classes on the server that renames the entry and refuses the rest. -/
theorem classes_agree_rename : ∃ n x t t', (∀ polls, n ≤ polls →
      (modifyOrDelete.run (Order.method (serving renamesOnly) id 2) polls).run
        ⟨(renamesFor true).self, (fooEntry, unasked), []⟩ = ended t x ∧
      (modifyOrDelete.run (Order.method (serving renamesOnly) id 2) polls).run
        ⟨(renamesFor false).self, (fooEntry, unasked), []⟩ = ended t' x) ∧
    requested t.calls = requested t'.calls ∧ ∃ d', some t.world.1 = some d' ∧ some t'.world.1 = some d' :=
  classes_agree (renamesFor true) (renamesFor false) rfl id 2 modifyOrDelete (d := fooEntry) rfl rfl

end FreeIam.Ldap
