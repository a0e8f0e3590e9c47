import FreeIam.Ldap.Connection.Rename

/-!
# Modifications that fail

A modification that changes a naming attribute is two requests: the rename, and the
modification of the renamed entry. Nothing takes the first one back when the second
one is refused.
-/

namespace FreeIam.Ldap

open FreeIam.Py FreeIam.Errors FreeIam.Exec

variable {ω : Type} {lib : Modlists ω} {self : Connection} {o : Obj} {w : ω} {calls : List (Call ω)}
  {D E : Type} {d : D}

/-! ## What a failure leaves -/

/-- Where the program raises, the directory of the server is what it was. -/
def FailsUnchanged {slots : Slots} (server : Server lib.toEnv slots o D) (directory : D → E) (d : D)
    (program : Nat → Method ω Result) (s : State ω) : Prop :=
  ∃ n, ∀ polls, n ≤ polls → ∀ e s', (program polls).run s = .error e s' →
    ∃ d', server.state s'.world = some d' ∧ directory d' = directory d

/-- The list changes the name of the entry, the server carries out the rename, and it
refuses the modification after it. -/
def RefusedAfterRename {slots : Slots} (server : Server lib.toEnv slots o D) (directory : D → E)
    (d : D) (dn : DnArg) (ml : List Modification) (controls : Option Controls) : Prop :=
  ∃ old newDn request r err, DN.get lib.toNames dn = .ok old ∧
    computeChangedDn lib old ml = .ok newDn ∧ newDn.eq lib.toNames old = false ∧
    renameRequest lib dn newDn true = .ok request ∧
    (server.answer d (request.with none)).1 = .ok r ∧
    directory (server.answer d (request.with none)).2 ≠ directory d ∧
    (server.answer (server.answer d (request.with none)).2
      ((Request.modifyExt (DN.str lib (.dn newDn)) ml).with controls)).1 = .error err

/-- A program that raises before its first request leaves the directory. -/
theorem failsUnchanged_raised {server : Server lib.toEnv self.toSlots o D} {directory : D → E}
    (hstate : server.state w = some d) {program : Nat → Method ω Result} {e : PyExc}
    (hrun : ∀ polls, (program polls).run ⟨self, w, calls⟩ = .error e ⟨self, w, calls⟩) :
    FailsUnchanged server directory d program ⟨self, w, calls⟩ := by
  refine ⟨0, fun polls _ e' s' hraised => ⟨d, ?_, rfl⟩⟩
  rw [hrun polls] at hraised
  injection hraised with _ hs
  rw [← hs]
  exact hstate

theorem renameRequest_replied {dn : DnArg} {newdn : DN} {deleteOld : Bool} {request : Request}
    (h : renameRequest lib dn newdn deleteOld = .ok request) : request.replied = true := by
  unfold renameRequest at h
  cases hfirst : newdn.first lib with
  | error e =>
    rw [hfirst] at h
    cases h
  | ok newrdn =>
    cases hparent : newdn.parent lib.toNames with
    | error e =>
      rw [hfirst, hparent] at h
      cases h
    | ok parent =>
      rw [hfirst, hparent] at h
      cases h
      rfl

/-! ## The runs of `modify_ml` -/

section

variable (hconn : self.conn = some o) (hattempts : 0 < self.maxConnectionAttempts)
  (server : Server lib.toEnv self.toSlots o D)

include hconn hattempts

/-- Without a new name it is one request. -/
theorem modifyMl_kept {w : ω} (calls : List (Call ω)) {d : D} (hstate : server.state w = some d)
    {dn : DnArg} {old newDn : DN} (hget : DN.get lib.toNames dn = .ok old) {ml : List Modification}
    (hnew : computeChangedDn lib old ml = .ok newDn) (heq : newDn.eq lib.toNames old = true)
    (controls : Option Controls) :
    ∃ n w' log, server.state w' = some (server.answer d
        ((Request.modifyExt (DN.str lib dn) ml).with controls)).2 ∧ ∀ polls, n ≤ polls →
      (Method.modifyMl lib polls dn ml controls).run ⟨self, w, calls⟩ = written old controls
        ⟨self, w', calls ++ log⟩
        (server.answer d ((Request.modifyExt (DN.str lib dn) ml).with controls)).1 := by
  obtain ⟨n, w', log, hnext, -, hrun⟩ := Method.executeWrite_run calls hattempts server hstate
    (.modifyExt (DN.str lib dn) ml) rfl hget controls
  refine ⟨n, w', log, hnext, fun polls hpolls => ?_⟩
  unfold Method.modifyMl Method.renameChanged
  rw [EStateM.run_bind, Method.conn_ok (s := ⟨self, w, calls⟩) hconn, hget]
  simp only [EStateM.run_bind, Method.ofExcept_ok, hnew, heq, if_true]
  exact hrun polls hpolls

/-- With a new name the rename comes first, and a refused one is all. -/
theorem modifyMl_renamed {w : ω} (calls : List (Call ω)) {d : D} (hstate : server.state w = some d)
    {dn : DnArg} {old newDn : DN} (hget : DN.get lib.toNames dn = .ok old) {ml : List Modification}
    (hnew : computeChangedDn lib old ml = .ok newDn) (heq : newDn.eq lib.toNames old = false)
    {request : Request} (hrequest : renameRequest lib dn newDn true = .ok request)
    (controls : Option Controls) :
    ∃ n w' log, ∀ polls, n ≤ polls →
      (∀ err, (server.answer d (request.with none)).1 = .error err →
        server.state w' = some (server.answer d (request.with none)).2 ∧
        (Method.modifyMl lib polls dn ml controls).run ⟨self, w, calls⟩ =
          .error (.lib err) ⟨self, w', calls ++ log⟩) ∧
      ∀ r, (server.answer d (request.with none)).1 = .ok r →
        server.state w' = some (server.answer (server.answer d (request.with none)).2
          ((Request.modifyExt (DN.str lib (.dn newDn)) ml).with controls)).2 ∧
        (Method.modifyMl lib polls dn ml controls).run ⟨self, w, calls⟩ =
          written newDn controls ⟨self, w', calls ++ log⟩
            (server.answer (server.answer d (request.with none)).2
              ((Request.modifyExt (DN.str lib (.dn newDn)) ml).with controls)).1 := by
  obtain ⟨n, w₁, log, hnext, -, hrename⟩ := rename_run calls hconn hattempts server hstate
    (DN.get_dn newDn) hrequest (renameRequest_replied hrequest) none
  have hstart : ∀ polls, (Method.modifyMl lib polls dn ml controls).run ⟨self, w, calls⟩ =
      (Method.rename lib polls dn (.dn newDn) true none >>= fun _ =>
        Method.executeWrite lib polls o (.modifyExt (DN.str lib (.dn newDn)) ml) (.dn newDn)
          controls).run ⟨self, w, calls⟩ := by
    intro polls
    unfold Method.modifyMl Method.renameChanged
    rw [EStateM.run_bind, Method.conn_ok (s := ⟨self, w, calls⟩) hconn, hget]
    simp only [EStateM.run_bind, Method.ofExcept_ok, hnew, heq, Bool.false_eq_true, if_false, run_map]
    cases (Method.rename lib polls dn (.dn newDn) true none).run ⟨self, w, calls⟩ <;> rfl
  cases hanswer : (server.answer d (request.with none)).1 with
  | error err =>
    -- the modification is not tried
    rw [hanswer] at hrename
    refine ⟨n, w₁, log, fun polls hpolls => ⟨fun err' herr => ?_, fun r hr => by cases hr⟩⟩
    cases herr
    refine ⟨hnext, ?_⟩
    rw [hstart polls, EStateM.run_bind, hrename polls hpolls]
    rfl
  | ok r =>
    rw [hanswer] at hrename
    obtain ⟨n', w₂, log', hlast, -, hmodify⟩ := Method.executeWrite_run (calls ++ log) hattempts server
      hnext (.modifyExt (DN.str lib (.dn newDn)) ml) rfl (DN.get_dn newDn) controls
    refine ⟨max n n', w₂, log ++ log', fun polls hpolls =>
      ⟨fun err herr => (by cases herr), fun r' _ => ⟨hlast, ?_⟩⟩⟩
    rw [hstart polls, EStateM.run_bind, hrename polls (by omega), ← List.append_assoc]
    exact hmodify polls (by omega)

/-! ## When nothing is changed -/

variable {directory : D → E}

omit hconn hattempts in
/-- An answer that keeps the directory where it refuses. -/
theorem failsUnchanged_written {program : Nat → Method ω Result}
    {name : DN} {controls : Option Controls} {n : Nat} {w' : ω} {log : List (Call ω)} {d' : D}
    {answer : Except LdapError Response} (hnext : server.state w' = some d')
    (hkept : ∀ err, answer = .error err → directory d' = directory d)
    (hrun : ∀ polls, n ≤ polls → (program polls).run ⟨self, w, calls⟩ =
      written name controls ⟨self, w', calls ++ log⟩ answer) :
    FailsUnchanged server directory d program ⟨self, w, calls⟩ := by
  refine ⟨n, fun polls hpolls e s' hraised => ?_⟩
  rw [hrun polls hpolls] at hraised
  cases answer with
  | ok r => cases hraised
  | error err =>
    injection hraised with _ hs
    rw [← hs]
    exact ⟨d', hnext, hkept err rfl⟩

omit hconn hattempts in
/-- Where a rename is requested, it and the modification after it decide. -/
theorem refusedAfterRename_iff {dn : DnArg} {old newDn : DN} {ml : List Modification}
    {request : Request} {controls : Option Controls} (hget : DN.get lib.toNames dn = .ok old)
    (hnew : computeChangedDn lib old ml = .ok newDn) (heq : newDn.eq lib.toNames old = false)
    (hrequest : renameRequest lib dn newDn true = .ok request) :
    RefusedAfterRename server directory d dn ml controls ↔
      ∃ r err, (server.answer d (request.with none)).1 = .ok r ∧
        directory (server.answer d (request.with none)).2 ≠ directory d ∧
        (server.answer (server.answer d (request.with none)).2
          ((Request.modifyExt (DN.str lib (.dn newDn)) ml).with controls)).1 = .error err := by
  constructor
  · rintro ⟨old', newDn', request', r, err, hold, hcomputed, -, hmade, hrest⟩
    cases hget.symm.trans hold
    cases hnew.symm.trans hcomputed
    cases hrequest.symm.trans hmade
    exact ⟨r, err, hrest⟩
  · rintro ⟨r, err, hrest⟩
    exact ⟨old, newDn, request, r, err, hget, hnew, heq, hrequest, hrest⟩

omit hattempts in
/-- What raises before the first request: a name that is none, a changed name that cannot be
computed, a rename that cannot be requested. -/
theorem modifyMl_early {dn : DnArg} {ml : List Modification} (controls : Option Controls) {e : PyExc}
    (hearly : DN.get lib.toNames dn = .error e ∨
      ∃ old, DN.get lib.toNames dn = .ok old ∧ (computeChangedDn lib old ml = .error e ∨
        ∃ newDn, computeChangedDn lib old ml = .ok newDn ∧ newDn.eq lib.toNames old = false ∧
          renameRequest lib dn newDn true = .error e)) (polls : Nat) :
    (Method.modifyMl lib polls dn ml controls).run ⟨self, w, calls⟩ = .error e ⟨self, w, calls⟩ := by
  unfold Method.modifyMl
  rw [EStateM.run_bind, Method.conn_ok (s := ⟨self, w, calls⟩) hconn]
  obtain hget | ⟨old, hget, hnew | ⟨newDn, hnew, heq, hrequest⟩⟩ := hearly
  · rw [hget]
    rfl
  · rw [hget]
    simp only [EStateM.run_bind, Method.ofExcept_ok, hnew, Method.ofExcept_error]
  · unfold Method.renameChanged Method.rename
    rw [hget]
    simp only [EStateM.run_bind, Method.ofExcept_ok, hnew, heq, Bool.false_eq_true, if_false,
      run_map, Method.conn_ok (s := ⟨self, w, calls⟩) hconn, DN.get, hrequest,
      Method.ofExcept_error]

/-- Once the rename is carried out, a call that raises leaves the directory exactly where the
rename has moved nothing that a refused modification was to follow. -/
theorem failsUnchanged_renamed (hrefused : ∀ d op err, (server.answer d op).1 = .error err →
      directory (server.answer d op).2 = directory d)
    (hstate : server.state w = some d) {dn : DnArg} {old newDn : DN} {ml : List Modification}
    (hget : DN.get lib.toNames dn = .ok old) (hnew : computeChangedDn lib old ml = .ok newDn)
    (heq : newDn.eq lib.toNames old = false) {request : Request}
    (hrequest : renameRequest lib dn newDn true = .ok request) (controls : Option Controls) :
    FailsUnchanged server directory d (fun polls => Method.modifyMl lib polls dn ml controls)
      ⟨self, w, calls⟩ ↔ ¬ RefusedAfterRename server directory d dn ml controls := by
  rw [refusedAfterRename_iff server hget hnew heq hrequest]
  obtain ⟨n, w', log, hrun⟩ := modifyMl_renamed hconn hattempts server calls hstate hget hnew heq
    hrequest controls
  cases hanswer : (server.answer d (request.with none)).1 with
  | error err =>
    -- the rename is refused
    have hruns : ∀ polls, n ≤ polls → (Method.modifyMl lib polls dn ml controls).run
        ⟨self, w, calls⟩ = written old none ⟨self, w', calls ++ log⟩ (.error err) :=
      fun polls hpolls => ((hrun polls hpolls).1 err hanswer).2
    refine iff_of_true ?_ ?_
    · exact failsUnchanged_written server ((hrun n (Nat.le_refl n)).1 err hanswer).1
        (fun _ _ => hrefused _ _ err hanswer) hruns
    · rintro ⟨r, err', haccepted, -⟩
      cases haccepted
  | ok r =>
    have hnext := ((hrun n (Nat.le_refl n)).2 r hanswer).1
    have hruns := fun polls hpolls => ((hrun polls hpolls).2 r hanswer).2
    have hkept := hrefused (server.answer d (request.with none)).2
      ((Request.modifyExt (DN.str lib (.dn newDn)) ml).with controls)
    constructor
    · rintro ⟨n', hfails⟩ ⟨r', err, -, hmoved, hmodify⟩
      have hraised := hruns (max n n') (Nat.le_max_left n n')
      rw [hmodify] at hraised
      obtain ⟨d', hd', hsame⟩ := hfails (max n n') (Nat.le_max_right n n') _ _ hraised
      cases hnext.symm.trans hd'
      rw [hkept err hmodify] at hsame
      exact hmoved hsame
    · intro hnot
      refine failsUnchanged_written server hnext (fun err hmodify => ?_) hruns
      rw [hkept err hmodify]
      by_contra hmoved
      exact hnot ⟨r, err, rfl, hmoved, hmodify⟩

/-- A call that raises leaves the directory exactly where no rename was carried out that
the refused modification was to follow. -/
theorem failsUnchanged_iff (hrefused : ∀ d op err, (server.answer d op).1 = .error err →
      directory (server.answer d op).2 = directory d)
    (hstate : server.state w = some d) (dn : DnArg) (ml : List Modification)
    (controls : Option Controls) :
    FailsUnchanged server directory d (fun polls => Method.modifyMl lib polls dn ml controls)
      ⟨self, w, calls⟩ ↔ ¬ RefusedAfterRename server directory d dn ml controls := by
  cases hget : DN.get lib.toNames dn with
  | error e =>
    refine iff_of_true
      (failsUnchanged_raised hstate (modifyMl_early hconn controls (.inl hget))) ?_
    rintro ⟨old, newDn, request, r, err, hold, -⟩
    cases hget.symm.trans hold
  | ok old =>
    cases hnew : computeChangedDn lib old ml with
    | error e =>
      refine iff_of_true (failsUnchanged_raised hstate
        (modifyMl_early hconn controls (.inr ⟨old, hget, .inl hnew⟩))) ?_
      rintro ⟨old', newDn, request, r, err, hold, hcomputed, -⟩
      cases hget.symm.trans hold
      cases hnew.symm.trans hcomputed
    | ok newDn =>
      cases heq : newDn.eq lib.toNames old with
      | true =>
        -- a single request, which changes nothing where it is refused
        obtain ⟨n, w', log, hnext, hrun⟩ := modifyMl_kept hconn hattempts server calls hstate hget hnew
          heq controls
        refine iff_of_true (failsUnchanged_written server hnext (hrefused _ _) hrun) ?_
        rintro ⟨old', newDn', request, r, err, hold, hcomputed, hne, -⟩
        cases hget.symm.trans hold
        cases hnew.symm.trans hcomputed
        cases heq.symm.trans hne
      | false =>
        cases hrequest : renameRequest lib dn newDn true with
        | error e =>
          refine iff_of_true (failsUnchanged_raised hstate (modifyMl_early hconn controls
            (.inr ⟨old, hget, .inr ⟨newDn, hnew, heq, hrequest⟩⟩))) ?_
          rintro ⟨old', newDn', request, r, err, hold, hcomputed, -, hmade, -⟩
          cases hget.symm.trans hold
          cases hnew.symm.trans hcomputed
          cases hrequest.symm.trans hmade
        | ok request =>
          exact failsUnchanged_renamed hconn hattempts server hrefused hstate hget hnew heq hrequest
            controls

end

/-- `modify_ml`, and `modify` that goes through it, leave the directory unchanged where they
raise, exactly where no rename was carried out whose modification is refused. -/
theorem modify_failure_unchanged_iff (hconn : self.conn = some o)
    (hattempts : 0 < self.maxConnectionAttempts) (server : Server lib.toEnv self.toSlots o D)
    {directory : D → E} (hrefused : ∀ d op err, (server.answer d op).1 = .error err →
      directory (server.answer d op).2 = directory d)
    (hstate : server.state w = some d) (calls : List (Call ω)) (dn : DnArg)
    (controls : Option Controls) :
    (∀ ml, FailsUnchanged server directory d (fun polls => Method.modifyMl lib polls dn ml controls)
        ⟨self, w, calls⟩ ↔ ¬ RefusedAfterRename server directory d dn ml controls) ∧
      ∀ oldattr newattr, FailsUnchanged server directory d
          (fun polls => Method.modify lib polls dn oldattr newattr controls) ⟨self, w, calls⟩ ↔
        ¬ RefusedAfterRename server directory d dn (lib.modifyModlist oldattr newattr) controls :=
  ⟨fun ml => failsUnchanged_iff hconn hattempts server hrefused hstate dn ml controls,
    fun oldattr newattr => failsUnchanged_iff hconn hattempts server hrefused hstate dn
      (lib.modifyModlist oldattr newattr) controls⟩

/-! ## A server that refuses modifications -/

/-- Entries by their names. -/
abbrev Entries := List (List (List Ava) × List (PyStr × List Bytes))

/-- A server that renames entries, and refuses everything else. -/
def renamesOnly (entries : Entries) (op : Operation) : Except LdapError Response × Entries :=
  match op.request with
  | .rename dn newrdn superior _ =>
    (.ok { type := some .modRDN, data := some [], msgid := some 1, ctrls := some [] },
      entries.map fun entry => if entry.1 = simpleNames.reading dn then
        (simpleNames.reading newrdn ++ superior.elim [] simpleNames.reading, entry.2) else entry)
  | _ => (.error { cls := .other "ConstraintViolation" }, entries)

theorem renamesOnly_proper (entries : Entries) (op : Operation) :
    ProperAnswer (renamesOnly entries op).1 := by
  unfold renamesOnly
  split
  · exact ⟨by decide, rfl⟩
  · exact ⟨rfl, rfl⟩

theorem renamesOnly_refused (entries : Entries) (op : Operation) (err : LdapError)
    (h : (renamesOnly entries op).1 = .error err) : (renamesOnly entries op).2 = entries := by
  unfold renamesOnly at h ⊢
  split at h
  · cases h
  · rfl

/-- A connection to it. -/
def renamingServer : Server (serving renamesOnly).toEnv connectedSelf.toSlots 0 Entries :=
  servingServer renamesOnly_proper connectedSelf.toSlots

theorem renamingServer_state (entries : Entries) :
    renamingServer.state (entries, unasked) = some entries := rfl

/-- The name `cn=foo,dc=org`. -/
def fooName : DN := ⟨py "cn=foo,dc=org", [[(py "cn", py "foo", 1)], [(py "dc", py "org", 1)]]⟩

/-- The name `cn=bar,dc=org`. -/
def barName : DN := ⟨py "cn=bar,dc=org", [[(py "cn", py "bar", 1)], [(py "dc", py "org", 1)]]⟩

/-- A directory with the entry of the first name. -/
def fooEntry : Entries := [(fooName.rdns, [(py "cn", [[102, 111, 111]])])]

/-- A description is added: there is no rename to take back. -/
theorem modify_failure_unchanged_iff_description :
    FailsUnchanged renamingServer id fooEntry (fun polls => Method.modifyMl (serving renamesOnly) polls
      (.text (py "cn=foo,dc=org")) [(0, py "description", .list [[97]])] none) (servingState fooEntry) := by
  have hrefused : ∀ entries op err, (renamingServer.answer entries op).1 = .error err →
      id (renamingServer.answer entries op).2 = id entries := renamesOnly_refused
  have hget : DN.get (serving renamesOnly).toNames (.text (py "cn=foo,dc=org")) = .ok fooName := by rfl
  refine ((modify_failure_unchanged_iff connectedSelf_conn connectedSelf_attempts renamingServer
    hrefused (renamingServer_state fooEntry) [] _ _).1 _).mpr ?_
  rintro ⟨old, newDn, request, r, err, hold, hnew, hne, -⟩
  cases hget.symm.trans hold
  have hkept : computeChangedDn (serving renamesOnly) fooName [(0, py "description", .list [[97]])]
      = .ok fooName := by rfl
  cases hkept.symm.trans hnew
  rw [DN.eq_of_rdns rfl] at hne
  cases hne

/-- The value of `cn` is replaced: the rename stays. -/
theorem modify_failure_renames :
    ¬ FailsUnchanged renamingServer id fooEntry (fun polls => Method.modifyMl (serving renamesOnly) polls
      (.text (py "cn=foo,dc=org")) [(2, py "cn", .list [[98, 97, 114]])] none) (servingState fooEntry) := by
  have hrefused : ∀ entries op err, (renamingServer.answer entries op).1 = .error err →
      id (renamingServer.answer entries op).2 = id entries := renamesOnly_refused
  have hne : barName.eq (serving renamesOnly).toNames fooName = false := by
    rw [Bool.eq_false_iff]
    intro heq
    have hnormal := (DN.eq_iff serving_noCollision).mp heq
    revert hnormal
    decide
  have hmoved : (renamesOnly fooEntry ((Request.rename (py "cn=foo,dc=org") (py "cn=bar") (some (py "dc=org"))
      true).with none)).2 ≠ fooEntry := by
    intro hsame
    have hnames := congrArg (List.map Prod.fst) hsame
    revert hnames
    decide
  intro hfails
  refine (failsUnchanged_iff connectedSelf_conn connectedSelf_attempts renamingServer hrefused
    (renamingServer_state fooEntry) _ _ _).mp hfails ?_
  exact ⟨fooName, barName, .rename (py "cn=foo,dc=org") (py "cn=bar") (some (py "dc=org")) true, _, _,
    by rfl, by rfl, hne, by rfl, by rfl, hmoved, by rfl⟩

end FreeIam.Ldap
