import FreeIam.Ldap.Concatenation
import FreeIam.Ldap.Connection.Exchange

/-!
# Renaming

`move` and `modrdn` make a target of the name and call `rename`, which asks the
server for the first RDN of the target under the rest of it. The rest is taken with
`parent`, and a name of one RDN has none: `str` makes the word `None` of it.
-/

namespace FreeIam.Ldap

open FreeIam.Py FreeIam.Errors FreeIam.Exec

variable {ω : Type}

/-! ## Requests for a target -/

/-- The request that names a target: its first RDN, and the rest of it as the new
superior. -/
def targetRequest (lib : Modlists ω) (dn : PyStr) (target : List (List Ava)) (deleteOld : Bool) :
    Request :=
  .rename dn (lib.dn2str (target.take 1)) (some (lib.dn2str (target.drop 1))) deleteOld

/-- The program sends the one request that names the target, and comes to the answer of
the server, with the target as the name of the result. -/
def RenamesTo {lib : Modlists ω} {slots : Slots} {o : Obj} {D : Type}
    (server : Server lib.toEnv slots o D) (d : D) (program : Nat → Method ω Result) (s : State ω)
    (dn : PyStr) (target : List (List Ava)) (deleteOld : Bool) (controls : Option Controls) : Prop :=
  ∃ n log s' name, s'.calls = s.calls ++ log ∧ name.rdns = target ∧
    requested log = [(targetRequest lib dn target deleteOld).with controls] ∧
    ∀ polls, n ≤ polls → (program polls).run s = written name controls s'
      (server.answer d ((targetRequest lib dn target deleteOld).with controls)).1

/-- What is relied on of `str2dn`: the word `None` after a name is no RDN, as it has no
equals sign. -/
def Names.RefusesNone (names : Names ω) : Prop :=
  ∀ rdns : List (List Ava), rdns ≠ [] → (∀ rdn ∈ rdns, names.ParsedRdn rdn) →
    (∃ e, names.str2dn (names.dn2str rdns ++ py ",None") = .error e) ∧
      ∃ e, names.str2dn (unquoteQuestionMark (names.dn2str rdns ++ py ",None")) = .error e

/-- A missing parent is no name to put another one under. -/
theorem add_none_error {lib : Modlists ω} (hnone : lib.RefusesNone) {dn : DN} (hdn : lib.Plain dn)
    (hne : dn.rdns ≠ []) : ∃ e, dn.add lib none = .error e := by
  obtain ⟨hread, hunquoted⟩ := hnone dn.rdns hne hdn.parsed
  have hinit := DN.init_error hread hunquoted
  unfold DN.add
  rw [List.append_assoc]
  exact hinit

/-- The state that an answer leaves. -/
theorem written_state {name name' : DN} {controls controls' : Option Controls} {s s' : State ω}
    {answer answer' : Except LdapError Response}
    (h : written name controls s answer = written name' controls' s' answer') : s = s' := by
  cases answer with
  | ok r =>
    cases answer' with
    | ok r' =>
      injection h
    | error err => cases h
  | error err =>
    cases answer' with
    | ok r' => cases h
    | error err' =>
      injection h

/-! ## `rename` -/

section

variable {lib : Modlists ω} {comma : Prop} {self : Connection} {o : Obj} {w : ω}
  {calls : List (Call ω)} {D : Type} {d : D}

theorem DN.first_eq (hprint : lib.RoundTrips) {dn : DN} (hdn : lib.Plain dn) (hne : 0 < dn.len) :
    dn.first lib = .ok ⟨lib.dn2str (dn.rdns.take 1), dn.rdns.take 1⟩ ∧
      lib.Plain ⟨lib.dn2str (dn.rdns.take 1), dn.rdns.take 1⟩ := by
  have hparsed : ∀ rdn ∈ dn.rdns.take 1, lib.ParsedRdn rdn :=
    fun rdn hrdn => hdn.parsed rdn (List.mem_of_mem_take hrdn)
  refine ⟨?_, Names.plain_dn2str hprint hparsed⟩
  obtain ⟨text, rdns⟩ := dn
  cases rdns with
  | nil => cases hne
  | cons rdn rdns => exact DN.init_dn2str hprint hparsed

/-- The request that `rename` makes. -/
theorem renameRequest_eq (hprint : lib.RoundTrips) {target : DN} (htarget : lib.Plain target)
    (hne : 0 < target.len) (dn : DnArg) (deleteOld : Bool) :
    renameRequest lib dn target deleteOld = .ok (.rename (DN.str lib dn)
      (lib.dn2str (target.rdns.take 1))
      (some (if 1 < target.len then lib.dn2str (target.rdns.drop 1) else py "None")) deleteOld) := by
  unfold renameRequest
  rw [(DN.first_eq hprint htarget hne).1, DN.parent_eq hprint htarget]
  by_cases hone : 1 < target.len
  · have hindex : target.len - (target.len - 1) = 1 := by omega
    rw [if_pos hone, if_pos hone, Names.suffix, hindex]
    rfl
  · rw [if_neg hone, if_neg hone]
    rfl

variable (hprint : lib.RoundTrips) (hconn : self.conn = some o)
  (hattempts : 0 < self.maxConnectionAttempts) (server : Server lib.toEnv self.toSlots o D)
  (hstate : server.state w = some d)

include hprint hconn hattempts hstate

variable (calls) in
omit hprint in
/-- `rename` sends its one request and comes to the answer. -/
theorem rename_run {newdn : DnArg} {target : DN} (hget : DN.get lib.toNames newdn = .ok target)
    {request : Request} {dn : DnArg} {deleteOld : Bool}
    (hrequest : renameRequest lib dn target deleteOld = .ok request)
    (hreplied : request.replied = true) (controls : Option Controls) :
    ∃ n w' log, server.state w' = some (server.answer d (request.with controls)).2 ∧
      requested log = [request.with controls] ∧ ∀ polls, n ≤ polls →
        (Method.rename lib polls dn newdn deleteOld controls).run ⟨self, w, calls⟩ =
          written target controls ⟨self, w', calls ++ log⟩
            (server.answer d (request.with controls)).1 := by
  obtain ⟨n, w', log, hnext, hlog, hrun⟩ := Method.executeWrite_run calls hattempts server hstate request
    hreplied (DN.get_dn target) controls
  refine ⟨n, w', log, hnext, hlog, fun polls hpolls => ?_⟩
  unfold Method.rename
  rw [EStateM.run_bind, Method.conn_ok (s := ⟨self, w, calls⟩) hconn, hget]
  simp only [EStateM.run_bind, Method.ofExcept_ok, hrequest]
  exact hrun polls hpolls

variable (calls) in
/-- `rename` names its target exactly when something is left of it above the first RDN. -/
theorem renamesTo_rename_iff (hnothing : lib.dn2str [] = []) {newdn : DnArg} {target : DN}
    (hget : DN.get lib.toNames newdn = .ok target) (htarget : lib.Plain target) (hne : 0 < target.len)
    (dn : DnArg) (deleteOld : Bool) (controls : Option Controls) :
    RenamesTo server d (fun polls => Method.rename lib polls dn newdn deleteOld controls)
      ⟨self, w, calls⟩ (DN.str lib dn) target.rdns deleteOld controls ↔ 2 ≤ target.len := by
  have hrequest := renameRequest_eq hprint htarget hne dn deleteOld
  obtain ⟨n, w', log, -, hlog, hrun⟩ := rename_run calls hconn hattempts server hstate hget hrequest rfl
    controls
  constructor
  · rintro ⟨n', log', s', name, hcalls, -, hlog', hrun'⟩
    by_contra hone
    -- the two accounts of one run are of the same request
    have hsame := written_state ((hrun (max n n') (Nat.le_max_left n n')).symm.trans
      (hrun' (max n n') (Nat.le_max_right n n')))
    have hlogs : log = log' := by
      rw [← hsame] at hcalls
      exact List.append_cancel_left hcalls
    have hempty : target.rdns.drop 1 = [] := List.drop_eq_nil_of_le (by
      show target.len ≤ 1
      omega)
    rw [← hlogs, hlog, if_neg (by omega), targetRequest, hempty, hnothing] at hlog'
    have hsuperior : py "None" = [] := by
      injection hlog' with hop
      injection congrArg Operation.request hop with _ _ hsuperior
      exact Option.some.inj hsuperior
    cases hsuperior
  · intro htwo
    rw [if_pos (by omega)] at hlog hrun
    exact ⟨n, log, ⟨self, w', calls ++ log⟩, target, rfl, rfl, hlog, hrun⟩

omit hprint hconn hattempts hstate in
/-- A program that raises before its first request names no target. -/
theorem not_renamesTo {program : Nat → Method ω Result} {dn : PyStr} {target : List (List Ava)}
    {deleteOld : Bool} {controls : Option Controls} {e : PyExc}
    (hrun : ∀ polls, (program polls).run ⟨self, w, calls⟩ = .error e ⟨self, w, calls⟩) :
    ¬ RenamesTo server d program ⟨self, w, calls⟩ dn target deleteOld controls := by
  rintro ⟨n, log, s', name, hcalls, -, hlog, hends⟩
  have hends := (hrun n).symm.trans (hends n (Nat.le_refl n))
  have hstate : s' = ⟨self, w, calls⟩ := by
    cases hanswer : (server.answer d ((targetRequest lib dn target deleteOld).with controls)).1 with
    | ok r =>
      rw [hanswer] at hends
      cases hends
    | error err =>
      rw [hanswer] at hends
      injection hends with _ hstate
      exact hstate.symm
  rw [hstate] at hcalls
  have hnil : log = [] := List.append_cancel_left (hcalls.symm.trans (List.append_nil calls).symm)
  rw [hnil] at hlog
  cases hlog

/-! ## `move` and `modrdn` -/

variable (hjoins : lib.Joins comma)

include hjoins

/-- `move` names its target exactly when the new position is not empty. -/
theorem renamesTo_move_iff {dn newposition : DnArg} {name position : DN}
    (hdn : DN.get lib.toNames dn = .ok name) (hname : lib.Plain name) (hne : 0 < name.len)
    (hget : DN.get lib.toNames newposition = .ok position) (hposition : lib.Plain position)
    (controls : Option Controls) :
    RenamesTo server d (fun polls => Method.move lib polls dn newposition controls) ⟨self, w, calls⟩
      (lib.dn2str name.rdns) (name.rdns.take 1 ++ position.rdns) true controls ↔ 0 < position.len := by
  obtain ⟨hfirst, hplain⟩ := DN.first_eq hprint hname hne
  have htake : (name.rdns.take 1).length = 1 := by
    rw [List.length_take]
    exact Nat.min_eq_left hne
  have hmove : ∀ polls, (Method.move lib polls dn newposition controls).run ⟨self, w, calls⟩ =
      (ofExcept (DN.add lib ⟨lib.dn2str (name.rdns.take 1), name.rdns.take 1⟩ (some position)) >>=
        fun newdn => Method.rename lib polls (.dn name) (.dn newdn) true controls).run
          ⟨self, w, calls⟩ := by
    intro polls
    unfold Method.move
    rw [hdn, hget]
    simp only [EStateM.run_bind, Method.ofExcept_ok, hfirst]
    rfl
  by_cases hadd : Addable comma ⟨lib.dn2str (name.rdns.take 1), name.rdns.take 1⟩ position
  · obtain ⟨newdn, hnewdn, hrdns, hnewplain⟩ := DN.add_ok hjoins hprint hplain hposition hadd
    have hlen : newdn.len = 1 + position.len := by
      rw [DN.len, hrdns, List.length_append]
      exact congrArg (· + position.len) htake
    have hiff := renamesTo_rename_iff calls hprint hconn hattempts server hstate hjoins.nothing
      (DN.get_dn newdn) hnewplain (by omega) (.dn name) true controls
    have hsame : ∀ polls, (Method.move lib polls dn newposition controls).run ⟨self, w, calls⟩ =
        (Method.rename lib polls (.dn name) (.dn newdn) true controls).run ⟨self, w, calls⟩ := by
      intro polls
      rw [hmove polls, hnewdn]
      rfl
    unfold RenamesTo at hiff ⊢
    simp only [hsame]
    rw [← hrdns]
    exact hiff.trans ⟨fun h => by omega, fun h => by omega⟩
  · -- no name is made of the RDN and the empty position
    obtain ⟨e, he⟩ := DN.add_error hjoins hplain hadd
    have hempty : ¬ 0 < position.len := by
      intro hpos
      refine hadd ⟨?_, fun hzero => absurd hzero (by omega)⟩
      show (name.rdns.take 1).length ≠ 0
      omega
    refine iff_of_false (not_renamesTo server (e := e) fun polls => ?_) hempty
    rw [hmove polls, he]
    rfl

/-- `modrdn` names its target exactly when the name has a parent. -/
theorem renamesTo_modrdn_iff (hnone : lib.RefusesNone) {dn newrdn : DnArg} {name rdn : DN}
    (hdn : DN.get lib.toNames dn = .ok name) (hname : lib.Plain name) (hne : 0 < name.len)
    (hget : DN.get lib.toNames newrdn = .ok rdn) (hrdn : lib.Plain rdn) (hone : rdn.len = 1)
    (deleteOld : Bool) (controls : Option Controls) :
    RenamesTo server d (fun polls => Method.modrdn lib polls dn newrdn deleteOld controls)
      ⟨self, w, calls⟩ (DN.str lib dn) (rdn.rdns ++ name.rdns.drop 1) deleteOld controls ↔
        2 ≤ name.len := by
  have hparent : (DN.get lib.toNames dn >>= fun dn => dn.parent lib.toNames) =
      .ok (if 1 < name.len then some (lib.suffix name (name.len - 1)) else none) := by
    rw [hdn]
    exact DN.parent_eq hprint hname
  by_cases htwo : 2 ≤ name.len
  · have hindex : name.len - (name.len - 1) = 1 := by omega
    rw [if_pos (by omega)] at hparent
    have hsuffix := hname.suffix hprint (name.len - 1)
    have hsuffixlen : (lib.suffix name (name.len - 1)).len = name.len - 1 :=
      Names.suffix_len name (by omega)
    have hrest : (lib.suffix name (name.len - 1)).rdns = name.rdns.drop 1 := by
      rw [Names.suffix, hindex]
    obtain ⟨newdn, hnewdn, hrdns, hnewplain⟩ := DN.add_ok hjoins hprint hrdn hsuffix
      ⟨by omega, fun hzero => absurd hzero (by omega)⟩
    have hlen : newdn.len = rdn.len + (name.len - 1) := by
      rw [DN.len, hrdns, List.length_append]
      exact congrArg (rdn.len + ·) hsuffixlen
    have hiff := renamesTo_rename_iff calls hprint hconn hattempts server hstate hjoins.nothing
      (DN.get_dn newdn) hnewplain (by omega) dn deleteOld controls
    have hsame : ∀ polls, (Method.modrdn lib polls dn newrdn deleteOld controls).run ⟨self, w, calls⟩ =
        (Method.rename lib polls dn (.dn newdn) deleteOld controls).run ⟨self, w, calls⟩ := by
      intro polls
      unfold Method.modrdn
      rw [hget]
      simp only [EStateM.run_bind, hparent, Method.ofExcept_ok, hnewdn]
    unfold RenamesTo at hiff ⊢
    simp only [hsame]
    rw [← hrest, ← hrdns]
    exact hiff.trans ⟨fun _ => htwo, fun _ => by omega⟩
  · -- the missing parent is printed behind the comma
    rw [if_neg (by omega)] at hparent
    have hrdnne : rdn.rdns ≠ [] := fun hnil => by
      have hzero : rdn.len = 0 := congrArg List.length hnil
      omega
    obtain ⟨e, he⟩ := add_none_error hnone hrdn hrdnne
    refine iff_of_false (not_renamesTo server (e := e) fun polls => ?_) htwo
    unfold Method.modrdn
    rw [hget]
    simp only [EStateM.run_bind, hparent, Method.ofExcept_ok, he, Method.ofExcept_error]

end

/-- The three entry points name the target they report exactly where the target has a
second RDN: a new name of two at least, a new position that is not empty, and a name
that has a parent. -/
theorem rename_requests_target_iff {lib : Modlists ω} {comma : Prop} {self : Connection} {o : Obj}
    {w : ω} {D : Type} {d : D} (hprint : lib.RoundTrips) (hjoins : lib.Joins comma)
    (hnone : lib.RefusesNone) (hconn : self.conn = some o) (hattempts : 0 < self.maxConnectionAttempts)
    (server : Server lib.toEnv self.toSlots o D) (hstate : server.state w = some d)
    {dn newdn newposition newrdn : DnArg} {name target position rdn : DN}
    (hdn : DN.get lib.toNames dn = .ok name) (hname : lib.Plain name) (hne : 0 < name.len)
    (hnewdn : DN.get lib.toNames newdn = .ok target) (htarget : lib.Plain target)
    (hnewne : 0 < target.len) (hnewposition : DN.get lib.toNames newposition = .ok position)
    (hposition : lib.Plain position) (hnewrdn : DN.get lib.toNames newrdn = .ok rdn)
    (hrdn : lib.Plain rdn) (hone : rdn.len = 1) (calls : List (Call ω)) (deleteOld : Bool)
    (controls : Option Controls) :
    (RenamesTo server d (fun polls => Method.rename lib polls dn newdn deleteOld controls)
        ⟨self, w, calls⟩ (DN.str lib dn) target.rdns deleteOld controls ↔ 2 ≤ target.len) ∧
      (RenamesTo server d (fun polls => Method.move lib polls dn newposition controls)
        ⟨self, w, calls⟩ (lib.dn2str name.rdns) (name.rdns.take 1 ++ position.rdns) true controls ↔
          0 < position.len) ∧
      (RenamesTo server d (fun polls => Method.modrdn lib polls dn newrdn deleteOld controls)
        ⟨self, w, calls⟩ (DN.str lib dn) (rdn.rdns ++ name.rdns.drop 1) deleteOld controls ↔
          2 ≤ name.len) :=
  ⟨renamesTo_rename_iff calls hprint hconn hattempts server hstate hjoins.nothing hnewdn htarget hnewne dn
      deleteOld controls,
    renamesTo_move_iff hprint hconn hattempts server hstate hjoins hdn hname hne hnewposition hposition
      controls,
    renamesTo_modrdn_iff hprint hconn hattempts server hstate hjoins hnone hdn hname hne hnewrdn hrdn
      hone deleteOld controls⟩

/-! ## A server that renames -/

theorem serving_joins {D : Type} {answer : D → Operation → Except LdapError Response × D} :
    (serving answer).Joins False :=
  ⟨simpleLib_joins.empty, simpleLib_joins.nothing, simpleLib_joins.joined, simpleLib_joins.leading,
    simpleLib_joins.taken, simpleLib_joins.refused⟩

theorem serving_refusesNone {D : Type} {answer : D → Operation → Except LdapError Response × D} :
    (serving answer).RefusesNone := by
  intro rdns _ _
  obtain ⟨s', hs'⟩ := unquoteQuestionMark_comma (printRdns rdns) (py "None")
  refine ⟨readRdns_comma (t := py "None") (.inr (by decide)), ?_⟩
  show ∃ e, readRdns (unquoteQuestionMark (printRdns rdns ++ ','.toNat :: py "None")) = .error e
  rw [hs']
  exact readRdns_comma (.inr (by decide))

/-- A server that grants what it is asked for, but no superior of the name `None`. -/
def grants (_ : Unit) (op : Operation) : Except LdapError Response × Unit :=
  match op.request with
  | .rename _ _ (some superior) _ =>
    if superior = py "None" then (.error { cls := .other "InvalidDNSyntax" }, ())
    else (.ok { type := some .modRDN, data := some [], msgid := some 1, ctrls := some [] }, ())
  | _ => (.ok { type := some .modRDN, data := some [], msgid := some 1, ctrls := some [] }, ())

theorem grants_proper (d : Unit) (op : Operation) : ProperAnswer (grants d op).1 := by
  unfold grants
  split
  · split
    · exact ⟨rfl, rfl⟩
    · exact ⟨by decide, rfl⟩
  · exact ⟨by decide, rfl⟩

/-- A connection to it. -/
def grantingServer : Server (serving grants).toEnv connectedSelf.toSlots 0 Unit :=
  servingServer grants_proper connectedSelf.toSlots

theorem grantingServer_state (d : Unit) : grantingServer.state (d, unasked) = some d := rfl

/-- The three entry points on names of two RDNs. -/
theorem rename_requests_target_iff_two :
    RenamesTo grantingServer () (fun polls => Method.rename (serving grants) polls
        (.text (py "cn=foo,dc=org")) (.text (py "cn=bar,dc=org")) true none)
        (servingState ()) (py "cn=foo,dc=org")
        [[(py "cn", py "bar", 1)], [(py "dc", py "org", 1)]] true none ∧
      RenamesTo grantingServer () (fun polls => Method.move (serving grants) polls
        (.text (py "cn=foo,dc=org")) (.text (py "ou=bar")) none)
        (servingState ()) (py "cn=foo,dc=org")
        [[(py "cn", py "foo", 1)], [(py "ou", py "bar", 1)]] true none ∧
      RenamesTo grantingServer () (fun polls => Method.modrdn (serving grants) polls
        (.text (py "cn=foo,dc=org")) (.text (py "cn=baz")) true none)
        (servingState ()) (py "cn=foo,dc=org")
        [[(py "cn", py "baz", 1)], [(py "dc", py "org", 1)]] true none := by
  let name : DN := ⟨py "cn=foo,dc=org", [[(py "cn", py "foo", 1)], [(py "dc", py "org", 1)]]⟩
  let target : DN := ⟨py "cn=bar,dc=org", [[(py "cn", py "bar", 1)], [(py "dc", py "org", 1)]]⟩
  let position : DN := ⟨py "ou=bar", [[(py "ou", py "bar", 1)]]⟩
  let rdn : DN := ⟨py "cn=baz", [[(py "cn", py "baz", 1)]]⟩
  have hname : (serving grants).Plain name := ⟨⟨py "cn=foo,dc=org", rfl⟩, by decide⟩
  have htarget : (serving grants).Plain target := ⟨⟨py "cn=bar,dc=org", rfl⟩, by decide⟩
  have hposition : (serving grants).Plain position := ⟨⟨py "ou=bar", rfl⟩, by decide⟩
  have hrdn : (serving grants).Plain rdn := ⟨⟨py "cn=baz", rfl⟩, by decide⟩
  have hdn : DN.get (serving grants).toNames (.text (py "cn=foo,dc=org")) = .ok name := by rfl
  have hnewdn : DN.get (serving grants).toNames (.text (py "cn=bar,dc=org")) = .ok target := by rfl
  have hnewposition : DN.get (serving grants).toNames (.text (py "ou=bar")) = .ok position := by rfl
  have hnewrdn : DN.get (serving grants).toNames (.text (py "cn=baz")) = .ok rdn := by rfl
  obtain ⟨hrename, hmove, hmodrdn⟩ := rename_requests_target_iff serving_roundTrips serving_joins
    serving_refusesNone connectedSelf_conn connectedSelf_attempts grantingServer (grantingServer_state ())
    hdn hname (by decide) hnewdn htarget (by decide) hnewposition hposition hnewrdn hrdn rfl [] true none
  exact ⟨hrename.mpr (by decide), hmove.mpr (by decide), hmodrdn.mpr (by decide)⟩

/-- A rename to a name of one RDN asks for the superior `None`. -/
theorem rename_asks_for_none :
    ¬ RenamesTo grantingServer () (fun polls => Method.rename (serving grants) polls
        (.text (py "dc=org")) (.text (py "dc=com")) true none)
        (servingState ()) (py "dc=org") [[(py "dc", py "com", 1)]] true none := by
  let target : DN := ⟨py "dc=com", [[(py "dc", py "com", 1)]]⟩
  have htarget : (serving grants).Plain target := ⟨⟨py "dc=com", rfl⟩, by decide⟩
  intro h
  have hnewdn : DN.get (serving grants).toNames (.text (py "dc=com")) = .ok target := by rfl
  have htwo := (renamesTo_rename_iff [] serving_roundTrips connectedSelf_conn connectedSelf_attempts
    grantingServer (grantingServer_state ()) serving_joins.nothing hnewdn htarget (by decide)
    (.text (py "dc=org")) true none).mp h
  revert htwo
  decide

end FreeIam.Ldap
