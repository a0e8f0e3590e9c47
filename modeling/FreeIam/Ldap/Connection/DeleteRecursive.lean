import FreeIam.Ldap.Connection.Completeness
import FreeIam.Ldap.Connection.Exchange
import FreeIam.Lib.Subtree

/-!
# Recursive deletion

`delete_recursive` learns from the error of a delete that an entry has children, deletes
these the same way, and then the entry again. Against a server that keeps a tree it
takes away the subtree of the entry and nothing else.
-/

namespace FreeIam.Ldap

open FreeIam.Py FreeIam.Errors FreeIam.Exec FreeIam.Subtree

/-! ## A server with a tree -/

/-- The search for the entries directly below a base. -/
def oneLevel (base : PyStr) (timeout : Int) : Operation :=
  ({ base := base, scope := .onelevel, attrs := some [], attrsonly := true } : SearchArgs).operation
    timeout none

/-- The message of an entry, by a text that is read as its name. -/
def IsEntry {ω κ : Type} (env : Env ω) (key : List Ava → κ) (m : SearchMessage) (x : List κ) : Prop :=
  ∃ text attributes name, m = .entry text attributes ∧ env.str2dn text = .ok name ∧ name.map key = x

/-- A server with a tree of entries, which are known by what the server makes of their
RDNs. It refuses to delete an entry with children, removes one without and keeps account of
it, and lists the children of an entry in one reply. -/
structure TreeServer {ω : Type} (lib : Modlists ω) (slots : Slots) (o : Obj) (D κ E : Type)
    [DecidableEq κ] extends Server lib.toEnv slots o D where
  key : List Ava → κ
  tree : D → Tree κ E
  deleted : D → List (List κ)
  finite : ∀ d, {x | tree d x ≠ none}.Finite
  gapless : ∀ d, Gapless (tree d)
  /-- A name that is printed again names the same entry. -/
  reread : ∀ {text : PyStr} {name : List (List Ava)}, lib.str2dn text = .ok name →
    ∃ name', lib.str2dn (lib.dn2str name) = .ok name' ∧ name'.map key = name.map key
  nonleaf : ∀ {d : D} {dn : PyStr} {name : List (List Ava)} (controls : Option Controls),
    lib.str2dn dn = .ok name → tree d (name.map key) ≠ none →
    (∃ c, tree d (c :: name.map key) ≠ none) →
      ∃ err, answer d ((Request.deleteExt dn).with controls) = (.error err, d) ∧
        err.cls = .other "NotAllowedOnNonleaf"
  leaf : ∀ {d : D} {dn : PyStr} {name : List (List Ava)} (controls : Option Controls),
    lib.str2dn dn = .ok name → tree d (name.map key) ≠ none →
    (¬ ∃ c, tree d (c :: name.map key) ≠ none) →
      ∃ r d', answer d ((Request.deleteExt dn).with controls) = (.ok r, d') ∧
        tree d' = Function.update (tree d) (name.map key) none ∧
        deleted d' = deleted d ++ [name.map key]
  children : ∀ {d : D} {base : PyStr} {name : List (List Ava)} (timeout : Int),
    lib.str2dn base = .ok name → tree d (name.map key) ≠ none →
      ∃ r msgs xs, answer d (oneLevel base timeout) = (.ok r, d) ∧
        r.data = some (msgs.map SearchMessage.datum) ∧
        List.Forall₂ (IsEntry lib.toEnv key) msgs xs ∧ xs.Nodup ∧
        ∀ x, x ∈ xs ↔ (∃ c, x = c :: name.map key) ∧ tree d x ≠ none

variable {ω : Type} {lib : Modlists ω} {self : Connection} {o : Obj} {D κ E : Type} [DecidableEq κ]

/-! ## The children of an entry -/

/-- A result with the name of an entry. -/
def IsChild (lib : Modlists ω) (key : List Ava → κ) (result : Result) (x : List κ) : Prop :=
  ∃ child name, result.dn = some child ∧ lib.str2dn (lib.dn2str child.rdns) = .ok name ∧
    name.map key = x

/-- The entries are wrapped one by one. -/
theorem listFromResponse_children {slots : Slots} (server : TreeServer lib slots o D κ E)
    (controls : Option Controls) (response : Response) {msgs : List SearchMessage} {xs : List (List κ)}
    (h : List.Forall₂ (IsEntry lib.toEnv server.key) msgs xs) :
    ∃ results, Result.listFromResponse lib.toEnv controls response (msgs.map SearchMessage.datum)
        = .ok results ∧ List.Forall₂ (IsChild lib server.key) results xs := by
  unfold Result.listFromResponse
  induction h with
  | nil => exact ⟨[], rfl, .nil⟩
  | @cons m x msgs xs hm _ ih =>
    obtain ⟨results, hrun, hall⟩ := ih
    obtain ⟨text, attributes, name, rfl, hread, hkey⟩ := hm
    obtain ⟨name', hread', hkey'⟩ := server.reread hread
    have hinit : DN.init lib.toEnv text = .ok ⟨text, name⟩ := by rw [DN.init, hread]
    let result : Result :=
      { dn := some ⟨text, name⟩, attr := some ⟨attributes.map fun item => (item.1, .values item.2)⟩
        controls := Result.controlResponse controls response.ctrls, response := response }
    have hresult : Result.fromResponse lib.toEnv (some text) (some (.entry attributes)) controls response
        = .ok result := by
      unfold Result.fromResponse
      simp only [Option.mapM_some, hinit]
      rfl
    refine ⟨result :: results, ?_, .cons ⟨⟨text, name⟩, name', rfl, hread', hkey'.trans hkey⟩ hall⟩
    rw [List.map_cons, List.mapM_cons]
    simp only [SearchMessage.datum, hresult, hrun]
    rfl

section

variable (hconn : self.conn = some o) (hattempts : 0 < self.maxConnectionAttempts)
  (server : TreeServer lib self.toSlots o D κ E)

include hconn hattempts

/-- The search of the recursive delete finds the children, and leaves the server as it is. -/
theorem search_children {w : ω} {d : D} (calls : List (Call ω)) (hstate : server.state w = some d)
    {dn : DnArg} {name : List (List Ava)} (hread : lib.str2dn (DN.str lib dn) = .ok name)
    (hentry : server.tree d (name.map server.key) ≠ none) :
    ∃ n w' log results xs, server.state w' = some d ∧
      List.Forall₂ (IsChild lib server.key) results xs ∧ xs.Nodup ∧
      (∀ x, x ∈ xs ↔ (∃ c, x = c :: name.map server.key) ∧ server.tree d x ≠ none) ∧
      ∀ polls, n ≤ polls →
        (Method.search lib.toEnv polls (Method.childrenArgs lib dn)).run ⟨self, w, calls⟩ =
          .ok results ⟨self, w', calls ++ log⟩ := by
  obtain ⟨r, msgs, xs, hanswer, hdata, hmsgs, hnodup, hxs⟩ :=
    server.children self.timeout hread hentry
  have hexchange := server.exchange (oneLevel (DN.str lib dn) self.timeout) hstate rfl
  rw [hanswer] at hexchange
  obtain ⟨n, w', log, hnext, -, hexec⟩ := Method.execute_exchange calls hattempts hexchange
  obtain ⟨results, hlist, hall⟩ :=
    listFromResponse_children server (Result.setControls r none) r hmsgs
  refine ⟨n, w', log, results, xs, hnext, hall, hnodup, hxs, fun polls hpolls => ?_⟩
  have hcontrols : (Method.childrenArgs lib dn).searchControls false = .ok none := rfl
  unfold Method.search
  simp only [EStateM.run_bind, Method.conn_ok (s := ⟨self, w, calls⟩) hconn, hcontrols,
    Method.ofExcept_ok]
  have hexec' : (Method.execute lib.toEnv polls o
      ((Method.childrenArgs lib dn).operation self.timeout none)).run ⟨self, w, calls⟩ =
        .ok r ⟨self, w', calls ++ log⟩ := hexec polls hpolls
  rw [searchedFor_bind (EStateM.run_get ⟨self, w, calls⟩), searchedFor_bind hexec']
  apply Method.searchedFor_ok
  unfold Method.responseResults
  rw [hdata, EStateM.run_bind]
  simp only [hlist, Method.ofExcept_ok]
  rfl

theorem delete_run {w : ω} {d : D} (calls : List (Call ω)) (hstate : server.state w = some d)
    {dn : DnArg} {name : DN} (hget : DN.get lib.toNames dn = .ok name) (controls : Option Controls) :
    ∃ n w' log,
      server.state w' = some (server.answer d ((Request.deleteExt (DN.str lib dn)).with controls)).2 ∧
      ∀ polls, n ≤ polls → (Method.delete lib polls dn controls).run ⟨self, w, calls⟩ =
        written name controls ⟨self, w', calls ++ log⟩
          (server.answer d ((Request.deleteExt (DN.str lib dn)).with controls)).1 := by
  obtain ⟨n, w', log, hnext, -, hrun⟩ := Method.executeWrite_run calls hattempts server.toServer hstate
    (.deleteExt (DN.str lib dn)) rfl hget controls
  refine ⟨n, w', log, hnext, fun polls hpolls => ?_⟩
  unfold Method.delete
  rw [EStateM.run_bind, Method.conn_ok (s := ⟨self, w, calls⟩) hconn]
  exact hrun polls hpolls

end

/-! ## The recursion -/

/-- A part of the tree is gone, and the server has an account of it. -/
structure Pruned {slots : Slots} (server : TreeServer lib slots o D κ E) (d d' : D)
    (gone : List κ → Prop) (ks : List (List κ)) : Prop where
  removal : Removal (server.tree d) (server.tree d') gone ks
  account : server.deleted d' = server.deleted d ++ ks

/-- The name that is deleted, and the one the server reads, are there together. -/
theorem DN.get_of_read {dn : DnArg} {name : List (List Ava)}
    (hread : lib.str2dn (DN.str lib dn) = .ok name) : ∃ found, DN.get lib.toNames dn = .ok found := by
  cases dn with
  | dn dn => exact ⟨dn, rfl⟩
  | text text => exact ⟨⟨text, name⟩, by rw [DN.get, DN.init, show lib.str2dn text = _ from hread]⟩

/-- A recursive delete with `h` nested calls takes away a subtree of this height, and
returns the reply to the delete of its root, which comes last. -/
def Prunes (self : Connection) (server : TreeServer lib self.toSlots o D κ E) (h : Nat) : Prop :=
  ∀ {w : ω} {d : D} (calls : List (Call ω)), server.state w = some d →
    ∀ (dn : DnArg) {name : List (List Ava)}, lib.str2dn (DN.str lib dn) = .ok name →
      server.tree d (name.map server.key) ≠ none → Below (server.tree d) h (name.map server.key) →
      ∀ controls, ∃ n w' log found ks d₁ d' r, DN.get lib.toNames dn = .ok found ∧
        server.state w' = some d' ∧ Pruned server d d' (name.map server.key <:+ ·) ks ∧
        server.answer d₁ ((Request.deleteExt (DN.str lib dn)).with controls) = (.ok r, d') ∧
        ∀ polls depth, n ≤ polls → h ≤ depth →
          (Method.deleteRecursive lib polls depth dn controls).run ⟨self, w, calls⟩ =
            written found controls ⟨self, w', calls ++ log⟩ (.ok r)

section

variable {server : TreeServer lib self.toSlots o D κ E}

/-- The loop takes away one subtree after the other. They stand side by side, so that what
is left of the children is there still. -/
theorem forChildren_prunes {h : Nat} (length : Nat) (ih : Prunes self server h) {w : ω} {d : D}
    (calls : List (Call ω)) (hstate : server.state w = some d) {results : List Result}
    {xs : List (List κ)} (hall : List.Forall₂ (IsChild lib server.key) results xs) (hnodup : xs.Nodup)
    (hlength : ∀ x ∈ xs, x.length = length) (hthere : ∀ x ∈ xs, server.tree d x ≠ none)
    (hbelow : ∀ x ∈ xs, Below (server.tree d) h x) :
    ∃ n w' log ks d', server.state w' = some d' ∧
      Pruned server d d' (fun x => ∃ c ∈ xs, c <:+ x) ks ∧
      ∀ polls depth, n ≤ polls → h ≤ depth →
        (Method.forChildren (fun child => discard (Method.deleteRecursive lib polls depth (.dn child) none))
          results).run ⟨self, w, calls⟩ = .ok () ⟨self, w', calls ++ log⟩ := by
  induction hall generalizing w d calls with
  | nil =>
    refine ⟨0, w, [], [], d, hstate, ⟨(Removal.nil _).congr ?_, ?_⟩, fun polls depth _ _ => ?_⟩
    · intro x
      simp
    · rw [List.append_nil]
    · rw [List.append_nil]
      rfl
  | @cons result x results xs hchild _ ihxs =>
    obtain ⟨child, name, hdn, hread, rfl⟩ := hchild
    have hhead : name.map server.key ∈ name.map server.key :: xs := List.mem_cons_self
    obtain ⟨n₁, w₁, log₁, found, ks₁, -, d₁, r, -, hnext₁, hpruned₁, -, hrun₁⟩ :=
      ih calls hstate (.dn child) hread (hthere _ hhead) (hbelow _ hhead) none
    rw [List.nodup_cons] at hnodup
    -- a sibling is not below the child
    have hkept : ∀ x ∈ xs, server.tree d₁ x = server.tree d x := by
      intro x hx
      apply hpruned₁.removal.kept
      intro hsuffix
      have heq := hsuffix.eq_of_length
        ((hlength _ hhead).trans (hlength x (List.mem_cons_of_mem _ hx)).symm)
      exact hnodup.1 (heq ▸ hx)
    obtain ⟨n₂, w₂, log₂, ks₂, d₂, hnext₂, hpruned₂, hrun₂⟩ :=
      ihxs (calls ++ log₁) hnext₁ hnodup.2 (fun x hx => hlength x (List.mem_cons_of_mem _ hx))
        (fun x hx => by rw [hkept x hx]; exact hthere x (List.mem_cons_of_mem _ hx))
        (fun x hx => hpruned₁.removal.below (hbelow x (List.mem_cons_of_mem _ hx)))
    refine ⟨max n₁ n₂, w₂, log₁ ++ log₂, ks₁ ++ ks₂, d₂, hnext₂,
      ⟨hpruned₁.removal.cons hpruned₂.removal, ?_⟩, fun polls depth hpolls hdepth => ?_⟩
    · rw [hpruned₂.account, hpruned₁.account, List.append_assoc]
    · unfold Method.forChildren
      rw [hdn]
      show EStateM.run (discard _ >>= _) _ = _
      have hbody : (discard (Method.deleteRecursive lib polls depth (.dn child) none)).run
          ⟨self, w, calls⟩ = .ok () ⟨self, w₁, calls ++ log₁⟩ := by
        show ((fun _ => ()) <$> Method.deleteRecursive lib polls depth (.dn child) none).run _ = _
        rw [run_map, hrun₁ polls depth (by omega) hdepth]
        rfl
      rw [EStateM.run_bind, hbody]
      show EStateM.run (Method.forChildren _ results) _ = _
      rw [hrun₂ polls depth (by omega) hdepth, List.append_assoc]

section

variable (hconn : self.conn = some o) (hattempts : 0 < self.maxConnectionAttempts)

include hconn hattempts

/-- A leaf goes at once. An entry with children is refused first, and goes after them. -/
theorem prunes_succ {h : Nat} (ih : Prunes self server h) : Prunes self server (h + 1) := by
  intro w d calls hstate dn name hread hthere hbelow controls
  obtain ⟨found, hget⟩ := DN.get_of_read hread
  obtain ⟨n₁, w₁, log₁, hnext₁, hrun₁⟩ :=
    delete_run hconn hattempts server calls hstate hget controls
  by_cases hchild : ∃ c, server.tree d (c :: name.map server.key) ≠ none
  · obtain ⟨err, hanswer, hclass⟩ := server.nonleaf controls hread hthere hchild
    rw [hanswer] at hnext₁ hrun₁
    obtain ⟨n₂, w₂, log₂, results, xs, hnext₂, hresults, hnodup, hxs, hrun₂⟩ :=
      search_children hconn hattempts server (calls ++ log₁) hnext₁ hread hthere
    have hxs' : ∀ x ∈ xs, ∃ c, x = c :: name.map server.key := fun x hx => ((hxs x).mp hx).1
    obtain ⟨n₃, w₃, log₃, ks, d₃, hnext₃, hpruned, hrun₃⟩ :=
      forChildren_prunes (name.length + 1) ih (calls ++ log₁ ++ log₂) hnext₂ hresults hnodup
        (fun x hx => by obtain ⟨c, rfl⟩ := hxs' x hx; simp) (fun x hx => ((hxs x).mp hx).2)
        (fun x hx => by obtain ⟨c, rfl⟩ := hxs' x hx; exact hbelow.child c)
    -- the entry is still there, and a leaf now
    have hthere₃ : server.tree d₃ (name.map server.key) ≠ none := by
      rw [hpruned.removal.root hxs]
      exact hthere
    have hleaf₃ := hpruned.removal.leaf hxs
    obtain ⟨r, d', hanswer', htree, haccount⟩ := server.leaf controls hread hthere₃ hleaf₃
    obtain ⟨n₄, w₄, log₄, hnext₄, hrun₄⟩ :=
      delete_run hconn hattempts server (calls ++ log₁ ++ log₂ ++ log₃) hnext₃ hget controls
    rw [hanswer'] at hnext₄ hrun₄
    have hremoval := hpruned.removal.subtree hxs (server.gapless d) hthere
    rw [← htree] at hremoval
    refine ⟨n₁ + n₂ + n₃ + n₄, w₄, log₁ ++ log₂ ++ log₃ ++ log₄, found, _, d₃, d', r, hget, hnext₄,
      ⟨hremoval, ?_⟩, hanswer', fun polls depth hpolls hdepth => ?_⟩
    · rw [haccount, hpruned.account, List.append_assoc]
    · obtain ⟨depth, rfl⟩ := Nat.exists_eq_add_of_le' (Nat.le_of_add_left_le hdepth)
      have hhandled : (PyExc.lib err).is (.other "NotAllowedOnNonleaf") = true := by
        simp [PyExc.is, hclass]
      rw [Method.deleteRecursive, EStateM.run_bind, run_tryCatch, run_map, hrun₁ polls (by omega)]
      simp only [written, hhandled, if_true, EStateM.run_bind, hrun₂ polls (by omega),
        hrun₃ polls depth (by omega) (by omega), EStateM.run_pure, hrun₄ polls (by omega)]
      simp only [List.append_assoc]
  · obtain ⟨r, d', hanswer, htree, haccount⟩ := server.leaf controls hread hthere hchild
    rw [hanswer] at hnext₁ hrun₁
    have hnone : ∀ x, x ∈ [] ↔ (∃ c, x = c :: name.map server.key) ∧ server.tree d x ≠ none := by
      intro x
      refine ⟨fun hx => absurd hx List.not_mem_nil, ?_⟩
      rintro ⟨⟨c, rfl⟩, hx⟩
      exact absurd ⟨c, hx⟩ hchild
    have hremoval := Removal.subtree hnone (server.gapless d) hthere
      ((Removal.nil _).congr fun x => by simp)
    rw [← htree] at hremoval
    refine ⟨n₁, w₁, log₁, found, _, d, d', r, hget, hnext₁, ⟨hremoval, haccount⟩, hanswer,
      fun polls depth hpolls hdepth => ?_⟩
    obtain ⟨depth, rfl⟩ := Nat.exists_eq_add_of_le' (Nat.le_of_add_left_le hdepth)
    rw [Method.deleteRecursive, EStateM.run_bind, run_tryCatch, run_map, hrun₁ polls hpolls]
    rfl

theorem prunes (h : Nat) : Prunes self server h := by
  induction h with
  | zero =>
    intro w d calls _ dn name _ hthere hbelow
    exact absurd (hbelow [] (Nat.zero_le 0)) hthere
  | succ h ih => exact prunes_succ hconn hattempts ih

end

end

/-- The recursive delete of an entry ends with the reply to the delete of the entry, given
calls enough. The entry and all below it are gone, none before what is below it, and every
other entry is as it was. -/
theorem delete_recursive_removes_subtree (hconn : self.conn = some o)
    (hattempts : 0 < self.maxConnectionAttempts) (server : TreeServer lib self.toSlots o D κ E) {w : ω}
    {d : D} (hstate : server.state w = some d) (calls : List (Call ω)) {dn : DnArg}
    {name : List (List Ava)} (hread : lib.str2dn (DN.str lib dn) = .ok name)
    (hexists : server.tree d (name.map server.key) ≠ none) (controls : Option Controls) :
    ∃ n h w' log found ks d₁ d' r, DN.get lib.toNames dn = .ok found ∧
      server.state w' = some d' ∧ Pruned server d d' (name.map server.key <:+ ·) ks ∧
      server.answer d₁ ((Request.deleteExt (DN.str lib dn)).with controls) = (.ok r, d') ∧
      ∀ polls depth, n ≤ polls → h ≤ depth →
        (Method.deleteRecursive lib polls depth dn controls).run ⟨self, w, calls⟩ =
          written found controls ⟨self, w', calls ++ log⟩ (.ok r) := by
  obtain ⟨h, hbelow⟩ := exists_below (server.finite d) (name.map server.key)
  obtain ⟨n, w', log, found, ks, d₁, d', r, hrest⟩ :=
    prunes hconn hattempts h calls hstate dn hread hexists hbelow controls
  exact ⟨n, h, w', log, found, ks, d₁, d', r, hrest⟩

/-! ## A directory as the server -/

/-- The tree of the entries with these names. -/
def treeOf (entries : List (List (List Ava))) : Tree (List Ava) Unit :=
  fun x => if x ∈ entries then some () else none

theorem treeOf_ne_none {entries : List (List (List Ava))} {x : List (List Ava)} :
    treeOf entries x ≠ none ↔ x ∈ entries := by
  unfold treeOf
  split <;> simp_all

/-- The names of the entries, and of those that were deleted. -/
structure Directory where
  entries : List (List (List Ava))
  simple : ∀ x ∈ entries, ∀ rdn ∈ x, rdn ≠ [] ∧ ∀ ava ∈ rdn, SimpleAva ava
  nodup : entries.Nodup
  gapless : Gapless (treeOf entries)
  deleted : List (List (List Ava))

namespace Directory

def children (d : Directory) (name : List (List Ava)) : List (List (List Ava)) :=
  d.entries.filter fun x => x ≠ [] ∧ x.tail = name

theorem mem_children {d : Directory} {name x : List (List Ava)} :
    x ∈ d.children name ↔ (∃ c, x = c :: name) ∧ treeOf d.entries x ≠ none := by
  rw [children, List.mem_filter, treeOf_ne_none, and_comm]
  cases x <;> simp [eq_comm]

theorem children_eq_nil {d : Directory} {name : List (List Ava)} :
    d.children name = [] ↔ ¬ ∃ c, treeOf d.entries (c :: name) ≠ none := by
  rw [List.eq_nil_iff_forall_not_mem]
  constructor
  · rintro h ⟨c, hc⟩
    exact h (c :: name) (mem_children.mpr ⟨⟨c, rfl⟩, hc⟩)
  · rintro h x hx
    obtain ⟨⟨c, rfl⟩, hc⟩ := mem_children.mp hx
    exact h ⟨c, hc⟩

theorem treeOf_remove (entries : List (List (List Ava))) (name : List (List Ava)) :
    treeOf (entries.filter (· ≠ name)) = Function.update (treeOf entries) name none := by
  funext x
  by_cases hx : x = name
  · rw [hx, Function.update_self]
    simp [treeOf]
  · rw [Function.update_of_ne hx]
    simp [treeOf, hx]

/-- Without a leaf. -/
def remove (d : Directory) (name : List (List Ava)) (h : d.children name = []) : Directory where
  entries := d.entries.filter (· ≠ name)
  simple x hx := d.simple x (List.mem_of_mem_filter hx)
  nodup := d.nodup.filter _
  gapless := by
    rw [treeOf_remove]
    exact d.gapless.removeLeaf (children_eq_nil.mp h)
  deleted := d.deleted ++ [name]

/-- A delete of a leaf, and the listing of the children of an entry. -/
def answer (d : Directory) (op : Operation) : Except LdapError Response × Directory :=
  match op.request with
  | .deleteExt dn =>
    let name := simpleNames.reading dn
    if h : d.children name = [] then
      (.ok { type := some .delete, data := some [], msgid := some 1, ctrls := some [] }, d.remove name h)
    else (.error { cls := .other "NotAllowedOnNonleaf" }, d)
  | .searchExt base _ _ _ _ _ _ =>
    (.ok { type := some .searchResult, msgid := some 1, ctrls := some []
           data := some ((d.children (simpleNames.reading base)).map fun x =>
             SearchMessage.datum (.entry (printRdns x) [])) }, d)
  | _ => (.error { cls := .other "ConstraintViolation" }, d)

theorem answer_proper (d : Directory) (op : Operation) : ProperAnswer (d.answer op).1 := by
  unfold answer
  split
  · dsimp only
    split
    · exact ⟨Option.some_ne_none _, rfl⟩
    · exact ⟨rfl, rfl⟩
  · exact ⟨Option.some_ne_none _, rfl⟩
  · exact ⟨rfl, rfl⟩

end Directory

theorem reading_of_read {text : PyStr} {name : List (List Ava)} (h : readRdns text = .ok name) :
    simpleNames.reading text = name := by
  unfold Names.reading
  rw [show simpleNames.str2dn text = _ from h]

namespace Directory

variable {d : Directory} {text : PyStr} {name : List (List Ava)}

theorem finite (d : Directory) : {x | treeOf d.entries x ≠ none}.Finite :=
  d.entries.finite_toSet.subset fun _ hx => treeOf_ne_none.mp hx

theorem reread (hread : readRdns text = .ok name) :
    ∃ name', readRdns (printRdns name) = .ok name' ∧ name'.map id = name.map id :=
  ⟨name, readRdns_printRdns fun _ hrdn => readRdns_simple hread hrdn, rfl⟩

theorem answer_nonleaf (controls : Option Controls) (hread : readRdns text = .ok name)
    (hchild : ∃ c, treeOf d.entries (c :: name.map id) ≠ none) :
    ∃ err, d.answer ((Request.deleteExt text).with controls) = (.error err, d) ∧
      err.cls = .other "NotAllowedOnNonleaf" := by
  rw [List.map_id] at hchild
  have hne : d.children (simpleNames.reading text) ≠ [] := by
    rw [reading_of_read hread]
    exact fun hnil => children_eq_nil.mp hnil hchild
  exact ⟨{ cls := .other "NotAllowedOnNonleaf" }, dif_neg hne, rfl⟩

theorem answer_leaf (controls : Option Controls) (hread : readRdns text = .ok name)
    (hleaf : ¬ ∃ c, treeOf d.entries (c :: name.map id) ≠ none) :
    ∃ r d', d.answer ((Request.deleteExt text).with controls) = (.ok r, d') ∧
      treeOf d'.entries = Function.update (treeOf d.entries) (name.map id) none ∧
      d'.deleted = d.deleted ++ [name.map id] := by
  rw [List.map_id] at hleaf ⊢
  rw [← reading_of_read hread] at hleaf ⊢
  have hnil := children_eq_nil.mpr hleaf
  exact ⟨_, d.remove _ hnil, dif_pos hnil, treeOf_remove _ _, rfl⟩

/-- What is printed of an entry is its name. -/
theorem children_entries (d : Directory) (name : List (List Ava)) :
    List.Forall₂ (IsEntry (serving Directory.answer).toEnv id)
      ((d.children name).map fun x => .entry (printRdns x) []) (d.children name) := by
  rw [List.forall₂_map_left_iff, List.forall₂_same]
  intro x hx
  have hmem := List.mem_of_mem_filter hx
  exact ⟨printRdns x, [], x, rfl, readRdns_printRdns (d.simple x hmem), List.map_id x⟩

theorem answer_children (timeout : Int) (hread : readRdns text = .ok name) :
    ∃ r msgs xs, d.answer (oneLevel text timeout) = (.ok r, d) ∧
      r.data = some (msgs.map SearchMessage.datum) ∧
      List.Forall₂ (IsEntry (serving Directory.answer).toEnv id) msgs xs ∧ xs.Nodup ∧
      ∀ x, x ∈ xs ↔ (∃ c, x = c :: name.map id) ∧ treeOf d.entries x ≠ none := by
  rw [List.map_id]
  refine ⟨_, _, d.children name, rfl, ?_, d.children_entries name, d.nodup.filter _, fun x => mem_children⟩
  rw [reading_of_read hread, List.map_map]
  rfl

end Directory

/-- A server with a directory, for a connection to it. -/
def directoryServer : TreeServer (serving Directory.answer) connectedSelf.toSlots 0 Directory
    (List Ava) Unit where
  toServer := servingServer Directory.answer_proper connectedSelf.toSlots
  key := id
  tree d := treeOf d.entries
  deleted := Directory.deleted
  finite := Directory.finite
  gapless := Directory.gapless
  reread := Directory.reread
  nonleaf controls hread _ hchild := Directory.answer_nonleaf controls hread hchild
  leaf controls hread _ hleaf := Directory.answer_leaf controls hread hleaf
  children timeout hread _ := Directory.answer_children timeout hread

/-- The name `cn=y,ou=x,dc=org`. -/
def leafName : List (List Ava) :=
  [[(py "cn", py "y", 1)], [(py "ou", py "x", 1)], [(py "dc", py "org", 1)]]

theorem leafName_gapless : Gapless (treeOf [leafName, leafName.tail, leafName.tail.tail]) := by
  intro k l c hk hc
  rw [treeOf_ne_none] at hk hc ⊢
  have htail : l ++ k = leafName.tail ∨ l ++ k = leafName.tail.tail ∨ l ++ k = [] := by
    simp only [List.mem_cons, List.not_mem_nil, or_false] at hc
    exact hc.imp (congrArg List.tail) (Or.imp (congrArg List.tail) (congrArg List.tail))
  rcases htail with htail | htail | htail
  · rw [htail]
    decide
  · rw [htail]
    decide
  · -- the root is no entry
    have hnone : [] ∉ [leafName, leafName.tail, leafName.tail.tail] := by decide
    rw [(List.append_eq_nil_iff.mp htail).2] at hk
    exact absurd hk hnone

theorem leafName_simple : ∀ x ∈ [leafName, leafName.tail, leafName.tail.tail], ∀ rdn ∈ x,
    rdn ≠ [] ∧ ∀ ava ∈ rdn, SimpleAva ava := by
  have hread : readRdns (py "cn=y,ou=x,dc=org") = .ok leafName := by rfl
  intro x hx rdn hrdn
  refine readRdns_simple hread ?_
  simp only [List.mem_cons, List.not_mem_nil, or_false] at hx
  rcases hx with rfl | rfl | rfl
  · exact hrdn
  · exact List.mem_of_mem_tail hrdn
  · exact List.mem_of_mem_tail (List.mem_of_mem_tail hrdn)

theorem leafName_nodup : [leafName, leafName.tail, leafName.tail.tail].Nodup := by
  decide

/-- The entry, and those above it. -/
def threeEntries : Directory where
  entries := [leafName, leafName.tail, leafName.tail.tail]
  simple := leafName_simple
  nodup := leafName_nodup
  gapless := leafName_gapless
  deleted := []

theorem directoryServer_state (d : Directory) : directoryServer.state (d, unasked) = some d := rfl

/-- The entry in the middle goes with the one below it. -/
theorem delete_recursive_removes_subtree_unit :
    ∃ n h w' log found ks d₁ d' r,
      DN.get (serving Directory.answer).toNames (.text (py "ou=x,dc=org")) = .ok found ∧
      directoryServer.state w' = some d' ∧
      Pruned directoryServer threeEntries d' (leafName.tail.map id <:+ ·) ks ∧
      directoryServer.answer d₁ ((Request.deleteExt (py "ou=x,dc=org")).with none) = (.ok r, d') ∧
      ∀ polls depth, n ≤ polls → h ≤ depth →
        (Method.deleteRecursive (serving Directory.answer) polls depth (.text (py "ou=x,dc=org")) none).run
          (servingState threeEntries) = written found none ⟨connectedSelf, w', [] ++ log⟩ (.ok r) := by
  have hread : (serving Directory.answer).str2dn
      (DN.str (serving Directory.answer) (.text (py "ou=x,dc=org"))) = .ok leafName.tail := by rfl
  have hexists : treeOf threeEntries.entries (leafName.tail.map id) ≠ none :=
    treeOf_ne_none.mpr (by decide)
  exact delete_recursive_removes_subtree connectedSelf_conn connectedSelf_attempts directoryServer
    (directoryServer_state threeEntries) [] hread hexists none

end FreeIam.Ldap
