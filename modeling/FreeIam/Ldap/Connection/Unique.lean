import FreeIam.Ldap.Connection.PagingServer

/-!
# unique=True

The uniqueness check counts the results of one request. `search`, `search_iter` and
`search_dn` make one request, so they tell whether more than one entry matches. The
paged searches make one request for each page and notice only two entries on the
same page.
-/

namespace FreeIam.Ldap

open FreeIam.Py FreeIam.Errors FreeIam.Exec FreeIam.Ldap.Method

/-- Given rounds enough the search comes to its end, and it raises `NotUnique` if and
only if `c`. -/
def RaisesNotUniqueIff {σ α : Type} (program : Nat → EStateM PyExc σ α) (s : σ) (c : Prop) : Prop :=
  ∃ n, ∀ polls, n ≤ polls → (∀ s', (program polls).run s ≠ .error .polling s') ∧
    ((∃ results s', (program polls).run s = .error (.notUnique results) s') ↔ c)

namespace RaisesNotUniqueIff

variable {σ α : Type} {program : Nat → EStateM PyExc σ α} {s : σ} {c c' : Prop}

/-- A search that ends in one of three ways. -/
theorem of_ends {n : Nat} (h : ∀ polls, n ≤ polls →
    (c ∧ ∃ results s', (program polls).run s = .error (.notUnique results) s') ∨
      (¬ c ∧ ((∃ a s', (program polls).run s = .ok a s') ∨
        ∃ err s', (program polls).run s = .error (.lib err) s'))) : RaisesNotUniqueIff program s c := by
  refine ⟨n, fun polls hpolls => ?_⟩
  rcases h polls hpolls with ⟨hc, results, s', hrun⟩ | ⟨hc, ⟨a, s', hrun⟩ | ⟨err, s', hrun⟩⟩
  · rw [hrun]
    exact ⟨fun s'' heq => (by cases heq), fun _ => hc, fun _ => ⟨results, s', rfl⟩⟩
  · rw [hrun]
    exact ⟨fun s'' heq => (by cases heq), fun ⟨_, _, heq⟩ => (by cases heq), fun h => absurd h hc⟩
  · rw [hrun]
    exact ⟨fun s'' heq => (by cases heq), fun ⟨_, _, heq⟩ => (by cases heq), fun h => absurd h hc⟩

/-- The condition is determined by the runs. -/
theorem congr (h : RaisesNotUniqueIff program s c) (h' : RaisesNotUniqueIff program s c') :
    c ↔ c' := by
  obtain ⟨n, hn⟩ := h
  obtain ⟨n', hn'⟩ := h'
  exact (hn (max n n') (Nat.le_max_left n n')).2.symm.trans (hn' (max n n') (Nat.le_max_right n n')).2

theorem of_iff (h : RaisesNotUniqueIff program s c) (hiff : c ↔ c') :
    RaisesNotUniqueIff program s c' := by
  obtain ⟨n, hn⟩ := h
  exact ⟨n, fun polls hpolls => ⟨(hn polls hpolls).1, (hn polls hpolls).2.trans hiff⟩⟩

end RaisesNotUniqueIff

/-! ## What answers the searches -/

section

variable {ω : Type} (env : Env ω) (args : SearchArgs)

/-- A connection to a server that pages the entries for `search_paged`, cutting them
into pages of at most the size asked for. -/
structure ServedPages (size : Nat) (entries : List Entry) (s : State ω) where
  o : Obj
  pages : List (List Entry)
  connected : s.self.conn = some o
  attempts : 0 < s.self.maxConnectionAttempts
  server : PagedServer env s.self.toSlots o args size
  ready : server.ready [] pages s.world
  nonempty : pages ≠ []
  cut : pages.flatten = entries
  bounded : ∀ page ∈ pages, page.length ≤ size

/-- A connection to a server that has views of the entries for `search_paginated`. -/
structure ServedViews (size : Nat) (entries : List Entry) (s : State ω) where
  o : Obj
  connected : s.self.conn = some o
  attempts : 0 < s.self.maxConnectionAttempts
  server : ViewServer env s.self.toSlots o args size entries
  ready : server.ready none s.world

/-- What `search_dn` searches with. -/
def SearchArgs.forDns (args : SearchArgs) : SearchArgs :=
  { args with attrs := some [], attrsonly := true }

end

variable {ω : Type} {env : Env ω} {args : SearchArgs} {entries : List Entry} {size : Nat}

/-! ## One request -/

/-- `search` counts the results of its only request. -/
theorem search_raises {s : State ω} (hunique : args.unique = true) (hnames : Named env entries)
    (hs : Served env args true false s (Batched (messages entries))) :
    ∃ n, ∀ polls, n ≤ polls →
      (1 < entries.length ∧ ∃ results s', (Method.search env polls args).run s =
        .error (.notUnique results) s') ∨
      (¬ 1 < entries.length ∧ ∃ results s', AreEntries (messages entries) results ∧
        (Method.search env polls args).run s = .ok results s') := by
  obtain ⟨r, hrs, htype, hdata⟩ := hs.described
  have hdel := hs.delivered.to
  rw [hrs] at hdel
  have hset : (Shared.setSorting args false : Shared ω Unit).run (s, args.controls) =
      .ok () (s, hs.controls) := by
    rw [Shared.run_setSorting, hs.controlled]
  obtain ⟨n, results, w', log, -, hall, -, hrun⟩ := Shared.search_answered hs.connected hs.attempts hset
    hs.sent hdel htype hdata (messages_valid hnames) messages_isReference
  refine ⟨n, fun polls hpolls => ?_⟩
  rw [← Shared.forget_search, hrun polls hpolls, messages_length]
  by_cases hlength : 1 < entries.length
  · rw [if_pos ⟨hunique, hlength⟩]
    exact .inl ⟨hlength, results, _, rfl⟩
  · rw [if_neg fun h => hlength h.2]
    exact .inr ⟨hlength, results, _, hall, rfl⟩

theorem search_unique {s : State ω} (hunique : args.unique = true) (hnames : Named env entries)
    (hs : Served env args true false s (Batched (messages entries))) :
    RaisesNotUniqueIff (fun polls => Method.search env polls args) s (1 < entries.length) := by
  obtain ⟨n, hrun⟩ := search_raises hunique hnames hs
  refine RaisesNotUniqueIff.of_ends (n := n) fun polls hpolls => ?_
  rcases hrun polls hpolls with hraise | ⟨hlength, results, s', -, hok⟩
  · exact .inl hraise
  · exact .inr ⟨hlength, .inl ⟨results, s', hok⟩⟩

/-- Results that are entries have names. -/
theorem mapM_dn {results : List Result} :
    ∀ {entries : List Entry}, AreEntries (messages entries) results →
    ∃ dns, results.mapM yieldedDn = .ok dns := by
  induction results with
  | nil => exact fun _ => ⟨[], rfl⟩
  | cons result results ih =>
    intro entries hall
    unfold AreEntries at hall
    rw [entries_messages] at hall
    cases entries with
    | nil => cases hall
    | cons entry entries =>
      obtain ⟨hhead, htail⟩ := List.cons.inj hall
      obtain ⟨dns, hdns⟩ := ih (by
        unfold AreEntries
        rw [entries_messages]
        exact htail)
      cases hdn : result.dn with
      | none =>
        unfold Result.entry? at hhead
        rw [hdn] at hhead
        cases hhead
      | some dn =>
        have hyielded : yieldedDn result = .ok dn := by
          unfold yieldedDn
          rw [hdn]
        exact ⟨dn :: dns, by rw [List.mapM_cons, hyielded, hdns]; rfl⟩

theorem searchDn_unique {s : State ω} (hunique : args.unique = true) (hnames : Named env entries)
    (hs : Served env args.forDns true false s (Batched (messages entries))) :
    RaisesNotUniqueIff (fun polls => Method.searchDn env polls args) s (1 < entries.length) := by
  have huniqueDns : args.forDns.unique = true := hunique
  obtain ⟨n, hrun⟩ := search_raises huniqueDns hnames hs
  refine RaisesNotUniqueIff.of_ends (n := n) fun polls hpolls => ?_
  unfold Method.searchDn
  rw [EStateM.run_bind, show ({ args with attrs := some [], attrsonly := true } : SearchArgs) =
    args.forDns from rfl]
  rcases hrun polls hpolls with ⟨hlength, results, s', hraise⟩ | ⟨hlength, results, s', hall, hok⟩
  · rw [hraise]
    exact .inl ⟨hlength, results, s', rfl⟩
  · obtain ⟨dns, hdns⟩ := mapM_dn hall
    rw [hok]
    simp only [hdns]
    exact .inr ⟨hlength, .inl ⟨dns, s', rfl⟩⟩

theorem searchIter_unique {s : State ω} (hunique : args.unique = true) (hnames : Named env entries)
    (hs : Served env args false true s (Singly (messages entries))) :
    RaisesNotUniqueIff (fun polls => Shared.searchIter env polls args) (s, args.controls)
      (1 < entries.length) := by
  have hset : (Shared.setSorting args true : Shared ω Unit).run (s, args.controls) =
      .ok () (s, hs.controls) := by
    rw [Shared.run_setSorting, hs.controlled]
  obtain ⟨n, results, r, w', log, hall, -, -, hraise, hreturn⟩ := Shared.searchIter_answered hs.connected
    hs.attempts hset hs.sent hs.described hs.delivered.to (messages_valid hnames) messages_isReference
  rw [hall.length_eq] at hraise hreturn
  refine RaisesNotUniqueIff.of_ends (n := n) fun polls hpolls => ?_
  by_cases hlength : 1 < entries.length
  · exact .inl ⟨hlength, hraise ⟨hunique, hlength⟩ polls hpolls⟩
  · exact .inr ⟨hlength, .inl ⟨results, _,
      (hreturn fun h => hlength h.2).2 polls hpolls⟩⟩

/-! ## One request for each page -/

/-- The names of the entries are names on every page. -/
theorem ServedPages.named {s : State ω} (hs : ServedPages env args size entries s)
    (hnames : Named env entries) : ∀ page ∈ hs.pages, Named env page := by
  intro page hpage entry hentry
  apply hnames
  rw [← hs.cut]
  exact List.mem_flatten.mpr ⟨page, hpage, hentry⟩

theorem searchPaged_unique {s : State ω} (hunique : args.unique = true) (hnames : Named env entries)
    (hcontrols : Shared.Pageable args.controls) (hs : ServedPages env args size entries s) :
    RaisesNotUniqueIff (fun polls => Shared.searchPaged env polls args size) (s, args.controls)
      (∃ page ∈ Shared.shown hs.pages, 1 < page.length) := by
  obtain ⟨n, hrun⟩ := Shared.searchPaged_answered hs.connected hs.attempts hs.server hs.ready
    hs.nonempty (hs.named hnames) hcontrols
  refine RaisesNotUniqueIff.of_ends (n := n) fun polls hpolls => ?_
  have hend := hrun polls hpolls
  by_cases hpage : ∃ page ∈ Shared.shown hs.pages, 1 < page.length
  · rw [if_pos ⟨hunique, hpage⟩] at hend
    exact .inl ⟨hpage, hend⟩
  · rw [if_neg fun h => hpage h.2] at hend
    obtain ⟨results, s', controls', -, -, hok⟩ := hend
    exact .inr ⟨hpage, .inl ⟨results, (s', controls'), hok⟩⟩

theorem searchPaginated_unique {s : State ω} (hunique : args.unique = true)
    (hnames : Named env entries) (hsize : 0 < size) (hcontrols : Shared.Settable args.controls)
    (hs : ServedViews env args size entries s) :
    RaisesNotUniqueIff (fun polls => Shared.searchPaginated env polls args size) (s, args.controls)
      (1 < size ∧ 1 < entries.length) := by
  obtain ⟨n, hrun⟩ := Shared.searchPaginated_answered hs.connected hs.attempts hs.server hsize hnames
    hs.ready hcontrols
  refine RaisesNotUniqueIff.of_ends (n := n) fun polls hpolls => ?_
  have hend := hrun polls hpolls
  by_cases hpage : 1 < size ∧ 1 < entries.length
  · rw [if_pos ⟨hunique, hpage⟩] at hend
    exact .inl ⟨hpage, hend⟩
  · rw [if_neg fun h => hpage h.2] at hend
    by_cases hfull : entries ≠ [] ∧ size ∣ entries.length
    · rw [if_pos hfull] at hend
      obtain ⟨err, p', -, herr⟩ := hend
      exact .inr ⟨hpage, .inr ⟨err, p', herr⟩⟩
    · rw [if_neg hfull] at hend
      obtain ⟨results, p', -, hok⟩ := hend
      exact .inr ⟨hpage, .inl ⟨results, p', hok⟩⟩

/-! ## The condition -/

/-- A page that is shown is one of those the entries are cut into. -/
theorem shown_length_le {pages : List (List Entry)} {page : List Entry}
    (h : page ∈ Shared.shown pages) : page ∈ pages ∧ page.length ≤ pages.flatten.length := by
  have hmem : page ∈ pages := (List.takeWhile_sublist _).subset h
  exact ⟨hmem, (List.sublist_flatten_of_mem hmem).length_le⟩

/-- All five searches raise `NotUnique` exactly where more than one entry matches, if
and only if at most one does, or `search_paged` comes to a page with two. -/
theorem unique_means_unique_iff (args : SearchArgs) (hunique : args.unique = true)
    (hcontrols : Shared.Pageable args.controls) (size : Nat) (hsize : 1 ≤ size)
    (entries : List Entry) (hnames : Named env entries) {s₁ s₂ s₃ s₄ s₅ : State ω}
    (hsearch : Served env args true false s₁ (Batched (messages entries)))
    (hiter : Served env args false true s₂ (Singly (messages entries)))
    (hdn : Served env args.forDns true false s₃ (Batched (messages entries)))
    (hpaged : ServedPages env args size entries s₄) (hviews : ServedViews env args size entries s₅) :
    (RaisesNotUniqueIff (fun polls => Method.search env polls args) s₁ (1 < entries.length) ∧
      RaisesNotUniqueIff (fun polls => Shared.searchIter env polls args) (s₂, args.controls)
        (1 < entries.length) ∧
      RaisesNotUniqueIff (fun polls => Method.searchDn env polls args) s₃ (1 < entries.length) ∧
      RaisesNotUniqueIff (fun polls => Shared.searchPaged env polls args size) (s₄, args.controls)
        (1 < entries.length) ∧
      RaisesNotUniqueIff (fun polls => Shared.searchPaginated env polls args size) (s₅, args.controls)
        (1 < entries.length)) ↔
      entries.length ≤ 1 ∨ ∃ page ∈ Shared.shown hpaged.pages, 1 < page.length := by
  have hpages := searchPaged_unique hunique hnames hcontrols hpaged
  constructor
  · rintro ⟨-, -, -, hall, -⟩
    have hiff := hpages.congr hall
    rcases Nat.lt_or_ge 1 entries.length with hlt | hge
    · exact .inr (hiff.mpr hlt)
    · exact .inl hge
  · intro hcondition
    -- the pages are cut from the entries
    have hpage : (∃ page ∈ Shared.shown hpaged.pages, 1 < page.length) ↔ 1 < entries.length := by
      constructor
      · rintro ⟨page, hmem, hlength⟩
        have hle := (shown_length_le hmem).2
        rw [hpaged.cut] at hle
        omega
      · intro hlt
        exact hcondition.resolve_left (by omega)
    -- a page has `size` entries at most
    have hview : (1 < size ∧ 1 < entries.length) ↔ 1 < entries.length := by
      constructor
      · exact fun h => h.2
      · intro hlt
        obtain ⟨page, hmem, hlength⟩ := hpage.mpr hlt
        have hle := hpaged.bounded page (shown_length_le hmem).1
        exact ⟨by omega, hlt⟩
    obtain ⟨l, hl, -⟩ := hcontrols
    exact ⟨search_unique hunique hnames hsearch, searchIter_unique hunique hnames hiter,
      searchDn_unique hunique hnames hdn, hpages.of_iff hpage,
      (searchPaginated_unique hunique hnames hsize ⟨l, hl⟩ hviews).of_iff hview⟩

/-! ### A directory with two entries -/

/-- Two entries. -/
def twoEntries : List Entry := [(py "cn=a", [(py "cn", [[97]])]), (py "cn=b", [])]

/-- Searching them with `unique=True`. -/
def uniqueArgs : SearchArgs := { unique := true }

/-- The directory answers with one batch. -/
def directoryBatch (args : SearchArgs) (controls : Option Controls)
    (hcontrols : args.searchControls false = .ok controls) :
    Served (directory twoEntries) args true false (deskState .plain) (Batched (messages twoEntries)) where
  o := 0
  controls := controls
  number := 1
  world := { service := .plain, pending := some (.ok (messages twoEntries, [])) }
  received := [Directory.batch (messages twoEntries) []]
  connected := rfl
  attempts := deskState_attempts .plain
  controlled := hcontrols
  sent := rfl
  delivered := (Directory.delivered_batch (K := fun _ => True) rfl trivial).delivered
  described := ⟨_, rfl, rfl, rfl⟩

/-- The directory answers with one message after the other. -/
def directorySingly (args : SearchArgs) (controls : Option Controls)
    (hcontrols : args.searchControls true = .ok controls) :
    Served (directory twoEntries) args false true (deskState .plain) (Singly (messages twoEntries)) where
  o := 0
  controls := controls
  number := 1
  world := { service := .plain, pending := some (.ok (messages twoEntries, [])) }
  received := (messages twoEntries).map (fun m => reply m.type [m]) ++ [Directory.batch [] []]
  connected := rfl
  attempts := deskState_attempts .plain
  controlled := hcontrols
  sent := rfl
  delivered := (Directory.delivered_singly (K := fun _ => True) rfl trivial _).delivered
  described := Directory.singly _ _

/-- The directory answers page by page. -/
def directoryPages (args : SearchArgs) {size : Nat} (hsize : 0 < size) {pages : List (List Entry)}
    (hcut : Directory.Cut size twoEntries pages) :
    ServedPages (directory twoEntries) args size twoEntries (deskState .paged) where
  o := 0
  pages := pages
  connected := rfl
  attempts := deskState_attempts .paged
  server := Directory.pagedServer twoEntries _ rfl 0 args hsize
  ready := ⟨rfl, .inr hcut⟩
  nonempty := hcut.ne_nil
  cut := hcut.flatten
  bounded := hcut.bounded

/-- The directory answers with views. -/
def directoryViews (entries : List Entry) (args : SearchArgs) (size : Nat) :
    ServedViews (directory entries) args size entries (deskState .view) where
  o := 0
  connected := rfl
  attempts := deskState_attempts .view
  server := Directory.viewServer entries _ rfl 0 args size
  ready := ⟨rfl, rfl⟩

/-- With two entries on a page all searches raise `NotUnique`. -/
theorem unique_means_unique_two_entries :
    RaisesNotUniqueIff (fun polls => Method.search (directory twoEntries) polls uniqueArgs)
        (deskState .plain) (1 < 2) ∧
      RaisesNotUniqueIff (fun polls => Shared.searchIter (directory twoEntries) polls uniqueArgs)
        (deskState .plain, none) (1 < 2) ∧
      RaisesNotUniqueIff (fun polls => Method.searchDn (directory twoEntries) polls uniqueArgs)
        (deskState .plain) (1 < 2) ∧
      RaisesNotUniqueIff (fun polls => Shared.searchPaged (directory twoEntries) polls uniqueArgs 2)
        (deskState .paged, none) (1 < 2) ∧
      RaisesNotUniqueIff (fun polls => Shared.searchPaginated (directory twoEntries) polls uniqueArgs 2)
        (deskState .view, none) (1 < 2) :=
  (unique_means_unique_iff uniqueArgs rfl ⟨[], rfl, by simp⟩ 2 (by decide) twoEntries
    (fun _ _ => ⟨_, rfl⟩) (directoryBatch uniqueArgs none rfl) (directorySingly uniqueArgs none rfl)
    (directoryBatch uniqueArgs.forDns none rfl)
    (directoryPages uniqueArgs (by decide) (.last (by decide)))
    (directoryViews twoEntries uniqueArgs 2)).mpr (.inr ⟨twoEntries, by simp [directoryPages, Shared.shown, twoEntries],
      by decide⟩)

/-- With one entry on each page `search_paged` yields both of them. -/
theorem search_paged_misses_second_entry :
    ¬ RaisesNotUniqueIff (fun polls => Shared.searchPaged (directory twoEntries) polls uniqueArgs 1)
      (deskState .paged, none) (1 < twoEntries.length) := by
  intro h
  have hpages := searchPaged_unique rfl (fun _ _ => ⟨_, rfl⟩) ⟨[], rfl, by simp⟩
    (directoryPages uniqueArgs (by decide)
      (.more (by decide) (.last (by decide)) : Directory.Cut 1 twoEntries _))
  obtain ⟨page, hpage, hlength⟩ := (hpages.congr h).mpr (by decide)
  have hbound := (Directory.Cut.bounded (.more (by decide) (.last (by decide)) :
    Directory.Cut 1 twoEntries _)) page (shown_length_le hpage).1
  omega

end FreeIam.Ldap
