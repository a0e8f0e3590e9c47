import FreeIam.Ldap.Connection.Unique

/-!
# Whole result sets by pages

`search_paginated` goes on while the next offset is not beyond the length of the
list, and the offset it sends is one more: right at the end of the list it asks for
a page that no server has. `search_paged` takes a page without entries for the last
one, whatever its cookie says.
-/

namespace FreeIam.Ldap

open FreeIam.Py FreeIam.Errors FreeIam.Exec

variable {ω : Type} {env : Env ω} {args : SearchArgs} {size : Nat} {entries : List Entry} {s : State ω}

/-! ## search_paginated -/

/-- Given rounds enough, `search_paginated` yields the entries of the list at their
places and finishes. -/
def EnumeratesViews (env : Env ω) (args : SearchArgs) (size : Nat) (entries : List Entry)
    (s : State ω) : Prop :=
  ∃ n, ∀ polls, n ≤ polls → ∃ results p',
    (Shared.searchPaginated env polls args size).run (s, args.controls) = .ok results p' ∧
      results.map Result.placed = Shared.placedViews entries size

/-- A search that raises does not enumerate. -/
theorem EnumeratesViews.not_error (h : EnumeratesViews env args size entries s) {n : Nat}
    (herror : ∀ polls, n ≤ polls → ∃ e p',
      (Shared.searchPaginated env polls args size).run (s, args.controls) = .error e p') : False := by
  obtain ⟨m, hm⟩ := h
  obtain ⟨results, p', hok, -⟩ := hm (max n m) (Nat.le_max_right n m)
  obtain ⟨e, p'', hraised⟩ := herror (max n m) (Nat.le_max_left n m)
  rw [hok] at hraised
  cases hraised

/-- With the last page full, the page after it is asked for and refused. -/
theorem not_enumeratesViews_of_dvd (hsize : 1 ≤ size) (hnames : Named env entries)
    (hcontrols : Shared.Settable args.controls) (hs : ServedViews env args size entries s)
    (hne : entries ≠ []) (hdvd : size ∣ entries.length) : ¬ EnumeratesViews env args size entries s := by
  intro henum
  obtain ⟨n, hrun⟩ := Shared.searchPaginated_answered hs.connected hs.attempts hs.server hsize hnames
    hs.ready hcontrols
  apply henum.not_error (n := n)
  intro polls hpolls
  have hend := hrun polls hpolls
  split at hend
  · obtain ⟨found, p', hraised⟩ := hend
    exact ⟨_, p', hraised⟩
  · rw [if_pos ⟨hne, hdvd⟩] at hend
    obtain ⟨err, p', -, hraised⟩ := hend
    exact ⟨_, p', hraised⟩

/-- `search_paginated` enumerates the list if and only if the list does not end with a
full page; with `unique=True` no page may have two entries either. -/
theorem search_paginated_enumerates_iff (args : SearchArgs) (size : Nat) (hsize : 1 ≤ size)
    (entries : List Entry) (hnames : Named env entries) (hcontrols : Shared.Settable args.controls)
    (hs : ServedViews env args size entries s) :
    EnumeratesViews env args size entries s ↔
      (entries = [] ∨ ¬ size ∣ entries.length) ∧
        ¬ (args.unique = true ∧ 1 < size ∧ 1 < entries.length) := by
  obtain ⟨n, hrun⟩ := Shared.searchPaginated_answered hs.connected hs.attempts hs.server hsize hnames
    hs.ready hcontrols
  constructor
  · intro henum
    refine ⟨?_, fun hunique => ?_⟩
    · by_contra hfull
      rw [not_or, not_not] at hfull
      exact not_enumeratesViews_of_dvd hsize hnames hcontrols hs hfull.1 hfull.2 henum
    · apply henum.not_error (n := n)
      intro polls hpolls
      have hend := hrun polls hpolls
      rw [if_pos hunique] at hend
      obtain ⟨found, p', hraised⟩ := hend
      exact ⟨_, p', hraised⟩
  · rintro ⟨hpages, hunique⟩
    refine ⟨n, fun polls hpolls => ?_⟩
    have hend := hrun polls hpolls
    have hnotFull : ¬ (entries ≠ [] ∧ size ∣ entries.length) := by
      rintro ⟨hne, hdvd⟩
      exact (hpages.resolve_left hne) hdvd
    rw [if_neg hunique, if_neg hnotFull] at hend
    obtain ⟨results, p', hplaced, hok⟩ := hend
    exact ⟨results, p', hok, hplaced⟩

/-- A page of two entries and one with the third. -/
theorem search_paginated_enumerates_two :
    EnumeratesViews (directory (twoEntries ++ [(py "cn=c", [])])) {} 2 (twoEntries ++ [(py "cn=c", [])])
      (deskState .view) :=
  (search_paginated_enumerates_iff {} 2 (by decide) _ (fun _ _ => ⟨_, rfl⟩) ⟨[], rfl⟩
    (directoryViews _ {} 2)).mpr ⟨.inr (by decide), by simp⟩

/-- Two entries fill a page of two. -/
theorem search_paginated_asks_past_the_end :
    ¬ EnumeratesViews (directory twoEntries) {} 2 twoEntries (deskState .view) :=
  not_enumeratesViews_of_dvd (by decide) (fun _ _ => ⟨_, rfl⟩) ⟨[], rfl⟩ (directoryViews twoEntries {} 2)
    (by decide) (by decide)

/-! ## search_paged -/

/-- Given rounds enough, `search_paged` yields the entries of the server's pages at their
places, finishes, and has sent one request for each page. -/
def EnumeratesPages (env : Env ω) (args : SearchArgs) (size : Nat) (pages : List (List Entry))
    (s : State ω) : Prop :=
  ∃ n, ∀ polls, n ≤ polls → ∃ results s' controls',
    (Shared.searchPaged env polls args size).run (s, args.controls) = .ok results (s', controls') ∧
      results.map Result.placed = Shared.placedPages size 1 pages ∧
      (requested s'.calls).length = (requested s.calls).length + pages.length

/-- The pages are those that are shown and, if any, an empty one with the pages after it. -/
theorem shown_append (pages : List (List Entry)) :
    Shared.shown pages = pages ∨ ∃ rest, pages = Shared.shown pages ++ [] :: rest := by
  induction pages with
  | nil => exact .inl rfl
  | cons page pages ih =>
    by_cases hnil : page = []
    · exact .inr ⟨pages, by rw [hnil, Shared.shown_nil, List.nil_append]⟩
    · rw [Shared.shown_cons hnil]
      rcases ih with hall | ⟨rest, hrest⟩
      · exact .inl (by rw [hall])
      · exact .inr ⟨rest, by rw [List.cons_append, ← hrest]⟩

theorem ne_nil_of_mem_shown {pages : List (List Entry)} {page : List Entry}
    (h : page ∈ Shared.shown pages) : page ≠ [] := by
  have hshown := List.mem_takeWhile_imp h
  simpa using hshown

/-- Every page is asked for if and only if only the last one may be empty. -/
theorem asked_all_iff (pages : List (List Entry)) :
    Shared.asked pages = pages.length ↔ ∀ page ∈ pages.dropLast, page ≠ [] := by
  unfold Shared.asked
  rcases shown_append pages with hall | ⟨rest, hrest⟩
  · rw [hall]
    refine ⟨fun _ page hpage => ?_, fun _ => by omega⟩
    apply ne_nil_of_mem_shown
    rw [hall]
    exact List.mem_of_mem_dropLast hpage
  · have hlength := congrArg List.length hrest
    rw [List.length_append, List.length_cons] at hlength
    constructor
    · intro hasked page hpage
      have hlast : rest = [] := List.length_eq_zero_iff.mp (by omega)
      rw [hrest, hlast, List.dropLast_concat] at hpage
      exact ne_nil_of_mem_shown hpage
    · intro hpages
      by_cases hlast : rest = []
      · rw [hlast, List.length_nil] at hlength
        omega
      · have hmem : [] ∈ pages.dropLast := by
          rw [hrest, List.dropLast_append_of_ne_nil (List.cons_ne_nil _ _),
            List.dropLast_cons_of_ne_nil hlast]
          exact List.mem_append_right _ List.mem_cons_self
        exact absurd rfl (hpages [] hmem)

/-- Then the entries of all pages are shown. -/
theorem placedPages_shown {pages : List (List Entry)} (h : Shared.asked pages = pages.length)
    (pageSize page : Int) :
    Shared.placedPages pageSize page (Shared.shown pages) = Shared.placedPages pageSize page pages := by
  unfold Shared.asked at h
  induction pages generalizing page with
  | nil => rfl
  | cons entries pages ih =>
    by_cases hnil : entries = []
    · -- the empty page is the last one
      subst hnil
      rw [Shared.shown_nil, List.length_nil, List.length_cons] at h
      obtain rfl : pages = [] := List.length_eq_zero_iff.mp (by omega)
      rfl
    · rw [Shared.shown_cons hnil] at h ⊢
      rw [List.length_cons, List.length_cons] at h
      rw [Shared.placedPages_cons, Shared.placedPages_cons, ih (by omega)]

/-- A page with an entry is shown, where only the last page may be empty. -/
theorem mem_shown {pages : List (List Entry)} (h : ∀ page ∈ pages.dropLast, page ≠ [])
    {page : List Entry} (hmem : page ∈ pages) (hne : page ≠ []) : page ∈ Shared.shown pages := by
  rcases shown_append pages with hall | ⟨rest, hrest⟩
  · rwa [hall]
  · rw [hrest] at hmem
    rcases List.mem_append.mp hmem with hshown | hrest'
    · exact hshown
    · have hasked := (asked_all_iff pages).mpr h
      have hlength := congrArg List.length hrest
      unfold Shared.asked at hasked
      rw [List.length_append, List.length_cons] at hlength
      obtain rfl : rest = [] := List.length_eq_zero_iff.mp (by omega)
      exact absurd (List.mem_singleton.mp hrest') hne

/-- A search that enumerates the pages has asked for all of them, and has shown no page
that is not unique. -/
theorem EnumeratesPages.asked (hnames : Named env entries) (hcontrols : Shared.Pageable args.controls)
    (hs : ServedPages env args size entries s) (henum : EnumeratesPages env args size hs.pages s) :
    Shared.asked hs.pages = hs.pages.length ∧
      ¬ (args.unique = true ∧ ∃ page ∈ Shared.shown hs.pages, 1 < page.length) := by
  obtain ⟨n, hrun⟩ := Shared.searchPaged_answered hs.connected hs.attempts hs.server hs.ready
    hs.nonempty (hs.named hnames) hcontrols
  obtain ⟨m, hm⟩ := henum
  obtain ⟨results, s', controls', hok, -, hcalls⟩ := hm (max n m) (Nat.le_max_right n m)
  have hend := hrun (max n m) (Nat.le_max_left n m)
  rw [hok] at hend
  by_cases hunique : args.unique = true ∧ ∃ page ∈ Shared.shown hs.pages, 1 < page.length
  · rw [if_pos hunique] at hend
    obtain ⟨found, p', hraised⟩ := hend
    cases hraised
  · rw [if_neg hunique] at hend
    obtain ⟨results', s'', controls'', -, hasked, hrun'⟩ := hend
    cases hrun'
    exact ⟨by omega, hunique⟩

/-- `search_paged` enumerates the pages if and only if none but the last one is empty;
with `unique=True` no page may have two entries either. -/
theorem search_paged_enumerates_iff (args : SearchArgs) (size : Nat) (entries : List Entry)
    (hnames : Named env entries) (hcontrols : Shared.Pageable args.controls)
    (hs : ServedPages env args size entries s) :
    EnumeratesPages env args size hs.pages s ↔
      (∀ page ∈ hs.pages.dropLast, page ≠ []) ∧
        ¬ (args.unique = true ∧ ∃ page ∈ hs.pages, 1 < page.length) := by
  constructor
  · intro henum
    obtain ⟨hasked, hunique⟩ := henum.asked hnames hcontrols hs
    have hpages := (asked_all_iff hs.pages).mp hasked
    refine ⟨hpages, ?_⟩
    rintro ⟨htrue, page, hmem, hlength⟩
    have hne : page ≠ [] := by
      rintro rfl
      simp at hlength
    exact hunique ⟨htrue, page, mem_shown hpages hmem hne, hlength⟩
  · rintro ⟨hpages, hunique⟩
    obtain ⟨n, hrun⟩ := Shared.searchPaged_answered hs.connected hs.attempts hs.server hs.ready
      hs.nonempty (hs.named hnames) hcontrols
    have hasked := (asked_all_iff hs.pages).mpr hpages
    have hshown : ¬ (args.unique = true ∧ ∃ page ∈ Shared.shown hs.pages, 1 < page.length) := by
      rintro ⟨htrue, page, hmem, hlength⟩
      exact hunique ⟨htrue, page, (shown_length_le hmem).1, hlength⟩
    refine ⟨n, fun polls hpolls => ?_⟩
    have hend := hrun polls hpolls
    rw [if_neg hshown] at hend
    obtain ⟨results, s', controls', hplaced, hcalls, hok⟩ := hend
    exact ⟨results, s', controls', hok, by rw [hplaced, placedPages_shown hasked],
      by rw [hcalls, hasked]⟩

/-! ### A directory with given pages -/

/-- The cookie that an operation carries. -/
def Operation.cookie (op : Operation) : Bytes :=
  match ((op.serverctrls.getD []).filter fun control => control.controlType = pagedType).map
    Control.value with
  | [.paged _ cookie] => cookie
  | _ => []

theorem Operation.Carrying.cookie {op : Operation} {pageSize : Int} {cookie : Bytes}
    (h : op.Carrying (simplePagedResults pageSize cookie true)) : op.cookie = cookie := by
  obtain ⟨server, hserver, hfilter⟩ := h
  rw [show (simplePagedResults pageSize cookie true).controlType = pagedType from rfl] at hfilter
  unfold Operation.cookie
  rw [hserver, Option.getD_some, hfilter]
  rfl

/-- The cookie after a page has as many bytes as pages have been sent. -/
def cookieAfter (pages : List (List Entry)) (sent : Nat) : Bytes :=
  if sent + 1 < pages.length then List.replicate (sent + 1) 0 else []

/-- A directory that answers with these pages, one after the other. -/
def pagedDirectory (pages : List (List Entry)) : Env Desk :=
  { directory [] with
    request := fun _ op desk => .ok (some 1) { desk with
      pending := some (.ok (messages (pages.getD op.cookie.length []),
        [simplePagedResults 0 (cookieAfter pages op.cookie.length)])) } }

namespace Directory

/-- The cookie leads to the pages that are still to come. -/
theorem drop_cookieAfter (pages : List (List Entry)) {page : List Entry} {rest : List (List Entry)}
    {sent : Nat} (h : page :: rest = pages.drop sent) :
    (cookieAfter pages sent = [] ↔ rest = []) ∧
      (rest = [] ∨ rest = pages.drop (cookieAfter pages sent).length) := by
  have hlength := congrArg List.length h
  rw [List.length_cons, List.length_drop] at hlength
  have hrest : rest = pages.drop (sent + 1) := by
    rw [← List.drop_drop, ← h]
    rfl
  unfold cookieAfter
  by_cases hmore : sent + 1 < pages.length
  · rw [if_pos hmore]
    refine ⟨⟨fun hnil => ?_, fun hnil => ?_⟩, .inr ?_⟩
    · simp at hnil
    · rw [hnil, List.length_nil] at hlength
      omega
    · rw [List.length_replicate]
      exact hrest
  · rw [if_neg hmore]
    have hnil : rest = [] := List.length_eq_zero_iff.mp (by omega)
    exact ⟨⟨fun _ => hnil, fun _ => rfl⟩, .inl hnil⟩

/-- It is a server for simple paged results, however the pages are cut. -/
def givenServer (pages : List (List Entry)) (slots : Slots) (hsync : slots.asynchronous = false)
    (o : Obj) (args : SearchArgs) (pageSize : Int) :
    PagedServer (pagedDirectory pages) slots o args pageSize where
  ready := fun cookie rest desk => desk.service = .plain ∧ (rest = [] ∨ rest = pages.drop cookie.length)
  answers := by
    rintro cookie page rest ⟨service, pending⟩ op ⟨hservice, hrest⟩ - hcarrying
    obtain rfl : service = .plain := hservice
    have hpages := hrest.resolve_left (List.cons_ne_nil _ _)
    obtain ⟨hempty, hready⟩ := drop_cookieAfter pages hpages
    have hpage : pages.getD cookie.length [] = page := by
      rw [List.getD_eq_getElem?_getD, ← List.head?_drop, ← hpages]
      rfl
    have hsent : ((pagedDirectory pages).request o op).run ⟨.plain, pending⟩ =
        .ok (some 1) ⟨.plain, some (.ok (messages page,
          [simplePagedResults 0 (cookieAfter pages cookie.length)]))⟩ := by
      rw [← hpage, ← hcarrying.cookie]
      rfl
    let control := simplePagedResults 0 (cookieAfter pages cookie.length)
    let ready : Desk → Prop := fun desk => desk.service = .plain ∧
      (rest = [] ∨ rest = pages.drop (cookieAfter pages cookie.length).length)
    have hdelivered : DeliveredTo (directory []) slots o 1 false ready
        ((messages page).map (fun m => reply m.type [m]) ++ [batch [] [control]])
        ⟨.plain, some (.ok (messages page, [control]))⟩ :=
      delivered_singly hsync ⟨rfl, hready⟩ (messages page)
    have hanswered : DeliveredTo (pagedDirectory pages) slots o 1 false ready
        ((messages page).map (fun m => reply m.type [m]) ++ [batch [] [control]])
        ⟨.plain, some (.ok (messages page, [control]))⟩ := hdelivered.congr rfl rfl
    refine ⟨1, _, _, batch [] [control], control, 0, _, hsent, singly _ _, ?_, rfl, rfl, hempty,
      hanswered⟩
    rw [List.getLast?_append]
    rfl

end Directory

/-- A connection to a directory with these pages. -/
def givenPages (args : SearchArgs) {size : Nat} {pages : List (List Entry)} (hne : pages ≠ [])
    (hbounded : ∀ page ∈ pages, page.length ≤ size) :
    ServedPages (pagedDirectory pages) args size pages.flatten (deskState .plain) where
  o := 0
  pages := pages
  connected := deskState_connected .plain
  attempts := deskState_attempts .plain
  server := Directory.givenServer pages _ rfl 0 args size
  ready := ⟨rfl, .inr rfl⟩
  nonempty := hne
  cut := rfl
  bounded := hbounded

/-- An empty page at the end, after one with two entries. -/
theorem search_paged_enumerates_two :
    EnumeratesPages (pagedDirectory [twoEntries, []]) {} 2 [twoEntries, []] (deskState .plain) :=
  (search_paged_enumerates_iff {} 2 [twoEntries, []].flatten (fun _ _ => ⟨_, rfl⟩) ⟨[], rfl, by simp⟩
    (givenPages {} (by decide) (by decide))).mpr ⟨by simp [givenPages, twoEntries], by simp⟩

/-- An empty page first, whose cookie leads to one with two entries. -/
theorem search_paged_stops_at_empty_page :
    ¬ EnumeratesPages (pagedDirectory [[], twoEntries]) {} 2 [[], twoEntries] (deskState .plain) := by
  intro henum
  have hasked := (henum.asked (fun _ _ => ⟨_, rfl⟩)
    ⟨[], rfl, by simp⟩ (givenPages {} (by decide) (by decide))).1
  cases hasked

end FreeIam.Ldap
