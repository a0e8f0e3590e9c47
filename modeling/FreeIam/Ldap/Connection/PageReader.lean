import FreeIam.Ldap.Connection.Enumeration

/-!
# Reading by pages

`is_last_in_page` compares the number of an entry with the size of a page. A reader who
starts a page after each such entry is at the right place all along in what
`search_paginated` yields, and in what `search_paged` yields if and only if the server
fills its pages: only then do the two yield the entries at the same places.
-/

namespace FreeIam.Ldap

open FreeIam.Py FreeIam.Errors FreeIam.Exec

variable {ω ω' : Type} {env : Env ω} {env' : Env ω'} {entries : List Entry} {s : State ω} {s' : State ω'}

/-- The pages are those of a reader at an entry of a page, who counts the entries and starts
a page after each that is the last in its page. -/
def CountedPages : Int → Int → List (Option Page) → Prop
  | _, _, [] => True
  | _, _, none :: _ => False
  | page, entry, some shown :: pages =>
    shown.page = page ∧ shown.entry = entry ∧
      if shown.isLastInPage then CountedPages (page + 1) 1 pages else CountedPages page (entry + 1) pages

/-- Where an entry is: the page, the number there and the size of a page. -/
def Page.place (self : Page) : Int × Int × Int := (self.page, self.entry, self.pageSize)

/-- A result by its entry and where it is, without what is known of the whole list. -/
def Result.located (self : Result) : Option Entry × Option (Int × Int × Int) :=
  (self.entry?, self.page.map Page.place)

/-- Every page before one with an entry has as many entries as may be. -/
def Filled (size : Nat) (pages : List (List Entry)) : Prop :=
  pages.Pairwise fun page later => later ≠ [] → page.length = size

/-! ## Reading -/

theorem Page.isLastInPage_iff (page : Page) : page.isLastInPage = true ↔ page.pageSize = page.entry := by
  unfold Page.isLastInPage
  exact beq_iff_eq

/-- The reader looks at the places only. -/
theorem CountedPages.congr {page entry : Int} {shown shown' : List (Option Page)}
    (h : CountedPages page entry shown)
    (hplaces : shown.map (Option.map Page.place) = shown'.map (Option.map Page.place)) :
    CountedPages page entry shown' := by
  induction shown generalizing page entry shown' with
  | nil =>
    rw [List.map_nil, eq_comm, List.map_eq_nil_iff] at hplaces
    rw [hplaces]
    trivial
  | cons p shown ih =>
    obtain ⟨q, rest, rfl, hhead, htail⟩ := List.map_eq_cons_iff.mp hplaces.symm
    cases p with
    | none => exact h.elim
    | some p =>
      obtain ⟨q, rfl, hplace⟩ := Option.map_eq_some_iff.mp hhead
      obtain ⟨hpage, hentry, hrest⟩ := h
      simp only [Page.place, Prod.mk.injEq] at hplace
      obtain ⟨hqpage, hqentry, hqsize⟩ := hplace
      have hlast : q.isLastInPage = p.isLastInPage := by
        unfold Page.isLastInPage
        rw [hqsize, hqentry]
      refine ⟨hqpage.trans hpage, hqentry.trans hentry, ?_⟩
      rw [hlast]
      split at hrest
      · rw [if_pos ‹_›]
        exact ih hrest htail.symm
      · rw [if_neg ‹_›]
        exact ih hrest htail.symm

/-- With the size of a page, the count determines the places. -/
theorem CountedPages.places {page entry size : Int} {shown shown' : List (Option Page)}
    (h : CountedPages page entry shown) (h' : CountedPages page entry shown')
    (hlength : shown.length = shown'.length) (hsize : ∀ p, some p ∈ shown → p.pageSize = size)
    (hsize' : ∀ p, some p ∈ shown' → p.pageSize = size) :
    shown.map (Option.map Page.place) = shown'.map (Option.map Page.place) := by
  induction shown generalizing page entry shown' with
  | nil =>
    obtain rfl : shown' = [] := List.length_eq_zero_iff.mp hlength.symm
    rfl
  | cons p shown ih =>
    cases shown' with
    | nil => cases hlength
    | cons q shown' =>
      cases p with
      | none => exact h.elim
      | some p =>
        cases q with
        | none => exact h'.elim
        | some q =>
          obtain ⟨hpage, hentry, hrest⟩ := h
          obtain ⟨hpage', hentry', hrest'⟩ := h'
          have hp := hsize p List.mem_cons_self
          have hq := hsize' q List.mem_cons_self
          have hlast : q.isLastInPage = p.isLastInPage := by
            unfold Page.isLastInPage
            rw [hp, hq, hentry, hentry']
          have hplace : p.place = q.place := by
            unfold Page.place
            rw [hpage, hpage', hentry, hentry', hp, hq]
          have hlength' : shown.length = shown'.length := by simpa using hlength
          have htail : ∀ {n k : Int}, CountedPages n k shown → CountedPages n k shown' →
              shown.map (Option.map Page.place) = shown'.map (Option.map Page.place) := by
            intro n k hshown hshown'
            exact ih hshown hshown' hlength' (fun p hp => hsize p (List.mem_cons_of_mem _ hp))
              (fun p hp => hsize' p (List.mem_cons_of_mem _ hp))
          rw [hlast] at hrest'
          rw [List.map_cons, List.map_cons, Option.map_some, Option.map_some, hplace]
          congr 1
          split at hrest
          · rw [if_pos ‹_›] at hrest'
            exact htail hrest hrest'
          · rw [if_neg ‹_›] at hrest'
            exact htail hrest hrest'

/-! ## Views -/

/-- The page of an entry in a list of views. -/
def viewOf (size : Nat) (length last : Option Int) (k : Nat) : Page :=
  { page := (k / size : Nat) + 1, entry := (k % size : Nat) + 1, pageSize := size
    results := length, lastPage := last }

/-- The number of an entry is a quotient and a remainder, with which the reader goes along. -/
theorem counted_views {size q r : Nat} (hr : r < size) (length last : Option Int) (entries : List Entry) :
    CountedPages (q + 1) (r + 1)
      (entries.mapIdx fun i _ => some (viewOf size length last (q * size + r + i))) := by
  induction entries generalizing q r with
  | nil => trivial
  | cons entry entries ih =>
    have hdiv : (q * size + r) / size = q := by
      rw [Nat.add_comm, Nat.add_mul_div_right _ _ (by omega), Nat.div_eq_of_lt hr, Nat.zero_add]
    have hmod : (q * size + r) % size = r := by
      rw [Nat.add_comm, Nat.add_mul_mod_self_right, Nat.mod_eq_of_lt hr]
    have hnext (i : Nat) : q * size + r + (i + 1) = q * size + (r + 1) + i := by omega
    rw [List.mapIdx_cons]
    simp only [hnext, Nat.add_zero]
    refine ⟨by rw [viewOf, hdiv], by rw [viewOf, hmod], ?_⟩
    split
    · rename_i hlast
      rw [Page.isLastInPage_iff, viewOf, hmod] at hlast
      have hsize : (size : Int) = r + 1 := hlast
      -- the next entry is the first one of the next page
      have hcarry : q * size + (r + 1) = (q + 1) * size + 0 := by
        rw [Nat.succ_mul]
        omega
      rw [hcarry]
      exact_mod_cast ih (q := q + 1) (r := 0) (by omega)
    · rename_i hlast
      rw [Page.isLastInPage_iff, viewOf, hmod] at hlast
      have hsize : ¬ (size : Int) = r + 1 := hlast
      exact_mod_cast ih (q := q) (r := r + 1) (by omega)

/-! ## Pages -/

/-- The place of an entry on a page of `search_paged`. -/
def pageOf (page : Int) (size k : Nat) : Page := { page := page, entry := k + 1, pageSize := size }

/-- The reader goes along a page as far as its entries go. -/
theorem counted_numbered {size k : Nat} (page : Int) (entries : List Entry) (rest : List (Option Page))
    (hbound : k + entries.length ≤ size) (hk : k < size) :
    CountedPages page (k + 1) ((entries.mapIdx fun i _ => some (pageOf page size (k + i))) ++ rest) ↔
      if k + entries.length = size then CountedPages (page + 1) 1 rest
      else CountedPages page ((k + entries.length : Nat) + 1) rest := by
  induction entries generalizing k with
  | nil =>
    have hsize : ¬ k + ([] : List Entry).length = size := by
      rw [List.length_nil]
      omega
    rw [if_neg hsize]
    rfl
  | cons entry entries ih =>
    have hnext (i : Nat) : pageOf page size (k + (i + 1)) = pageOf page size (k + 1 + i) := by
      rw [Nat.add_comm i 1, Nat.add_assoc]
    have hlength : k + (entry :: entries).length = k + 1 + entries.length := by
      rw [List.length_cons]
      omega
    rw [hlength] at hbound ⊢
    rw [List.mapIdx_cons, List.cons_append]
    simp only [hnext]
    have hread : CountedPages page (k + 1) (some (pageOf page size (k + 0)) ::
        ((entries.mapIdx fun i _ => some (pageOf page size (k + 1 + i))) ++ rest)) ↔
        if (pageOf page size k).isLastInPage then CountedPages (page + 1) 1
          ((entries.mapIdx fun i _ => some (pageOf page size (k + 1 + i))) ++ rest)
        else CountedPages page (k + 1 + 1)
          ((entries.mapIdx fun i _ => some (pageOf page size (k + 1 + i))) ++ rest) :=
      ⟨fun h => h.2.2, fun h => ⟨rfl, rfl, h⟩⟩
    rw [hread]
    by_cases hlast : k + 1 = size
    · -- the last in its page, and there is no entry after it
      obtain rfl : entries = [] := List.length_eq_zero_iff.mp (by omega)
      have hflag : (pageOf page size k).isLastInPage = true := by
        rw [Page.isLastInPage_iff, ← hlast]
        rfl
      rw [if_pos hflag, if_pos (by rw [List.length_nil, hlast])]
      rfl
    · have hflag : ¬ (pageOf page size k).isLastInPage = true := by
        rw [Page.isLastInPage_iff]
        intro hsize
        have hcast : (size : Int) = k + 1 := hsize
        omega
      rw [if_neg hflag]
      exact_mod_cast ih (k := k + 1) hbound (by omega)

theorem placedPages_map_snd_cons (size : Nat) (page : Int) (entries : List Entry) (pages : List (List Entry)) :
    (Shared.placedPages size page (entries :: pages)).map Prod.snd =
      (entries.mapIdx fun i _ => some (pageOf page size (0 + i))) ++
        (Shared.placedPages size (page + 1) pages).map Prod.snd := by
  rw [Shared.placedPages_cons, List.map_append]
  congr 1
  unfold Shared.numbered pageOf
  rw [List.mapIdx_eq_zipIdx_map, List.mapIdx_eq_zipIdx_map, List.map_map]
  simp only [Function.comp_def, Nat.zero_add]

/-- A reader who is still on a page does not find the next one. -/
theorem not_counted_next {size : Nat} {page later entry : Int} (hlater : page < later)
    (pages : List (List Entry)) :
    CountedPages page entry ((Shared.placedPages size later pages).map Prod.snd) ↔
      ∀ entries ∈ pages, entries = [] := by
  induction pages generalizing later with
  | nil => exact ⟨fun _ entries hmem => absurd hmem List.not_mem_nil, fun _ => trivial⟩
  | cons entries pages ih =>
    rw [placedPages_map_snd_cons]
    cases entries with
    | nil =>
      rw [List.mapIdx_nil, List.nil_append, ih (by omega), List.forall_mem_cons]
      exact (and_iff_right rfl).symm
    | cons entry entries =>
      rw [List.mapIdx_cons, List.cons_append]
      constructor
      · intro h
        have hpage : later = page := h.1
        omega
      · intro h
        cases h _ List.mem_cons_self

/-- The reader is at the right place in all pages if and only if they are filled. -/
theorem counted_pages_iff {size : Nat} (hsize : 1 ≤ size) (page : Int) {pages : List (List Entry)}
    (hbounded : ∀ entries ∈ pages, entries.length ≤ size) :
    CountedPages page 1 ((Shared.placedPages size page pages).map Prod.snd) ↔ Filled size pages := by
  induction pages generalizing page with
  | nil => exact ⟨fun _ => List.Pairwise.nil, fun _ => trivial⟩
  | cons entries pages ih =>
    have hbound := hbounded entries List.mem_cons_self
    have hrest := ih (page + 1) fun later hlater => hbounded later (List.mem_cons_of_mem _ hlater)
    have hread := counted_numbered (k := 0) page entries
      ((Shared.placedPages size (page + 1) pages).map Prod.snd) (by omega) hsize
    rw [Int.natCast_zero, Int.zero_add, Nat.zero_add] at hread
    rw [placedPages_map_snd_cons, hread]
    unfold Filled
    rw [List.pairwise_cons]
    by_cases hfull : entries.length = size
    · rw [if_pos hfull, hrest]
      exact ⟨fun h => ⟨fun _ _ _ => hfull, h⟩, And.right⟩
    · rw [if_neg hfull, not_counted_next (by omega)]
      constructor
      · intro h
        refine ⟨fun later hlater hne => absurd (h later hlater) hne, ?_⟩
        exact List.pairwise_of_forall_mem_list fun _ _ later hlater hne => absurd (h later hlater) hne
      · intro h later hlater
        by_contra hne
        exact hfull (h.1 later hlater hne)

/-! ## Both searches -/

theorem placedViews_map_fst (entries : List Entry) (size : Nat) :
    (Shared.placedViews entries size).map Prod.fst = entries.map some := by
  unfold Shared.placedViews
  rw [List.mapIdx_eq_zipIdx_map, List.map_map]
  show entries.zipIdx.map (some ∘ Prod.fst) = entries.map some
  rw [← List.map_map, List.zipIdx_map_fst]

theorem placedViews_map_snd (entries : List Entry) (size : Nat) :
    (Shared.placedViews entries size).map Prod.snd = entries.mapIdx fun i _ =>
      some (viewOf size (some entries.length) (some ((entries.length + size - 1) / size : Nat))
        (0 * size + 0 + i)) := by
  unfold Shared.placedViews viewOf
  rw [List.mapIdx_eq_zipIdx_map, List.mapIdx_eq_zipIdx_map, List.map_map]
  simp only [Function.comp_def, Nat.zero_mul, Nat.zero_add]

theorem placedViews_pageSize (entries : List Entry) (size : Nat) (p : Page)
    (h : some p ∈ (Shared.placedViews entries size).map Prod.snd) : p.pageSize = size := by
  rw [placedViews_map_snd] at h
  obtain ⟨i, hi, heq⟩ := List.mem_mapIdx.mp h
  cases heq
  rfl

theorem placedPages_map_fst (size page : Int) (pages : List (List Entry)) :
    (Shared.placedPages size page pages).map Prod.fst = pages.flatten.map some := by
  induction pages generalizing page with
  | nil => rfl
  | cons entries pages ih =>
    rw [Shared.placedPages_cons, List.map_append, List.flatten_cons, List.map_append, ih]
    congr 1
    unfold Shared.numbered
    rw [List.mapIdx_eq_zipIdx_map, List.map_map]
    show entries.zipIdx.map (some ∘ Prod.fst) = entries.map some
    rw [← List.map_map, List.zipIdx_map_fst]

theorem placedPages_pageSize (size page : Int) (pages : List (List Entry)) (p : Page)
    (h : some p ∈ (Shared.placedPages size page pages).map Prod.snd) : p.pageSize = size := by
  obtain ⟨pair, hpair, hp⟩ := List.mem_map.mp h
  unfold Shared.placedPages at hpair
  obtain ⟨shown, hshown, hmem⟩ := List.mem_flatten.mp hpair
  obtain ⟨k, hk, rfl⟩ := List.mem_mapIdx.mp hshown
  obtain ⟨i, hi, rfl⟩ := List.mem_mapIdx.mp hmem
  cases hp
  rfl

theorem placed_map_fst (results : List Result) :
    (results.map Result.placed).map Prod.fst = results.map Result.entry? := List.map_map

theorem placed_map_snd (results : List Result) :
    (results.map Result.placed).map Prod.snd = results.map Result.page := List.map_map

/-- The results of `search_paginated` to a reader. -/
theorem viewed_reads {size : Nat} (hsize : 1 ≤ size) {viewed : List Result}
    (h : viewed.map Result.placed = Shared.placedViews entries size) :
    viewed.map Result.entry? = entries.map some ∧ CountedPages 1 1 (viewed.map Result.page) ∧
      ∀ p, some p ∈ viewed.map Result.page → p.pageSize = size := by
  refine ⟨?_, ?_, ?_⟩
  · rw [← placed_map_fst, h, placedViews_map_fst]
  · rw [← placed_map_snd, h, placedViews_map_snd]
    exact counted_views (q := 0) (r := 0) hsize _ _ entries
  · rw [← placed_map_snd, h]
    exact fun p hp => placedViews_pageSize _ _ p hp

/-- The results of `search_paged` to a reader. -/
theorem paged_reads {size : Nat} (hsize : 1 ≤ size) {pages : List (List Entry)}
    (hbounded : ∀ page ∈ pages, page.length ≤ size) {paged : List Result}
    (h : paged.map Result.placed = Shared.placedPages size 1 pages) :
    paged.map Result.entry? = pages.flatten.map some ∧
      (CountedPages 1 1 (paged.map Result.page) ↔ Filled size pages) ∧
      ∀ p, some p ∈ paged.map Result.page → p.pageSize = size := by
  refine ⟨?_, ?_, ?_⟩
  · rw [← placed_map_fst, h, placedPages_map_fst]
  · rw [← placed_map_snd, h]
    exact counted_pages_iff hsize 1 hbounded
  · rw [← placed_map_snd, h]
    exact fun p hp => placedPages_pageSize _ _ _ p hp

/-- The same entries are located alike if and only if they are at the same places. -/
theorem located_eq_iff {viewed paged : List Result}
    (hentries : viewed.map Result.entry? = paged.map Result.entry?) :
    viewed.map Result.located = paged.map Result.located ↔
      (viewed.map Result.page).map (Option.map Page.place) =
        (paged.map Result.page).map (Option.map Page.place) := by
  have hfst (results : List Result) :
      (results.map Result.located).map Prod.fst = results.map Result.entry? := List.map_map
  have hsnd (results : List Result) : (results.map Result.located).map Prod.snd =
      (results.map Result.page).map (Option.map Page.place) := by
    rw [List.map_map, List.map_map]
    rfl
  constructor
  · intro h
    rw [← hsnd, h, hsnd]
  · intro h
    rw [List.zip_of_prod (hfst viewed) (hsnd viewed), hentries, h]
    exact (List.zip_of_prod (hfst paged) (hsnd paged)).symm

/-- `search_paginated` and `search_paged` yield the same entries. A reader who starts a page after
each entry that is the last in its page is right about the first of them, and about the second
if and only if the server fills its pages; then, and only then, the entries are at the same places. -/
theorem paging_methods_agree_iff (args args' : SearchArgs) (size : Nat) (hsize : 1 ≤ size)
    (entries : List Entry) (hnames : Named env entries) (hnames' : Named env' entries)
    (hcontrols : Shared.Settable args.controls) (hcontrols' : Shared.Pageable args'.controls)
    (hviews : ServedViews env args size entries s) (hpages : ServedPages env' args' size entries s')
    (hlast : entries = [] ∨ ¬ size ∣ entries.length) (hcut : ∀ page ∈ hpages.pages.dropLast, page ≠ [])
    (hunique : args.unique = false) (hunique' : args'.unique = false) :
    ∃ n, ∀ polls, n ≤ polls → ∃ viewed p paged p',
      (Shared.searchPaginated env polls args size).run (s, args.controls) = .ok viewed p ∧
      (Shared.searchPaged env' polls args' size).run (s', args'.controls) = .ok paged p' ∧
      viewed.map Result.entry? = paged.map Result.entry? ∧
      CountedPages 1 1 (viewed.map Result.page) ∧
      (CountedPages 1 1 (paged.map Result.page) ↔ Filled size hpages.pages) ∧
      (viewed.map Result.located = paged.map Result.located ↔ Filled size hpages.pages) := by
  obtain ⟨n, hrun⟩ := Shared.searchPaginated_answered hviews.connected hviews.attempts hviews.server
    hsize hnames hviews.ready hcontrols
  obtain ⟨m, hrun'⟩ := Shared.searchPaged_answered hpages.connected hpages.attempts hpages.server
    hpages.ready hpages.nonempty (hpages.named hnames') hcontrols'
  refine ⟨max n m, fun polls hpolls => ?_⟩
  have hend := hrun polls (by omega)
  have hend' := hrun' polls (by omega)
  -- neither search raises, and no page is empty before the last
  have hnotFull : ¬ (entries ≠ [] ∧ size ∣ entries.length) := by
    rintro ⟨hne, hdvd⟩
    exact hlast.resolve_left hne hdvd
  rw [if_neg (by simp [hunique]), if_neg hnotFull] at hend
  rw [if_neg (by simp [hunique'])] at hend'
  obtain ⟨viewed, p, hviewed, hok⟩ := hend
  obtain ⟨paged, after, controls, hpaged, -, hok'⟩ := hend'
  rw [placedPages_shown ((asked_all_iff hpages.pages).mpr hcut)] at hpaged
  obtain ⟨hentries, hcounted, hsizes⟩ := viewed_reads hsize hviewed
  obtain ⟨hentries', hcounted', hsizes'⟩ := paged_reads hsize hpages.bounded hpaged
  rw [hpages.cut, ← hentries] at hentries'
  refine ⟨viewed, p, paged, _, hok, hok', hentries'.symm, hcounted, hcounted', ?_⟩
  rw [located_eq_iff hentries'.symm, ← hcounted']
  constructor
  · exact hcounted.congr
  · intro h
    -- two readers who count alike are at the same places
    have hlength : (viewed.map Result.page).length = (paged.map Result.page).length := by
      simpa using congrArg List.length hentries'.symm
    exact hcounted.places h hlength hsizes hsizes'

/-- The entries of two pages of at most three, of which the first has only one. -/
def onePerPage : List (List Entry) := [twoEntries.take 1, twoEntries.drop 1]

/-- A connection to a server with these pages. -/
def servedOnePerPage : ServedPages (pagedDirectory onePerPage) {} 3 twoEntries (deskState .plain) :=
  givenPages {} (List.cons_ne_nil _ _) (by simp [onePerPage, twoEntries])

theorem paging_methods_agree_not_filled :
    ∃ n, ∀ polls, n ≤ polls → ∃ viewed p paged p',
      (Shared.searchPaginated (directory twoEntries) polls {} 3).run (deskState .view, none) = .ok viewed p ∧
      (Shared.searchPaged (pagedDirectory onePerPage) polls {} 3).run (deskState .plain, none) =
        .ok paged p' ∧
      viewed.map Result.entry? = paged.map Result.entry? ∧
      ¬ CountedPages 1 1 (paged.map Result.page) := by
  obtain ⟨n, h⟩ := paging_methods_agree_iff {} {} 3 (by omega) twoEntries (fun _ _ => ⟨_, rfl⟩)
    (fun _ _ => ⟨_, rfl⟩) ⟨[], rfl⟩ ⟨[], rfl, by simp⟩ (directoryViews twoEntries {} 3)
    servedOnePerPage (.inr (by decide)) (by simp [servedOnePerPage, givenPages, onePerPage, twoEntries])
    rfl rfl
  refine ⟨n, fun polls hpolls => ?_⟩
  obtain ⟨viewed, p, paged, p', hok, hok', hentries, -, hcounted, -⟩ := h polls hpolls
  refine ⟨viewed, p, paged, p', hok, hok', hentries, fun hcount => ?_⟩
  have hfilled := List.pairwise_cons.mp (hcounted.mp hcount)
  have hlength := hfilled.1 (twoEntries.drop 1) List.mem_cons_self (List.cons_ne_nil _ _)
  cases hlength

end FreeIam.Ldap
