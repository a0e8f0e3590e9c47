import FreeIam.Ldap.Connection.Completeness
import FreeIam.Ldap.Connection.Paging

/-!
# Servers that answer page by page

What a server for simple paged results and one for virtual list views answer to a
request, by the cookie or the offset it carries, and what a search for one page
makes of the answer.
-/

namespace FreeIam.Ldap

open FreeIam.Py FreeIam.Errors FreeIam.Exec

namespace Shared

variable {ω α β : Type} {env : Env ω}

/-! ## Runs -/

theorem run_lift (m : Method ω α) (s : State ω) (controls : Option Controls) :
    (lift m).run (s, controls) =
      match m.run s with
      | .ok a s' => .ok a (s', controls)
      | .error e s' => .error e (s', controls) := by
  unfold lift
  rw [run_zoom]
  cases m.run s <;> rfl

theorem lift_ok {m : Method ω α} {s s' : State ω} {a : α} (controls : Option Controls)
    (h : m.run s = .ok a s') : (lift m).run (s, controls) = .ok a (s', controls) := by
  rw [run_lift, h]

theorem lift_error {m : Method ω α} {s s' : State ω} {e : PyExc} (controls : Option Controls)
    (h : m.run s = .error e s') : (lift m).run (s, controls) = .error e (s', controls) := by
  rw [run_lift, h]

@[simp] theorem run_setControls (response : Response) (s : State ω) (controls : Option Controls) :
    (setControls response).run (s, controls) = .ok ⟨⟩ (s, Result.setControls response controls) := rfl

theorem searchedFor_ok {args : SearchArgs} {m : Shared ω α} {p p' : State ω × Option Controls}
    {a : α} (h : m.run p = .ok a p') : (searchedFor env args m).run p = .ok a p' := by
  unfold searchedFor
  rw [run_tryCatch, h]

/-- Any other error than an LDAP error passes through the handler. -/
theorem searchedFor_error {args : SearchArgs} {m : Shared ω α} {p p' : State ω × Option Controls}
    {e : PyExc} (he : ∀ err, e = .lib err → err.cls ≠ .noSuchObject) (h : m.run p = .error e p') :
    (searchedFor env args m).run p = .error e p' := by
  unfold searchedFor
  rw [run_tryCatch, h]
  obtain ⟨s', controls'⟩ := p'
  show (lift _).run _ = _
  refine lift_error controls' ?_
  unfold Method.searchedFor
  rw [run_tryCatch, run_throw]
  cases e with
  | lib err =>
    simp only
    rw [if_neg (he err rfl)]
    rfl
  | _ => rfl

/-- A handler does not see what ran before a program it handles. -/
theorem searchedFor_bind {args : SearchArgs} {m : Shared ω α} {k : α → Shared ω β}
    {p p' : State ω × Option Controls} {a : α} (h : m.run p = .ok a p') :
    (searchedFor env args (m >>= k)).run p = (searchedFor env args (k a)).run p' := by
  unfold searchedFor
  rw [run_tryCatch, run_tryCatch, EStateM.run_bind, h]

/-! ## The searches without the object -/

/-- What a run on the object does to the connection. -/
def forget : EStateM.Result PyExc (State ω × Option Controls) α → EStateM.Result PyExc (State ω) α
  | .ok a p => .ok a p.1
  | .error e p => .error e p.1

theorem forget_lift (m : Method ω α) (s : State ω) (controls : Option Controls) :
    forget ((lift m).run (s, controls)) = m.run s := by
  rw [run_lift]
  cases m.run s <;> rfl

/-- The handler of a search sees the error and the state it was raised in. -/
theorem searchedFor_raised {args : SearchArgs} {m : Method ω α} {s s' : State ω} {e : PyExc}
    (h : m.run s = .error e s') : (Method.searchedFor env args m).run s =
      (Method.searchedFor env args (throw e : Method ω α)).run s' := by
  unfold Method.searchedFor
  rw [run_tryCatch, run_tryCatch, h, run_throw]

theorem forget_searchedFor {args : SearchArgs} {m : Shared ω α} {m' : Method ω α} {s : State ω}
    {controls : Option Controls} (h : forget (m.run (s, controls)) = m'.run s) :
    forget ((searchedFor env args m).run (s, controls)) = (Method.searchedFor env args m').run s := by
  cases hrun : m.run (s, controls) with
  | ok a p =>
    rw [hrun] at h
    rw [searchedFor_ok hrun]
    exact (Method.searchedFor_ok h.symm).symm
  | error e p =>
    rw [hrun] at h
    rw [searchedFor_raised h.symm]
    unfold searchedFor
    rw [run_tryCatch, hrun]
    exact forget_lift _ p.1 p.2

/-- `set_server` makes the controls that the search is made with. -/
theorem run_setSorting (args : SearchArgs) (criticality : Bool) (s : State ω) :
    (setSorting args criticality : Shared ω Unit).run (s, args.controls) =
      match args.searchControls criticality with
      | .ok controls => .ok () (s, controls)
      | .error e => .error e (s, args.controls) := by
  unfold SearchArgs.searchControls setSorting
  cases hempty : args.sorting.isEmpty with
  | true =>
    rw [onlyIf_false (by simp)]
    rfl
  | false =>
    rw [onlyIf_true rfl]
    unfold update
    cases hset : Controls.setServer args.controls (serverSideSorting args.sorting criticality) with
    | none => simp [EStateM.run, hset]
    | some controls => simp [EStateM.run, hset]

/-- Forgetting the object, the search on it is the search. -/
theorem forget_search (polls : Nat) (args : SearchArgs) (s : State ω) :
    forget ((search env polls args).run (s, args.controls)) = (Method.search env polls args).run s := by
  unfold search Method.search
  rw [EStateM.run_bind, EStateM.run_bind]
  cases hconn : s.self.conn with
  | none =>
    rw [lift_error _ (Method.conn_none hconn), Method.conn_none hconn]
    rfl
  | some o =>
    rw [lift_ok _ (Method.conn_ok hconn), Method.conn_ok hconn]
    simp only
    rw [EStateM.run_bind, EStateM.run_bind, run_setSorting]
    cases args.searchControls false with
    | error e => rfl
    | ok controls =>
      rw [Method.ofExcept_ok]
      refine forget_searchedFor ?_
      rw [EStateM.run_bind, EStateM.run_get, EStateM.run_bind, EStateM.run_get]
      simp only [EStateM.run_bind, run_lift]
      cases (Method.execute env polls o (args.operation s.self.timeout controls)).run s with
      | error e s' => rfl
      | ok response s' =>
        simp only [run_setControls, EStateM.run_get, run_lift]
        cases (Method.responseResults env (Result.setControls response controls) response).run s' with
        | error e s'' => rfl
        | ok results s'' =>
          by_cases hunique : args.unique = true ∧ 1 < results.length
          · simp only [onlyIf_true hunique]
            rfl
          · simp only [onlyIf_false hunique]
            rfl

/-! ## Answered searches -/

variable {args : SearchArgs} {s : State ω} {o : Obj} {controls controls' : Option Controls}
  {number : Nat} {w : ω} {K : ω → Prop} {msgs : List SearchMessage}

/-- A search whose request is answered by one reply returns its entries, or raises
`NotUnique` with them. -/
theorem search_answered (hconn : s.self.conn = some o)
    (hattempts : 0 < s.self.maxConnectionAttempts)
    (hset : (setSorting args false : Shared ω Unit).run (s, controls) = .ok () (s, controls'))
    (hsent : (env.request o (args.operation s.self.timeout controls')).run s.world =
      .ok (some number) w) {r : Response}
    (hdel : DeliveredTo env s.self.toSlots o number true K [r] w)
    (htype : r.type = some .searchResult) (hdata : r.data = some (msgs.map SearchMessage.datum))
    (hnames : ValidNames env msgs) (hmsgs : ∀ m ∈ msgs, m.isReference = false) :
    ∃ n results w' log, K w' ∧ AreEntries msgs results ∧ results.length = msgs.length ∧
      ∀ polls, n ≤ polls → (search env polls args).run (s, controls) =
        if args.unique = true ∧ 1 < msgs.length then
          .error (.notUnique results) (⟨s.self, w', s.calls ++ log⟩, Result.setControls r controls')
        else .ok results (⟨s.self, w', s.calls ++ log⟩, Result.setControls r controls') := by
  have hlast : Method.goesOn r = false := by simp [Method.goesOn, htype]
  obtain ⟨n, w', log, -, hdone, hexec⟩ := Method.execute_delivered hattempts hsent hdel hlast
  obtain ⟨results, hlist, hall⟩ :=
    Result.listFromResponse_entries (Result.setControls r controls') r hnames hmsgs
  have hlength : results.length = msgs.length := by
    rw [Result.listFromResponse_length hlist, List.length_map]
  refine ⟨n, results, w', log, hdone.nil, hall, hlength, fun polls hpolls => ?_⟩
  have hresults : (Method.responseResults env (Result.setControls r controls') r).run
      ⟨s.self, w', s.calls ++ log⟩ = .ok results ⟨s.self, w', s.calls ++ log⟩ := by
    unfold Method.responseResults
    rw [hdata]
    simp only [hlist, Method.ofExcept_ok]
  unfold search
  rw [EStateM.run_bind, lift_ok _ (Method.conn_ok hconn)]
  simp only
  rw [EStateM.run_bind, hset]
  simp only
  rw [searchedFor_bind (EStateM.run_get _), searchedFor_bind (lift_ok _ (hexec polls hpolls)),
    searchedFor_bind (run_setControls r _ _), searchedFor_bind (EStateM.run_get _),
    searchedFor_bind (lift_ok _ hresults)]
  -- `unique` is checked after the controls have been stored
  by_cases hunique : args.unique = true ∧ 1 < msgs.length
  · rw [if_pos hunique, onlyIf_true (by rwa [hlength])]
    exact searchedFor_error (fun err herr => by cases herr) rfl
  · rw [if_neg hunique, onlyIf_false (by rwa [hlength])]
    exact searchedFor_ok rfl

/-- One round of the loop of `search_iter`, for a response that has arrived. -/
theorem responses_round {msgid : MsgId} {polls : Nat} {r : Response} {s' : State ω}
    {allResults results : List Result}
    (hpoll : (Method.poll env o msgid false polls).run s = .ok (some r) s')
    (hresults : (Method.responseResults env (Result.setControls r controls) r).run s' = .ok results s')
    (rounds : Nat) :
    (responses env args o msgid polls (rounds + 1) allResults).run (s, controls) =
      if args.unique = true ∧ 1 < (allResults ++ results).length then
        .error (.notUnique (allResults ++ results)) (s', Result.setControls r controls)
      else if Method.goesOn r = true then
        (responses env args o msgid polls rounds (allResults ++ results)).run
          (s', Result.setControls r controls)
      else .ok (allResults ++ results) (s', Result.setControls r controls) := by
  rw [responses, EStateM.run_bind, lift_ok _ hpoll]
  simp only [EStateM.run_bind, run_setControls, EStateM.run_get, run_lift, hresults]
  by_cases hunique : args.unique = true ∧ 1 < (allResults ++ results).length
  · simp only [onlyIf_true hunique, if_pos hunique]
    rfl
  · simp only [onlyIf_false hunique, if_neg hunique]
    by_cases hgoes : Method.goesOn r = true
    · rw [if_pos hgoes, if_pos hgoes]
      rfl
    · rw [if_neg hgoes, if_neg hgoes]
      rfl

/-- The loop of `search_iter` over replies for one message each. -/
theorem responses_answered (hnames : ValidNames env msgs) (hmsgs : ∀ m ∈ msgs, m.isReference = false)
    {rs : List Response} (hrs : Singly msgs rs) (msgid : MsgId) :
    ∀ {s : State ω} {controls : Option Controls} {allResults : List Result},
      0 < s.self.maxConnectionAttempts →
      DeliveredTo env s.self.toSlots o msgid.number false K rs s.world →
      ∃ n results r w' log, AreEntries msgs results ∧ rs.getLast? = some r ∧ requested log = [] ∧
        ((args.unique = true ∧ 1 < (allResults ++ results).length) →
          ∀ polls rounds, n ≤ polls → n ≤ rounds → ∃ found p',
            (responses env args o msgid polls rounds allResults).run (s, controls) =
              .error (.notUnique found) p') ∧
        (¬ (args.unique = true ∧ 1 < (allResults ++ results).length) → K w' ∧
          ∀ polls rounds, n ≤ polls → n ≤ rounds →
            (responses env args o msgid polls rounds allResults).run (s, controls) =
              .ok (allResults ++ results)
                (⟨s.self, w', s.calls ++ log⟩, Result.setControls r controls)) := by
  induction hrs with
  | @done r htype hdata =>
    intro s controls allResults hattempts hdel
    obtain ⟨n, w', log, hlog, hdone, hpoll⟩ := Method.poll_delivered msgid hattempts hdel
    have hresults : (Method.responseResults env (Result.setControls r controls) r).run
        ⟨s.self, w', s.calls ++ log⟩ = .ok [] ⟨s.self, w', s.calls ++ log⟩ := by
      unfold Method.responseResults
      simp [hdata]
    -- the last reply has no pairs, and the loop ends after it
    have hlast : ¬ Method.goesOn r = true := by simp [Method.goesOn, htype]
    refine ⟨n + 1, [], r, w', log, rfl, rfl, hlog.requested, fun hunique polls rounds hpolls hrounds => ?_,
      fun hunique => ⟨hdone.nil, fun polls rounds hpolls hrounds => ?_⟩⟩
    · obtain ⟨k, rfl⟩ : ∃ k, rounds = k + 1 := ⟨rounds - 1, by omega⟩
      exact ⟨_, _, by rw [responses_round (hpoll polls (by omega)) hresults, if_pos hunique]⟩
    · obtain ⟨k, rfl⟩ : ∃ k, rounds = k + 1 := ⟨rounds - 1, by omega⟩
      rw [responses_round (hpoll polls (by omega)) hresults, if_neg hunique, if_neg hlast]
  | @message m msgs r rs htype hdata hrest ih =>
    intro s controls allResults hattempts hdel
    obtain ⟨n, w', log, hlog, hdel', hpoll⟩ := Method.poll_delivered msgid hattempts hdel
    have hentry : m.isReference = false := hmsgs m (by simp)
    cases m with
    | reference urls => cases hentry
    | entry dn attributes =>
      -- the reply of an entry wraps to one result
      obtain ⟨d, hd⟩ := hnames dn attributes (by simp)
      obtain ⟨result, hresult, hone⟩ :=
        Result.fromResponse_entry attributes (Result.setControls r controls) r hd
      have hresults : (Method.responseResults env (Result.setControls r controls) r).run
          ⟨s.self, w', s.calls ++ log⟩ = .ok [result] ⟨s.self, w', s.calls ++ log⟩ := by
        unfold Method.responseResults Result.listFromResponse
        rw [hdata]
        simp only [SearchMessage.datum, List.mapM_cons, List.mapM_nil, hresult]
        rfl
      have hgoes : Method.goesOn r = true := by simp [Method.goesOn, htype, SearchMessage.type]
      obtain ⟨n', results, r', w'', log', hall, hlast, hlog', hraise, hreturn⟩ := ih
        (fun dn attributes hmem => hnames dn attributes (List.mem_cons_of_mem _ hmem))
        (fun m' hmem => hmsgs m' (List.mem_cons_of_mem _ hmem))
        (s := ⟨s.self, w', s.calls ++ log⟩) hattempts hdel'
      have happend : allResults ++ [result] ++ results = allResults ++ result :: results := by simp
      rw [happend] at hraise hreturn
      have hne : rs ≠ [] := by
        rintro rfl
        cases hrest
      refine ⟨max n n' + 1, result :: results, r', w'', log ++ log', ?_, ?_,
        by rw [requested_append, hlog.requested, hlog']; rfl,
        fun hunique polls rounds hpolls hrounds => ?_,
        fun hunique => ⟨(hreturn hunique).1, fun polls rounds hpolls hrounds => ?_⟩⟩
      · unfold AreEntries entries at hall ⊢
        rw [List.map_cons, hone, hall]
        rfl
      · rw [List.getLast?_cons_of_ne_nil hne, hlast]
      · obtain ⟨k, rfl⟩ : ∃ k, rounds = k + 1 := ⟨rounds - 1, by omega⟩
        rw [responses_round (hpoll polls (by omega)) hresults]
        by_cases hnow : args.unique = true ∧ 1 < (allResults ++ [result]).length
        · exact ⟨_, _, if_pos hnow⟩
        · rw [if_neg hnow, if_pos hgoes]
          exact hraise hunique polls k (by omega) (by omega)
      · obtain ⟨k, rfl⟩ : ∃ k, rounds = k + 1 := ⟨rounds - 1, by omega⟩
        have hnow : ¬ (args.unique = true ∧ 1 < (allResults ++ [result]).length) := by
          rintro ⟨htrue, hlength⟩
          refine hunique ⟨htrue, ?_⟩
          rw [List.length_append, List.length_cons] at hlength ⊢
          rw [List.length_nil] at hlength
          omega
        rw [responses_round (hpoll polls (by omega)) hresults, if_neg hnow, if_pos hgoes,
          (hreturn hunique).2 polls k (by omega) (by omega)]
        cases controls with
        | none => simp [Result.setControls]
        | some c => simp [Result.setControls]

/-- A `search_iter` whose request is answered by single replies yields its entries, or
raises `NotUnique`, and it sends one request. -/
theorem searchIter_answered (hconn : s.self.conn = some o)
    (hattempts : 0 < s.self.maxConnectionAttempts)
    (hset : (setSorting args true : Shared ω Unit).run (s, controls) = .ok () (s, controls'))
    (hsent : (env.request o (args.operation s.self.timeout controls')).run s.world =
      .ok (some number) w) {rs : List Response} (hrs : Singly msgs rs)
    (hdel : DeliveredTo env s.self.toSlots o number false K rs w)
    (hnames : ValidNames env msgs) (hmsgs : ∀ m ∈ msgs, m.isReference = false) :
    ∃ n results r w' log, AreEntries msgs results ∧ rs.getLast? = some r ∧
      requested log = [args.operation s.self.timeout controls'] ∧
      ((args.unique = true ∧ 1 < results.length) → ∀ polls, n ≤ polls → ∃ found p',
        (searchIter env polls args).run (s, controls) = .error (.notUnique found) p') ∧
      (¬ (args.unique = true ∧ 1 < results.length) → K w' ∧ ∀ polls, n ≤ polls →
        (searchIter env polls args).run (s, controls) =
          .ok results (⟨s.self, w', s.calls ++ log⟩, Result.setControls r controls')) := by
  let op := args.operation s.self.timeout controls'
  have hsend := Method.retry_ok env hattempts (Method.request_ok hsent)
  obtain ⟨n, results, r, w', log, hall, hlast, hlog, hraise, hreturn⟩ := responses_answered
    hnames hmsgs hrs ⟨number, s.calls.length⟩
    (s := { s with world := w, calls := s.calls ++ [.request o op (.ok (some number)) w] }) hattempts hdel
  rw [List.nil_append] at hraise hreturn
  have hrun : ∀ polls, (searchIter env polls args).run (s, controls) =
      (searchedFor env args (responses env args o ⟨number, s.calls.length⟩ polls polls [])).run
        ({ s with world := w, calls := s.calls ++ [.request o op (.ok (some number)) w] }, controls') := by
    intro polls
    unfold searchIter
    rw [EStateM.run_bind, lift_ok _ (Method.conn_ok hconn)]
    simp only
    rw [EStateM.run_bind, hset]
    simp only
    rw [searchedFor_bind (EStateM.run_get _), searchedFor_bind (lift_ok _ hsend)]
  -- the request is logged in front of what the responses log
  refine ⟨n, results, r, w', .request o op (.ok (some number)) w :: log, hall, hlast,
    by rw [requested_request, hlog], fun hunique polls hpolls => ?_,
    fun hunique => ⟨(hreturn hunique).1, fun polls hpolls => ?_⟩⟩
  · obtain ⟨found, p', hfound⟩ := hraise hunique polls polls hpolls hpolls
    exact ⟨found, p', by
      rw [hrun, searchedFor_error (fun err herr => by cases herr) hfound]⟩
  · rw [hrun, searchedFor_ok ((hreturn hunique).2 polls polls hpolls hpolls)]
    simp

end Shared

/-! ## Servers -/

/-- An entry: its name and attributes. -/
abbrev Entry := PyStr × List (PyStr × List Bytes)

/-- What a server sends of these entries. -/
def messages (entries : List Entry) : List SearchMessage :=
  entries.map fun entry => .entry entry.1 entry.2

/-- The request for a page of a search. -/
def SearchArgs.pageRequest (args : SearchArgs) (timeout : Int) : Request :=
  ((Shared.pageArgs args).operation timeout none).request

/-- The operation carries a control, as the only one of its type. -/
def Operation.Carrying (op : Operation) (control : Control) : Prop :=
  ∃ server, op.serverctrls = some server ∧
    server.filter (fun c => c.controlType = control.controlType) = [control]

/-- The first control of a type in a response. -/
def Response.control (r : Response) (controlType : String) : Option Control :=
  (r.ctrls.getD []).find? fun control => control.controlType == controlType

section

variable {ω : Type} (env : Env ω) (slots : Slots) (o : Obj) (args : SearchArgs) (pageSize : Int)

/-- A server for simple paged results: after a cookie it has pages to come, and it
answers a request with that cookie by the first of them, the entries one by one and
with the last reply the next cookie, which is empty after the last page. -/
structure PagedServer where
  ready : Bytes → List (List Entry) → ω → Prop
  answers : ∀ {cookie : Bytes} {page : List Entry} {pages : List (List Entry)} {w : ω} {op : Operation},
    ready cookie (page :: pages) w → op.request = args.pageRequest slots.timeout →
    op.Carrying (simplePagedResults pageSize cookie true) →
    ∃ number w₁ rs r control size cookie', (env.request o op).run w = .ok (some number) w₁ ∧
      Singly (messages page) rs ∧ rs.getLast? = some r ∧ r.control pagedType = some control ∧
      control.value = .paged size cookie' ∧ (cookie' = [] ↔ pages = []) ∧
      DeliveredTo env slots o number false (ready cookie' pages) rs w₁

/-- The entries of the list view from an offset on. -/
def view (entries : List Entry) (pageSize offset : Int) : List Entry :=
  (entries.drop (offset - 1).toNat).take pageSize.toNat

/-- A server for virtual list views over a list: it answers a request with the
context it has given by the entries from the offset on and the length of the list,
and fails with `VLVError` beyond the end. -/
structure ViewServer (entries : List Entry) where
  ready : Option Bytes → ω → Prop
  answers : ∀ {contextId : Option Bytes} {offset : Int} {w : ω} {op : Operation},
    ready contextId w → op.request = args.pageRequest slots.timeout →
    op.Carrying (virtualListView 0 (pageSize - 1) offset 0 contextId true) →
    1 ≤ offset → offset ≤ max entries.length 1 →
    ∃ number w₁ r control contextId', (env.request o op).run w = .ok (some number) w₁ ∧
      r.type = some .searchResult ∧
      r.data = some ((messages (view entries pageSize offset)).map SearchMessage.datum) ∧
      r.control vlvResponseType = some control ∧
      control.value = .vlvResponse entries.length contextId' ∧
      DeliveredTo env slots o number true (ready contextId') [r] w₁
  refuses : ∀ {contextId : Option Bytes} {offset : Int} {w : ω} {op : Operation},
    ready contextId w → op.request = args.pageRequest slots.timeout →
    op.Carrying (virtualListView 0 (pageSize - 1) offset 0 contextId true) →
    entries ≠ [] → entries.length < offset →
    ∃ number w₁ err w₂, (env.request o op).run w = .ok (some number) w₁ ∧
      err.cls = .other "VLVError" ∧ Refused env slots o number true w₁ (.ldap err) w₂

/-- The names of the entries are names. -/
def Named (entries : List Entry) : Prop := ∀ entry ∈ entries, ∃ d, DN.init env entry.1 = .ok d

end

section

variable {ω : Type} {env : Env ω} {entries : List Entry}

theorem messages_valid (h : Named env entries) : ValidNames env (messages entries) := by
  intro dn attributes hmem
  obtain ⟨entry, hentry, heq⟩ := List.mem_map.mp hmem
  cases heq
  exact h entry hentry

theorem messages_isReference : ∀ m ∈ messages entries, m.isReference = false := by
  intro m hm
  obtain ⟨entry, -, rfl⟩ := List.mem_map.mp hm
  rfl

@[simp] theorem messages_length : (messages entries).length = entries.length := List.length_map ..

theorem entries_messages : FreeIam.Ldap.entries (messages entries) = entries := by
  unfold FreeIam.Ldap.entries messages
  induction entries with
  | nil => rfl
  | cons entry entries ih =>
    rw [List.map_cons, List.filterMap_cons_some (f := SearchMessage.entry?) (b := entry) rfl, ih]

/-- A result by its entry and the place at which it is shown. -/
def Result.placed (r : Result) : Option Entry × Option Page := (r.entry?, r.page)

/-- As many results as entries. -/
theorem AreEntries.length_eq {results : List Result}
    (h : AreEntries (messages entries) results) : results.length = entries.length := by
  have hlength := congrArg List.length h
  rwa [List.length_map, List.length_map, entries_messages] at hlength

theorem AreEntries.isEmpty_iff {results : List Result}
    (h : AreEntries (messages entries) results) : results.isEmpty = true ↔ entries = [] := by
  rw [List.isEmpty_iff, ← List.length_eq_zero_iff, h.length_eq, List.length_eq_zero_iff]

/-- The controls of a response are those that the object then has. -/
theorem responseControl_setControls {r : Response} {c : Controls} (controlType : String) :
    Shared.responseControl (Result.setControls r (some c)) controlType = r.control controlType := rfl

end

namespace Shared

variable {ω : Type} {env : Env ω} {args : SearchArgs} {pageSize : Int} {s : State ω} {o : Obj}

/-- The entries of a page, numbered from one. -/
def numbered (page pageSize : Int) (length last : Option Int) (entries : List Entry) :
    List (Option Entry × Option Page) :=
  entries.mapIdx fun i entry =>
    (some entry, some { page := page, entry := i + 1, pageSize := pageSize
                        results := length, lastPage := last })

/-- The results of a page are its entries, at their places. -/
theorem onPage_placed {entries : List Entry} {results : List Result}
    (h : AreEntries (messages entries) results) (page pageSize : Int) (length last : Option Int) :
    (onPage page pageSize length last results).map Result.placed =
      numbered page pageSize length last entries := by
  unfold AreEntries at h
  rw [entries_messages] at h
  have hentry : ∀ i : Nat, results[i]?.map Result.entry? = entries[i]?.map some := by
    intro i
    rw [← List.getElem?_map, h, List.getElem?_map]
  unfold onPage numbered
  refine List.ext_getElem? fun i => ?_
  rw [List.getElem?_map, List.getElem?_mapIdx, List.getElem?_mapIdx]
  have hi := hentry i
  cases hresult : results[i]? with
  | none =>
    rw [hresult] at hi
    rw [Option.map_eq_none_iff.mp hi.symm]
    rfl
  | some result =>
    rw [hresult] at hi
    cases hat : entries[i]? with
    | none =>
      rw [hat] at hi
      cases hi
    | some entry =>
      rw [hat] at hi
      have hresultEntry : result.entry? = some entry := Option.some.inj hi
      show some (result.entry?, _) = some (some entry, _)
      rw [hresultEntry]

theorem run_setSorting_pageArgs (criticality : Bool) (p : State ω × Option Controls) :
    (setSorting (pageArgs args) criticality : Shared ω Unit).run p = .ok () p := rfl

/-! ### search_paged -/

/-- The object offers a cookie: the paging control is the only one of its type. -/
def Offers (args : SearchArgs) (pageSize : Int) (cookie : Bytes) (controls : Option Controls) : Prop :=
  ∃ c pre, controls = some c ∧ c.server = some (pre ++ pagedControls args pageSize cookie) ∧
    ∀ control ∈ pre, control.controlType ≠ pagedType

theorem Offers.carrying {cookie : Bytes} {controls : Option Controls}
    (h : Offers args pageSize cookie controls) (timeout : Int) :
    ((pageArgs args).operation timeout controls).Carrying (simplePagedResults pageSize cookie true) := by
  obtain ⟨c, pre, rfl, hserver, hpre⟩ := h
  refine ⟨_, hserver, ?_⟩
  have hnone : pre.filter (fun c => decide (c.controlType = pagedType)) = [] :=
    List.filter_eq_nil_iff.mpr fun control hmem => by simpa using hpre control hmem
  show (pre ++ pagedControls args pageSize cookie).filter
    (fun c => decide (c.controlType = pagedType)) = _
  rw [List.filter_append, hnone]
  unfold pagedControls sortingControls
  cases args.sorting.isEmpty <;> rfl

/-- After a response the object offers its cookie. -/
theorem Offers.assign {cookie cookie' : Bytes} {controls : Option Controls}
    (h : Offers args pageSize cookie controls) (r : Response) :
    Offers args pageSize cookie' ((Result.setControls r controls).map
      (assignCookie (!args.sorting.isEmpty) (simplePagedResults pageSize cookie' true))) := by
  obtain ⟨c, pre, rfl, hserver, hpre⟩ := h
  refine ⟨_, pre, rfl, ?_, hpre⟩
  show c.server.map _ = _
  rw [hserver]
  exact congrArg some (set_pagedControls args pageSize cookie cookie' pre)

/-- One round of `search_paged`: one request, the page that the server answers with,
and then the next round where a page is to come. -/
theorem pages_round {self : Connection} (hconn : self.conn = some o)
    (hattempts : 0 < self.maxConnectionAttempts)
    (server : PagedServer env self.toSlots o args pageSize) {entries : List Entry}
    {rest : List (List Entry)} {cookie : Bytes} {s : State ω} {controls : Option Controls}
    (hself : s.self = self) (hready : server.ready cookie (entries :: rest) s.world)
    (hnames : Named env entries) (hoffers : Offers args pageSize cookie controls) :
    ∃ n results, AreEntries (messages entries) results ∧
      ((args.unique = true ∧ 1 < entries.length) → ∀ polls, n ≤ polls → ∀ rounds page, ∃ found p',
        (pages env args pageSize polls (rounds + 1) page).run (s, controls) =
          .error (.notUnique found) p') ∧
      (¬ (args.unique = true ∧ 1 < entries.length) → ∃ cookie' s' unread controls', s'.self = self ∧
        (requested s'.calls).length = (requested s.calls).length + 1 ∧
        server.ready cookie' rest s'.world ∧ Offers args pageSize cookie' controls' ∧
        ∀ polls, n ≤ polls → ∀ rounds page,
          (pages env args pageSize polls (rounds + 1) page).run (s, controls) =
            if entries = [] then .ok [] (s', unread)
            else if rest = [] then .ok (onPage page pageSize none none results) (s', controls')
            else ((onPage page pageSize none none results ++ ·) <$>
              pages env args pageSize polls rounds (page + 1)).run (s', controls')) := by
  subst hself
  have hrequest : ((pageArgs args).operation s.self.timeout controls).request =
      args.pageRequest s.self.timeout := rfl
  obtain ⟨number, w₁, rs, r, control, size, cookie', hsent, hrs, hlast, hcontrol, hvalue, hempty, hdel⟩ :=
    server.answers hready hrequest
      (hoffers.carrying s.self.timeout)
  obtain ⟨n, results, r', w', log, hall, hlast', hlog, hraise, hreturn⟩ := searchIter_answered hconn hattempts
    (run_setSorting_pageArgs true (s, controls)) hsent hrs hdel (messages_valid hnames)
    messages_isReference
  obtain rfl : r' = r := Option.some.inj (hlast'.symm.trans hlast)
  rw [hall.length_eq] at hraise hreturn
  refine ⟨n, results, hall, fun hunique polls hpolls rounds page => ?_, fun hunique => ?_⟩
  · obtain ⟨found, p', hfound⟩ := hraise hunique polls hpolls
    exact ⟨found, p', by rw [pages, EStateM.run_bind, hfound]⟩
  · obtain ⟨hnext, hrun⟩ := hreturn hunique
    refine ⟨cookie', ⟨s.self, w', s.calls ++ log⟩, Result.setControls r' controls, _, rfl, ?_, hnext,
      hoffers.assign r', fun polls hpolls rounds page => ?_⟩
    · rw [requested_append, hlog, List.length_append, List.length_singleton]
    rw [pages, EStateM.run_bind, hrun polls hpolls]
    by_cases hnil : entries = []
    · simp only [if_pos hnil, if_pos (hall.isEmpty_iff.mpr hnil)]
      obtain rfl := List.isEmpty_iff.mp (hall.isEmpty_iff.mpr hnil)
      rfl
    · simp only [if_neg hnil, if_neg (mt hall.isEmpty_iff.mp hnil)]
      -- the response has the paging control with the next cookie
      obtain ⟨c, pre, rfl, -, -⟩ := hoffers
      have hcookie : Shared.cookie control = .ok cookie' := by
        unfold Shared.cookie
        rw [hvalue]
      rw [EStateM.run_bind, EStateM.run_get]
      simp only [responseControl_setControls, hcontrol, hcookie]
      rw [EStateM.run_bind, lift_ok _ (Method.ofExcept_ok cookie' _)]
      simp only
      rw [EStateM.run_bind, EStateM.run_modify]
      by_cases hrest : rest = []
      · simp only [if_pos hrest, hempty.mpr hrest]
        rfl
      · have hne : cookie'.isEmpty = false := by
          rw [List.isEmpty_eq_false_iff]
          exact mt hempty.mp hrest
        simp only [if_neg hrest, hne]
        rfl

/-- The pages up to the first empty one, where `search_paged` ends. -/
def shown (pages : List (List Entry)) : List (List Entry) :=
  pages.takeWhile fun page => !page.isEmpty

/-- How many pages are asked for: those that are shown, and the empty one after them. -/
def asked (pages : List (List Entry)) : Nat := min ((shown pages).length + 1) pages.length

/-- The entries of the pages, at their places from a page on. -/
def placedPages (pageSize page : Int) (pages : List (List Entry)) : List (Option Entry × Option Page) :=
  (pages.mapIdx fun k entries => numbered (page + k) pageSize none none entries).flatten

theorem placedPages_cons (pageSize page : Int) (entries : List Entry) (pages : List (List Entry)) :
    placedPages pageSize page (entries :: pages) =
      numbered page pageSize none none entries ++ placedPages pageSize (page + 1) pages := by
  have hshift : ∀ k : Nat, page + ((k + 1 : Nat) : Int) = page + 1 + k := by
    intro k
    omega
  unfold placedPages
  rw [List.mapIdx_cons, List.flatten_cons]
  simp only [hshift]
  rw [show page + ((0 : Nat) : Int) = page by omega]

theorem shown_nil (pages : List (List Entry)) : shown ([] :: pages) = [] := rfl

theorem shown_cons {entries : List Entry} (h : entries ≠ []) (pages : List (List Entry)) :
    shown (entries :: pages) = entries :: shown pages := by
  unfold shown
  rw [List.takeWhile_cons_of_pos (by simpa using h)]

theorem asked_cons {entries : List Entry} (h : entries ≠ []) (pages : List (List Entry)) :
    asked (entries :: pages) = asked pages + 1 := by
  unfold asked
  rw [shown_cons h, List.length_cons, List.length_cons]
  omega

/-- Behind a page that is unique only the pages after it can fail to be. -/
theorem exists_shown_cons {entries : List Entry} (hne : entries ≠ []) {unique : Prop}
    (h : ¬ (unique ∧ 1 < entries.length)) (rest : List (List Entry)) :
    (unique ∧ ∃ p ∈ shown (entries :: rest), 1 < p.length) ↔
      (unique ∧ ∃ p ∈ shown rest, 1 < p.length) := by
  rw [shown_cons hne]
  constructor
  · rintro ⟨hunique, p, hp, hlength⟩
    rcases List.mem_cons.mp hp with rfl | hp
    · exact absurd ⟨hunique, hlength⟩ h
    · exact ⟨hunique, p, hp, hlength⟩
  · rintro ⟨hunique, p, hp, hlength⟩
    exact ⟨hunique, p, List.mem_cons_of_mem _ hp, hlength⟩

/-- `search_paged` raises `NotUnique` if one of the pages it comes to has more than one
entry, and otherwise yields the entries of these pages, with one request for each page
that it asks for. -/
theorem pages_answered {self : Connection} (hconn : self.conn = some o)
    (hattempts : 0 < self.maxConnectionAttempts)
    (server : PagedServer env self.toSlots o args pageSize) (served : List (List Entry)) :
    ∀ {cookie : Bytes} {s : State ω} {controls : Option Controls}, served ≠ [] →
      s.self = self → server.ready cookie served s.world →
      (∀ page ∈ served, Named env page) → Offers args pageSize cookie controls →
      ∃ n, ∀ polls rounds, n ≤ polls → n ≤ rounds → ∀ page,
        if args.unique = true ∧ ∃ p ∈ shown served, 1 < p.length then
          ∃ found p', (pages env args pageSize polls rounds page).run (s, controls) =
            .error (.notUnique found) p'
        else ∃ results s' controls',
          results.map Result.placed = placedPages pageSize page (shown served) ∧
          (requested s'.calls).length = (requested s.calls).length + asked served ∧
          (pages env args pageSize polls rounds page).run (s, controls) =
            .ok results (s', controls') := by
  induction served with
  | nil =>
    intro cookie s controls hne
    exact absurd rfl hne
  | cons entries rest ih =>
    intro cookie s controls _ hself hready hnames hoffers
    obtain ⟨n, results, hall, hraise, hreturn⟩ := pages_round hconn hattempts server hself hready
      (hnames entries List.mem_cons_self) hoffers
    have hsucc : ∀ {m rounds : Nat}, m + 1 ≤ rounds → ∃ k, rounds = k + 1 :=
      fun {_ rounds} h => ⟨rounds - 1, by omega⟩
    by_cases hunique : args.unique = true ∧ 1 < entries.length
    · have hne : entries ≠ [] := by
        rintro rfl
        exact absurd hunique.2 (by simp)
      refine ⟨n + 1, fun polls rounds hpolls hrounds page => ?_⟩
      obtain ⟨k, rfl⟩ := hsucc hrounds
      rw [shown_cons hne, if_pos ⟨hunique.1, entries, List.mem_cons_self, hunique.2⟩]
      exact hraise hunique polls (by omega) k page
    · obtain ⟨cookie', s', unread, controls', hself', hcalls, hready', hoffers', hrun⟩ := hreturn hunique
      by_cases hnil : entries = []
      · -- an empty page ends the search
        subst hnil
        refine ⟨n + 1, fun polls rounds hpolls hrounds page => ?_⟩
        obtain ⟨k, rfl⟩ := hsucc hrounds
        rw [shown_nil, if_neg (by simp)]
        refine ⟨[], s', unread, rfl, ?_, by rw [hrun polls (by omega), if_pos rfl]⟩
        rw [hcalls]
        unfold asked
        rw [shown_nil, List.length_nil, List.length_cons]
        omega
      have hhead : ∀ page, (onPage page pageSize none none results).map Result.placed =
          numbered page pageSize none none entries := fun page => onPage_placed hall page pageSize none none
      by_cases hrest : rest = []
      · -- the last page
        subst hrest
        refine ⟨n + 1, fun polls rounds hpolls hrounds page => ?_⟩
        obtain ⟨k, rfl⟩ := hsucc hrounds
        have hnone : ¬ (args.unique = true ∧ ∃ p ∈ shown [entries], 1 < p.length) := by
          rw [exists_shown_cons hnil hunique]
          simp [shown]
        rw [if_neg hnone]
        refine ⟨onPage page pageSize none none results, s', controls', ?_, ?_,
          by rw [hrun polls (by omega), if_neg hnil, if_pos rfl]⟩
        · rw [hhead, shown_cons hnil, placedPages_cons]
          exact (List.append_nil _).symm
        · rw [hcalls, asked_cons hnil]
          rfl
      · obtain ⟨n', hmore⟩ := ih hrest hself' hready' (fun p hp => hnames p (List.mem_cons_of_mem _ hp))
          hoffers'
        refine ⟨max n n' + 1, fun polls rounds hpolls hrounds page => ?_⟩
        obtain ⟨k, rfl⟩ := hsucc hrounds
        have hnext := hmore polls k (by omega) (by omega) (page + 1)
        rw [hrun polls (by omega), if_neg hnil, if_neg hrest, run_map]
        by_cases hlater : args.unique = true ∧ ∃ p ∈ shown rest, 1 < p.length
        · rw [if_pos hlater] at hnext
          obtain ⟨found, p', hfound⟩ := hnext
          rw [if_pos ((exists_shown_cons hnil hunique rest).mpr hlater), hfound]
          exact ⟨found, p', rfl⟩
        · rw [if_neg hlater] at hnext
          obtain ⟨more, s'', controls'', hplaced, hmoreCalls, hmoreRun⟩ := hnext
          rw [if_neg (mt (exists_shown_cons hnil hunique rest).mp hlater), hmoreRun]
          refine ⟨_, s'', controls'', ?_, ?_, rfl⟩
          · rw [List.map_append, hhead, hplaced, shown_cons hnil, placedPages_cons]
          · rw [hmoreCalls, hcalls, asked_cons hnil]
            omega

/-- The caller's controls, without a paging control of its own. -/
def Pageable (controls : Option Controls) : Prop :=
  ∃ l, (controls.getD { server := some [] }).server = some l ∧
    ∀ control ∈ l, control.controlType ≠ pagedType

/-- What `search_paged` comes to, with controls that it can append its own to. -/
theorem searchPaged_answered {controls : Option Controls} (hconn : s.self.conn = some o)
    (hattempts : 0 < s.self.maxConnectionAttempts)
    (server : PagedServer env s.self.toSlots o args pageSize) {pages : List (List Entry)}
    (hready : server.ready [] pages s.world) (hne : pages ≠ [])
    (hnames : ∀ page ∈ pages, Named env page) (hcontrols : Pageable controls) :
    ∃ n, ∀ polls, n ≤ polls →
      if args.unique = true ∧ ∃ p ∈ shown pages, 1 < p.length then
        ∃ found p', (searchPaged env polls args pageSize).run (s, controls) =
          .error (.notUnique found) p'
      else ∃ results s' controls',
        results.map Result.placed = placedPages pageSize 1 (shown pages) ∧
        (requested s'.calls).length = (requested s.calls).length + asked pages ∧
        (searchPaged env polls args pageSize).run (s, controls) = .ok results (s', controls') := by
  obtain ⟨l, hserver, hl⟩ := hcontrols
  -- the controls are appended and set before the first page
  have happend : (update fun controls => Controls.appendServer controls
      (simplePagedResults pageSize [] true) : Shared ω Unit).run (s, controls) =
        .ok () (s, some { controls.getD { server := some [] } with
          server := some (l ++ [simplePagedResults pageSize [] true]) }) := by
    unfold update
    simp [EStateM.run, Controls.appendServer, hserver]
  have hsetting : ∃ pre, (∀ control ∈ pre, control.controlType ≠ pagedType) ∧
      (setSorting args false : Shared ω Unit).run (s, some { controls.getD { server := some [] } with
          server := some (l ++ [simplePagedResults pageSize [] true]) }) =
        .ok () (s, some { controls.getD { server := some [] } with
          server := some (pre ++ pagedControls args pageSize []) }) := by
    unfold setSorting pagedControls sortingControls
    cases hsort : args.sorting.isEmpty with
    | true => exact ⟨l, hl, rfl⟩
    | false =>
      refine ⟨l.filter fun control => control.controlType != sortingType,
        fun control hmem => hl control (List.mem_filter.mp hmem).1, ?_⟩
      have hfilter : (l ++ [simplePagedResults pageSize [] true]).filter
          (fun control => control.controlType != sortingType) ++ [serverSideSorting args.sorting] =
          l.filter (fun control => control.controlType != sortingType) ++
            [simplePagedResults pageSize [] true, serverSideSorting args.sorting] := by
        rw [List.filter_append, List.append_assoc]
        rfl
      rw [onlyIf_true rfl, if_neg (by simp), ← hfilter]
      rfl
  have hstart : ∃ controls', Offers args pageSize [] controls' ∧ ∀ polls,
      (searchPaged env polls args pageSize).run (s, controls) =
        (Shared.pages env args pageSize polls polls 1).run (s, controls') := by
    obtain ⟨pre, hpre, hrun⟩ := hsetting
    refine ⟨some { controls.getD { server := some [] } with
      server := some (pre ++ pagedControls args pageSize []) }, ⟨_, pre, rfl, rfl, hpre⟩, fun polls => ?_⟩
    unfold searchPaged
    rw [EStateM.run_bind, happend]
    simp only
    rw [EStateM.run_bind, hrun]
  obtain ⟨controls', hoffers, hrun⟩ := hstart
  obtain ⟨n, hpages⟩ := pages_answered hconn hattempts server pages hne rfl hready hnames hoffers
  refine ⟨n, fun polls hpolls => ?_⟩
  rw [hrun]
  exact hpages polls polls hpolls hpolls 1

/-! ### search_paginated -/

/-- The object has a server list to set controls in. -/
def Settable (controls : Option Controls) : Prop :=
  ∃ l, (controls.getD { server := some [] }).server = some l

variable (args) in
/-- A control that has been set is the only one of its type. -/
theorem Settable.set {controls : Option Controls} (h : Settable controls) (control : Control) :
    ∃ c, (∀ s : State ω, (update fun controls => Controls.setServer controls control :
        Shared ω Unit).run (s, controls) = .ok () (s, some c)) ∧ Settable (some c) ∧
      ∀ timeout, ((pageArgs args).operation timeout (some c)).Carrying control := by
  obtain ⟨l, hl⟩ := h
  refine ⟨{ controls.getD { server := some [] } with
    server := some (l.filter (fun ctrl => ctrl.controlType != control.controlType) ++ [control]) },
    fun s => ?_, ⟨_, rfl⟩, fun timeout => ⟨_, rfl, ?_⟩⟩
  · unfold update
    simp [EStateM.run, Controls.setServer, hl]
  · rw [List.filter_append, List.filter_filter]
    simp

variable {entries : List Entry} {size : Nat}

/-- `last_page` of a list. -/
def lastOf (entries : List Entry) (size : Nat) : Int := -((-(entries.length : Int)).fdiv size)

/-- It is the number of pages of this size. -/
theorem lastOf_eq (entries : List Entry) (hsize : 0 < size) :
    lastOf entries size = ((entries.length + size - 1) / size : Nat) := by
  let q : Nat := (entries.length + size - 1) / size
  have hle : q * size ≤ entries.length + size - 1 := Nat.div_mul_le_self ..
  have hlt : entries.length + size - 1 < q * size + size := Nat.lt_div_mul_add hsize
  have hmul : ((size : Int)) * -(q : Int) = -((q * size : Nat) : Int) := by
    rw [Int.mul_neg, Int.natCast_mul, Int.mul_comm]
  have hdiv : -(entries.length : Int) / size = -(q : Int) :=
    ((Int.ediv_emod_unique (r := (q * size : Nat) - (entries.length : Int)) (by omega)).mpr
      ⟨by rw [hmul]; omega, by omega, by omega⟩).1
  unfold lastOf
  rw [Int.fdiv_eq_ediv_of_nonneg _ (by omega), hdiv, Int.neg_neg]

/-- The entries at their places, in pages of a size. -/
def placedViews (entries : List Entry) (size : Nat) : List (Option Entry × Option Page) :=
  entries.mapIdx fun k entry =>
    (some entry, some { page := (k / size : Nat) + 1, entry := (k % size : Nat) + 1, pageSize := size
                        results := some entries.length
                        lastPage := some ((entries.length + size - 1) / size : Nat) })

/-- They are those of one page after the other. -/
theorem placedViews_drop (entries : List Entry) (hsize : 0 < size) (k : Nat) :
    (placedViews entries size).drop (k * size) =
      numbered (k + 1) size (some entries.length) (some (lastOf entries size))
        ((entries.drop (k * size)).take size) ++ (placedViews entries size).drop ((k + 1) * size) := by
  have hpage : ((placedViews entries size).drop (k * size)).take size =
      numbered (k + 1) size (some entries.length) (some (lastOf entries size))
        ((entries.drop (k * size)).take size) := by
    refine List.ext_getElem? fun i => ?_
    unfold placedViews numbered
    rw [List.getElem?_mapIdx, List.getElem?_take, List.getElem?_take, List.getElem?_drop,
      List.getElem?_drop, List.getElem?_mapIdx]
    by_cases hi : i < size
    · have hdiv : (k * size + i) / size = k := by
        rw [Nat.add_comm, Nat.add_mul_div_right i k hsize, Nat.div_eq_of_lt hi, Nat.zero_add]
      have hmod : (k * size + i) % size = i := by
        rw [Nat.add_comm, Nat.add_mul_mod_self_right, Nat.mod_eq_of_lt hi]
      rw [if_pos hi, if_pos hi, hdiv, hmod, lastOf_eq entries hsize]
    · rw [if_neg hi, if_neg hi]
      rfl
  rw [← hpage, Nat.succ_mul, ← List.drop_drop, List.take_append_drop]

/-- What `search_paginated` knows of the length: nothing before the first page. -/
def Known (entries : List Entry) (size k : Nat) (length last : Option Int) : Prop :=
  (k = 0 ∧ length = none ∧ last = none) ∨
    (0 < k ∧ entries ≠ [] ∧ length = some entries.length ∧ last = some (lastOf entries size))

/-- After a page both lengths are known: they were, or its control tells them. -/
theorem Known.lengths_eq {k : Nat} {length last : Option Int} (hknown : Known entries size k length last)
    (hsize : 0 < size) {controls : Option Controls} {contextId : Option Bytes}
    (hview : listView controls = .ok ((entries.length : Int), contextId)) :
    lengths controls size length last =
      .ok (some (entries.length : Int), some (lastOf entries size)) := by
  rcases hknown with ⟨-, rfl, rfl⟩ | ⟨-, -, rfl, rfl⟩
  · have hlast : lastPage entries.length size = .ok (lastOf entries size) := by
      unfold lastPage lastOf
      rw [if_neg (by omega), if_neg (by omega)]
    show (listView controls >>= _) = _
    rw [hview]
    show (lastPage entries.length size >>= _) = _
    rw [hlast]
    rfl
  · rfl

/-- The offset of a page, from the number that the loop has for it. -/
theorem page_offset (k size : Nat) : ((k : Int) + 1 - 1) * size = (k * size : Nat) := by
  rw [Int.add_sub_cancel]
  rfl

theorem view_offset (k : Nat) :
    view entries size (((k : Int) + 1 - 1) * size + 1) = (entries.drop (k * size)).take size := by
  have hoffset : (((k : Int) + 1 - 1) * size + 1 - 1).toNat = k * size := by
    rw [page_offset, Int.add_sub_cancel]
    exact Int.toNat_natCast (k * size)
  unfold view
  rw [hoffset, Int.toNat_natCast]

/-- One round of `search_paginated` within the list: the entries of the view, and then
the next round. -/
theorem views_round {self : Connection} (hconn : self.conn = some o)
    (hattempts : 0 < self.maxConnectionAttempts)
    (server : ViewServer env self.toSlots o args size entries) (hsize : 0 < size) {k : Nat}
    {contextId : Option Bytes} {length last : Option Int} {s : State ω} {controls : Option Controls}
    (hself : s.self = self) (hready : server.ready contextId s.world) (hnames : Named env entries)
    (hcontrols : Settable controls) (hknown : Known entries size k length last)
    (hwithin : k * size + 1 ≤ max entries.length 1) :
    ∃ n results, AreEntries (messages ((entries.drop (k * size)).take size)) results ∧
      ((args.unique = true ∧ 1 < ((entries.drop (k * size)).take size).length) →
        ∀ polls, n ≤ polls → ∀ rounds, ∃ found p',
          (views env args size polls (rounds + 1) (k + 1) contextId length last).run (s, controls) =
            .error (.notUnique found) p') ∧
      (¬ (args.unique = true ∧ 1 < ((entries.drop (k * size)).take size).length) →
        ∃ contextId' s' controls', s'.self = self ∧ server.ready contextId' s'.world ∧
          Settable controls' ∧ ∀ polls, n ≤ polls → ∀ rounds, ∃ p',
            (views env args size polls (rounds + 1) (k + 1) contextId length last).run (s, controls) =
              if (entries.drop (k * size)).take size = [] then .ok [] p'
              else ((onPage (k + 1) size (some entries.length) (some (lastOf entries size)) results ++ ·) <$>
                views env args size polls rounds (k + 1 + 1) contextId' (some entries.length)
                  (some (lastOf entries size))).run (s', controls')) := by
  subst hself
  let offset : Int := ((k : Int) + 1 - 1) * size
  have hoffset : offset = (k * size : Nat) := page_offset k size
  obtain ⟨c, hset, hcontrols', hcarrying⟩ := hcontrols.set (ω := ω) args
    (virtualListView 0 (size - 1) (offset + 1) 0 contextId true)
  have hrequest : ((pageArgs args).operation s.self.timeout (some c)).request =
      args.pageRequest s.self.timeout := rfl
  obtain ⟨number, w₁, r, control, contextId', hsent, htype, hdata, hcontrol, hvalue, hdel⟩ :=
    server.answers hready hrequest (hcarrying _) (by omega) (by omega)
  rw [show view entries size (offset + 1) = (entries.drop (k * size)).take size from view_offset k]
    at hdata
  have hviewNames : Named env ((entries.drop (k * size)).take size) := fun entry hmem =>
    hnames entry (List.mem_of_mem_drop (List.mem_of_mem_take hmem))
  obtain ⟨n, results, w', log, hnext, hall, hlength, hrun⟩ := search_answered hconn hattempts
    (run_setSorting_pageArgs false (s, some c)) hsent hdel htype hdata (messages_valid hviewNames)
    messages_isReference
  rw [messages_length, show (pageArgs args).unique = args.unique from rfl] at hrun
  -- the offset is not beyond the end
  have hgo : (length.any fun x => decide (x < offset)) = false := by
    rcases hknown with ⟨-, rfl, -⟩ | ⟨-, hne, rfl, -⟩
    · rfl
    · have hpos : 0 < entries.length := List.length_pos_iff.mpr hne
      exact decide_eq_false (by omega)
  have hfirst : ∀ polls rounds,
      (views env args size polls (rounds + 1) (k + 1) contextId length last).run (s, controls) =
        (do
          let results ← search env polls (pageArgs args)
          if results.isEmpty then pure []
          else
            let p ← get
            let found ← lift (ofExcept (lengths p.2 size length last))
            let vlv ← lift (ofExcept (listView p.2))
            (onPage (k + 1) size found.1 found.2 results ++ ·) <$>
              views env args size polls rounds (k + 1 + 1) vlv.2 (some vlv.1) found.2 :
            Shared ω (List Result)).run (s, some c) := by
    intro polls rounds
    rw [views, EStateM.run_bind, hset]
    rw [if_neg (by rw [hgo]; simp)]
  refine ⟨n, results, hall, fun hunique polls hpolls rounds => ?_, fun hunique => ?_⟩
  · exact ⟨results, _, by rw [hfirst, EStateM.run_bind, hrun polls hpolls, if_pos hunique]⟩
  · refine ⟨contextId', ⟨s.self, w', s.calls ++ log⟩, Result.setControls r (some c), rfl, hnext,
      hcontrols', fun polls hpolls rounds =>
        ⟨(⟨s.self, w', s.calls ++ log⟩, Result.setControls r (some c)), ?_⟩⟩
    rw [hfirst, EStateM.run_bind, hrun polls hpolls, if_neg hunique]
    by_cases hnil : (entries.drop (k * size)).take size = []
    · simp only [if_pos hnil, if_pos (hall.isEmpty_iff.mpr hnil)]
      rfl
    · simp only [if_neg hnil, if_neg (mt hall.isEmpty_iff.mp hnil)]
      -- the response has the control with the length and the next context
      have hview : listView (Result.setControls r (some c)) =
          .ok ((entries.length : Int), contextId') := by
        unfold listView
        rw [responseControl_setControls, hcontrol]
        simp only [hvalue]
      rw [EStateM.run_bind, EStateM.run_get]
      simp only [hknown.lengths_eq hsize hview]
      rw [EStateM.run_bind, lift_ok _ (Method.ofExcept_ok _ _)]
      simp only [hview]
      rw [EStateM.run_bind, lift_ok _ (Method.ofExcept_ok _ _)]

/-- A round beyond the end of the list: the length is known, and the search ends. -/
theorem views_beyond {k : Nat} {contextId : Option Bytes} {last : Option Int}
    {controls : Option Controls} (hcontrols : Settable controls)
    (hbeyond : entries.length < k * size) (polls rounds : Nat) :
    ∃ p', (views env args size polls (rounds + 1) (k + 1) contextId (some entries.length) last).run
      (s, controls) = .ok [] p' := by
  obtain ⟨c, hset, -, -⟩ := hcontrols.set (ω := ω) args
    (virtualListView 0 (size - 1) (((k : Int) + 1 - 1) * size + 1) 0 contextId true)
  have hoffset := page_offset k size
  have hstop : ((some (entries.length : Int)).any fun x => decide (x < ((k : Int) + 1 - 1) * size)) =
      true := decide_eq_true (by omega)
  refine ⟨(s, some c), ?_⟩
  rw [views, EStateM.run_bind, hset]
  rw [if_pos hstop]
  rfl

/-- A round right at the end of the list asks for an offset that the server refuses. -/
theorem views_refused {self : Connection} (hconn : self.conn = some o)
    (hattempts : 0 < self.maxConnectionAttempts)
    (server : ViewServer env self.toSlots o args size entries) {k : Nat}
    {contextId : Option Bytes} {last : Option Int} {s : State ω} {controls : Option Controls}
    (hself : s.self = self) (hready : server.ready contextId s.world) (hcontrols : Settable controls)
    (hne : entries ≠ []) (hend : k * size = entries.length) :
    ∃ err p', err.cls = .other "VLVError" ∧ ∀ polls, 1 ≤ polls → ∀ rounds,
      (views env args size polls (rounds + 1) (k + 1) contextId (some entries.length) last).run
        (s, controls) = .error (.lib err) p' := by
  subst hself
  have hoffset := page_offset k size
  obtain ⟨c, hset, -, hcarrying⟩ := hcontrols.set (ω := ω) args
    (virtualListView 0 (size - 1) (((k : Int) + 1 - 1) * size + 1) 0 contextId true)
  have hrequest : ((pageArgs args).operation s.self.timeout (some c)).request =
      args.pageRequest s.self.timeout := rfl
  obtain ⟨number, w₁, err, w₂, hsent, hcls, hrefused⟩ :=
    server.refuses hready hrequest (hcarrying _) hne (by omega)
  have hgo : ((some (entries.length : Int)).any fun x => decide (x < ((k : Int) + 1 - 1) * size)) =
      false := decide_eq_false (by omega)
  obtain ⟨log, -, hexec⟩ := Method.execute_refused hattempts hsent (by simp [PyExc.lost, hcls])
    (by simp [PyExc.is, hcls]) hrefused
  let s' : State ω := ⟨s.self, w₂, s.calls ++ log⟩
  have hsearch : ∀ polls, 1 ≤ polls →
      (search env polls (pageArgs args)).run (s, some c) = .error (.lib err) (s', some c) := by
    intro polls hpolls
    unfold search
    rw [EStateM.run_bind, lift_ok _ (Method.conn_ok hconn)]
    simp only
    rw [EStateM.run_bind, run_setSorting_pageArgs]
    simp only
    rw [searchedFor_bind (EStateM.run_get _)]
    refine searchedFor_error (fun err' herr => ?_) ?_
    · cases herr
      rw [hcls]
      simp
    · rw [EStateM.run_bind, lift_error _ (hexec polls hpolls)]
  refine ⟨err, (s', some c), hcls, fun polls hpolls rounds => ?_⟩
  rw [views, EStateM.run_bind, hset]
  simp only
  rw [if_neg (by rw [hgo]; simp), EStateM.run_bind, hsearch polls hpolls]

/-- The pages of a list that ends with a full one are full. -/
theorem page_full {n size k : Nat} (hdvd : size ∣ n) (hlt : k * size < n) : (k + 1) * size ≤ n := by
  obtain ⟨q, rfl⟩ := hdvd
  rw [Nat.mul_comm size q] at hlt ⊢
  exact Nat.mul_le_mul_right size (Nat.lt_of_mul_lt_mul_right hlt)

/-- What the rounds of `search_paginated` come to from a page on: `NotUnique` where a
page can hold two of the entries that are left, `VLVError` where the list ends with
a full page, otherwise the entries that are left. -/
def ViewsEnd (args : SearchArgs) (size : Nat) (entries : List Entry) (k : Nat)
    (outcome : EStateM.Result PyExc (State ω × Option Controls) (List Result)) : Prop :=
  if args.unique = true ∧ 1 < size ∧ k * size + 1 < entries.length then
    ∃ found p', outcome = .error (.notUnique found) p'
  else if entries ≠ [] ∧ size ∣ entries.length ∧ k * size ≤ entries.length then
    ∃ err p', err.cls = .other "VLVError" ∧ outcome = .error (.lib err) p'
  else ∃ results p', results.map Result.placed = (placedViews entries size).drop (k * size) ∧
    outcome = .ok results p'

/-- A page with one entry at most where one is allowed, and then the end of the rounds
after it. -/
theorem ViewsEnd.page (hsize : 0 < size) {k : Nat} (hlt : k * size < entries.length)
    (hunique : ¬ (args.unique = true ∧ 1 < ((entries.drop (k * size)).take size).length))
    {results : List Result} (hall : AreEntries (messages ((entries.drop (k * size)).take size)) results)
    {rest : Shared ω (List Result)} {p : State ω × Option Controls}
    (hend : ViewsEnd args size entries (k + 1) (rest.run p)) :
    ViewsEnd args size entries k (((onPage (k + 1) size (some entries.length)
      (some (lastOf entries size)) results ++ ·) <$> rest).run p) := by
  have hne : entries ≠ [] := List.ne_nil_of_length_pos (by omega)
  have hsucc : (k + 1) * size = k * size + size := Nat.succ_mul k size
  rw [List.length_take, List.length_drop] at hunique
  unfold ViewsEnd at hend ⊢
  rw [if_neg (by rintro ⟨htrue, h1, h2⟩; exact hunique ⟨htrue, by omega⟩)]
  rw [if_neg (by rintro ⟨htrue, h1, h2⟩; exact hunique ⟨htrue, by omega⟩)] at hend
  by_cases hdvd : size ∣ entries.length
  · -- the pages that are left are full
    rw [if_pos ⟨hne, hdvd, page_full hdvd hlt⟩] at hend
    rw [if_pos ⟨hne, hdvd, Nat.le_of_lt hlt⟩]
    obtain ⟨err, p', hcls, herr⟩ := hend
    exact ⟨err, p', hcls, by rw [run_map, herr]⟩
  · rw [if_neg (fun h => hdvd h.2.1)] at hend ⊢
    obtain ⟨more, p', hplaced, hmore⟩ := hend
    refine ⟨_, p', ?_, by rw [run_map, hmore]⟩
    rw [List.map_append, onPage_placed hall, hplaced, ← placedViews_drop entries hsize k]

/-- A round beyond the end of the list yields what is left there. -/
theorem views_past {k : Nat} {contextId : Option Bytes} {length last : Option Int}
    {controls : Option Controls} (hcontrols : Settable controls)
    (hknown : Known entries size k length last) (hbeyond : entries.length < k * size)
    (polls rounds : Nat) : ViewsEnd args size entries k
      ((views env args size polls (rounds + 1) (k + 1) contextId length last).run (s, controls)) := by
  rcases hknown with ⟨rfl, -, -⟩ | ⟨-, -, rfl, rfl⟩
  · omega
  · obtain ⟨p', hrun⟩ := views_beyond (s := s) hcontrols hbeyond polls rounds
    unfold ViewsEnd
    rw [if_neg (by omega), if_neg (by omega)]
    refine ⟨[], p', ?_, hrun⟩
    have hlength : (placedViews entries size).length = entries.length := List.length_mapIdx
    rw [List.drop_eq_nil_of_le (by omega)]
    rfl

section

variable {self : Connection} (hconn : self.conn = some o)
  (hattempts : 0 < self.maxConnectionAttempts)
  (server : ViewServer env self.toSlots o args size entries) (hsize : 0 < size)

include hconn hattempts hsize

/-- A round at the end of the list: the only page of an empty one, or an offset that
the server refuses. -/
theorem views_atEnd (hnames : Named env entries) {k : Nat} {contextId : Option Bytes}
    {length last : Option Int} {controls : Option Controls} (hself : s.self = self)
    (hready : server.ready contextId s.world) (hcontrols : Settable controls)
    (hknown : Known entries size k length last) (hend : k * size = entries.length) :
    ∃ n, ∀ polls, n ≤ polls → ∀ rounds, ViewsEnd args size entries k
      ((views env args size polls (rounds + 1) (k + 1) contextId length last).run (s, controls)) := by
  unfold ViewsEnd
  by_cases hne : entries = []
  · subst hne
    obtain rfl : k = 0 := by
      rcases Nat.mul_eq_zero.mp hend with h | h <;> omega
    obtain ⟨n, results, -, -, hreturn⟩ := views_round hconn hattempts server hsize hself
      hready hnames hcontrols hknown (by simp)
    obtain ⟨contextId', s', controls', -, -, -, hrun⟩ := hreturn (by simp)
    refine ⟨n, fun polls hpolls rounds => ?_⟩
    obtain ⟨p', hround⟩ := hrun polls hpolls rounds
    rw [if_neg (by simp), if_neg (by simp)]
    exact ⟨[], p', by rw [Nat.zero_mul]; rfl, by rw [hround, if_pos (by simp)]⟩
  · have hpos : 0 < entries.length := List.length_pos_iff.mpr hne
    rcases hknown with ⟨rfl, -, -⟩ | ⟨-, -, rfl, rfl⟩
    · omega
    · obtain ⟨err, p', hcls, hrun⟩ := views_refused hconn hattempts server hself hready hcontrols hne hend
      refine ⟨1, fun polls hpolls rounds => ?_⟩
      rw [if_neg (by omega), if_pos ⟨hne, ⟨k, by rw [← hend, Nat.mul_comm]⟩, Nat.le_of_eq hend⟩]
      exact ⟨err, p', hcls, hrun polls hpolls rounds⟩

/-- From every page on the rounds come to their end: each page brings the end of the list
nearer. -/
theorem views_answered (hnames : Named env entries) (m : Nat) :
    ∀ {k : Nat} {contextId : Option Bytes} {length last : Option Int} {s : State ω}
      {controls : Option Controls}, entries.length + 1 - k ≤ m → s.self = self →
      server.ready contextId s.world → Settable controls → Known entries size k length last →
      ∃ n, ∀ polls rounds, n ≤ polls → n ≤ rounds → ViewsEnd args size entries k
        ((views env args size polls rounds (k + 1) contextId length last).run (s, controls)) := by
  induction m with
  | zero =>
    intro k contextId length last s controls hk hself hready hcontrols hknown
    have hbeyond : entries.length < k * size :=
      Nat.lt_of_lt_of_le (by omega) (Nat.le_mul_of_pos_right k hsize)
    refine ⟨1, fun polls rounds hpolls hrounds => ?_⟩
    obtain ⟨j, rfl⟩ : ∃ j, rounds = j + 1 := ⟨rounds - 1, by omega⟩
    exact views_past hcontrols hknown hbeyond polls j
  | succ m ih =>
    intro k contextId length last s controls hk hself hready hcontrols hknown
    rcases Nat.lt_trichotomy (k * size) entries.length with hlt | heq | hgt
    · -- a page with entries
      have hne : entries ≠ [] := List.ne_nil_of_length_pos (by omega)
      have hlength : ((entries.drop (k * size)).take size).length =
          min size (entries.length - k * size) := by
        rw [List.length_take, List.length_drop]
      have hview : (entries.drop (k * size)).take size ≠ [] := by
        rw [← List.length_pos_iff, hlength]
        omega
      obtain ⟨n, results, hall, hraise, hreturn⟩ := views_round hconn hattempts server hsize hself
        hready hnames hcontrols hknown (by omega)
      by_cases hunique : args.unique = true ∧ 1 < ((entries.drop (k * size)).take size).length
      · refine ⟨n + 1, fun polls rounds hpolls hrounds => ?_⟩
        obtain ⟨j, rfl⟩ : ∃ j, rounds = j + 1 := ⟨rounds - 1, by omega⟩
        unfold ViewsEnd
        rw [if_pos ⟨hunique.1, by omega, by omega⟩]
        exact hraise hunique polls (by omega) j
      · obtain ⟨contextId', s', controls', hself', hready', hcontrols', hrun⟩ := hreturn hunique
        have hkn : k < entries.length := Nat.lt_of_le_of_lt (Nat.le_mul_of_pos_right k hsize) hlt
        have hknown' : Known entries size (k + 1) (some (entries.length : Int))
            (some (lastOf entries size)) := .inr ⟨Nat.succ_pos k, hne, rfl, rfl⟩
        obtain ⟨n', hmore⟩ := ih (by omega) hself' hready' hcontrols' hknown'
        refine ⟨max n n' + 1, fun polls rounds hpolls hrounds => ?_⟩
        obtain ⟨j, rfl⟩ : ∃ j, rounds = j + 1 := ⟨rounds - 1, by omega⟩
        obtain ⟨p', hround⟩ := hrun polls (by omega) j
        have hnext := hmore polls j (by omega) (by omega)
        rw [show (((k + 1 : Nat) : Int) + 1) = (k : Int) + 1 + 1 by simp] at hnext
        rw [hround, if_neg hview]
        exact hnext.page hsize hlt hunique hall
    · obtain ⟨n, hend⟩ := views_atEnd hconn hattempts server hsize hnames hself hready hcontrols hknown heq
      refine ⟨n + 1, fun polls rounds hpolls hrounds => ?_⟩
      obtain ⟨j, rfl⟩ : ∃ j, rounds = j + 1 := ⟨rounds - 1, by omega⟩
      exact hend polls (by omega) j
    · refine ⟨1, fun polls rounds hpolls hrounds => ?_⟩
      obtain ⟨j, rfl⟩ : ∃ j, rounds = j + 1 := ⟨rounds - 1, by omega⟩
      exact views_past hcontrols hknown hgt polls j

end

/-- What `search_paginated` comes to, with a list to set controls in. -/
theorem searchPaginated_answered {controls : Option Controls} (hconn : s.self.conn = some o)
    (hattempts : 0 < s.self.maxConnectionAttempts)
    (server : ViewServer env s.self.toSlots o args size entries) (hsize : 0 < size)
    (hnames : Named env entries) (hready : server.ready none s.world) (hcontrols : Settable controls) :
    ∃ n, ∀ polls, n ≤ polls →
      if args.unique = true ∧ 1 < size ∧ 1 < entries.length then
        ∃ found p', (searchPaginated env polls args size).run (s, controls) =
          .error (.notUnique found) p'
      else if entries ≠ [] ∧ size ∣ entries.length then
        ∃ err p', err.cls = .other "VLVError" ∧
          (searchPaginated env polls args size).run (s, controls) = .error (.lib err) p'
      else ∃ results p', results.map Result.placed = placedViews entries size ∧
        (searchPaginated env polls args size).run (s, controls) = .ok results p' := by
  obtain ⟨c, hset, hcontrols', -⟩ := hcontrols.set (ω := ω) args
    (serverSideSorting args.sorting)
  obtain ⟨n, hviews⟩ := views_answered hconn hattempts server hsize hnames (entries.length + 1)
    (k := 0) (Nat.le_refl _) rfl hready hcontrols' (.inl ⟨rfl, rfl, rfl⟩)
  refine ⟨n, fun polls hpolls => ?_⟩
  have hrun : (searchPaginated env polls args size).run (s, controls) =
      (views env args size polls polls 1 none none none).run (s, some c) := by
    unfold searchPaginated
    rw [EStateM.run_bind, hset]
  have hoff := hviews polls polls hpolls hpolls
  unfold ViewsEnd at hoff
  simp only [Nat.zero_mul, Nat.zero_add, Nat.zero_le, and_true, List.drop_zero] at hoff
  rw [hrun]
  exact hoff

end Shared

/-! ## A directory -/

/-- How a directory answers searches. -/
inductive Service
  | plain
  | paged
  | view
  deriving DecidableEq

/-- A directory with the answer that is still to be fetched. -/
structure Desk where
  service : Service
  pending : Option (Except LdapError (List SearchMessage × List Control)) := none

/-- The cookie after a page has as many bytes as entries have been sent. -/
def nextCookie (cookie : Bytes) (size : Nat) (rest : List Entry) : Bytes :=
  if rest.length ≤ size then [] else List.replicate (cookie.length + size) 0

/-- The answer of a directory with these entries. -/
def answer (entries : List Entry) (service : Service) (op : Operation) :
    Except LdapError (List SearchMessage × List Control) :=
  let requested := fun controlType => ((op.serverctrls.getD []).filter
    (fun control => control.controlType = controlType)).map Control.value
  match service, requested pagedType, requested vlvType with
  | .paged, [.paged size cookie], _ =>
    let rest := entries.drop cookie.length
    .ok (messages (rest.take size.toNat), [simplePagedResults 0 (nextCookie cookie size.toNat rest)])
  | .view, _, [.vlv _ afterCount offset _ _] =>
    if offset ≤ max entries.length 1 then
      .ok (messages (view entries (afterCount + 1) offset),
        [⟨vlvResponseType, false, .vlvResponse entries.length none⟩])
    else .error { cls := .other "VLVError" }
  | _, _, _ => .ok (messages entries, [])

/-- A directory that answers at once. -/
def directory (entries : List Entry) : Env Desk :=
  { Env.idle Desk with
    request := fun _ op desk => .ok (some 1) { desk with pending := some (answer entries desk.service op) }
    result4 := fun _ _ all _ desk =>
      match desk.pending, all with
      | none, _ => .error (.ldap { cls := .timeout }) desk
      | some (.error err), _ => .error (.ldap err) { desk with pending := none }
      | some (.ok (msgs, ctrls)), true =>
        .ok { reply .searchResult msgs with ctrls := some ctrls } { desk with pending := none }
      | some (.ok ([], ctrls)), false =>
        .ok { reply .searchResult [] with ctrls := some ctrls } { desk with pending := none }
      | some (.ok (m :: msgs, ctrls)), false =>
        .ok (reply m.type [m]) { desk with pending := some (.ok (msgs, ctrls)) } }

/-- A synchronous connection to a directory. -/
def deskState (service : Service) : State Desk :=
  { self := { Connection.init false (py "ldap://localhost") with conn := some 0 }
    world := { service := service }, calls := [] }

theorem deskState_connected (service : Service) : (deskState service).self.conn = some 0 := rfl

theorem deskState_attempts (service : Service) :
    0 < (deskState service).self.maxConnectionAttempts := Nat.succ_pos 9

namespace Directory

variable {entries : List Entry} {slots : Slots} {o : Obj} {number : Nat} {service : Service}
  {K : Desk → Prop} {msgs : List SearchMessage} {ctrls : List Control}

/-- The reply in which `result4` returns everything. -/
def batch (msgs : List SearchMessage) (ctrls : List Control) : Response :=
  { reply .searchResult msgs with ctrls := some ctrls }

theorem delivered_batch (hsync : slots.asynchronous = false) (hK : K { service := service }) :
    DeliveredTo (directory entries) slots o number true K [batch msgs ctrls]
      { service := service, pending := some (.ok (msgs, ctrls)) } := by
  refine .next ?_ (by simp [batch, reply]) (.done hK)
  rw [Received, if_neg (by simp [hsync])]
  rfl

theorem delivered_singly (hsync : slots.asynchronous = false) (hK : K { service := service })
    (msgs : List SearchMessage) :
    DeliveredTo (directory entries) slots o number false K
      (msgs.map (fun m => reply m.type [m]) ++ [batch [] ctrls])
      { service := service, pending := some (.ok (msgs, ctrls)) } := by
  induction msgs with
  | nil =>
    refine .next ?_ (by simp [batch, reply]) (.done hK)
    rw [Received, if_neg (by simp [hsync])]
    rfl
  | cons m msgs ih =>
    refine .next ?_ (by simp [reply]) ih
    rw [Received, if_neg (by simp [hsync])]
    rfl

theorem singly (msgs : List SearchMessage) (ctrls : List Control) :
    Singly msgs (msgs.map (fun m => reply m.type [m]) ++ [batch [] ctrls]) := by
  induction msgs with
  | nil => exact .done rfl rfl
  | cons m msgs ih => exact .message rfl rfl ih

/-- The pages a list is cut into. -/
inductive Cut (size : Nat) : List Entry → List (List Entry) → Prop
  | last {l : List Entry} : l.length ≤ size → Cut size l [l]
  | more {l : List Entry} {pages : List (List Entry)} : size < l.length →
      Cut size (l.drop size) pages → Cut size l (l.take size :: pages)

theorem Cut.ne_nil {size : Nat} {l : List Entry} {pages : List (List Entry)} (h : Cut size l pages) :
    pages ≠ [] := by
  cases h with
  | last _ => exact List.cons_ne_nil _ _
  | more _ _ => exact List.cons_ne_nil _ _

theorem Cut.flatten {size : Nat} {l : List Entry} {pages : List (List Entry)} (h : Cut size l pages) :
    pages.flatten = l := by
  induction h with
  | last _ => simp
  | more _ _ ih => rw [List.flatten_cons, ih, List.take_append_drop]

theorem Cut.bounded {size : Nat} {l : List Entry} {pages : List (List Entry)} (h : Cut size l pages) :
    ∀ page ∈ pages, page.length ≤ size := by
  induction h with
  | last hlength =>
    intro page hpage
    rw [List.mem_singleton.mp hpage]
    exact hlength
  | more _ _ ih =>
    intro page hpage
    rcases List.mem_cons.mp hpage with rfl | hpage
    · exact List.length_take_le size _
    · exact ih page hpage

/-- The directory as a server for simple paged results. -/
def pagedServer (entries : List Entry) (slots : Slots) (hsync : slots.asynchronous = false) (o : Obj)
    (args : SearchArgs) {size : Nat} (hsize : 0 < size) :
    PagedServer (directory entries) slots o args size where
  ready := fun cookie pages desk => desk.service = .paged ∧
    (pages = [] ∨ Cut size (entries.drop cookie.length) pages)
  answers := by
    rintro cookie page pages ⟨service, pending⟩ op ⟨hservice, hpages⟩ - ⟨server, hserver, hfilter⟩
    obtain rfl : service = .paged := hservice
    have hcut := hpages.resolve_left (List.cons_ne_nil _ _)
    have hanswer : answer entries .paged op =
        .ok (messages ((entries.drop cookie.length).take size),
          [simplePagedResults 0 (nextCookie cookie size (entries.drop cookie.length))]) := by
      unfold answer
      rw [hserver, Option.getD_some]
      rw [show (simplePagedResults size cookie true).controlType = pagedType from rfl] at hfilter
      simp only [hfilter]
      rfl
    have hsent : ((directory entries).request o op).run ⟨.paged, pending⟩ =
        .ok (some 1) ⟨.paged, some (answer entries .paged op)⟩ := rfl
    rw [hanswer] at hsent
    have hnext : ∃ cookie', cookie' = nextCookie cookie size (entries.drop cookie.length) ∧
        (cookie' = [] ↔ pages = []) ∧ page = (entries.drop cookie.length).take size ∧
        (pages = [] ∨ Cut size (entries.drop cookie'.length) pages) := by
      cases hcut with
      | last hlength =>
        exact ⟨[], (if_pos hlength).symm, by simp, (List.take_of_length_le hlength).symm, .inl rfl⟩
      | more hlength hrest =>
        refine ⟨List.replicate (cookie.length + size) 0, (if_neg (by omega)).symm, ?_, rfl, .inr ?_⟩
        · have hne : pages ≠ [] := by
            rintro rfl
            cases hrest
          simp only [List.replicate_eq_nil_iff]
          exact ⟨fun h => by omega, fun h => absurd h hne⟩
        · rw [List.length_replicate, ← List.drop_drop]
          exact hrest
    obtain ⟨cookie', hcookie, hempty, rfl, hready⟩ := hnext
    rw [← hcookie] at hsent
    refine ⟨1, _, _, batch [] [simplePagedResults 0 cookie'], simplePagedResults 0 cookie', 0, cookie',
      hsent, singly _ _, ?_, rfl, rfl, hempty, delivered_singly hsync ⟨rfl, hready⟩ _⟩
    rw [List.getLast?_append]
    rfl

/-- The directory as a server for virtual list views. -/
def viewServer (entries : List Entry) (slots : Slots) (hsync : slots.asynchronous = false) (o : Obj)
    (args : SearchArgs) (pageSize : Int) :
    ViewServer (directory entries) slots o args pageSize entries where
  ready := fun contextId desk => desk.service = .view ∧ contextId = none
  answers := by
    rintro contextId offset ⟨service, pending⟩ op ⟨hservice, rfl⟩ -
      ⟨server, hserver, hfilter⟩ - hoffset
    obtain rfl : service = .view := hservice
    have hanswer : answer entries .view op = .ok (messages (view entries pageSize offset),
        [⟨vlvResponseType, false, .vlvResponse entries.length none⟩]) := by
      unfold answer
      rw [hserver, Option.getD_some]
      rw [show (virtualListView 0 (pageSize - 1) offset 0 none true).controlType = vlvType from rfl]
        at hfilter
      simp only [hfilter]
      show (if offset ≤ ((max entries.length 1 : Nat) : Int) then _ else _) = _
      rw [if_pos (by omega), Int.sub_add_cancel]
    have hsent : ((directory entries).request o op).run ⟨.view, pending⟩ =
        .ok (some 1) ⟨.view, some (answer entries .view op)⟩ := rfl
    rw [hanswer] at hsent
    exact ⟨1, _, _, ⟨vlvResponseType, false, .vlvResponse entries.length none⟩, none, hsent, rfl, rfl,
      rfl, rfl, delivered_batch hsync ⟨rfl, rfl⟩⟩
  refuses := by
    rintro contextId offset ⟨service, pending⟩ op ⟨hservice, rfl⟩ - ⟨server, hserver, hfilter⟩ hne
      hoffset
    obtain rfl : service = .view := hservice
    have hanswer : answer entries .view op = .error { cls := .other "VLVError" } := by
      unfold answer
      rw [hserver, Option.getD_some]
      rw [show (virtualListView 0 (pageSize - 1) offset 0 none true).controlType = vlvType from rfl]
        at hfilter
      simp only [hfilter]
      have hpos : 0 < entries.length := List.length_pos_iff.mpr hne
      show (if offset ≤ ((max entries.length 1 : Nat) : Int) then _ else _) = _
      rw [if_neg (by omega)]
    have hsent : ((directory entries).request o op).run ⟨.view, pending⟩ =
        .ok (some 1) ⟨.view, some (answer entries .view op)⟩ := rfl
    rw [hanswer] at hsent
    refine ⟨1, _, { cls := .other "VLVError" }, ⟨.view, none⟩, hsent, rfl, ?_⟩
    rw [Refused, if_neg (by simp [hsync])]
    rfl

end Directory

end FreeIam.Ldap
