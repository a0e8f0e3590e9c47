import FreeIam.Ldap.Connection.Delivery

/-!
# Which searches return every entry

A server answers a search with entries and references in any interleaving.
`search` returns, and `search_iter` yields, exactly the entries where there is no
reference among them, and only then: the batched reply has a pair for every
reference too, and the polling loop ends with the first reference it yields.
-/

namespace FreeIam.Ldap

open FreeIam.Py FreeIam.Errors FreeIam.Exec FreeIam.Ldap.Method

/-! ## What a server sends -/

/-- A response to a search before its `SearchResultDone`. -/
inductive SearchMessage
  | entry (dn : PyStr) (attributes : List (PyStr × List Bytes))
  | reference (urls : List PyStr)

namespace SearchMessage

def isReference : SearchMessage → Bool
  | .entry _ _ => false
  | .reference _ => true

/-- The type that `result4` reports for the message. -/
def type : SearchMessage → ResponseType
  | .entry _ _ => .searchEntry
  | .reference _ => .searchReference

/-- The pair that `result4` delivers the message as. -/
def datum : SearchMessage → Datum
  | .entry dn attributes => (some dn, .entry attributes)
  | .reference urls => (none, .urls urls)

/-- An entry, by its name and attributes. -/
def entry? : SearchMessage → Option (PyStr × List (PyStr × List Bytes))
  | .entry dn attributes => some (dn, attributes)
  | .reference _ => none

end SearchMessage

/-- The entries of a sequence of messages. -/
def entries (msgs : List SearchMessage) : List (PyStr × List (PyStr × List Bytes)) :=
  msgs.filterMap SearchMessage.entry?

/-- With `all=1` the messages come in one reply. -/
def Batched (msgs : List SearchMessage) (rs : List Response) : Prop :=
  ∃ r : Response, rs = [r] ∧ r.type = some .searchResult ∧ r.data = some (msgs.map SearchMessage.datum)

/-- With `all=0` they come one by one, and the `SearchResultDone` after them. -/
inductive Singly : List SearchMessage → List Response → Prop
  | done {r : Response} : r.type = some .searchResult → r.data = some [] → Singly [] [r]
  | message {m : SearchMessage} {msgs : List SearchMessage} {r : Response} {rs : List Response} :
      r.type = some m.type → r.data = some [m.datum] → Singly msgs rs → Singly (m :: msgs) (r :: rs)

/-! ## What the caller gets -/

/-- The attributes of a result, where every value is a list of values. -/
def attributeValues : List (PyStr × AttributeValue) → Option (List (PyStr × List Bytes))
  | [] => some []
  | (name, .values values) :: items => (attributeValues items).map ((name, values) :: ·)
  | (_, .text _) :: _ => none

/-- A result read as an entry: its name and attributes. -/
def Result.entry? (r : Result) : Option (PyStr × List (PyStr × List Bytes)) :=
  match r.dn, r.attr with
  | some dn, some attr => (attributeValues attr.items).map fun attributes => (dn.dn, attributes)
  | _, _ => none

/-- The results are exactly the entries, each once and in the order sent. -/
def AreEntries (msgs : List SearchMessage) (results : List Result) : Prop :=
  results.map Result.entry? = (entries msgs).map some

/-- Given rounds enough, the program returns a value with `Q`. -/
def Returns {ω α : Type} (program : Nat → Method ω α) (s : State ω) (Q : α → Prop) : Prop :=
  ∃ n, ∀ polls, n ≤ polls → ∃ a s', (program polls).run s = .ok a s' ∧ Q a

section

variable {ω : Type} (env : Env ω)

/-- The names of the entries are names: `DN` accepts them. -/
def ValidNames (msgs : List SearchMessage) : Prop :=
  ∀ dn attributes, .entry dn attributes ∈ msgs → ∃ d, DN.init env dn = .ok d

/-- A connection whose search `result4` answers with responses as described: it
is connected, its search controls can be set, python-ldap takes the request and
delivers the responses. -/
structure Served (args : SearchArgs) (all criticality : Bool) (s : State ω)
    (responses : List Response → Prop) where
  o : Obj
  controls : Option Controls
  number : Nat
  world : ω
  received : List Response
  connected : s.self.conn = some o
  attempts : 0 < s.self.maxConnectionAttempts
  controlled : args.searchControls criticality = .ok controls
  sent : (env.request o (args.operation s.self.timeout controls)).run s.world = .ok (some number) world
  delivered : Delivered env s.self.toSlots o number all received world
  described : responses received

end

variable {ω : Type} {env : Env ω}

/-! ## Wrapping a response -/

theorem attributeValues_entry (attributes : List (PyStr × List Bytes)) :
    attributeValues (attributes.map fun item => (item.1, .values item.2)) = some attributes := by
  induction attributes with
  | nil => rfl
  | cons item items ih =>
    rw [List.map_cons, attributeValues, ih]
    rfl

/-- `DN` keeps the text it was made from. -/
theorem DN.init_dn {dn : PyStr} {d : DN} (h : DN.init env dn = .ok d) : d.dn = dn := by
  unfold DN.init at h
  split at h
  · cases h
    rfl
  · split at h
    · split at h
      · cases h
        rfl
      · split at h <;> cases h
    · cases h

/-- The result of an entry is read back as that entry. -/
theorem Result.fromResponse_entry {dn : PyStr} (attributes : List (PyStr × List Bytes))
    (controls : Option Controls) (response : Response) {d : DN} (hd : DN.init env dn = .ok d) :
    ∃ result, Result.fromResponse env (some dn) (some (.entry attributes)) controls response = .ok result ∧
      result.entry? = some (dn, attributes) := by
  refine ⟨{ dn := some d, attr := some ⟨attributes.map fun item => (item.1, .values item.2)⟩
            controls := Result.controlResponse controls response.ctrls, response := response }, ?_, ?_⟩
  · unfold Result.fromResponse
    simp only [Option.mapM_some, hd]
    rfl
  · unfold Result.entry?
    simp only [attributeValues_entry, DN.init_dn hd, Option.map_some]

@[simp] theorem Result.listFromResponse_nil (controls : Option Controls) (response : Response) :
    Result.listFromResponse env controls response [] = .ok [] := rfl

/-- As many results as pairs. -/
theorem Result.listFromResponse_length {controls : Option Controls} {response : Response}
    {data : List Datum} {results : List Result}
    (h : Result.listFromResponse env controls response data = .ok results) :
    results.length = data.length := by
  unfold Result.listFromResponse at h
  induction data generalizing results with
  | nil =>
    rw [List.mapM_nil] at h
    cases h
    rfl
  | cons datum data ih =>
    rw [List.mapM_cons] at h
    cases hr : Result.fromResponse env datum.1 (some datum.2) controls response with
    | error e =>
      rw [hr] at h
      cases h
    | ok r =>
      rw [hr] at h
      cases hrs : data.mapM (m := Except PyExc) fun datum =>
          Result.fromResponse env datum.1 (some datum.2) controls response with
      | error e =>
        simp only [hrs] at h
        cases h
      | ok rs =>
        simp only [hrs] at h
        cases h
        rw [List.length_cons, List.length_cons, ih hrs]

/-- Where all messages are entries, their pairs wrap to results that are the entries. -/
theorem Result.listFromResponse_entries (controls : Option Controls) (response : Response)
    {msgs : List SearchMessage} (hnames : ValidNames env msgs)
    (hmsgs : ∀ m ∈ msgs, m.isReference = false) :
    ∃ results, Result.listFromResponse env controls response (msgs.map SearchMessage.datum) =
      .ok results ∧ AreEntries msgs results := by
  unfold Result.listFromResponse
  induction msgs with
  | nil => exact ⟨[], rfl, rfl⟩
  | cons m msgs ih =>
    obtain ⟨results, hrun, hall⟩ := ih
      (fun dn attributes hmem => hnames dn attributes (List.mem_cons_of_mem m hmem))
      (fun m' hmem => hmsgs m' (List.mem_cons_of_mem m hmem))
    cases m with
    | reference urls => cases hmsgs (.reference urls) (by simp)
    | entry dn attributes =>
      obtain ⟨d, hd⟩ := hnames dn attributes (by simp)
      obtain ⟨result, hresult, hentry⟩ :=
        Result.fromResponse_entry attributes controls response hd
      refine ⟨result :: results, ?_, ?_⟩
      · rw [List.map_cons, List.mapM_cons]
        simp only [SearchMessage.datum, hresult, hrun]
        rfl
      · unfold AreEntries entries at hall ⊢
        rw [List.map_cons, hentry, hall]
        rfl

/-- With a reference among the messages there are fewer entries than messages. -/
theorem entries_length_lt {msgs : List SearchMessage} {m : SearchMessage} (hm : m ∈ msgs)
    (href : m.isReference = true) : (entries msgs).length < msgs.length := by
  unfold entries
  refine lt_of_le_of_ne (List.length_filterMap_le _ _) fun heq => ?_
  rw [List.filterMap_length_eq_length] at heq
  have hsome := heq m hm
  cases m with
  | entry dn attributes => cases href
  | reference urls => cases hsome

/-! ## search -/

/-- A handler does not see what ran before a program it handles. -/
theorem searchedFor_bind {α β : Type} {args : SearchArgs} {m : Method ω α} {k : α → Method ω β}
    {s s' : State ω} {a : α} (h : m.run s = .ok a s') :
    (searchedFor env args (m >>= k)).run s = (searchedFor env args (k a)).run s' := by
  unfold searchedFor
  rw [run_tryCatch, run_tryCatch, EStateM.run_bind, h]

/-- `search` wraps the pairs of the batched reply. -/
theorem search_run {args : SearchArgs} (hunique : args.unique = false) {msgs : List SearchMessage}
    {s : State ω} (hs : Served env args true false s (Batched msgs)) :
    ∃ n r s', ∀ polls, n ≤ polls → (search env polls args).run s =
      (searchedFor env args (ofExcept (Result.listFromResponse env
        (Result.setControls r hs.controls) r (msgs.map SearchMessage.datum)))).run s' := by
  obtain ⟨r, hrs, htype, hdata⟩ := hs.described
  have hdel := hs.delivered.to
  rw [hrs] at hdel
  have hlast : goesOn r = false := by simp [goesOn, htype]
  obtain ⟨n, w', log, -, -, hexec⟩ := execute_delivered hs.attempts hs.sent hdel hlast
  refine ⟨n, r, ⟨s.self, w', s.calls ++ log⟩, ?_⟩
  intro polls hpolls
  unfold search
  simp only [EStateM.run_bind, conn_ok hs.connected, hs.controlled, ofExcept_ok]
  rw [searchedFor_bind (EStateM.run_get s), searchedFor_bind (hexec polls hpolls)]
  -- what is left wraps the pairs, and the uniqueness check lets them through
  unfold searchedFor
  rw [run_tryCatch, run_tryCatch, EStateM.run_bind]
  unfold responseResults
  simp only [hdata]
  cases hlist : Result.listFromResponse env (Result.setControls r hs.controls) r
      (msgs.map SearchMessage.datum) with
  | ok results => simp [hunique]
  | error e => simp

/-- Where all messages are entries, `search` returns them. -/
theorem search_returns {args : SearchArgs} (hunique : args.unique = false)
    {msgs : List SearchMessage} (hnames : ValidNames env msgs) {s : State ω}
    (hs : Served env args true false s (Batched msgs)) (hmsgs : ∀ m ∈ msgs, m.isReference = false) :
    Returns (fun polls => search env polls args) s (AreEntries msgs) := by
  obtain ⟨n, r, s', hrun⟩ := search_run hunique hs
  obtain ⟨results, hlist, hall⟩ :=
    Result.listFromResponse_entries (Result.setControls r hs.controls) r hnames hmsgs
  refine ⟨n, fun polls hpolls => ⟨results, s', ?_, hall⟩⟩
  show (search env polls args).run s = _
  rw [hrun polls hpolls, hlist]
  exact searchedFor_ok (ofExcept_ok results s')

/-- Where `search` returns exactly the entries, no message is a reference: there
is a result for every message. -/
theorem no_reference_of_search {args : SearchArgs} (hunique : args.unique = false)
    {msgs : List SearchMessage} {s : State ω} (hs : Served env args true false s (Batched msgs))
    (h : Returns (fun polls => search env polls args) s (AreEntries msgs)) :
    ∀ m ∈ msgs, m.isReference = false := by
  obtain ⟨n, r, s', hrun⟩ := search_run hunique hs
  obtain ⟨n', hreturn⟩ := h
  obtain ⟨results, s'', hok, hall⟩ := hreturn (max n n') (Nat.le_max_right n n')
  rw [show (search env (max n n') args).run s = _ from hrun _ (Nat.le_max_left n n')] at hok
  have hlist : Result.listFromResponse env (Result.setControls r hs.controls) r
      (msgs.map SearchMessage.datum) = .ok results := by
    cases hlist : Result.listFromResponse env (Result.setControls r hs.controls) r
        (msgs.map SearchMessage.datum) with
    | ok results' =>
      rw [hlist, searchedFor_ok (ofExcept_ok results' s')] at hok
      cases hok
      rfl
    | error e =>
      exfalso
      rw [hlist] at hok
      unfold searchedFor at hok
      rw [run_tryCatch, ofExcept_error] at hok
      -- the handler raises again, whatever the error
      cases e with
      | lib err =>
        simp only at hok
        split at hok
        · rw [EStateM.run_bind] at hok
          cases hbase : DN.init env args.base with
          | ok d =>
            rw [hbase, ofExcept_ok] at hok
            cases hok
          | error e' =>
            rw [hbase, ofExcept_error] at hok
            cases hok
        · cases hok
      | _ => cases hok
  have hlen := Result.listFromResponse_length hlist
  rw [List.length_map] at hlen
  have hlen' := congrArg List.length hall
  rw [List.length_map, List.length_map] at hlen'
  intro m hm
  cases href : m.isReference with
  | false => rfl
  | true =>
    have := entries_length_lt hm href
    omega

/-! ## search_iter -/

/-- The generator goes on after an entry, and has ended after the last response. -/
theorem consume_loop {args : SearchArgs} (hunique : args.unique = false)
    {msgs : List SearchMessage} (hnames : ValidNames env msgs)
    (hmsgs : ∀ m ∈ msgs, m.isReference = false) {rs : List Response} (hrs : Singly msgs rs)
    {o : Obj} (msgid : MsgId) {K : ω → Prop} :
    ∀ {s : State ω} {controls : Option Controls} {allResults : List Result},
      0 < s.self.maxConnectionAttempts →
      DeliveredTo env s.self.toSlots o msgid.number false K rs s.world →
      ∃ n, ∀ polls steps, n ≤ polls → n ≤ steps → ∃ results s',
        (searchedFor env args (searchLoop env args o msgid polls controls allResults) >>=
          collect (consume env polls steps)).run s = .ok results s' ∧ AreEntries msgs results := by
  induction hrs with
  | @done r htype hdata =>
    intro s controls allResults hattempts hdel
    obtain ⟨n, w', log, -, -, hpoll⟩ := poll_delivered msgid hattempts hdel
    refine ⟨n + 1, fun polls steps hpolls hsteps => ⟨[], ⟨s.self, w', s.calls ++ log⟩, ?_, rfl⟩⟩
    obtain ⟨p, rfl⟩ : ∃ p, polls = p + 1 := ⟨polls - 1, by omega⟩
    -- the last reply has no pairs, and the loop ends after it
    have hloop : (searchLoop env args o msgid (p + 1) controls allResults).run s =
        .ok (none, .finished) ⟨s.self, w', s.calls ++ log⟩ := by
      rw [searchLoop, EStateM.run_bind, hpoll (p + 1) (by omega)]
      unfold responseResults
      simp [hdata, hunique, goesOn, htype]
    rw [EStateM.run_bind, searchedFor_ok hloop]
    rfl
  | @message m msgs r rs htype hdata hrest ih =>
    intro s controls allResults hattempts hdel
    obtain ⟨n, w', log, -, hdel', hpoll⟩ := poll_delivered msgid hattempts hdel
    have hname : ValidNames env [m] := fun dn attributes hmem =>
      hnames dn attributes (by simp at hmem; simp [hmem])
    obtain ⟨results, hlist, hall⟩ := Result.listFromResponse_entries (Result.setControls r controls) r hname
      (fun m' hmem => hmsgs m' (by simp at hmem; simp [hmem]))
    have hentry : m.isReference = false := hmsgs m (by simp)
    cases m with
    | reference urls => cases hentry
    | entry dn attributes =>
      -- the reply of an entry wraps to one result
      have hone : ∃ result : Result, results = [result] ∧ result.entry? = some (dn, attributes) := by
        unfold AreEntries entries at hall
        cases results with
        | nil => cases hall
        | cons result results =>
          obtain ⟨hhead, htail⟩ := List.cons.inj hall
          exact ⟨result, by rw [List.map_eq_nil_iff.mp htail], hhead⟩
      obtain ⟨result, rfl, hresult⟩ := hone
      obtain ⟨n', hmore⟩ := ih
        (fun dn attributes hmem => hnames dn attributes (List.mem_cons_of_mem _ hmem))
        (fun m' hmem => hmsgs m' (List.mem_cons_of_mem _ hmem))
        (s := ⟨s.self, w', s.calls ++ log⟩) hattempts hdel'
      refine ⟨max n n' + 1, fun polls steps hpolls hsteps => ?_⟩
      obtain ⟨p, rfl⟩ : ∃ p, polls = p + 1 := ⟨polls - 1, by omega⟩
      obtain ⟨k, rfl⟩ : ∃ k, steps = k + 1 := ⟨steps - 1, by omega⟩
      have hloop : (searchLoop env args o msgid (p + 1) controls allResults).run s =
          .ok (some result, .suspended args (Result.setControls r controls) o msgid r []
            (allResults ++ [result])) ⟨s.self, w', s.calls ++ log⟩ := by
        rw [searchLoop, EStateM.run_bind, hpoll (p + 1) (by omega)]
        unfold responseResults
        rw [List.map_cons, List.map_nil] at hlist
        simp [hdata, hlist, hunique]
      -- resumed after the last of its results, the generator polls again
      have hnext : next env (p + 1) (.suspended args (Result.setControls r controls) o msgid r []
            (allResults ++ [result])) =
          searchedFor env args (searchLoop env args o msgid (p + 1) (Result.setControls r controls)
            (allResults ++ [result])) := by
        simp [next, goesOn, htype, SearchMessage.type]
      obtain ⟨rest, s', hrun, hentries⟩ := hmore (p + 1) k (by omega) (by omega)
      refine ⟨result :: rest, s', ?_, ?_⟩
      · rw [EStateM.run_bind, searchedFor_ok hloop]
        simp only [collect, run_map]
        rw [consume, hnext, hrun]
      · unfold AreEntries entries at hentries ⊢
        rw [List.map_cons, hresult, hentries]
        rfl

/-- Where all messages are entries, `search_iter` yields them. -/
theorem searchIter_returns {args : SearchArgs} (hunique : args.unique = false)
    {msgs : List SearchMessage} (hnames : ValidNames env msgs) {s : State ω}
    (hs : Served env args false true s (Singly msgs)) (hmsgs : ∀ m ∈ msgs, m.isReference = false) :
    Returns (fun n => consume env n n (.created args)) s (AreEntries msgs) := by
  have hsend := retry_ok env hs.attempts (request_ok hs.sent)
  obtain ⟨n, hloop⟩ := consume_loop hunique hnames hmsgs hs.described
    ⟨hs.number, s.calls.length⟩
    (s := { s with world := hs.world, calls := s.calls ++ [.request hs.o _ (.ok (some hs.number)) hs.world] })
    hs.attempts hs.delivered.to
  refine ⟨n + 1, fun polls hpolls => ?_⟩
  obtain ⟨p, rfl⟩ : ∃ p, polls = p + 1 := ⟨polls - 1, by omega⟩
  obtain ⟨results, s', hrun, hall⟩ := hloop (p + 1) p (by omega) (by omega)
  refine ⟨results, s', ?_, hall⟩
  show (consume env (p + 1) (p + 1) (.created args)).run s = _
  rw [consume, EStateM.run_bind, next]
  simp only [EStateM.run_bind, conn_ok hs.connected, hs.controlled, ofExcept_ok]
  rw [searchedFor_bind (EStateM.run_get s), searchedFor_bind hsend]
  exact hrun

/-! ## The condition -/

/-- `search` returns, and `search_iter` yields, exactly the entries of what the
server sends if and only if it sends no reference. -/
theorem searches_complete_iff (args : SearchArgs) (hunique : args.unique = false)
    (msgs : List SearchMessage) (hnames : ValidNames env msgs) {s t : State ω}
    (hs : Served env args true false s (Batched msgs))
    (ht : Served env args false true t (Singly msgs)) :
    (Returns (fun polls => search env polls args) s (AreEntries msgs) ∧
        Returns (fun n => consume env n n (.created args)) t (AreEntries msgs)) ↔
      ∀ m ∈ msgs, m.isReference = false := by
  constructor
  · rintro ⟨hsearch, -⟩
    exact no_reference_of_search hunique hs hsearch
  · intro hmsgs
    exact ⟨search_returns hunique hnames hs hmsgs, searchIter_returns hunique hnames ht hmsgs⟩

/-! ### Two servers -/

/-- A server whose responses are the state: each wait takes the next one. -/
def scripted : Env (List Response) :=
  { Env.idle (List Response) with
    result4 := fun _ _ _ _ responses =>
      match responses with
      | response :: responses => .ok response responses
      | [] => .error (.ldap { cls := .timeout }) [] }

/-- A connected synchronous connection to a server that sends these responses. -/
def scriptedState (responses : List Response) : State (List Response) :=
  { self := { Connection.init false (py "ldap://localhost") with conn := some 0 }, world := responses, calls := [] }

/-- The reply that `result4` makes of messages, or of one message. -/
def reply (type : ResponseType) (msgs : List SearchMessage) : Response :=
  { type := some type, data := some (msgs.map SearchMessage.datum), msgid := some 1, ctrls := some [] }

/-- The replies that a search with `all=0` receives. -/
def replies (msgs : List SearchMessage) : List Response :=
  msgs.map (fun m => reply m.type [m]) ++ [reply .searchResult []]

theorem singly_replies (msgs : List SearchMessage) : Singly msgs (replies msgs) := by
  induction msgs with
  | nil => exact Singly.done rfl rfl
  | cons m msgs ih => exact Singly.message rfl rfl ih

theorem replies_type {msgs : List SearchMessage} : ∀ r ∈ replies msgs, r.type ≠ none := by
  intro r hr
  rcases List.mem_append.mp hr with hr | hr
  · obtain ⟨m, -, rfl⟩ := List.mem_map.mp hr
    simp [reply]
  · obtain rfl := List.mem_singleton.mp hr
    simp [reply]

/-- The scripted server delivers its responses. -/
theorem delivered_scripted {self : Slots} (hsync : self.asynchronous = false) {o : Obj} {number : Nat}
    {all : Bool} {rs : List Response} (hrs : ∀ r ∈ rs, r.type ≠ none) :
    Delivered scripted self o number all rs rs := by
  induction rs with
  | nil => exact Delivered.done []
  | cons r rs ih =>
    refine Delivered.next ?_ (hrs r (by simp)) (ih fun r' hmem => hrs r' (by simp [hmem]))
    rw [Received, if_neg (by simp [hsync])]
    rfl

/-- The batched reply of the scripted server. -/
def servedBatch (msgs : List SearchMessage) :
    Served scripted {} true false (scriptedState [reply .searchResult msgs]) (Batched msgs) where
  o := 0
  controls := none
  number := 1
  world := [reply .searchResult msgs]
  received := [reply .searchResult msgs]
  connected := rfl
  attempts := Nat.succ_pos 9
  controlled := rfl
  sent := rfl
  delivered := delivered_scripted rfl (by simp [reply])
  described := ⟨_, rfl, rfl, rfl⟩

/-- The single replies of the scripted server. -/
def servedSingly (msgs : List SearchMessage) :
    Served scripted {} false true (scriptedState (replies msgs)) (Singly msgs) where
  o := 0
  controls := none
  number := 1
  world := replies msgs
  received := replies msgs
  connected := rfl
  attempts := Nat.succ_pos 9
  controlled := rfl
  sent := rfl
  delivered := delivered_scripted rfl replies_type
  described := singly_replies msgs

/-- Two entries without a reference: both searches give them. -/
theorem searches_complete_two_entries :
    let msgs := [.entry (py "cn=a") [(py "cn", [[97]])], .entry (py "cn=b") []]
    Returns (fun polls => search scripted polls {}) (scriptedState [reply .searchResult msgs])
        (AreEntries msgs) ∧
      Returns (fun n => consume scripted n n (.created {})) (scriptedState (replies msgs))
        (AreEntries msgs) :=
  (searches_complete_iff {} rfl _ (fun _ _ _ => ⟨_, rfl⟩) (servedBatch _) (servedSingly _)).mpr
    (by simp [SearchMessage.isReference])

/-- A reference before an entry: `search` does not return the entry. -/
theorem not_searches_complete :
    let msgs := [.reference [py "ldap://other/dc=b"], .entry (py "cn=a") []]
    ¬ (Returns (fun polls => search scripted polls {}) (scriptedState [reply .searchResult msgs])
          (AreEntries msgs) ∧
        Returns (fun n => consume scripted n n (.created {})) (scriptedState (replies msgs))
          (AreEntries msgs)) := by
  intro msgs h
  have := no_reference_of_search rfl (servedBatch msgs) h.1 (.reference [py "ldap://other/dc=b"])
    (by simp [msgs])
  cases this

end FreeIam.Ldap
