import FreeIam.Ldap.Connection.Search

/-!
# Paged searches

`Controls.append_server`, `Controls.set_server` and `Result.set_controls` update
the `Controls` object that the caller has passed. The searches are programs here
on the state together with that object; the one in their arguments is not read.
A generator runs to its end, and the results are those it has yielded.
-/

namespace FreeIam.Ldap

open FreeIam.Py FreeIam.Errors FreeIam.Exec

/-- A program on the caller's `Controls` object, too. -/
abbrev Shared (ω α : Type) := EStateM PyExc (State ω × Option Controls) α

namespace Shared

variable {ω α : Type} (env : Env ω)

/-- A method that does not touch the object. -/
def lift (m : Method ω α) : Shared ω α := zoom Prod.fst (fun s p => (s, p.2)) m

/-- `controls = Controls.set_server(controls, …)`, or `append_server`. -/
def update (f : Option Controls → Option Controls) : Shared ω Unit := fun p =>
  match f p.2 with
  | some controls => .ok () (p.1, some controls)
  | none => .error .assertionError p

/-- `Result.set_controls(response, controls)` -/
def setControls (response : Response) : Shared ω Unit :=
  modify fun p => (p.1, Result.setControls response p.2)

/-- The handler of a search. -/
def searchedFor (args : SearchArgs) (m : Shared ω α) : Shared ω α :=
  tryCatch m fun e => lift (Method.searchedFor env args (throw e))

/-- `if sorting: controls = Controls.set_server(controls, server_side_sorting(*sorting))` -/
def setSorting (args : SearchArgs) (criticality : Bool) : Shared ω Unit :=
  onlyIf (args.sorting.isEmpty = false)
    (update fun controls => Controls.setServer controls (serverSideSorting args.sorting criticality))

/-! ## search and search_iter -/

/-- `Connection.search` -/
def search (polls : Nat) (args : SearchArgs) : Shared ω (List Result) := do
  let o ← lift Method.conn
  setSorting args false
  searchedFor env args do
    let p ← get
    let response ← lift (Method.execute env polls o (args.operation p.1.self.timeout p.2))
    setControls response
    let p ← get
    let results ← lift (Method.responseResults env p.2 response)
    onlyIf (args.unique ∧ 1 < results.length) (throw (.notUnique results))
    pure results

/-- The loop of `search_iter` over the responses of `_poll`. -/
def responses (args : SearchArgs) (o : Obj) (msgid : MsgId) (polls : Nat) :
    Nat → List Result → Shared ω (List Result)
  | 0, _ => throw .polling
  | rounds + 1, allResults => do
    match ← lift (Method.poll env o msgid false polls) with
    | none => pure allResults
    | some response =>
      setControls response
      let p ← get
      let results ← lift (Method.responseResults env p.2 response)
      let allResults := allResults ++ results
      onlyIf (args.unique ∧ 1 < allResults.length) (throw (.notUnique allResults))
      if Method.goesOn response then responses args o msgid polls rounds allResults
      else pure allResults

/-- `Connection.search_iter` -/
def searchIter (polls : Nat) (args : SearchArgs) : Shared ω (List Result) := do
  let o ← lift Method.conn
  setSorting args true
  searchedFor env args do
    let p ← get
    match ← lift (Method.retry env (Method.request env o (args.operation p.1.self.timeout p.2))) with
    | none => pure []
    | some msgid => responses env args o msgid polls polls []

/-! ## search_paged -/

/-- The results of a page, numbered from one. -/
def onPage (page pageSize : Int) (length lastPage : Option Int) (results : List Result) :
    List Result :=
  results.mapIdx fun i result =>
    { result with page := some { page := page, entry := i + 1, pageSize := pageSize
                                 results := length, lastPage := lastPage } }

/-- The arguments that `search_paged` and `search_paginated` pass on: the sorting
control is in the controls already. -/
def pageArgs (args : SearchArgs) : SearchArgs := { args with sorting := [], attrsonly := false }

/-- `pagination.cookie = …`: the control is an object in the list, the last one or
the last but the sorting control. -/
def assignCookie (sorted : Bool) (pagination : Control) (controls : Controls) : Controls :=
  { controls with
    server := controls.server.map fun server =>
      server.set (server.length - (if sorted then 2 else 1)) pagination }

/-- The `cookie` of a response control. -/
def cookie (control : Control) : Except PyExc Bytes :=
  match control.value with
  | .paged _ cookie => .ok cookie
  | _ => .error (.attributeError "cookie")

/-- `controls.get(…)`: the response control of a type. -/
def responseControl (controls : Option Controls) (controlType : String) : Option Control :=
  controls.bind fun controls => controls.get controlType

/-- The loop of `search_paged`, from a page on. -/
def pages (args : SearchArgs) (pageSize : Int) (polls : Nat) : Nat → Int → Shared ω (List Result)
  | 0, _ => throw .polling
  | rounds + 1, page => do
    let results ← searchIter env polls (pageArgs args)
    let yielded := onPage page pageSize none none results
    if results.isEmpty then pure yielded
    else
      let p ← get
      match responseControl p.2 pagedType with
      | none => pure yielded
      | some control =>
        let cookie ← lift (ofExcept (cookie control))
        modify fun p => (p.1, p.2.map
          (assignCookie (!args.sorting.isEmpty) (simplePagedResults pageSize cookie true)))
        if cookie.isEmpty then pure yielded
        else (yielded ++ ·) <$> pages args pageSize polls rounds (page + 1)

/-- `Connection.search_paged` -/
def searchPaged (polls : Nat) (args : SearchArgs) (pageSize : Int) : Shared ω (List Result) := do
  update fun controls => Controls.appendServer controls (simplePagedResults pageSize [] true)
  setSorting args false
  pages env args pageSize polls polls 1

/-! ## search_paginated -/

/-- `math.ceil(length / (page_size or length))`, with an exact quotient: the float's
rounds up to the same integer for every length below 2 ^ 53. -/
def lastPage (length pageSize : Int) : Except PyExc Int :=
  let divisor := if pageSize = 0 then length else pageSize
  if divisor = 0 then .error (.raised "ZeroDivisionError") else .ok (-((-length).fdiv divisor))

/-- `contentCount` and `context_id` of the response control of the list view. -/
def listView (controls : Option Controls) : Except PyExc (Int × Option Bytes) :=
  match responseControl controls vlvResponseType with
  | none => .error (.attributeError "contentCount")
  | some control =>
    match control.value with
    | .vlvResponse contentCount contextId => .ok (contentCount, contextId)
    | _ => .error (.attributeError "contentCount")

/-- `length` and `last_page` for the entries of a page: once computed, they stay. -/
def lengths (controls : Option Controls) (pageSize : Int) (length last : Option Int) :
    Except PyExc (Option Int × Option Int) :=
  match last with
  | some last => .ok (length, some last)
  | none => do
    let vlv ← listView controls
    let last ← lastPage vlv.1 pageSize
    pure (some vlv.1, some last)

/-- The loop of `search_paginated`, from a page on. -/
def views (args : SearchArgs) (pageSize : Int) (polls : Nat) :
    Nat → Int → Option Bytes → Option Int → Option Int → Shared ω (List Result)
  | 0, _, _, _, _ => throw .polling
  | rounds + 1, page, contextId, length, last => do
    let offset := (page - 1) * pageSize
    update fun controls => Controls.setServer controls
      (virtualListView 0 (pageSize - 1) (offset + 1) 0 contextId true)
    if length.any (· < offset) then pure []
    else
      let results ← search env polls (pageArgs args)
      if results.isEmpty then pure []
      else
        let p ← get
        let (length, last) ← lift (ofExcept (lengths p.2 pageSize length last))
        let vlv ← lift (ofExcept (listView p.2))
        (onPage page pageSize length last results ++ ·) <$>
          views args pageSize polls rounds (page + 1) vlv.2 (some vlv.1) last

/-- `Connection.search_paginated` -/
def searchPaginated (polls : Nat) (args : SearchArgs) (pageSize : Int) : Shared ω (List Result) := do
  update fun controls => Controls.setServer controls (serverSideSorting args.sorting)
  views env args pageSize polls polls 1 none none none

end Shared

/-! ## The controls that a search places -/

/-- The sorting control of a search, where it has sorting rules. -/
def sortingControls (args : SearchArgs) (criticality : Bool) : List Control :=
  if args.sorting.isEmpty then [] else [serverSideSorting args.sorting criticality]

/-- The controls of a paged search while it has a cookie. -/
abbrev pagedControls (args : SearchArgs) (pageSize : Int) (cookie : Bytes) : List Control :=
  simplePagedResults pageSize cookie true :: sortingControls args false

/-- The assignment of the cookie finds the paging control where it was appended. -/
theorem set_pagedControls (args : SearchArgs) (pageSize : Int) (cookie cookie' : Bytes)
    (pre : List Control) :
    (pre ++ pagedControls args pageSize cookie).set
      ((pre ++ pagedControls args pageSize cookie).length -
        (if (!args.sorting.isEmpty) = true then 2 else 1)) (simplePagedResults pageSize cookie' true) =
    pre ++ pagedControls args pageSize cookie' := by
  have hindex : (pre ++ pagedControls args pageSize cookie).length -
      (if (!args.sorting.isEmpty) = true then 2 else 1) = pre.length := by
    unfold pagedControls sortingControls
    cases args.sorting.isEmpty <;> simp
  rw [hindex, List.set_append_right _ _ (Nat.le_refl _), Nat.sub_self]
  rfl

end FreeIam.Ldap
