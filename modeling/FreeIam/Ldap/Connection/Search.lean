import FreeIam.Ldap.Connection.Execute

/-!
# Searching

`search` executes one search and wraps its batched reply; `search_iter` is a
generator that wraps one reply at a time. The generator is a value here, with
the frame it is suspended in, and `next` and `close` resume it.
-/

namespace FreeIam.Ldap

open FreeIam.Py FreeIam.Errors FreeIam.Exec

/-- The arguments of a search, with the defaults of the source. -/
structure SearchArgs where
  base : PyStr := []
  scope : Scope := .subtree
  filterExpr : PyStr := py "(objectClass=*)"
  attrs : Option (List PyStr) := none
  unique : Bool := false
  sizelimit : Option Int := none
  sorting : List SortRule := []
  controls : Option Controls := none
  attrsonly : Bool := false

namespace SearchArgs

/-- `OptionValue.NoLimit` -/
def noLimit : Int := 0

/-- The controls a search is made with: the caller's and, where there are sorting
rules, the sorting control. -/
def searchControls (args : SearchArgs) (criticality : Bool) : Except PyExc (Option Controls) :=
  if args.sorting.isEmpty then .ok args.controls
  else
    match Controls.setServer args.controls (serverSideSorting args.sorting criticality) with
    | some controls => .ok (some controls)
    | none => .error .assertionError

/-- The request of a search; `sizelimit or OptionValue.NoLimit` is the limit. -/
def operation (args : SearchArgs) (timeout : Int) (controls : Option Controls) : Operation :=
  (Request.searchExt args.base args.scope args.filterExpr args.attrs args.attrsonly timeout
    (match args.sizelimit with | some n => n | none => noLimit)).with controls

end SearchArgs

/-- A generator made by `search_iter`: not started, suspended at a `yield`, or
finished. Suspended, it holds the LDAP object and message ID it polls, the last
response, the results of that response still to be yielded, and all results. -/
inductive SearchIter
  | created (args : SearchArgs)
  | suspended (args : SearchArgs) (controls : Option Controls) (o : Obj) (msgid : MsgId)
      (response : Response) (rest : List Result) (allResults : List Result)
  | finished

namespace Method

variable {ω α : Type} (env : Env ω)

/-- The handler of a search: a `NoSuchObject` is told what was searched for. -/
def searchedFor (args : SearchArgs) (m : Method ω α) : Method ω α :=
  tryCatch m fun e =>
    match e with
    | .lib err =>
      if err.cls = .noSuchObject then do
        let baseDn ← ofExcept (DN.init env args.base)
        let searched : SearchedFor :=
          { baseDn := baseDn, filter := args.filterExpr, scope := args.scope, attrs := args.attrs }
        throw (.lib { err with searched := some searched })
      else throw e
    | e => throw e

/-- The results of a response: its data has to be there. -/
def responseResults (controls : Option Controls) (response : Response) : Method ω (List Result) :=
  match response.data with
  | none => throw .assertionError
  | some data => ofExcept (Result.listFromResponse env controls response data)

/-! ## search -/

/-- `Connection.search` -/
def search (polls : Nat) (args : SearchArgs) : Method ω (List Result) := do
  let o ← conn
  let controls ← ofExcept (args.searchControls false)
  searchedFor env args do
    let timeout := (← get).self.timeout
    let response ← execute env polls o (args.operation timeout controls)
    let controls := Result.setControls response controls
    let results ← responseResults env controls response
    onlyIf (args.unique ∧ 1 < results.length) (throw (.notUnique results))
    pure results

/-- The name that `search_dn` yields of a result. -/
def yieldedDn (result : Result) : Except PyExc DN :=
  match result.dn with
  | some dn => .ok dn
  | none => .error .assertionError

/-- `Connection.search_dn`, consumed to its end. -/
def searchDn (polls : Nat) (args : SearchArgs) : Method ω (List DN) := do
  let results ← search env polls { args with attrs := some [], attrsonly := true }
  ofExcept (results.mapM yieldedDn)

/-! ## search_iter -/

/-- The loop of `search_iter` over the responses of `_poll`, up to the next result. -/
def searchLoop (args : SearchArgs) (o : Obj) (msgid : MsgId) :
    Nat → Option Controls → List Result → Method ω (Option Result × SearchIter)
  | 0, _, _ => throw .polling
  | polls + 1, controls, allResults => do
    match ← poll env o msgid false (polls + 1) with
    | none => pure (none, .finished)
    | some response =>
      let controls := Result.setControls response controls
      let results ← responseResults env controls response
      let allResults := allResults ++ results
      onlyIf (args.unique ∧ 1 < allResults.length) (throw (.notUnique allResults))
      match results with
      | result :: rest =>
        pure (some result, .suspended args controls o msgid response rest allResults)
      | [] =>
        if goesOn response then searchLoop args o msgid polls controls allResults
        else pure (none, .finished)

/-- `next(generator)`: the next result with the generator suspended after it, or
`none` where the generator ends. -/
def next (polls : Nat) : SearchIter → Method ω (Option Result × SearchIter)
  | .finished => pure (none, .finished)
  | .created args => do
    let o ← conn
    let controls ← ofExcept (args.searchControls true)
    searchedFor env args do
      let timeout := (← get).self.timeout
      match ← retry env (request env o (args.operation timeout controls)) with
      | none => pure (none, .finished)
      | some msgid => searchLoop env args o msgid polls controls []
  | .suspended args controls o msgid response (result :: rest) allResults =>
    pure (some result, .suspended args controls o msgid response rest allResults)
  | .suspended args controls o msgid response [] allResults =>
    if goesOn response then
      searchedFor env args (searchLoop env args o msgid polls controls allResults)
    else pure (none, .finished)

/-- `generator.close()`: suspended at a `yield`, the operation is cancelled, by
the synchronous connection of an asynchronous one. -/
def close (polls : Nat) : SearchIter → Method ω Unit
  | .suspended args _ _ _ response _ _ =>
    searchedFor env args <|
      tryCatch
        (match response.msgid with
        | none => throw .assertionError
        | some msgid => do
          if (← get).self.asynchronous then
            discard (onSyncConnection (cancel env polls msgid))
          else
            discard (cancel env polls msgid))
        fun e => if e.is .noSuchOperation then pure () else throw e
  | _ => pure ()

/-- A result that `next` has returned, with the results that `more` takes after it. -/
def collect (more : SearchIter → Method ω (List Result)) (step : Option Result × SearchIter) :
    Method ω (List Result) :=
  match step.1 with
  | none => pure []
  | some result => (result :: ·) <$> more step.2

/-- A generator consumed to its end: the results it yields, with at most `steps`
calls of `next`. -/
def consume (polls : Nat) : Nat → SearchIter → Method ω (List Result)
  | 0, _ => throw .polling
  | steps + 1, iter => next env polls iter >>= collect (consume polls steps)

end Method

end FreeIam.Ldap
