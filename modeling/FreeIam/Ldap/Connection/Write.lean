import FreeIam.Ldap.Connection.Search
import FreeIam.Ldap.Dn

/-!
# Writing

The operations that change entries: a modification that changes a naming
attribute renames the entry first, a move is a rename, and the recursive delete
removes the children of an entry that the server refuses to delete.
-/

namespace FreeIam.Py

/-! ## UTF-8 -/

/-- A continuation byte. -/
def isUtf8Tail (b : UInt8) : Bool := 0x80 ≤ b.toNat && b.toNat < 0xc0

/-- The code point of a lead byte, less its marker, and continuation bytes. -/
def utf8Value (lead : Nat) (tail : List UInt8) : Nat :=
  tail.foldl (fun value b => value * 64 + (b.toNat - 0x80)) lead

/-- `bytes.decode('UTF-8')`; `none` is the `UnicodeDecodeError`. Neither overlong forms
nor surrogates are decoded. -/
def decodeUtf8 : List UInt8 → Option PyStr
  | [] => some []
  | a :: bs =>
    if a.toNat < 0x80 then (decodeUtf8 bs).map (a.toNat :: ·)
    else if 0xc2 ≤ a.toNat ∧ a.toNat < 0xe0 then
      match bs with
      | b :: bs =>
        if isUtf8Tail b then (decodeUtf8 bs).map (utf8Value (a.toNat - 0xc0) [b] :: ·) else none
      | _ => none
    else if 0xe0 ≤ a.toNat ∧ a.toNat < 0xf0 then
      match bs with
      | b :: c :: bs =>
        let n := utf8Value (a.toNat - 0xe0) [b, c]
        if isUtf8Tail b && isUtf8Tail c && 0x800 ≤ n && !(0xd800 ≤ n && n < 0xe000) then
          (decodeUtf8 bs).map (n :: ·)
        else none
      | _ => none
    else if 0xf0 ≤ a.toNat ∧ a.toNat < 0xf5 then
      match bs with
      | b :: c :: d :: bs =>
        let n := utf8Value (a.toNat - 0xf0) [b, c, d]
        if isUtf8Tail b && isUtf8Tail c && isUtf8Tail d && 0x10000 ≤ n && n < 0x110000 then
          (decodeUtf8 bs).map (n :: ·)
        else none
      | _ => none
    else none

example : decodeUtf8 [102, 0xc3, 0xb6, 111] = some [102, 0xf6, 111] ∧
    decodeUtf8 [0xed, 0xa0, 0x80] = none ∧ decodeUtf8 [0xf0, 0x9f, 0x98, 0x80] = some [0x1f600] := by
  decide

end FreeIam.Py

namespace FreeIam.Ldap

open FreeIam.Py FreeIam.Errors FreeIam.Exec

/-- What the operations that write use: names, and `ldap.modlist.modifyModlist`. -/
structure Modlists (ω : Type) extends Names ω where
  modifyModlist : List (PyStr × List Bytes) → List (PyStr × List Bytes) → List Modification

/-- `Mod.Delete` -/
def modDelete : Nat := 1

/-- `AVA.String` -/
def avaString : Nat := 1

variable {ω : Type} (lib : Modlists ω)

/-! ## More of `DN` -/

namespace DN

/-- `str(dn)` -/
def str : DnArg → PyStr
  | .dn dn => lib.dn2str dn.rdns
  | .text text => text

/-- `DN.__getitem__` of the index 0. -/
def first (self : DN) : Except PyExc DN :=
  match self.rdns with
  | [] => .error .indexError
  | rdn :: _ => DN.init lib.toEnv (lib.dn2str [rdn])

/-- `DN.__add__`: what stands behind the comma is printed, a missing parent as `None`. -/
def add (self : DN) (other : Option DN) : Except PyExc DN :=
  DN.init lib.toEnv (str lib (.dn self) ++ py "," ++ other.elim (py "None") fun dn => str lib (.dn dn))

end DN

/-! ## Changed names -/

/-- The value of a key in a `dict` made from the items: the last one wins. -/
def dictGet {α : Type} (items : List (PyStr × α)) (key : PyStr) : Option α :=
  (items.reverse.find? fun item => item.1 == key).map Prod.snd

section

variable {α : Type}

theorem dictGet_cons (k key : PyStr) (a : α) (items : List (PyStr × α)) :
    dictGet ((k, a) :: items) key = (dictGet items key).or (if k = key then some a else none) := by
  unfold dictGet
  rw [List.reverse_cons, List.find?_append]
  cases items.reverse.find? fun item => item.1 == key with
  | some item => rfl
  | none =>
    by_cases hkey : k = key
    · simp [hkey]
    · simp [hkey]

theorem dictGet_isSome {items : List (PyStr × α)} {k : PyStr} {a : α}
    (h : (k, a) ∈ items) : (dictGet items k).isSome = true := by
  induction items with
  | nil => cases h
  | cons item items ih =>
    obtain ⟨k', a'⟩ := item
    rw [dictGet_cons]
    rcases List.mem_cons.mp h with hhead | htail
    · cases hhead
      cases dictGet items k <;> simp
    · rw [Option.isSome_or, ih htail]
      rfl

/-- The items that come later win. -/
theorem dictGet_append (items items' : List (PyStr × α)) (key : PyStr) :
    dictGet (items ++ items') key = (dictGet items' key).or (dictGet items key) := by
  unfold dictGet
  rw [List.reverse_append, List.find?_append]
  cases items'.reverse.find? fun item => item.1 == key with
  | none => rfl
  | some item => rfl

theorem dictGet_mem {items : List (PyStr × α)} {key : PyStr} {a : α}
    (h : dictGet items key = some a) : (key, a) ∈ items := by
  obtain ⟨⟨key', a'⟩, hfind, ha⟩ := Option.map_eq_some_iff.mp h
  have hkey : key' = key := by simpa using List.find?_some hfind
  subst hkey ha
  exact List.mem_reverse.mp (List.mem_of_find?_eq_some hfind)

theorem dictGet_eq_none {items : List (PyStr × α)} {key : PyStr}
    (h : ∀ item ∈ items, item.1 ≠ key) : dictGet items key = none := by
  cases hget : dictGet items key with
  | none => rfl
  | some a => exact absurd rfl (h _ (dictGet_mem hget))

/-- Where one key only becomes `f key`, the value is that of the key. -/
theorem dictGet_mapKey (f : PyStr → PyStr) {items : List (PyStr × α)} {key : PyStr}
    (h : ∀ item ∈ items, f item.1 = f key → item.1 = key) :
    dictGet (items.map fun item => (f item.1, item.2)) (f key) = dictGet items key := by
  induction items with
  | nil => rfl
  | cons item items ih =>
    obtain ⟨k, a⟩ := item
    have hhead : f k = f key ↔ k = key :=
      ⟨h (k, a) List.mem_cons_self, fun hk => by rw [hk]⟩
    rw [List.map_cons, dictGet_cons, dictGet_cons,
      ih fun item hitem => h item (List.mem_cons_of_mem _ hitem)]
    simp only [hhead]

theorem dictGet_map {β : Type} (f : α → β) (items : List (PyStr × α)) (key : PyStr) :
    dictGet (items.map fun item => (item.1, f item.2)) key = (dictGet items key).map f := by
  unfold dictGet
  rw [← List.map_reverse, List.find?_map, Option.map_map, Option.map_map]
  rfl

end

/-- `val.decode('UTF-8') if isinstance(val, bytes) else val[0].decode('UTF-8')`, where
`val` is true; `none` where it is false. -/
def ModValue.firstText : ModValue → Option (Except PyExc PyStr)
  | .none => Option.none
  | .bytes value => if value.isEmpty then Option.none else some (decode value)
  | .list [] => Option.none
  | .list (value :: _) => some (decode value)
where
  decode (value : Bytes) : Except PyExc PyStr :=
    match decodeUtf8 value with
    | Option.none => .error (.raised "UnicodeDecodeError")
    | some text => .ok text

/-- `new_vals`: the new values of the naming attributes. -/
def newVals (dnVals : List (PyStr × PyStr)) : List Modification → Except PyExc (List (PyStr × PyStr))
  | [] => .ok []
  | (op, key, value) :: ml =>
    if (dictGet dnVals (lib.lower key)).isSome ∧ op ≠ modDelete then
      match value.firstText with
      | none => newVals dnVals ml
      | some text => do
        let text ← text
        let rest ← newVals dnVals ml
        return (lib.lower key, text) :: rest
    else newVals dnVals ml

/-- `Connection._compute_changed_dn` -/
def computeChangedDn (dn : DN) (ml : List Modification) : Except PyExc DN := do
  match dn.rdns with
  | [] => .error .indexError
  | rdn :: _ =>
    let dnVals := rdn.map fun ava => (lib.lower ava.1, ava.2.1)
    let newVals ← newVals lib dnVals ml
    let newRdnAva := rdn.map fun ava =>
      (ava.1, (dictGet newVals (lib.lower ava.1)).getD
        ((dictGet dnVals (lib.lower ava.1)).getD []), avaString)
    let newRdn ← DN.init lib.toEnv (lib.dn2str [newRdnAva])
    let first ← dn.first lib
    if first.eq lib.toNames newRdn then return dn
    newRdn.add lib (← dn.parent lib.toNames)

/-! ## The operations -/

/-- `Result.from_response(dn, None, controls, response)` -/
def writeResult (dn : DnArg) (controls : Option Controls) (response : Response) :
    Except PyExc Result := do
  let dn ← DN.get lib.toNames dn
  return { dn := some dn, attr := none, controls := Result.controlResponse controls response.ctrls
           response := response }

/-- The request of `rename`. -/
def renameRequest (dn : DnArg) (newdn : DN) (deleteOld : Bool) : Except PyExc Request := do
  let newrdn ← newdn.first lib
  let parent ← newdn.parent lib.toNames
  return .rename (DN.str lib dn) (DN.str lib (.dn newrdn))
    (some (parent.elim (py "None") fun dn => DN.str lib (.dn dn))) deleteOld

namespace Method

variable (polls : Nat)

/-- An operation on an entry, executed and wrapped. -/
def executeWrite (o : Obj) (request : Request) (dn : DnArg) (controls : Option Controls) :
    Method ω Result := do
  let response ← execute lib.toEnv polls o (request.with controls)
  ofExcept (writeResult lib dn controls response)

/-- `Connection.add_al` -/
def addAl (dn : DnArg) (al : List (PyStr × List Bytes)) (controls : Option Controls) :
    Method ω Result := do
  let o ← conn
  executeWrite lib polls o (.addExt (DN.str lib dn) al) dn controls

/-- `Connection.add`, with `ldap.modlist.addModlist`. -/
def add (addModlist : List (PyStr × List Bytes) → List (PyStr × List Bytes)) (dn : DnArg)
    (attrs : List (PyStr × List Bytes)) (controls : Option Controls) : Method ω Result :=
  addAl lib polls dn (addModlist attrs) controls

/-- `Connection.change_password` -/
def changePassword (dn : DnArg) (oldPassword newPassword : PyStr) (controls : Option Controls) :
    Method ω Result := do
  let o ← conn
  executeWrite lib polls o (.passwd (DN.str lib dn) oldPassword newPassword) dn controls

/-- `Connection.rename` -/
def rename (dn newdn : DnArg) (deleteOld : Bool) (controls : Option Controls) :
    Method ω Result := do
  let o ← conn
  let newdn ← ofExcept (DN.get lib.toNames newdn)
  let request ← ofExcept (renameRequest lib dn newdn deleteOld)
  executeWrite lib polls o request (.dn newdn) controls

/-- The branch of `modify_ml` that renames an entry whose name changes. -/
def renameChanged (dn : DnArg) (old newDn : DN) : Method ω DnArg :=
  if newDn.eq lib.toNames old then pure dn
  else (fun _ => .dn newDn) <$> rename lib polls dn (.dn newDn) true none

/-- `Connection.modify_ml` -/
def modifyMl (dn : DnArg) (ml : List Modification) (controls : Option Controls) :
    Method ω Result := do
  let o ← conn
  let old ← ofExcept (DN.get lib.toNames dn)
  let newDn ← ofExcept (computeChangedDn lib old ml)
  let dn ← renameChanged lib polls dn old newDn
  executeWrite lib polls o (.modifyExt (DN.str lib dn) ml) dn controls

/-- `Connection.modify` -/
def modify (dn : DnArg) (oldattr newattr : List (PyStr × List Bytes)) (controls : Option Controls) :
    Method ω Result :=
  modifyMl lib polls dn (lib.modifyModlist oldattr newattr) controls

/-- `Connection.move` -/
def move (dn newposition : DnArg) (controls : Option Controls) : Method ω Result := do
  let dn ← ofExcept (DN.get lib.toNames dn)
  let newposition ← ofExcept (DN.get lib.toNames newposition)
  let newdn ← ofExcept (dn.first lib >>= fun rdn => rdn.add lib (some newposition))
  rename lib polls (.dn dn) (.dn newdn) true controls

/-- `Connection.modrdn` -/
def modrdn (dn newrdn : DnArg) (deleteOld : Bool) (controls : Option Controls) :
    Method ω Result := do
  let newrdn ← ofExcept (DN.get lib.toNames newrdn)
  let parent ← ofExcept (DN.get lib.toNames dn >>= fun dn => dn.parent lib.toNames)
  let newdn ← ofExcept (newrdn.add lib parent)
  rename lib polls dn (.dn newdn) deleteOld controls

/-- `Connection.delete` -/
def delete (dn : DnArg) (controls : Option Controls) : Method ω Result := do
  let o ← conn
  executeWrite lib polls o (.deleteExt (DN.str lib dn)) dn controls

/-- The search of `search_dn(dn, Scope.ONELEVEL)`. -/
def childrenArgs (dn : DnArg) : SearchArgs :=
  { base := DN.str lib dn, scope := .onelevel, attrs := some [], attrsonly := true }

/-- The loop over `search_dn`: a result without a name fails its assertion. -/
def forChildren (body : DN → Method ω Unit) : List Result → Method ω Unit
  | [] => pure ()
  | result :: results =>
    match result.dn with
    | none => throw .assertionError
    | some child => do
      body child
      forChildren body results

/-- `Connection.delete_recursive`, with the number of nested calls that Python allows. -/
def deleteRecursive : Nat → DnArg → Option Controls → Method ω Result
  | 0, _, _ => throw (.runtimeError "maximum recursion depth exceeded")
  | depth + 1, dn, controls => do
    let deleted ← tryCatch (some <$> delete lib polls dn controls) fun e =>
      if e.is (.other "NotAllowedOnNonleaf") then do
        let results ← search lib.toEnv polls (childrenArgs lib dn)
        forChildren (fun child => discard (deleteRecursive depth (.dn child) none)) results
        pure none
      else throw e
    match deleted with
    | some result => pure result
    | none => delete lib polls dn controls

end Method

end FreeIam.Ldap
