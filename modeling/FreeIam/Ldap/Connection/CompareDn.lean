import FreeIam.Ldap.Connection.Delivery
import FreeIam.Ldap.Connection.Write

/-!
# Comparing a name with an existing entry

`compare_dn` walks down to the entry and asks the server, for each value of the RDN
at the same place of the other name, whether the ancestor holds it. Neither the
lengths of the names nor what else an ancestor holds is looked at.
-/

namespace FreeIam.Py

/-- The place of an index in a sequence: a negative one counts from the end. -/
def place (length : Nat) (i : Int) : Option Nat :=
  if 0 ≤ i then some i.toNat else if 0 ≤ i + length then some (i + length).toNat else none

/-- `l[i]` -/
def item {α : Type} (l : List α) (i : Int) : Except Errors.PyExc α :=
  match (place l.length i).bind fun k => l[k]? with
  | none => .error .indexError
  | some a => .ok a

/-- The items from the end are those of the reversed list. -/
theorem item_neg {α : Type} (l : List α) (i : Nat) :
    item l (-(i : Int) - 1) = match l.reverse[i]? with
      | none => .error .indexError
      | some a => .ok a := by
  have hitem : ((place l.length (-(i : Int) - 1)).bind fun k => l[k]?) = l.reverse[i]? := by
    unfold place
    rw [if_neg (by omega)]
    by_cases hi : i < l.length
    · have hindex : (-(i : Int) - 1 + l.length).toNat = l.length - 1 - i := by omega
      rw [if_pos (by omega), hindex, List.getElem?_reverse hi]
      rfl
    · rw [if_neg (by omega), List.getElem?_eq_none (by rw [List.length_reverse]; omega)]
      rfl
  unfold item
  rw [hitem]

example : item [1, 2, 3] (-1) = .ok 3 ∧ item [1, 2, 3] (-4) = .error .indexError := by decide

end FreeIam.Py

namespace FreeIam.Ldap

open FreeIam.Py FreeIam.Errors FreeIam.Exec

/-! ## The methods -/

namespace Method

variable {ω : Type} (lib : Modlists ω) (polls : Nat)

/-- `Connection.compare` -/
def compare (dn : DnArg) (attr : PyStr) (value : Bytes) (controls : Option Controls := none) :
    Method ω Bool := do
  let o ← conn
  let result ← tryCatch
    (do
      let _ ← execute lib.toEnv polls o ((Request.compareExt (DN.str lib dn) attr value).with controls)
      pure none)
    fun e =>
      match e with
      | .lib err =>
        if err.cls = .noSuchObject then do
          let baseDn ← ofExcept (DN.get lib.toNames dn)
          throw (.lib { err with searched := some { baseDn := baseDn } })
        else if err.cls = .other "CompareTrue" then pure (some true)
        else if err.cls = .other "CompareFalse" then pure (some false)
        else throw e
      | e => throw e
  match result with
  | some equal => pure equal
  | none => throw (.runtimeError "")

/-- `entry.rdns[-1][0][0]` -/
def topAttr (entry : DN) : Except PyExc PyStr := do
  let rdn ← item entry.rdns (-1)
  let ava ← item rdn 0
  return ava.1

/-- `value.encode('UTF-8')` -/
def encoded (value : PyStr) : Except PyExc Bytes :=
  match encodeUtf8 value with
  | none => .error (.raised "UnicodeEncodeError")
  | some value => .ok value

/-- One value of an RDN: without an entry to ask, the loop goes on after an attribute
that is spelled as that of the top RDN. -/
def compareAva (entry parent : DN) (ava : Ava) : Method ω Bool :=
  tryCatch
    (do
      let value ← ofExcept (encoded ava.2.1)
      compare lib polls (.text (DN.str lib (.dn parent))) ava.1 value)
    fun e =>
      if e.is .noSuchObject then do
        let top ← ofExcept (topAttr entry)
        if ava.1 = top then pure true else throw e
      else throw e

/-- The loop of `compare_dn` over the values of an RDN. -/
def compareRdn (entry parent : DN) : List Ava → Method ω Bool
  | [] => pure true
  | ava :: avas => do
    let equal ← compareAva lib polls entry parent ava
    if equal then compareRdn entry parent avas else pure false

/-- The loop of `compare_dn` over what `entry.walk()` yields, from its item `i` on. -/
def compareParents (entry dn : DN) (raised : Option PyExc) : Nat → List DN → Method ω Bool
  | _, [] =>
    match raised with
    | none => pure true
    | some e => throw e
  | i, parent :: parents => do
    let rdn ← ofExcept (item dn.rdns (-(i : Int) - 1))
    let equal ← compareRdn lib polls entry parent rdn
    if equal then compareParents entry dn raised (i + 1) parents else pure false

/-- `Connection.compare_dn` -/
def compareDn (entry dn : DnArg) : Method ω Bool := do
  let dn ← ofExcept (DN.get lib.toNames dn)
  let entry ← ofExcept (DN.get lib.toNames entry)
  let walk := entry.walk lib.toNames none
  compareParents lib polls entry dn walk.2 0 walk.1

end Method

/-! ## Names and entries -/

/-- The server's matching: which descriptions name one attribute type, which values of
a type are equal, and the value that stands in an RDN. It is the text there, where it
was not written `#hex`. -/
structure Matching where
  sameAttr : PyStr → PyStr → Bool
  sameValue : PyStr → Bytes → Bytes → Bool
  value : Ava → Bytes
  attr_equiv : Equivalence fun a b => sameAttr a b = true
  value_equiv : ∀ attr, Equivalence fun v w => sameValue attr v w = true
  value_congr : ∀ {a b : PyStr}, sameAttr a b = true → sameValue a = sameValue b
  value_text : ∀ {ava : Ava} {bytes : Bytes}, ava.2.2 ≠ avaBinary → encodeUtf8 ava.2.1 = some bytes →
    value ava = bytes

namespace Matching

variable (M : Matching)

/-- The same pair of an attribute and a value. -/
def sameAva (a b : Ava) : Bool := M.sameAttr a.1 b.1 && M.sameValue a.1 (M.value a) (M.value b)

/-- The same set of pairs. -/
def sameRdn (r s : List Ava) : Bool :=
  (r.all fun a => s.any fun b => M.sameAva a b) && s.all fun b => r.any fun a => M.sameAva a b

/-- As many RDNs, and the same ones. -/
def sameName : List (List Ava) → List (List Ava) → Bool
  | [], [] => true
  | r :: rs, s :: ss => M.sameRdn r s && sameName rs ss
  | _, _ => false

/-- Attributes with a value of a type that is equal to the one. -/
def holds (attributes : List (PyStr × List Bytes)) (attr : PyStr) (value : Bytes) : Bool :=
  attributes.any fun item => M.sameAttr attr item.1 && item.2.any fun v => M.sameValue attr value v

/-- Attributes with a value of a type. -/
def has (attributes : List (PyStr × List Bytes)) (attr : PyStr) : Bool :=
  attributes.any fun item => M.sameAttr attr item.1 && !item.2.isEmpty

end Matching

/-- The entries of a directory by their names. Each holds the values of its own RDN;
the ancestors of an entry need not be there. -/
structure EntryMap (M : Matching) where
  entries : List (List (List Ava) × List (PyStr × List Bytes))
  distinct : entries.Pairwise fun e e' => M.sameName e.1 e'.1 = false
  own : ∀ e ∈ entries, ∀ ava ∈ e.1.headD [], M.holds e.2 ava.1 (M.value ava) = true

/-- What a comparison comes to. -/
inductive Compared
  | equal
  | unequal
  | noSuchAttribute
  | noSuchObject
  deriving DecidableEq

/-- The error class it is reported as. -/
def Compared.cls : Compared → LdapErrorClass
  | equal => .other "CompareTrue"
  | unequal => .other "CompareFalse"
  | noSuchAttribute => .other "NoSuchAttribute"
  | noSuchObject => .noSuchObject

namespace EntryMap

variable {M : Matching} (map : EntryMap M)

/-- The attributes of the entry of a name. -/
def find (name : List (List Ava)) : Option (List (PyStr × List Bytes)) :=
  (map.entries.find? fun e => M.sameName e.1 name).map Prod.snd

/-- The comparison of a value with the entry of a name. -/
def compare (name : List (List Ava)) (attr : PyStr) (value : Bytes) : Compared :=
  match map.find name with
  | none => .noSuchObject
  | some attributes =>
    if M.holds attributes attr value then .equal
    else if M.has attributes attr then .unequal
    else .noSuchAttribute

end EntryMap

/-! ## What the comparisons come to -/

section

variable {ω : Type} (lib : Modlists ω)

/-- The entries that are asked, from the top down to the entry itself, by the names
that are read where the walk is printed. -/
def ancestors (entry : DN) : List (List (List Ava)) :=
  (entry.walk lib.toNames none).1.map fun parent => lib.reading (DN.str lib (.dn parent))

/-- A name to compare with, and a value of an RDN. -/
abbrev Asking := List (List Ava) × Ava

/-- The values of the RDNs, each with the ancestor at its place. -/
def askings (ancestors : List (List (List Ava))) (rdns : List (List Ava)) : List Asking :=
  (ancestors.zip rdns).flatMap fun place => place.2.map fun ava => (place.1, ava)

variable {M : Matching} (map : EntryMap M) (entry : DN)

/-- The ancestor holds the value, or there is none, and the attribute is spelled as the
first one of the top RDN of the entry. -/
def EntryMap.accepts (asking : Asking) : Bool :=
  match encodeUtf8 asking.2.2.1 with
  | none => false
  | some value =>
    map.compare asking.1 asking.2.1 value = .equal ||
      (map.compare asking.1 asking.2.1 value = .noSuchObject && Method.topAttr entry = .ok asking.2.1)

/-- The ancestor has other values of the attribute only. -/
def EntryMap.refuses (asking : Asking) : Bool :=
  match encodeUtf8 asking.2.2.1 with
  | none => false
  | some value => map.compare asking.1 asking.2.1 value = .unequal

/-- The first asking that is not accepted decides; if it is not refused either, the
comparison fails. -/
def EntryMap.verdict (askings : List Asking) : Option Bool :=
  match askings.find? fun asking => !map.accepts entry asking with
  | none => some true
  | some asking => if map.refuses asking then some false else none

end

theorem EntryMap.verdict_append {M : Matching} (map : EntryMap M) (entry : DN) (as bs : List Asking) :
    map.verdict entry (as ++ bs) =
      if map.verdict entry as = some true then map.verdict entry bs else map.verdict entry as := by
  unfold EntryMap.verdict
  rw [List.find?_append]
  cases has : as.find? fun asking => !map.accepts entry asking with
  | none => rw [Option.none_or, if_pos rfl]
  | some asking =>
    rw [Option.some_or, if_neg]
    simp only
    split
    · simp
    · simp

/-! ## The walk -/

section

variable {ω : Type} {lib : Modlists ω}

/-- What is relied on of `str2dn` and `dn2str`: the empty text is the empty name, and
what is printed of parsed RDNs is a name. -/
structure Names.Reads (names : Names ω) : Prop where
  empty : names.str2dn [] = .ok []
  nothing : names.dn2str [] = []
  printed : ∀ rdns : List (List Ava),
    (∀ rdn ∈ rdns, ∃ s parsed, names.str2dn s = .ok parsed ∧ rdn ∈ parsed) →
      ∃ rdns', names.str2dn (names.dn2str rdns) = .ok rdns'

/-- A printed name is read. -/
def Names.Printable (names : Names ω) (dn : DN) : Prop :=
  ∃ name, names.str2dn (names.dn2str dn.rdns) = .ok name

/-- A part of a name that the constructor made can be taken, and printed again. -/
theorem DN.getSlice_printable {names : Names ω} (hreads : names.Reads) {dn : DN}
    (hmade : ∃ text, DN.init names.toEnv text = .ok dn) (i j : Option Int) :
    ∃ x, dn.getSlice names i j = .ok x ∧ names.Printable x := by
  obtain ⟨text, htext⟩ := hmade
  obtain ⟨s, hs⟩ := DN.init_parsed htext
  obtain ⟨rdns', hread⟩ := hreads.printed (slice dn.rdns i j)
    fun rdn hrdn => ⟨s, dn.rdns, hs, mem_of_mem_slice hrdn⟩
  refine ⟨⟨names.dn2str (slice dn.rdns i j), rdns'⟩, ?_,
    hreads.printed rdns' fun rdn hrdn => ⟨_, rdns', hread, hrdn⟩⟩
  rw [DN.getSlice, DN.init, hread]

theorem DN.yields_printable {names : Names ω} (hreads : names.Reads) {dn : DN}
    (hmade : ∃ text, DN.init names.toEnv text = .ok dn) (is : List Nat) :
    (dn.yields names is).2 = none ∧ (dn.yields names is).1.length = is.length ∧
      ∀ parent ∈ (dn.yields names is).1, names.Printable parent := by
  induction is with
  | nil => exact ⟨rfl, rfl, fun parent hparent => absurd hparent List.not_mem_nil⟩
  | cons i is ih =>
    obtain ⟨hnone, hlength, hall⟩ := ih
    obtain ⟨x, hx, hprintable⟩ := DN.getSlice_printable hreads hmade (some i) none
    rw [DN.yields, hx]
    refine ⟨hnone, ?_, fun parent hparent => ?_⟩
    · show (dn.yields names is).1.length + 1 = _
      rw [hlength, List.length_cons]
    · rcases List.mem_cons.mp hparent with rfl | hparent
      · exact hprintable
      · exact hall parent hparent

/-- Every name ends with the empty one: a walk without a base goes through all RDNs. -/
theorem DN.walk_eq {names : Names ω} (hreads : names.Reads) (dn : DN) :
    dn.walk names none = dn.yields names (List.range dn.len).reverse := by
  have hinit : DN.init names.toEnv [] = .ok ⟨[], []⟩ := by
    rw [DN.init, hreads.empty]
  have hbase : DN.get names (DN.orEmpty none) = .ok ⟨[], []⟩ := hinit
  have hslice : slice dn.rdns (some (dn.len : Int)) none = [] := by
    rw [slice_from]
    exact List.drop_length
  have hends : dn.endswith names (.dn ⟨[], []⟩) = .ok true := by
    rw [DN.endswith, DN.get]
    show (do
      let suffix ← dn.getSlice names (some (dn.len : Int)) none
      return suffix.eq names ⟨[], []⟩) = _
    rw [DN.getSlice, hslice, hreads.nothing, hinit]
    show Except.ok (DN.eq names ⟨[], []⟩ ⟨[], []⟩) = _
    rw [DN.eq, beq_self_eq_true]
  rw [DN.walk, hbase]
  simp only [hends]
  rfl

/-- The walk of a name yields as many names as it has RDNs, and does not fail. -/
theorem DN.walk_printable {names : Names ω} (hreads : names.Reads) {dn : DN}
    (hmade : ∃ text, DN.init names.toEnv text = .ok dn) :
    (dn.walk names none).2 = none ∧ (dn.walk names none).1.length = dn.len ∧
      ∀ parent ∈ (dn.walk names none).1, names.Printable parent := by
  obtain ⟨hnone, hlength, hall⟩ := DN.yields_printable hreads hmade (List.range dn.len).reverse
  rw [DN.walk_eq hreads]
  refine ⟨hnone, ?_, hall⟩
  rw [hlength, List.length_reverse, List.length_range]

/-! ## The runs -/

variable (lib) in
/-- A server with these entries: it answers a comparison with an error, whose class
says what the comparison comes to. -/
structure CompareServer (slots : Slots) (o : Obj) {M : Matching} (map : EntryMap M) where
  ready : ω → Prop
  answers : ∀ (attr : PyStr) (value : Bytes) {dn : PyStr} {name : List (List Ava)} {w : ω},
    ready w → lib.str2dn dn = .ok name →
    ∃ number w₁ err w₂,
      (lib.request o ((Request.compareExt dn attr value).with none)).run w = .ok (some number) w₁ ∧
      err.cls = (map.compare name attr value).cls ∧
      Refused lib.toEnv slots o number true w₁ (.ldap err) w₂ ∧ ready w₂

variable {M : Matching} {map : EntryMap M} {self : Connection} {o : Obj}

/-- What `compare` makes of the error of its operation. -/
theorem compare_run {s s' : State ω} {err : LdapError} {text attr : PyStr} {value : Bytes} {polls : Nat}
    {dn : DN} (hconn : s.self.conn = some o) (hget : DN.get lib.toNames (.text text) = .ok dn)
    (hexec : (Method.execute lib.toEnv polls o ((Request.compareExt text attr value).with none)).run s =
      .error (.lib err) s') :
    (Method.compare lib polls (.text text) attr value).run s =
      if err.cls = .noSuchObject then .error (.lib { err with searched := some { baseDn := dn } }) s'
      else if err.cls = .other "CompareTrue" then .ok true s'
      else if err.cls = .other "CompareFalse" then .ok false s'
      else .error (.lib err) s' := by
  unfold Method.compare
  rw [EStateM.run_bind, Method.conn_ok hconn]
  simp only [DN.str, EStateM.run_bind, run_tryCatch, hexec, hget]
  by_cases hnone : err.cls = .noSuchObject
  · simp [hnone]
  by_cases htrue : err.cls = .other "CompareTrue"
  · simp [htrue]
  by_cases hfalse : err.cls = .other "CompareFalse"
  · simp [hfalse]
  · simp [hnone, htrue, hfalse]

/-- A comparison returns whether the values are equal, or raises what the server says. -/
theorem compare_answered (hconn : self.conn = some o) (hattempts : 0 < self.maxConnectionAttempts)
    (server : CompareServer lib self.toSlots o map) {s : State ω} (hself : s.self = self)
    (hready : server.ready s.world) {text : PyStr} {name : List (List Ava)}
    (hread : lib.str2dn text = .ok name) (attr : PyStr) (value : Bytes) :
    ∃ e s', s'.self = self ∧ server.ready s'.world ∧
      (e.is .noSuchObject = true ↔ map.compare name attr value = .noSuchObject) ∧
      ∀ polls, 1 ≤ polls → (Method.compare lib polls (.text text) attr value).run s =
        if map.compare name attr value = .equal then .ok true s'
        else if map.compare name attr value = .unequal then .ok false s'
        else .error e s' := by
  subst hself
  obtain ⟨number, w₁, err, w₂, hsent, hcls, hrefused, hnext⟩ := server.answers attr value hready hread
  have hlost : (PyExc.lib err).lost = false := by
    simp only [PyExc.lost, hcls]
    cases map.compare name attr value <;> rfl
  have hclass : (PyExc.lib err).is .noResultsReturned = false := by
    simp only [PyExc.is, hcls]
    cases map.compare name attr value <;> rfl
  obtain ⟨log, -, hexec⟩ := Method.execute_refused hattempts hsent hlost hclass hrefused
  have hget : DN.get lib.toNames (.text text) = .ok ⟨text, name⟩ := by
    rw [DN.get, DN.init, hread]
  have hrun := fun polls hpolls => compare_run hconn hget (hexec polls hpolls)
  rw [hcls] at hrun
  let s' : State ω := ⟨s.self, w₂, s.calls ++ log⟩
  cases hcompared : map.compare name attr value with
  | equal =>
    rw [hcompared] at hrun
    exact ⟨.polling, s', rfl, hnext, by simp [PyExc.is], fun polls hpolls => hrun polls hpolls⟩
  | unequal =>
    rw [hcompared] at hrun
    exact ⟨.polling, s', rfl, hnext, by simp [PyExc.is], fun polls hpolls => hrun polls hpolls⟩
  | noSuchAttribute =>
    rw [hcompared] at hrun hcls
    exact ⟨.lib err, s', rfl, hnext, by simp [PyExc.is, hcls, Compared.cls],
      fun polls hpolls => hrun polls hpolls⟩
  | noSuchObject =>
    rw [hcompared] at hrun
    exact ⟨_, s', rfl, hnext, by simp [PyExc.is, Compared.cls],
      fun polls hpolls => hrun polls hpolls⟩

/-- Given a round to poll, the program ends as the verdict says, in a state in which the
server goes on; without a verdict it raises. -/
def Ends (self : Connection) (ready : ω → Prop) (program : Nat → Method ω Bool) (s : State ω) :
    Option Bool → Prop
  | some b => ∃ s', s'.self = self ∧ ready s'.world ∧ ∀ polls, 1 ≤ polls → (program polls).run s = .ok b s'
  | none => ∃ e s', ∀ polls, 1 ≤ polls → (program polls).run s = .error e s'

theorem EntryMap.verdict_singleton (map : EntryMap M) (entry : DN) (asking : Asking) :
    map.verdict entry [asking] =
      if map.accepts entry asking = true then some true
      else if map.refuses asking = true then some false
      else none := by
  unfold EntryMap.verdict
  cases haccepts : map.accepts entry asking with
  | true => rw [List.find?_cons_of_neg (by simp [haccepts])]; rfl
  | false => rw [List.find?_cons_of_pos (by simp [haccepts])]; rfl

/-- What `compare_dn` makes of the comparison of one value. -/
theorem compareAva_run {s s' : State ω} (entry : DN) {parent : DN} {ava : Ava} {value : Bytes} {e : PyExc}
    {compared : Compared} {polls : Nat} (hvalue : encodeUtf8 ava.2.1 = some value)
    (his : e.is .noSuchObject = true ↔ compared = .noSuchObject)
    (hrun : (Method.compare lib polls (.text (DN.str lib (.dn parent))) ava.1 value).run s =
      if compared = .equal then .ok true s' else if compared = .unequal then .ok false s'
      else .error e s') :
    (Method.compareAva lib polls entry parent ava).run s =
      if compared = .equal then .ok true s'
      else if compared = .unequal then .ok false s'
      else if compared = .noSuchAttribute then .error e s'
      else match Method.topAttr entry with
        | .error e' => .error e' s'
        | .ok top => if ava.1 = top then .ok true s' else .error e s' := by
  have hcompare : (do
      let value ← ofExcept (Method.encoded ava.2.1)
      Method.compare lib polls (.text (DN.str lib (.dn parent))) ava.1 value : Method ω Bool).run s =
        if compared = .equal then .ok true s' else if compared = .unequal then .ok false s'
        else .error e s' := by
    rw [← hrun, Method.encoded, hvalue]
    rfl
  rw [Method.compareAva, run_tryCatch, hcompare]
  cases compared with
  | equal => rfl
  | unequal => rfl
  | noSuchAttribute =>
    show EStateM.run (if e.is .noSuchObject = true then _ else throw e) s' = _
    rw [if_neg fun h => by cases his.mp h]
    rfl
  | noSuchObject =>
    show EStateM.run (if e.is .noSuchObject = true then _ else throw e) s' = _
    rw [if_pos (his.mpr rfl)]
    cases Method.topAttr entry with
    | error e' => rfl
    | ok top =>
      show EStateM.run (if ava.1 = top then pure true else throw e) s' =
        if ava.1 = top then _ else _
      by_cases hspelled : ava.1 = top
      · rw [if_pos hspelled, if_pos hspelled]
        rfl
      · rw [if_neg hspelled, if_neg hspelled]
        rfl

/-- One value is accepted, refused, or fails. -/
theorem compareAva_ends (hconn : self.conn = some o) (hattempts : 0 < self.maxConnectionAttempts)
    (server : CompareServer lib self.toSlots o map) {s : State ω} (hself : s.self = self)
    (hready : server.ready s.world) (entry : DN) {parent : DN} (hparent : lib.Printable parent)
    (ava : Ava) :
    Ends self server.ready (fun polls => Method.compareAva lib polls entry parent ava) s
      (map.verdict entry [(lib.reading (DN.str lib (.dn parent)), ava)]) := by
  obtain ⟨name, hname⟩ := hparent
  have hreading : lib.reading (DN.str lib (.dn parent)) = name := by
    unfold Names.reading
    rw [DN.str, hname]
  rw [hreading, EntryMap.verdict_singleton]
  cases hvalue : encodeUtf8 ava.2.1 with
  | none =>
    -- the value is not sent
    rw [if_neg (by simp [EntryMap.accepts, hvalue]), if_neg (by simp [EntryMap.refuses, hvalue])]
    refine ⟨.raised "UnicodeEncodeError", s, fun polls _ => ?_⟩
    show (Method.compareAva lib polls entry parent ava).run s = _
    rw [Method.compareAva, run_tryCatch, Method.encoded, hvalue]
    rfl
  | some value =>
    obtain ⟨e, s', hself', hready', his, hcompare⟩ :=
      compare_answered hconn hattempts server hself hready hname ava.1 value
    have hrun := fun polls hpolls => compareAva_run entry hvalue his (hcompare polls hpolls)
    cases hcompared : map.compare name ava.1 value with
    | equal =>
      simp only [hcompared, reduceCtorEq, if_true, if_false] at hrun
      rw [if_pos (by simp [EntryMap.accepts, hvalue, hcompared])]
      exact ⟨s', hself', hready', hrun⟩
    | unequal =>
      simp only [hcompared, reduceCtorEq, if_true, if_false] at hrun
      rw [if_neg (by simp [EntryMap.accepts, hvalue, hcompared]),
        if_pos (by simp [EntryMap.refuses, hvalue, hcompared])]
      exact ⟨s', hself', hready', hrun⟩
    | noSuchAttribute =>
      simp only [hcompared, reduceCtorEq, if_true, if_false] at hrun
      rw [if_neg (by simp [EntryMap.accepts, hvalue, hcompared]),
        if_neg (by simp [EntryMap.refuses, hvalue, hcompared])]
      exact ⟨e, s', hrun⟩
    | noSuchObject =>
      -- the attribute is spelled as that of the first RDN, or the error goes on
      simp only [hcompared, reduceCtorEq, if_false] at hrun
      have hrefuses : ¬ map.refuses (name, ava) = true := by simp [EntryMap.refuses, hvalue, hcompared]
      cases htop : Method.topAttr entry with
      | error e' =>
        simp only [htop] at hrun
        rw [if_neg (by simp [EntryMap.accepts, hvalue, hcompared, htop]), if_neg hrefuses]
        exact ⟨e', s', hrun⟩
      | ok top =>
        simp only [htop] at hrun
        by_cases hspelled : ava.1 = top
        · simp only [if_pos hspelled] at hrun
          rw [if_pos (by simp [EntryMap.accepts, hvalue, hcompared, htop, hspelled.symm])]
          exact ⟨s', hself', hready', hrun⟩
        · have hother : top ≠ ava.1 := fun h => hspelled h.symm
          simp only [if_neg hspelled] at hrun
          rw [if_neg (by simp [EntryMap.accepts, hvalue, hcompared, htop, hother]), if_neg hrefuses]
          exact ⟨e, s', hrun⟩

/-- A loop that goes on after `true` ends with what its rounds say. -/
theorem Ends.andThen {ready : ω → Prop} {p q : Nat → Method ω Bool} {s : State ω} {v v' : Option Bool}
    (hp : Ends self ready p s v)
    (hq : ∀ s', s'.self = self → ready s'.world → Ends self ready q s' v') :
    Ends self ready (fun polls => do if ← p polls then q polls else pure false) s
      (if v = some true then v' else v) := by
  cases v with
  | none =>
    obtain ⟨e, s', hrun⟩ := hp
    rw [if_neg (by simp)]
    refine ⟨e, s', fun polls hpolls => ?_⟩
    show EStateM.run (p polls >>= _) s = _
    rw [EStateM.run_bind, hrun polls hpolls]
  | some b =>
    obtain ⟨s', hself', hready', hrun⟩ := hp
    have hstep : ∀ polls, 1 ≤ polls →
        (do if ← p polls then q polls else pure false : Method ω Bool).run s =
          (if b = true then q polls else pure false).run s' := by
      intro polls hpolls
      rw [EStateM.run_bind, hrun polls hpolls]
    cases b with
    | false =>
      rw [if_neg (by simp)]
      exact ⟨s', hself', hready', fun polls hpolls => hstep polls hpolls⟩
    | true =>
      rw [if_pos rfl]
      have hnext := hq s' hself' hready'
      cases v' with
      | none =>
        obtain ⟨e, s'', hrest⟩ := hnext
        exact ⟨e, s'', fun polls hpolls => (hstep polls hpolls).trans (hrest polls hpolls)⟩
      | some b' =>
        obtain ⟨s'', hself'', hready'', hrest⟩ := hnext
        exact ⟨s'', hself'', hready'', fun polls hpolls =>
          (hstep polls hpolls).trans (hrest polls hpolls)⟩

/-- The values of an RDN, by the first of them that is not accepted. -/
theorem compareRdn_ends (hconn : self.conn = some o) (hattempts : 0 < self.maxConnectionAttempts)
    (server : CompareServer lib self.toSlots o map) (entry : DN) {parent : DN}
    (hparent : lib.Printable parent) (avas : List Ava) {s : State ω} (hself : s.self = self)
    (hready : server.ready s.world) :
    Ends self server.ready (fun polls => Method.compareRdn lib polls entry parent avas) s
      (map.verdict entry (avas.map fun ava => (lib.reading (DN.str lib (.dn parent)), ava))) := by
  induction avas generalizing s with
  | nil => exact ⟨s, hself, hready, fun polls hpolls => rfl⟩
  | cons ava avas ih =>
    have hfirst := compareAva_ends hconn hattempts server hself hready entry hparent ava
    have hboth := hfirst.andThen fun s' hself' hready' => ih hself' hready'
    have hverdict := EntryMap.verdict_append map entry [(lib.reading (DN.str lib (.dn parent)), ava)]
      (avas.map fun ava => (lib.reading (DN.str lib (.dn parent)), ava))
    rw [← hverdict] at hboth
    exact hboth

/-- The verdict over the ancestors, where a missing RDN is an `IndexError`. -/
def EntryMap.verdictOf (map : EntryMap M) (entry : DN) (ancestors : List (List (List Ava)))
    (rdns : List (List Ava)) : Option Bool :=
  if map.verdict entry (askings ancestors rdns) = some true ∧ rdns.length < ancestors.length then none
  else map.verdict entry (askings ancestors rdns)

theorem EntryMap.verdictOf_cons (map : EntryMap M) (entry : DN) (name : List (List Ava))
    (ancestors : List (List (List Ava))) (rdn : List Ava) (rdns : List (List Ava)) :
    map.verdictOf entry (name :: ancestors) (rdn :: rdns) =
      if map.verdict entry (rdn.map fun ava => (name, ava)) = some true then
        map.verdictOf entry ancestors rdns
      else map.verdict entry (rdn.map fun ava => (name, ava)) := by
  have haskings : askings (name :: ancestors) (rdn :: rdns) =
      (rdn.map fun ava => (name, ava)) ++ askings ancestors rdns := rfl
  unfold EntryMap.verdictOf
  rw [haskings, EntryMap.verdict_append]
  by_cases hfirst : map.verdict entry (rdn.map fun ava => (name, ava)) = some true
  · simp only [if_pos hfirst, List.length_cons, Nat.succ_lt_succ_iff]
  · rw [if_neg hfirst, if_neg hfirst, if_neg fun h => hfirst h.1]

/-- The ancestors of the entry from one on, with the RDNs from the one at its place on. -/
theorem compareParents_ends (hconn : self.conn = some o) (hattempts : 0 < self.maxConnectionAttempts)
    (server : CompareServer lib self.toSlots o map) (entry dn : DN) {parents : List DN}
    (hparents : ∀ parent ∈ parents, lib.Printable parent) (i : Nat) {s : State ω}
    (hself : s.self = self) (hready : server.ready s.world) :
    Ends self server.ready (fun polls => Method.compareParents lib polls entry dn none i parents) s
      (map.verdictOf entry (parents.map fun parent => lib.reading (DN.str lib (.dn parent)))
        (dn.rdns.reverse.drop i)) := by
  induction parents generalizing i s with
  | nil => exact ⟨s, hself, hready, fun polls hpolls => rfl⟩
  | cons parent parents ih =>
    have hitem := item_neg dn.rdns i
    cases hrdn : dn.rdns.reverse[i]? with
    | none =>
      -- the name has no RDN at this place
      have hdrop : dn.rdns.reverse.drop i = [] := List.drop_eq_nil_of_le (List.getElem?_eq_none_iff.mp hrdn)
      rw [hrdn] at hitem
      rw [hdrop]
      unfold EntryMap.verdictOf
      rw [if_pos ⟨rfl, by simp⟩]
      refine ⟨.indexError, s, fun polls hpolls => ?_⟩
      show (Method.compareParents lib polls entry dn none i (parent :: parents)).run s = _
      rw [Method.compareParents, hitem]
      rfl
    | some rdn =>
      have hdrop : dn.rdns.reverse.drop i = rdn :: dn.rdns.reverse.drop (i + 1) := by
        obtain ⟨hi, hget⟩ := List.getElem?_eq_some_iff.mp hrdn
        rw [List.drop_eq_getElem_cons hi, hget]
      rw [hrdn] at hitem
      have hfirst := compareRdn_ends hconn hattempts server entry (hparents parent List.mem_cons_self) rdn
        hself hready
      have hboth := hfirst.andThen fun s' hself' hready' =>
        ih (fun p hp => hparents p (List.mem_cons_of_mem _ hp)) (i + 1) hself' hready'
      rw [hdrop, List.map_cons, EntryMap.verdictOf_cons]
      have hrun : ∀ polls, Method.compareParents lib polls entry dn none i (parent :: parents) =
          (do if ← Method.compareRdn lib polls entry parent rdn then
                Method.compareParents lib polls entry dn none (i + 1) parents
              else pure false) := by
        intro polls
        rw [Method.compareParents, hitem]
        rfl
      simp only [hrun]
      exact hboth

end

/-! ## When names are told apart -/

/-- A connection to a server with these entries. -/
structure ServedEntries {ω : Type} (lib : Modlists ω) {M : Matching} (map : EntryMap M) (s : State ω) where
  o : Obj
  connected : s.self.conn = some o
  attempts : 0 < s.self.maxConnectionAttempts
  server : CompareServer lib s.self.toSlots o map
  ready : server.ready s.world

/-- Given rounds enough, `compare_dn` returns whether the names are the same. -/
def DecidesIdentity {ω : Type} (lib : Modlists ω) (M : Matching) (e d : DnArg) (entry dn : DN)
    (s : State ω) : Prop :=
  ∃ n, ∀ polls, n ≤ polls → ∃ s',
    (Method.compareDn lib polls e d).run s = .ok (M.sameName dn.rdns entry.rdns) s'

section

variable {ω : Type} {lib : Modlists ω} {M : Matching} {map : EntryMap M} {s : State ω} {e d : DnArg}
  {entry dn : DN}

theorem compareDn_ends (hreads : lib.Reads) (he : DN.get lib.toNames e = .ok entry)
    (hd : DN.get lib.toNames d = .ok dn) (hmade : ∃ text, DN.init lib.toEnv text = .ok entry)
    (hs : ServedEntries lib map s) :
    Ends s.self hs.server.ready (fun polls => Method.compareDn lib polls e d) s
      (map.verdictOf entry (ancestors lib entry) dn.rdns.reverse) := by
  obtain ⟨hnone, -, hall⟩ := DN.walk_printable hreads hmade
  have hrun : ∀ polls, (Method.compareDn lib polls e d).run s =
      (Method.compareParents lib polls entry dn none 0 (entry.walk lib.toNames none).1).run s := by
    intro polls
    rw [← hnone]
    unfold Method.compareDn
    rw [hd, he]
    rfl
  have hends := compareParents_ends hs.connected hs.attempts hs.server entry dn hall 0 rfl hs.ready
  unfold ancestors
  rw [List.drop_zero] at hends
  unfold Ends at hends ⊢
  simp only [hrun]
  exact hends

/-- A program that ends with a verdict returns what the verdict is. -/
theorem Ends.returns_iff {self : Connection} {ready : ω → Prop} {p : Nat → Method ω Bool}
    {v : Option Bool} (h : Ends self ready p s v) (b : Bool) :
    (∃ n, ∀ polls, n ≤ polls → ∃ s', (p polls).run s = .ok b s') ↔ v = some b := by
  cases v with
  | none =>
    obtain ⟨e, s', hrun⟩ := h
    refine ⟨fun ⟨n, hn⟩ => ?_, fun heq => by cases heq⟩
    obtain ⟨s'', hok⟩ := hn (max n 1) (Nat.le_max_left n 1)
    rw [hrun _ (Nat.le_max_right n 1)] at hok
    cases hok
  | some b' =>
    obtain ⟨s', -, -, hrun⟩ := h
    constructor
    · rintro ⟨n, hn⟩
      obtain ⟨s'', hok⟩ := hn (max n 1) (Nat.le_max_left n 1)
      rw [hrun _ (Nat.le_max_right n 1)] at hok
      cases hok
      rfl
    · intro heq
      cases heq
      exact ⟨1, fun polls hpolls => ⟨s', hrun polls hpolls⟩⟩

theorem decides_iff_verdict (hreads : lib.Reads) (he : DN.get lib.toNames e = .ok entry)
    (hd : DN.get lib.toNames d = .ok dn) (hmade : ∃ text, DN.init lib.toEnv text = .ok entry)
    (hs : ServedEntries lib map s) :
    DecidesIdentity lib M e d entry dn s ↔
      map.verdictOf entry (ancestors lib entry) dn.rdns.reverse =
        some (M.sameName dn.rdns entry.rdns) :=
  (compareDn_ends hreads he hd hmade hs).returns_iff _

theorem Matching.sameName_length (M : Matching) {name name' : List (List Ava)}
    (h : M.sameName name name' = true) : name.length = name'.length := by
  induction name generalizing name' with
  | nil =>
    cases name' with
    | nil => rfl
    | cons s ss => cases h
  | cons r rs ih =>
    cases name' with
    | nil => cases h
    | cons s ss =>
      rw [Matching.sameName, Bool.and_eq_true] at h
      rw [List.length_cons, List.length_cons, ih h.2]

theorem EntryMap.verdict_true_iff (map : EntryMap M) (entry : DN) (as : List Asking) :
    map.verdict entry as = some true ↔ ∀ asking ∈ as, map.accepts entry asking = true := by
  unfold EntryMap.verdict
  cases has : as.find? fun asking => !map.accepts entry asking with
  | none =>
    have hall := List.find?_eq_none.mp has
    exact ⟨fun _ asking hasking => by simpa using hall asking hasking, fun _ => rfl⟩
  | some asking =>
    have hnot : map.accepts entry asking = false := by simpa using List.find?_some has
    refine ⟨fun h => ?_, fun hall => ?_⟩
    · simp only at h
      split at h <;> cases h
    · rw [hall asking (List.mem_of_find?_eq_some has)] at hnot
      cases hnot

theorem EntryMap.verdict_false_iff (map : EntryMap M) (entry : DN) (as : List Asking) :
    map.verdict entry as = some false ↔
      ∃ asking, as.find? (fun asking => !map.accepts entry asking) = some asking ∧
        map.refuses asking = true := by
  unfold EntryMap.verdict
  cases has : as.find? fun asking => !map.accepts entry asking with
  | none => simp
  | some asking => simp

/-! ### The same names -/

/-- Without `#hex` values the names that a walk yields are read as ends of the name. -/
theorem DN.yields_reading {names : Names ω} (hprint : names.RoundTrips) {dn : DN}
    (hplain : names.Plain dn) (is : List Nat) :
    (dn.yields names is).1.map (fun parent => names.reading (names.dn2str parent.rdns)) =
      is.map fun i => dn.rdns.drop i := by
  induction is with
  | nil => rfl
  | cons i is ih =>
    have hparse : names.str2dn (names.dn2str (dn.rdns.drop i)) = .ok (dn.rdns.drop i) :=
      hprint _ fun rdn hrdn => hplain.parsed rdn (List.mem_of_mem_drop hrdn)
    have hslice : dn.getSlice names (some i) none = .ok ⟨names.dn2str (dn.rdns.drop i), dn.rdns.drop i⟩ := by
      rw [DN.getSlice, slice_from, DN.init, hparse]
    rw [DN.yields, hslice, List.map_cons, List.map_cons, ← ih]
    simp only [Names.reading, hparse]

theorem ancestors_eq (hreads : lib.Reads) (hprint : lib.RoundTrips) (hplain : lib.Plain entry) :
    ancestors lib entry = ((List.range entry.len).map fun i => entry.rdns.drop i).reverse := by
  unfold ancestors
  rw [DN.walk_eq hreads, ← List.map_reverse]
  exact DN.yields_reading hprint hplain _

namespace Matching

variable (M : Matching)

theorem sameName_getElem? {name name' : List (List Ava)} (h : M.sameName name name' = true) {k : Nat}
    {r : List Ava} (hr : name[k]? = some r) : ∃ s, name'[k]? = some s ∧ M.sameRdn r s = true := by
  induction name generalizing name' k with
  | nil => cases hr
  | cons r' rs ih =>
    cases name' with
    | nil => cases h
    | cons s' ss =>
      rw [Matching.sameName, Bool.and_eq_true] at h
      cases k with
      | zero =>
        cases hr
        exact ⟨s', rfl, h.1⟩
      | succ k => exact ih h.2 hr

/-- Attributes hold a pair if they hold the same one. -/
theorem holds_of_sameAva {attributes : List (PyStr × List Bytes)} {a b : Ava}
    (hsame : M.sameAva a b = true) (h : M.holds attributes b.1 (M.value b) = true) :
    M.holds attributes a.1 (M.value a) = true := by
  unfold Matching.sameAva at hsame
  rw [Bool.and_eq_true] at hsame
  obtain ⟨hattr, hvalue⟩ := hsame
  unfold Matching.holds at h ⊢
  rw [List.any_eq_true] at h ⊢
  obtain ⟨item, hitem, h⟩ := h
  rw [Bool.and_eq_true, List.any_eq_true] at h
  obtain ⟨hitemAttr, v, hv, hitemValue⟩ := h
  refine ⟨item, hitem, ?_⟩
  rw [Bool.and_eq_true, List.any_eq_true]
  refine ⟨(M.attr_equiv.trans hattr hitemAttr), v, hv, ?_⟩
  rw [← M.value_congr hattr] at hitemValue
  exact (M.value_equiv a.1).trans hvalue hitemValue

end Matching

/-- An entry holds the values of every name that it is found by. -/
theorem EntryMap.holds_of_find (map : EntryMap M) {rdn r : List Ava} {name : List (List Ava)}
    {attributes : List (PyStr × List Bytes)} (hfind : map.find (rdn :: name) = some attributes)
    (hsame : M.sameRdn r rdn = true) : ∀ ava ∈ r, M.holds attributes ava.1 (M.value ava) = true := by
  intro ava hava
  unfold EntryMap.find at hfind
  obtain ⟨⟨entryName, attrs⟩, hentry, rfl⟩ := Option.map_eq_some_iff.mp hfind
  have hown := map.own _ (List.mem_of_find?_eq_some hentry)
  have hname := List.find?_some hentry
  simp only at hname hown
  cases entryName with
  | nil => cases hname
  | cons head tail =>
    -- the value is one of the name asked for, and so one of the entry's own name
    rw [Matching.sameName, Bool.and_eq_true] at hname
    obtain ⟨hhead, -⟩ := hname
    unfold Matching.sameRdn at hhead hsame
    rw [Bool.and_eq_true, List.all_eq_true, List.all_eq_true] at hhead hsame
    obtain ⟨b, hb, hab⟩ := List.any_eq_true.mp (hsame.1 ava hava)
    obtain ⟨c, hc, hcb⟩ := List.any_eq_true.mp (hhead.2 b hb)
    have hbc : M.sameAva b c = true := by
      unfold Matching.sameAva at hcb ⊢
      rw [Bool.and_eq_true] at hcb ⊢
      refine ⟨M.attr_equiv.symm hcb.1, ?_⟩
      rw [← M.value_congr hcb.1]
      exact (M.value_equiv c.1).symm hcb.2
    exact M.holds_of_sameAva hab (M.holds_of_sameAva hbc (hown c hc))

/-- For the same names without `#hex` values, a value is accepted unless the ancestor at
its place is missing and the attribute is spelled in another way than that of the top
RDN. -/
theorem accepts_same_iff (hreads : lib.Reads) (hprint : lib.RoundTrips) (hentry : lib.Plain entry)
    (hdn : ∀ rdn ∈ dn.rdns, ∀ ava ∈ rdn, ava.2.2 ≠ avaBinary ∧ (encodeUtf8 ava.2.1).isSome = true)
    (hsame : M.sameName dn.rdns entry.rdns = true) :
    ∀ asking ∈ askings (ancestors lib entry) dn.rdns.reverse, map.accepts entry asking = true ↔
      (map.find asking.1 = none → Method.topAttr entry = .ok asking.2.1) := by
  rintro asking hasking
  rw [ancestors_eq hreads hprint hentry] at hasking
  obtain ⟨⟨name, rdn⟩, hplace, hmem⟩ := List.mem_flatMap.mp hasking
  obtain ⟨ava, hava, rfl⟩ := List.mem_map.mp hmem
  -- the ancestor begins with the RDN of the entry at the place of the value
  have hat : rdn ∈ dn.rdns ∧ ∃ top rest, name = top :: rest ∧ M.sameRdn rdn top = true := by
    have hlength : ((List.range entry.len).map fun i => entry.rdns.drop i).length = dn.rdns.length := by
      rw [List.length_map, List.length_range]
      exact (M.sameName_length hsame).symm
    rw [List.zip, ← List.reverse_zipWith hlength, List.mem_reverse] at hplace
    obtain ⟨k, hk⟩ := List.mem_iff_getElem?.mp hplace
    obtain ⟨hname, hrdn⟩ := List.getElem?_zip_eq_some.mp hk
    obtain ⟨top, htop, hboth⟩ := M.sameName_getElem? hsame hrdn
    obtain ⟨hk', rfl⟩ := List.getElem?_eq_some_iff.mp htop
    have hdrop : name = entry.rdns.drop k := by
      rw [List.getElem?_map, List.getElem?_range (show k < entry.len from hk')] at hname
      exact (Option.some.inj hname).symm
    exact ⟨List.mem_of_getElem? hrdn, _, _, hdrop.trans (List.drop_eq_getElem_cons hk'), hboth⟩
  obtain ⟨hrdn, top, rest, rfl, hboth⟩ := hat
  obtain ⟨hhex, hencoded⟩ := hdn rdn hrdn ava hava
  obtain ⟨value, hvalue⟩ := Option.isSome_iff_exists.mp hencoded
  unfold EntryMap.accepts EntryMap.compare
  simp only [hvalue]
  cases hfind : map.find (top :: rest) with
  | none => simp
  | some attributes =>
    have hholds := map.holds_of_find hfind hboth ava hava
    rw [M.value_text hhex hvalue] at hholds
    simp [hholds]

/-- For the same names all values are compared. -/
theorem verdictOf_same (hreads : lib.Reads) (hmade : ∃ text, DN.init lib.toEnv text = .ok entry)
    (hsame : M.sameName dn.rdns entry.rdns = true) :
    map.verdictOf entry (ancestors lib entry) dn.rdns.reverse =
      map.verdict entry (askings (ancestors lib entry) dn.rdns.reverse) := by
  have hlength : dn.rdns.reverse.length = (ancestors lib entry).length := by
    unfold ancestors
    rw [List.length_map, (DN.walk_printable hreads hmade).2.1, List.length_reverse,
      M.sameName_length hsame, DN.len]
  unfold EntryMap.verdictOf
  rw [if_neg fun h => absurd h.2 (by omega)]

/-- Two spellings of one name without `#hex` values are found to be the same unless the server
has not all of the entries above: one that it has not stands against a value whose attribute is
spelled in another way than that of the top RDN. -/
theorem decides_same_iff (hreads : lib.Reads) (hprint : lib.RoundTrips)
    (he : DN.get lib.toNames e = .ok entry) (hd : DN.get lib.toNames d = .ok dn)
    (hmade : ∃ text, DN.init lib.toEnv text = .ok entry) (hs : ServedEntries lib map s)
    (hentry : lib.Plain entry)
    (hdn : ∀ rdn ∈ dn.rdns, ∀ ava ∈ rdn, ava.2.2 ≠ avaBinary ∧ (encodeUtf8 ava.2.1).isSome = true)
    (hsame : M.sameName dn.rdns entry.rdns = true) :
    DecidesIdentity lib M e d entry dn s ↔
      ∀ asking ∈ askings (ancestors lib entry) dn.rdns.reverse,
        map.find asking.1 = none → Method.topAttr entry = .ok asking.2.1 := by
  rw [decides_iff_verdict hreads he hd hmade hs, hsame, verdictOf_same hreads hmade hsame,
    EntryMap.verdict_true_iff]
  exact forall₂_congr (accepts_same_iff hreads hprint hentry hdn hsame)

/-- `compare_dn` tells names apart if and only if, for the same names, every value of the
one is accepted by the ancestor at its place, and for different names the first value
that is not accepted is refused. -/
theorem compare_dn_decides_iff (hreads : lib.Reads) (he : DN.get lib.toNames e = .ok entry)
    (hd : DN.get lib.toNames d = .ok dn) (hmade : ∃ text, DN.init lib.toEnv text = .ok entry)
    (hs : ServedEntries lib map s) :
    DecidesIdentity lib M e d entry dn s ↔
      (M.sameName dn.rdns entry.rdns = true ∧
        ∀ asking ∈ askings (ancestors lib entry) dn.rdns.reverse, map.accepts entry asking = true) ∨
      (M.sameName dn.rdns entry.rdns = false ∧
        ∃ asking, (askings (ancestors lib entry) dn.rdns.reverse).find?
            (fun asking => !map.accepts entry asking) = some asking ∧ map.refuses asking = true) := by
  rw [← EntryMap.verdict_true_iff, ← EntryMap.verdict_false_iff]
  refine (decides_iff_verdict hreads he hd hmade hs).trans ?_
  cases hsame : M.sameName dn.rdns entry.rdns with
  | true =>
    rw [verdictOf_same hreads hmade hsame]
    simp
  | false =>
    unfold EntryMap.verdictOf
    split
    · rename_i h
      simp [h.1]
    · simp

end

/-! ### An organisation -/

/-- ASCII letters in lower case. -/
def foldCase (value : Bytes) : Bytes := value.map fun b => if 65 ≤ b ∧ b ≤ 90 then b + 32 else b

/-- Attributes and values are compared without regard to case. -/
def caseIgnore : Matching where
  sameAttr := fun a b => lower a == lower b
  sameValue := fun _ v w => foldCase v == foldCase w
  value := fun ava => (encodeUtf8 ava.2.1).getD []
  attr_equiv := ⟨fun _ => beq_self_eq_true _, fun h => by rw [beq_iff_eq] at h ⊢; exact h.symm,
    fun h h' => by rw [beq_iff_eq] at h h' ⊢; exact h.trans h'⟩
  value_equiv := fun _ => ⟨fun _ => beq_self_eq_true _, fun h => by rw [beq_iff_eq] at h ⊢; exact h.symm,
    fun h h' => by rw [beq_iff_eq] at h h' ⊢; exact h.trans h'⟩
  value_congr := fun _ => rfl
  value_text := fun _ h => by rw [h]; rfl

/-- An RDN of a text value. -/
def textRdn (attr value : String) : List Ava := [(py attr, py value, avaString)]

/-- `dc=org`, which is missing, with `o=a` below it and `cn=b` below that. -/
def organisation : EntryMap caseIgnore where
  entries := [([textRdn "o" "a", textRdn "dc" "org"], [(py "o", [[97]])]),
    ([textRdn "cn" "b", textRdn "o" "a", textRdn "dc" "org"], [(py "cn", [[98], [99]])])]
  distinct := by decide +kernel
  own := by decide +kernel

/-- A server that answers comparisons with the entries. -/
def comparing {M : Matching} (map : EntryMap M) : Modlists (Option LdapErrorClass) :=
  { Env.idle (Option LdapErrorClass) with
    str2dn := readRdns
    dn2str := printRdns
    lower := lower
    hash := fun x => Encodable.encode x
    modifyModlist := fun _ _ => []
    request := fun _ op _ =>
      match op.request with
      | .compareExt dn attr value =>
        .ok (some 1) (some (map.compare (simpleNames.reading dn) attr value).cls)
      | _ => .ok (some 1) none
    result4 := fun _ _ _ _ answer =>
      .error (.ldap { cls := answer.getD .timeout }) none }

/-- A synchronous connection to it. -/
def comparingState : State (Option LdapErrorClass) :=
  { self := { Connection.init false (py "ldap://localhost") with conn := some 0 }
    world := none, calls := [] }

theorem comparingState_attempts : 0 < comparingState.self.maxConnectionAttempts := Nat.succ_pos 9

theorem comparing_reads {M : Matching} (map : EntryMap M) : (comparing map).Reads where
  empty := rfl
  nothing := rfl
  printed := by
    intro rdns hparsed
    refine ⟨rdns, simpleNames_roundTrips rdns fun rdn hrdn => ⟨hparsed rdn hrdn, ?_⟩⟩
    intro ava hava
    obtain ⟨s, parsed, hread, hmem⟩ := hparsed rdn hrdn
    rw [((readRdns_simple hread hmem).2 ava hava).type]
    decide

/-- The connection is one to a server with the entries. -/
def comparingServed {M : Matching} (map : EntryMap M) :
    ServedEntries (comparing map) map comparingState where
  o := 0
  connected := rfl
  attempts := comparingState_attempts
  server :=
    { ready := fun _ => True
      answers := by
        intro attr value dn name w _ hread
        have hreading : simpleNames.reading dn = name := by
          unfold Names.reading
          rw [show simpleNames.str2dn dn = .ok name from hread]
        refine ⟨1, some (map.compare name attr value).cls, { cls := (map.compare name attr value).cls },
          none, ?_, rfl, ?_, trivial⟩
        · rw [← hreading]
          rfl
        · rw [Refused, if_neg (by simp [comparingState, Connection.init])]
          rfl }
  ready := trivial

/-- The name of the entry below, in other letter case. -/
theorem compare_dn_decides_case :
    ∃ entry dn, DN.init (comparing organisation).toEnv (py "cn=b,o=a,dc=org") = .ok entry ∧
      DN.init (comparing organisation).toEnv (py "CN=B,O=A,dc=Org") = .ok dn ∧
      DecidesIdentity (comparing organisation) caseIgnore (.text (py "cn=b,o=a,dc=org"))
        (.text (py "CN=B,O=A,dc=Org")) entry dn comparingState := by
  let entry : DN := ⟨py "cn=b,o=a,dc=org", [textRdn "cn" "b", textRdn "o" "a", textRdn "dc" "org"]⟩
  let dn : DN := ⟨py "CN=B,O=A,dc=Org", [textRdn "CN" "B", textRdn "O" "A", textRdn "dc" "Org"]⟩
  have he : DN.get (comparing organisation).toNames (.text (py "cn=b,o=a,dc=org")) = .ok entry := by rfl
  have hd : DN.get (comparing organisation).toNames (.text (py "CN=B,O=A,dc=Org")) = .ok dn := by rfl
  exact ⟨entry, dn, he, hd, (compare_dn_decides_iff (comparing_reads organisation) he hd
    ⟨py "cn=b,o=a,dc=org", he⟩ (comparingServed organisation)).mpr
      (.inl ⟨by decide +kernel, by decide +kernel⟩)⟩

/-- A name below the entry is taken for the entry. -/
theorem compare_dn_takes_descendant :
    ∃ entry dn, DN.init (comparing organisation).toEnv (py "o=a,dc=org") = .ok entry ∧
      DN.init (comparing organisation).toEnv (py "cn=b,o=a,dc=org") = .ok dn ∧
      ¬ DecidesIdentity (comparing organisation) caseIgnore (.text (py "o=a,dc=org"))
        (.text (py "cn=b,o=a,dc=org")) entry dn comparingState := by
  let entry : DN := ⟨py "o=a,dc=org", [textRdn "o" "a", textRdn "dc" "org"]⟩
  let dn : DN := ⟨py "cn=b,o=a,dc=org", [textRdn "cn" "b", textRdn "o" "a", textRdn "dc" "org"]⟩
  have he : DN.get (comparing organisation).toNames (.text (py "o=a,dc=org")) = .ok entry := by rfl
  have hd : DN.get (comparing organisation).toNames (.text (py "cn=b,o=a,dc=org")) = .ok dn := by rfl
  refine ⟨entry, dn, he, hd, ?_⟩
  rw [decides_iff_verdict (comparing_reads organisation) he hd ⟨py "o=a,dc=org", he⟩
    (comparingServed organisation)]
  decide +kernel

end FreeIam.Ldap
