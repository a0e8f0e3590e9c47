import FreeIam.Errors
import FreeIam.Lib.Exec

/-!
# What the connection calls

python-ldap and the event loop are not part of the repository. `Env` has their
methods as programs on an arbitrary state `ω`, which stands for everything
outside of FreeIAM: the LDAP objects, the network, the servers. What is known of
these programs is stated where it is used, as a hypothesis of the results that
rest on it.
-/

namespace FreeIam.Ldap

open FreeIam.Py FreeIam.Errors

/-- A python-ldap object, by its identity. -/
abbrev Obj := Nat

/-! ## Requests -/

/-- The credentials of a simple bind. -/
structure SimpleBind where
  who : Option PyStr
  cred : Option PyStr
  deriving DecidableEq

/-- The SASL mechanisms the connection binds with. -/
inductive Sasl
  | external
  | gssapi
  | oauthbearer (authzid : Option PyStr) (token : PyStr)
  deriving DecidableEq

/-- The extended requests: those of the transaction and any other, by its name
and encoded value. -/
inductive ExtendedRequest
  | startTransactionRequest
  | endTransactionRequest (commit : Bool) (txnId : Option Bytes)
  | request (name : PyStr) (value : Option Bytes)
  deriving DecidableEq

/-- The value of a modification: `None`, one value or a list of values. -/
inductive ModValue
  | none
  | bytes (value : Bytes)
  | list (values : List Bytes)
  deriving DecidableEq

/-- An item of a modification list: operation, attribute and value. -/
abbrev Modification := Nat × PyStr × ModValue

/-- The operations of an LDAP object that send one request and return its message ID. -/
inductive Request
  | simpleBind (bind : SimpleBind)
  | unbindExt
  | abandonExt (msgid : Nat)
  | cancel (msgid : Nat)
  | extop (request : ExtendedRequest)
  | searchExt (base : PyStr) (scope : Scope) (filterstr : PyStr) (attrlist : Option (List PyStr))
      (attrsonly : Bool) (timeout : Int) (sizelimit : Int)
  | passwd (user oldpw newpw : PyStr)
  | compareExt (dn attr : PyStr) (value : Bytes)
  | addExt (dn : PyStr) (modlist : List (PyStr × List Bytes))
  | modifyExt (dn : PyStr) (modlist : List Modification)
  | deleteExt (dn : PyStr)
  | rename (dn newrdn : PyStr) (newsuperior : Option PyStr) (delold : Bool)
  deriving DecidableEq

/-- A request with the controls it carries. -/
structure Operation where
  request : Request
  serverctrls : Option (List Control) := none
  clientctrls : Option (List Control) := none
  deriving DecidableEq

/-- A request with `**Controls.expand(controls)`. -/
def Request.with (request : Request) (controls : Option Controls) : Operation :=
  { request := request, serverctrls := (Controls.expand controls).1
    clientctrls := (Controls.expand controls).2 }

/-! ## Options -/

/-- `Option`: the connection options. -/
inductive LdapOption
  | serverControls
  | clientControls
  | option (number : Int)
  deriving DecidableEq

/-- The value of a connection option. -/
inductive OptionValue
  | controls (controls : List Control)
  | int (value : Int)
  | text (value : PyStr)
  deriving DecidableEq

/-! ## What methods return -/

/-- `DN | str`: what `whoami` returns of an authorization identity. -/
inductive AuthzId
  | dn (dn : DN)
  | text (text : PyStr)

/-- A subclass of `ExtendedResponse`: its `responseName` and what its
constructor makes of a name and an encoded value. -/
structure ExtendedResponse where
  responseName : Option PyStr
  decode : Option PyStr → Bytes → Except PyExc ExtendedValue

/-! ## The environment -/

/-- The methods of python-ldap's LDAP objects, and its functions, that the
connection calls. -/
structure PythonLdap (ω : Type) where
  /-- `ldap.ldapobject.ReconnectLDAPObject(uri, fileno=…, retry_max=…)` -/
  reconnectLDAPObject : PyStr → Option Int → Nat → EStateM PyExc ω Obj
  /-- `ldap.ldapobject.SimpleLDAPObject(uri, fileno=…)` -/
  simpleLDAPObject : PyStr → Option Int → EStateM PyExc ω Obj
  /-- `hasattr(_, '_l')` -/
  hasL : ω → Obj → Bool
  fileno : ω → Obj → Int
  /-- `reconnect(uri, retry_max, retry_delay, force=…)` -/
  reconnect : Obj → PyStr → Nat → Bool → EStateM PyExc ω Unit
  startTlsS : Obj → EStateM PyExc ω Unit
  simpleBindS : Obj → SimpleBind → EStateM PyExc ω Unit
  saslInteractiveBindS : Obj → Sasl → EStateM PyExc ω Unit
  whoamiS : Obj → Option (List Control) × Option (List Control) → EStateM PyExc ω PyStr
  getOption : Obj → LdapOption → EStateM PyExc ω OptionValue
  setOption : Obj → LdapOption → OptionValue → EStateM PyExc ω Unit
  /-- The operations of `Request`: the message ID, or `None` where there is none. -/
  request : Obj → Operation → EStateM PyExc ω (Option Nat)
  /-- `result4(msgid, all=…, timeout=…, add_extop=1)` -/
  result4 : Obj → Nat → Bool → Int → EStateM PyExc ω Response
  /-- `ldap.dn.str2dn` -/
  str2dn : PyStr → Except LdapError (List (List Ava))
  /-- `decoder.decode(_, asn1Spec=univ.OctetString())` of pyasn1 -/
  decodeOctetString : Bytes → Except PyExc Bytes

/-- The event loop of `asyncio`. -/
structure EventLoop (ω : Type) where
  getRunningLoop : EStateM PyExc ω Unit
  /-- Wait until the descriptor of an LDAP object is readable, for at most the
  timeout where it is positive. -/
  readable : Obj → Int → EStateM PyExc ω Unit

/-- What is outside of FreeIAM. -/
structure Env (ω : Type) extends PythonLdap ω, EventLoop ω

/-- An environment in which every call returns at once and changes nothing, and
names have a single RDN. -/
def Env.idle (ω : Type) : Env ω where
  reconnectLDAPObject := fun _ _ _ => pure 0
  simpleLDAPObject := fun _ _ => pure 0
  hasL := fun _ _ => true
  fileno := fun _ _ => 3
  reconnect := fun _ _ _ _ => pure ()
  startTlsS := fun _ => pure ()
  simpleBindS := fun _ _ => pure ()
  saslInteractiveBindS := fun _ _ => pure ()
  whoamiS := fun _ _ => pure []
  getOption := fun _ _ => pure (.int 0)
  setOption := fun _ _ _ => pure ()
  request := fun _ _ => pure (some 1)
  result4 := fun _ _ _ _ => pure { type := none, data := none, msgid := none, ctrls := none }
  str2dn := fun dn => .ok [[(dn.takeWhile (· != 61), (dn.dropWhile (· != 61)).drop 1, 1)]]
  decodeOctetString := fun value => .ok (value.drop 2)
  getRunningLoop := pure ()
  readable := fun _ _ => pure ()

variable {ω : Type} (env : Env ω)

/-! ## Distinguished names and results -/

/-- `str.replace(r'\?', '?')` -/
def unquoteQuestionMark : PyStr → PyStr
  | 92 :: 63 :: cs => 63 :: unquoteQuestionMark cs
  | c :: cs => c :: unquoteQuestionMark cs
  | [] => []

/-- `DN.__init__`: a text that python-ldap cannot decode is tried once more
without the backslashes that Samba writes before question marks. -/
def DN.init (dn : PyStr) : Except PyExc DN :=
  match env.str2dn dn with
  | .ok rdns => .ok ⟨dn, rdns⟩
  | .error e =>
    if e.cls = .decodingError then
      match env.str2dn (unquoteQuestionMark dn) with
      | .ok rdns => .ok ⟨dn, rdns⟩
      | .error e' =>
        if e'.cls = .decodingError then
          .error (.lib { cls := .invalidDN, description := some "Malformed DN syntax"
                         info := some (.malformed dn (match e'.info with | some (.server t) => some t | _ => none)) })
        else .error (.ldap e')
    else .error (.ldap e)

/-- `dict(_)` of a list of texts: each has to be a pair of characters. -/
def dictOfTexts : List PyStr → List (PyStr × AttributeValue) → Except PyExc (List (PyStr × AttributeValue))
  | [], items => .ok items
  | [key, value] :: texts, items =>
    if items.any (fun item => item.1 = [key]) then
      dictOfTexts texts (items.map fun item => if item.1 = [key] then (item.1, .text [value]) else item)
    else dictOfTexts texts (items ++ [([key], .text [value])])
  | _ :: _, _ => .error (.valueError "dictionary update sequence element has the wrong length; 2 is required")

/-- `Attributes(attr)`: a copy of a `dict`; a list is read as one of pairs. -/
def Attributes.init : DatumValue → Except PyExc Attributes
  | .entry attributes => .ok ⟨attributes.map fun item => (item.1, .values item.2)⟩
  | .urls urls => (dictOfTexts urls []).map Attributes.mk

/-- `Result.from_response` -/
def Result.fromResponse (dn : Option PyStr) (attr : Option DatumValue) (controls : Option Controls)
    (response : Response) (extendedValue : Option ExtendedValue := none) : Except PyExc Result := do
  let dn ← dn.mapM (DN.init env)
  let attrs ← attr.mapM Attributes.init
  return { dn := dn, attr := attrs, controls := Result.controlResponse controls response.ctrls
           response := response, extendedValue := extendedValue }

/-- The results of the pairs of a response. -/
def Result.listFromResponse (controls : Option Controls) (response : Response)
    (data : List Datum) : Except PyExc (List Result) :=
  data.mapM fun datum => Result.fromResponse env datum.1 (some datum.2) controls response

end FreeIam.Ldap
