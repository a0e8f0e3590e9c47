import FreeIam.Py.Str

/-!
# The data of requests and responses

The wrappers of `_wrapper.py` with the values they hold: controls, the raw
response of `result4`, attributes, distinguished names, results. A value that
the connection only passes on has the type of its texts.
-/

namespace FreeIam.Ldap

open FreeIam.Py

/-- Python `bytes`. -/
abbrev Bytes := List UInt8

/-! ## Controls -/

/-- What a control encodes. -/
inductive ControlValue
  /-- `SSSRequestControl`: the ordering rules. -/
  | sorting (rules : List PyStr)
  /-- `TransactionSpecificationControl`: the transaction identifier. -/
  | transaction (txnId : Bytes)
  /-- `SimplePagedResultsControl`, in a request and in a response. -/
  | paged (size : Int) (cookie : Bytes)
  /-- `VLVRequestControl`, by offset. -/
  | vlv (beforeCount afterCount offset contentCount : Int) (contextId : Option Bytes)
  /-- `VLVResponseControl` -/
  | vlvResponse (contentCount : Int) (contextId : Option Bytes)
  /-- Any other control. -/
  | encoded (value : Option Bytes)
  deriving DecidableEq

/-- A control of python-ldap, for a request or in a response. -/
structure Control where
  controlType : String
  criticality : Bool
  value : ControlValue
  deriving DecidableEq

/-- `Controls`: the LDAP request controls. -/
structure Controls where
  server : Option (List Control) := none
  client : Option (List Control) := none
  response : Option (List Control) := none
  deriving DecidableEq

/-- `Controls.expand`: the keyword arguments `serverctrls` and `clientctrls`. -/
def Controls.expand : Option Controls → Option (List Control) × Option (List Control)
  | none => (none, none)
  | some controls => (controls.server, controls.client)

/-- `Controls.set_server`; `none` is the failed assertion that there is a server
list. The source updates the object it is given and returns it. -/
def Controls.setServer (controls : Option Controls) (control : Control) : Option Controls :=
  let ctrls := controls.getD { server := some [] }
  ctrls.server.map fun server =>
    { ctrls with
      server := some (server.filter (fun ctrl => ctrl.controlType != control.controlType) ++ [control]) }

/-- `Controls.append_server`, with the same assertion. -/
def Controls.appendServer (controls : Option Controls) (control : Control) : Option Controls :=
  let ctrls := controls.getD { server := some [] }
  ctrls.server.map fun server => { ctrls with server := some (server ++ [control]) }

/-- `Controls.get`: the first response control of a type. -/
def Controls.get (controls : Controls) (controlType : String) : Option Control :=
  (controls.response.getD []).find? fun ctrl => ctrl.controlType == controlType

/-- A rule of `Sorting`: a text, or attribute, matching rule and reverse flag. -/
inductive SortRule
  | text (text : PyStr)
  | rule (attr : PyStr) (matchingrule : Option PyStr) (reverse : Bool)

/-- `'{}{}{}{}'.format('-' if reverse else '', by, ':' if matchingrule else '', matchingrule)`:
without a matching rule the last field prints `None`. -/
def SortRule.format : SortRule → PyStr
  | .text s => s
  | .rule attr matchingrule reverse =>
    (if reverse then py "-" else []) ++ attr ++
      (if (matchingrule.getD []).isEmpty then [] else py ":") ++ matchingrule.getD (py "None")

/-- `SSSRequestControl.controlType` -/
def sortingType : String := "1.2.840.113556.1.4.473"

/-- `SimplePagedResultsControl.controlType` -/
def pagedType : String := "1.2.840.113556.1.4.319"

/-- `VLVRequestControl.controlType` -/
def vlvType : String := "2.16.840.1.113730.3.4.9"

/-- `VLVResponseControl.controlType` -/
def vlvResponseType : String := "2.16.840.1.113730.3.4.10"

/-- `server_side_sorting`. -/
def serverSideSorting (orderingRules : List SortRule) (criticality : Bool := false) : Control :=
  { controlType := "1.2.840.113556.1.4.473", criticality := criticality
    value := .sorting (orderingRules.map SortRule.format) }

/-- `simple_paged_results` -/
def simplePagedResults (size : Int) (cookie : Bytes) (criticality : Bool := false) : Control :=
  { controlType := pagedType, criticality := criticality, value := .paged size cookie }

/-- `virtual_list_view`, without `greater_than_or_equal`. -/
def virtualListView (beforeCount afterCount offset contentCount : Int) (contextId : Option Bytes)
    (criticality : Bool := false) : Control :=
  { controlType := vlvType, criticality := criticality
    value := .vlv beforeCount afterCount offset contentCount contextId }

/-- `controls.transaction`: the `TransactionSpecificationControl`. -/
def transactionControl (transactionId : Option Bytes) (criticality : Bool := true) : Control :=
  { controlType := "1.3.6.1.1.21.2", criticality := criticality
    value := .transaction (transactionId.getD []) }

/-! ## Distinguished names -/

/-- An attribute value assertion of an RDN: type, value, AVA type. -/
abbrev Ava := PyStr × PyStr × Nat

/-- `DN`: the text it was made from and its RDNs. -/
structure DN where
  dn : PyStr
  rdns : List (List Ava)
  deriving DecidableEq

/-! ## Searches -/

/-- `Scope`. -/
inductive Scope
  | base | onelevel | subtree | subordinate
  deriving DecidableEq

/-! ## Responses -/

/-- `ResponseType`. -/
inductive ResponseType
  | add | any | bind | compare | delete | extended | intermediate | modify | modRDN
  | searchEntry | searchReference | searchResult | unsolicited
  deriving DecidableEq

/-- The second component of a pair in a response's data: the attributes of an
entry, or the URLs of a reference. -/
inductive DatumValue
  | entry (attributes : List (PyStr × List Bytes))
  | urls (urls : List PyStr)
  deriving DecidableEq

/-- A pair of a response's data. -/
abbrev Datum := Option PyStr × DatumValue

/-- `_Response`: what `result4` returned. -/
structure Response where
  type : Option ResponseType
  data : Option (List Datum)
  msgid : Option Nat
  ctrls : Option (List Control)
  name : Option PyStr := none
  value : Option Bytes := none
  deriving DecidableEq

/-! ## Results -/

/-- A value of `Attributes`: the values of an attribute, or the second character
of a text the mapping was built from. -/
inductive AttributeValue
  | values (values : List Bytes)
  | text (text : PyStr)
  deriving DecidableEq

/-- `Attributes`: a `dict`, its items in insertion order. -/
structure Attributes where
  items : List (PyStr × AttributeValue)
  deriving DecidableEq

/-- What the response class of an extended operation decodes. -/
inductive ExtendedValue
  | bytes (value : Bytes)
  | int (value : Int)
  deriving DecidableEq

/-- `Page`: a page of a paginated search result. -/
structure Page where
  page : Int
  entry : Int
  pageSize : Int
  results : Option Int := none
  lastPage : Option Int := none
  deriving DecidableEq

/-- `Page.is_last_in_page` -/
def Page.isLastInPage (self : Page) : Bool := self.pageSize == self.entry

/-- `Result`: the wrapped result of an operation. -/
structure Result where
  dn : Option DN
  attr : Option Attributes
  controls : Controls
  response : Response
  page : Option Page := none
  extendedValue : Option ExtendedValue := none
  deriving DecidableEq

/-- `Result._control_response`. -/
def Result.controlResponse (controls : Option Controls) (responseCtrls : Option (List Control)) :
    Controls :=
  match controls with
  | none => { response := responseCtrls }
  | some controls => { server := controls.server, client := controls.client, response := responseCtrls }

/-- `Result.set_controls`: the caller's controls get the response controls. -/
def Result.setControls (response : Response) (controls : Option Controls) : Option Controls :=
  controls.map fun controls => { controls with response := response.ctrls }

end FreeIam.Ldap
