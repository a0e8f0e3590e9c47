import FreeIam.Ldap.Wrapper

/-!
# Errors

python-ldap raises subclasses of `ldap.LDAPError`; `errors.py` has a class of
its own for each of them and `LdapError.wrap` translates. Both sides share one
enumeration of classes here, and an exception says from which side it is.
-/

namespace FreeIam.Errors

open FreeIam.Py FreeIam.Ldap

/-- The error classes that the connection tells apart, the others by their name. -/
inductive LdapErrorClass
  | serverDown | unavailable | connectError | timeout
  | operationsError | protocolError | invalidCredentials
  | noSuchObject | noSuchOperation | noResultsReturned
  | cancelled | success | tooLate
  | decodingError | invalidDN
  | other (name : String)
  deriving DecidableEq

/-- The `info` of an error: the text of the server, or one that FreeIAM formats. -/
inductive Info
  | server (text : PyStr)
  /-- `f'expected: {responseName}; got: {name}'` -/
  | responseNames (expected got : Option PyStr)
  /-- `f'{dn!r}: {exc}'.removesuffix(': ')` -/
  | malformed (dn : PyStr) (exc : Option PyStr)
  deriving DecidableEq

/-- What a search that failed with `NoSuchObject` adds to the error; a comparison adds
the name only. -/
structure SearchedFor where
  baseDn : DN
  filter : Option PyStr := none
  scope : Option Scope := none
  attrs : Option (List PyStr) := none
  deriving DecidableEq

/-- An LDAP error: its class, `description` and `info`. -/
structure LdapError where
  cls : LdapErrorClass
  description : Option String := none
  info : Option Info := none
  searched : Option SearchedFor := none
  deriving DecidableEq

/-- The exceptions of the modelled code. -/
inductive PyExc
  /-- A subclass of `ldap.LDAPError`, as python-ldap raises it. -/
  | ldap (error : LdapError)
  /-- A subclass of `freeiam.errors.LdapError`. -/
  | lib (error : LdapError)
  /-- `freeiam.errors.NotUnique`. -/
  | notUnique (results : List Result)
  | runtimeError (message : String)
  | attributeError (message : String)
  | assertionError
  | valueError (message : String)
  | indexError
  | keyError
  | osError
  /-- `asyncio.TimeoutError`. -/
  | timeoutError
  /-- Any other exception, by its name, such as one of the body of a `with`. -/
  | raised (name : String)
  /-- No exception of the source: the rounds given to a polling loop are used up
  while it still waits. -/
  | polling
  deriving DecidableEq

/-- `LdapError.wrap` on one exception: an error of python-ldap becomes the FreeIAM
error of its class. -/
def PyExc.wrap : PyExc → PyExc
  | .ldap e => .lib e
  | e => e

/-- The exceptions after which `_retry` tries again. -/
def PyExc.lost : PyExc → Bool
  | .lib e => e.cls = .serverDown || e.cls = .unavailable || e.cls = .connectError || e.cls = .timeout
  | _ => false

/-- Whether an exception is the FreeIAM error of a class. -/
def PyExc.is (cls : LdapErrorClass) : PyExc → Bool
  | .lib e => e.cls = cls
  | _ => false

end FreeIam.Errors
