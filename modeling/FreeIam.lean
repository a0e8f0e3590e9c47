import FreeIam.Ldap.Components
import FreeIam.Ldap.Concatenation
import FreeIam.Ldap.Connection.AtMostOnce
import FreeIam.Ldap.Connection.Atomicity
import FreeIam.Ldap.Connection.Belonging
import FreeIam.Ldap.Connection.Cancellation
import FreeIam.Ldap.Connection.Carriage
import FreeIam.Ldap.Connection.ChangedDn
import FreeIam.Ldap.Connection.Classes
import FreeIam.Ldap.Connection.CompareDn
import FreeIam.Ldap.Connection.Completeness
import FreeIam.Ldap.Connection.DeleteRecursive
import FreeIam.Ldap.Connection.Enumeration
import FreeIam.Ldap.Connection.Exchange
import FreeIam.Ldap.Connection.AliasTables
import FreeIam.Ldap.Connection.Identity
import FreeIam.Ldap.Connection.Leftovers
import FreeIam.Ldap.Connection.Lookup
import FreeIam.Ldap.Connection.NoReconnect
import FreeIam.Ldap.Connection.Options
import FreeIam.Ldap.Connection.Paging
import FreeIam.Ldap.Connection.PagingServer
import FreeIam.Ldap.Connection.PageReader
import FreeIam.Ldap.Connection.Passwords
import FreeIam.Ldap.Connection.Pickle
import FreeIam.Ldap.Connection.Readers
import FreeIam.Ldap.Connection.Records
import FreeIam.Ldap.Connection.Rename
import FreeIam.Ldap.Connection.Retry
import FreeIam.Ldap.Connection.StartTls
import FreeIam.Ldap.Connection.Transaction
import FreeIam.Ldap.Connection.TransactionServer
import FreeIam.Ldap.Connection.Unique
import FreeIam.Ldap.Connection.Write
import FreeIam.Ldap.Dn
import FreeIam.Ldap.Filter.Acceptance
import FreeIam.Ldap.Filter.Assign
import FreeIam.Ldap.Filter.Attribute
import FreeIam.Ldap.Filter.Builders
import FreeIam.Ldap.Filter.Compose
import FreeIam.Ldap.Filter.Copy
import FreeIam.Ldap.Filter.Equality
import FreeIam.Ldap.Filter.Escaping
import FreeIam.Ldap.Filter.Expression
import FreeIam.Ldap.Filter.Format
import FreeIam.Ldap.Filter.Grammar
import FreeIam.Ldap.Filter.Injection
import FreeIam.Ldap.Filter.Layout
import FreeIam.Ldap.Filter.Lossless
import FreeIam.Ldap.Filter.Parser
import FreeIam.Ldap.Filter.Pretty
import FreeIam.Ldap.Filter.Reading
import FreeIam.Ldap.Filter.Query
import FreeIam.Ldap.Filter.Reprint
import FreeIam.Ldap.Filter.Resolver
import FreeIam.Ldap.Filter.Rewriting
import FreeIam.Ldap.Filter.Rfc4515
import FreeIam.Ldap.Filter.Strict
import FreeIam.Ldap.Filter.Substring
import FreeIam.Ldap.Filter.Transformer
import FreeIam.Ldap.Filter.Traversal
import FreeIam.Ldap.Filter.Unescape
import FreeIam.Ldap.Filter.Walk
import FreeIam.Ldap.Filter.Whitespace
import FreeIam.Ldap.DnSets
import FreeIam.Ldap.Hierarchy
import FreeIam.Ldap.Sorting
import FreeIam.Ldap.Tls
import FreeIam.Lib.Bracket
import FreeIam.Lib.Coupling
import FreeIam.Lib.Retry
import FreeIam.Lib.Subtree
import FreeIam.Lib.Trace
import FreeIam.Py.Repr
