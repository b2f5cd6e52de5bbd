import RpcHost.Failure
import RpcHost.Registry.Basic
/-!
Filters stand around a provider and see each call first. A filter is made from a prototype
for one address and then linked to the filter that comes after it. One filter, the terminal,
is shared by all chains: it calls the provider and cannot be linked further.
-/
namespace RpcHost

abbrev FilterRef := Handle .filter

abbrev ConfigurationRef := Handle .configuration

inductive FilterKind where
  | recording (name : String)
  | accessLog
  | terminal
  | throwing (name : String) (fault : Fault)
  | answering (name : String) (failure : Failure)
  /-- Goes on twice and answers with the second answer. -/
  | repeating (name : String)
  /-- Has no way to go on, so no place in a chain. -/
  | inert (name : String)
  /-- Cannot be made for any address. -/
  | unbound (name : String)
  deriving DecidableEq, Repr

namespace FilterKind

def name : FilterKind → String
  | recording name => name
  | accessLog => "accessLog"
  | terminal => "lastEndPointFilter"
  | throwing name _ => name
  | answering name _ => name
  | repeating name => name
  | inert name => name
  | unbound name => name

def forwards : FilterKind → Bool
  | inert _ => false
  | unbound _ => false
  | _ => true

def keepsContext : FilterKind → Bool
  | recording _ => true
  | _ => false

end FilterKind

structure FilterNode where
  kind : FilterKind
  next : Option FilterRef
  url : Option UrlRef
  context : Option ConfigurationRef

namespace FilterNode

def ofKind (kind : FilterKind) : FilterNode := ⟨kind, none, none, none⟩

instance : Inhabited FilterNode := ⟨ofKind .terminal⟩

end FilterNode

/-- What a filter constructor gives: a prototype, or nothing. -/
abbrev FilterMaker := Option FilterKind

end RpcHost
