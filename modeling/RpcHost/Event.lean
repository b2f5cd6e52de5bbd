import RpcHost.Provider.Basic
/-!
What happened in a process, in order. The events that leave a mark in the trace have a text;
the others serve to say which calls and changes there were.
-/
namespace RpcHost

inductive Event where
  | entered (filter : String)
  | left (filter : String)
  | called (path : String)
  | ran (method : String) (given : Json) (announced : Bool)
  | sought (identity : String)
  | constructed (label : Option String) (identity : String)
  | registered (registry : RegistryRef) (host : Option String) (identity : String) (taken : Bool)
  | unregistered (registry : RegistryRef) (host : Option String) (identity : String) (taken : Bool)
  | routed (table : TableRef) (path : String) (provider : ProviderRef)
  | unrouted (table : TableRef) (path : String)
  | retired (backend : BackendRef)

/-- The mark in the trace; `host` and `label` are there where the registry leaves marks. -/
def Event.trace? : Event → Option String
  | entered filter => some filter
  | left filter => some ("~" ++ filter)
  | called path => some ("call " ++ path)
  | ran method _ announced => if announced then some ("method " ++ method) else none
  | sought _ => none
  | constructed label identity => label.map fun label => "new " ++ label ++ " " ++ identity
  | registered _ host identity _ => host.map fun host => "reg " ++ host ++ " " ++ identity
  | unregistered _ host identity _ => host.map fun host => "unreg " ++ host ++ " " ++ identity
  | routed .. => none
  | unrouted .. => none
  | retired _ => none

def trace (events : List Event) : List String := events.filterMap Event.trace?

end RpcHost
