import RpcHost.Failure
import RpcHost.Handle
import RpcHost.Keyed
/-!
Registries, where services are announced under the identity of their address. A direct
registry keeps a set of identities. A scripted one remembers what it was asked, and may fail on
either operation.
-/
namespace RpcHost

abbrev UrlRef := Handle .url

abbrev RegistryRef := Handle .registry

inductive Demand where
  | register (identity : String)
  | unregister (identity : String)

/-- How a scripted registry answers a demand, by those it had before, the latest first. -/
abbrev RegistryScript := List Demand → Demand → Option Fault

inductive RegistryState where
  | direct (listed : Keyed Unit)
  | scripted (script : RegistryScript) (asked : List Demand)

structure Registry where
  name : String
  url : UrlRef
  state : RegistryState

namespace Registry

def directName : String := "direct"

instance : Inhabited Registry := ⟨⟨directName, default, .direct .empty⟩⟩

def lists (r : Registry) (identity : String) : Bool :=
  match r.state with
  | .direct listed => listed.contains identity
  | .scripted .. => false

end Registry

inductive RegistryMaker where
  | direct
  | scripted (name : String) (script : RegistryScript)
  | nothing
  | failing (fault : Fault)

def RegistryMaker.make (maker : RegistryMaker) (url : UrlRef) : Except Fault (Option Registry) :=
  match maker with
  | direct => .ok (some ⟨Registry.directName, url, .direct .empty⟩)
  | scripted name script => .ok (some ⟨name, url, .scripted script []⟩)
  | nothing => .ok none
  | failing fault => .error fault

end RpcHost
