import RpcHost.Json.Basic
import RpcHost.Registry.Basic
/-!
The configuration in force: the document it came from, the file it was read from last, and the
addresses of registries, base services and services by name.
-/
namespace RpcHost

structure Configuration where
  file : String
  document : Json
  registries : Keyed UrlRef
  basics : Keyed UrlRef
  services : Keyed UrlRef

namespace Configuration

def empty : Configuration := ⟨"", .null, .empty, .empty, .empty⟩

instance : Inhabited Configuration := ⟨empty⟩

def registrySection : String := "registries"

def basicSection : String := "basicServices"

def serviceSection : String := "services"

def logSection : String := "log"

end Configuration

end RpcHost
