import RpcHost.Configuration.Basic
import RpcHost.Extensions.Basic
/-!
What a server is made of. Routes lead from paths to providers. An endpoint answers requests by
its routes until it is destroyed. An exporter announces one provider at registries and takes
it back. A server keeps an exporter for each path that it serves.
-/
namespace RpcHost

abbrev EndpointRef := Handle .endpoint

abbrev ExporterRef := Handle .exporter

abbrev ServerRef := Handle .server

abbrev Routes := Keyed ProviderRef

structure Endpoint where
  url : UrlRef
  table : Option TableRef
  destroyed : Bool

instance : Inhabited Endpoint := ⟨⟨default, none, false⟩⟩

/-- `registries` are those that accepted the last export, in the order of their names. -/
structure Exporter where
  url : Option UrlRef
  registries : List RegistryRef
  endpoint : Option EndpointRef
  provider : Option ProviderRef
  available : Bool
  exported : Bool

namespace Exporter

def fresh : Exporter := ⟨none, [], none, none, false, false⟩

instance : Inhabited Exporter := ⟨fresh⟩

end Exporter

structure Server where
  configuration : ConfigurationRef
  extensions : ExtensionsRef
  endpoint : EndpointRef
  exporters : Keyed ExporterRef

instance : Inhabited Server := ⟨⟨default, default, default, .empty⟩⟩

end RpcHost
