import RpcHost.Registry.Registration
import RpcHost.Server.Endpoint
import RpcHost.Status
/-!
Exporting a provider announces its address at each registry that the address lists; a name
that leads to no registry, or to one that fails, is passed over. Taking the export back
withdraws the address from the registries that accepted it, and the provider from the routes.
-/
namespace RpcHost

def addExporter (e : Exporter) : Step ExporterRef := do
  let h ← get
  set { h with exporters := h.exporters.add e }
  return h.exporters.fresh

def modifyExporter (e : ExporterRef) (f : Exporter → Exporter) : Step Unit :=
  modify fun h => { h with exporters := h.exporters.modify e f }

def identityOf : Option UrlRef → Step String
  | none => return ""
  | some u => return (← getUrl u).identity

/-- The registry of that name, after it accepted the address. A fault of which nothing is
known is not caught. -/
def registerAt (x : ExtensionsRef) (c : ConfigurationRef) (u : UrlRef) (name : String) :
    Attempt (Option RegistryRef) := do
  match ((← get).configurations.get c).registries.find? name with
  | none =>
    writeLog .error ["registry is invalid: ", name, "\n"]
    return none
  | some registryUrl =>
    match ← findRegistry x registryUrl with
    | none =>
      writeLog .error ["registry extension not found: ", name, "\n"]
      return none
    | some r =>
      tryCatch (do registerService r u; return some r) fun fault => do
        match fault.reason? with
        | none => throw fault
        | some reason =>
          writeLog .error ["register to ", name, " failed: ", reason, "\n"]
          return none

def registerAll (x : ExtensionsRef) (c : ConfigurationRef) (u : UrlRef) :
    List String → Attempt (List RegistryRef)
  | [] => return []
  | name :: rest => do
    let accepted ← registerAt x c u name
    let others ← registerAll x c u rest
    return accepted.toList ++ others

def announce (e : ExporterRef) (endpoint : Option EndpointRef) (x : ExtensionsRef)
    (c : ConfigurationRef) (u : UrlRef) : Attempt Status := do
  modifyExporter e fun exporter => { exporter with endpoint, url := some u }
  let registries ← registerAll x c u ((← getUrl u).listParam Url.registryKey)
  modifyExporter e fun exporter =>
    { exporter with registries, exported := true, available := true }
  writeLog .info ["export url ", (← getUrl u).identity, " success.\n"]
  return .ok

def exportBy (e : ExporterRef) (endpoint : Option EndpointRef) (x : ExtensionsRef)
    (c : ConfigurationRef) : Attempt Status := do
  let exporter := (← get).exporters.get e
  if exporter.exported then
    writeLog .error ["exporter already exported, url: ", ← identityOf exporter.url, "\n"]
    return .alreadyExported
  else
    match exporter.provider with
    | none =>
      writeLog .error ["no provider for export\n"]
      return .noProvider
    | some p =>
      let u := (← get).addressOf p
      modifyUrl u fun url => url.putParam Url.nodeTypeKey "service"
      let url ← getUrl u
      if url.hasParam Url.registryKey then announce e endpoint x c u
      else
        writeLog .error ["registry not found! url ", url.identity, "\n"]
        return .registryNotFound

/-- Withdraws an address from each registry. A fault with a reason is passed over. -/
def unregisterAll (u : UrlRef) : List RegistryRef → Attempt Unit
  | [] => return ()
  | r :: rest => do
    tryCatch (unregisterService r u) fun fault => do
      match fault.reason? with
      | none => throw fault
      | some reason =>
        let name := ((← get).registries.get r).name
        writeLog .error ["unregister from ", name, " failed: ", reason, "\n"]
    unregisterAll u rest

def unroute (endpoint : Option EndpointRef) (provider : Option ProviderRef) : Step Unit := do
  match endpoint, provider with
  | some endpoint, some p =>
    match ((← get).endpoints.get endpoint).table with
    | some t => removeProvider t p
    | none => return ()
  | _, _ => return ()

def unexport (e : ExporterRef) : Attempt Status := do
  let exporter := (← get).exporters.get e
  if exporter.exported then
    match exporter.url with
    | some u => unregisterAll u exporter.registries
    | none => pure ()
    unroute exporter.endpoint exporter.provider
    modifyExporter e fun exporter => { exporter with exported := false }
    writeLog .info ["unexport url ", ← identityOf exporter.url, " success.\n"]
  return .ok

def setExporterProvider (e : ExporterRef) (p : Option ProviderRef) : Step Unit :=
  modifyExporter e fun exporter => { exporter with provider := p }

def setExporterUrl (e : ExporterRef) (u : Option UrlRef) : Step Unit :=
  modifyExporter e fun exporter => { exporter with url := u }

def setAvailable (e : ExporterRef) (available : Bool) : Step Unit :=
  modifyExporter e fun exporter => { exporter with available }

end RpcHost
