import RpcHost.Server.Export
/-!
Deploying services on a server: make the provider, wrap it, route it, export it. A path that
is served already changes over to the new provider; if the export is refused, the old one is
put back.
-/
namespace RpcHost

def modifyServer (s : ServerRef) (f : Server → Server) : Step Unit :=
  modify fun h => { h with servers := h.servers.modify s f }

def addServer (s : Server) : Step ServerRef := do
  let h ← get
  set { h with servers := h.servers.add s }
  return h.servers.fresh

def serverEndpoint (x : ExtensionsRef) (u : UrlRef) : Step EndpointRef := do
  match ← makeEndpoint x u with
  | some e => return e
  | none =>
    writeLog .warning ["服务器扩展 ", (← getUrl u).protocol, " 不存在，使用进程内服务器\n"]
    addEndpoint ⟨u, none, false⟩

def newServer (c : ConfigurationRef) (x : ExtensionsRef) (u : UrlRef) : Step ServerRef := do
  let endpoint ← serverEndpoint x u
  let table ← match ← makeTable x Extensions.defaultName with
    | some t => pure t
    | none => addTable .empty
  setTable endpoint (some table)
  addServer ⟨c, x, endpoint, .empty⟩

def serverTable (s : ServerRef) : Step (Option TableRef) := do
  let h ← get
  return (h.endpoints.get (h.servers.get s).endpoint).table

def routeOn (s : ServerRef) (p : ProviderRef) : Step Unit := do
  match ← serverTable s with
  | some t => addProvider t p
  | none => return ()

def unrouteOn (s : ServerRef) (p : ProviderRef) : Step Unit := do
  match ← serverTable s with
  | some t => removeProvider t p
  | none => return ()

def keepExporter (s : ServerRef) (path : String) (e : ExporterRef) : Step Unit :=
  modifyServer s fun server => { server with exporters := server.exporters.insert path e }

def dropExporter (s : ServerRef) (path : String) : Step Unit :=
  modifyServer s fun server => { server with exporters := server.exporters.erase path }

def exportOn (s : ServerRef) (p : ProviderRef) : Attempt (ExporterRef × Status) := do
  let server := (← get).servers.get s
  let e ← addExporter { Exporter.fresh with provider := some p }
  let status ← exportBy e (some server.endpoint) server.extensions server.configuration
  return (e, status)

/-- Puts the provider of a replaced exporter back, under a new exporter. If that is refused
too, the path is no longer served. -/
def restore (s : ServerRef) (old : ExporterRef) : Attempt Unit := do
  match ((← get).exporters.get old).provider with
  | none => return ()
  | some p =>
    routeOn s p
    let (e, status) ← exportOn s p
    let path := (← get).pathOf p
    if status = .ok then
      writeLog .warning ["重新部署失败，服务 ", path, " 已恢复为旧版本\n"]
      keepExporter s path e
    else
      writeLog .error ["恢复服务 ", path, " 失败: ", status.reason, "\n"]
      unrouteOn s p
      destroyProvider p
      dropExporter s path

def destroyProviderOf (e : ExporterRef) : Step Unit := do
  match ((← get).exporters.get e).provider with
  | some p => destroyProvider p
  | none => return ()

/-- Routes and exports a provider at the path of `u`, in place of what is served there. -/
def deployProvider (s : ServerRef) (u : UrlRef) (p : ProviderRef) : Attempt Status := do
  routeOn s p
  let path := (← getUrl u).path
  let old := ((← get).servers.get s).exporters.find? path
  match old with
  | some old => let _ ← unexport old
  | none => pure ()
  let (e, status) ← exportOn s p
  let path := (← getUrl u).path
  if status = .ok then
    match old with
    | some old => destroyProviderOf old
    | none => pure ()
    keepExporter s path e
    return .ok
  else
    writeLog .error ["导出服务 ", path, " 失败: ", status.reason, "\n"]
    unrouteOn s p
    match old with
    | some old => restore s old
    | none => pure ()
    return status

def exportService (s : ServerRef) (u : UrlRef) (service : Option Service) : Attempt Status := do
  let server := (← get).servers.get s
  match ← makeProvider server.extensions u with
  | none =>
    writeLog .error ["创建provider失败, url: ", (← getUrl u).identity, "\n"]
    return .noProvider
  | some p =>
    setService p service
    let wrapped ← wrapProvider p server.extensions server.configuration
    deployProvider s u wrapped

/-- Exports the entries that have a business object, in the given order. The status is ok, or
that of the last export that was refused. -/
def exportEntries (s : ServerRef) (impls : Keyed (Option Service)) :
    List (String × UrlRef) → Status → Attempt Status
  | [], status => return status
  | (name, u) :: rest, status => do
    match impls.find? name with
    | none =>
      writeLog .warning ["服务 ", name, " 没有对应的业务对象，跳过\n"]
      exportEntries s impls rest status
    | some service =>
      let outcome ← exportService s u service
      exportEntries s impls rest (if outcome = .ok then status else outcome)

def exportAll (order : Traversal UrlRef) (s : ServerRef) (impls : Keyed (Option Service)) :
    Attempt Status := do
  let h ← get
  let services := (h.configurations.get (h.servers.get s).configuration).services
  exportEntries s impls (order.walk services) .ok

def retire (e : ExporterRef) : Attempt Status := do
  let status ← unexport e
  destroyProviderOf e
  return status

def unexportService (s : ServerRef) (path : String) : Attempt Status := do
  match ((← get).servers.get s).exporters.find? path with
  | none =>
    writeLog .warning ["服务 ", path, " 没有导出\n"]
    return .serviceNotFound
  | some e =>
    dropExporter s path
    retire e

def retireAll : List (String × ExporterRef) → Attempt Unit
  | [] => return ()
  | (_, e) :: rest => do
    let _ ← retire e
    retireAll rest

/-- Takes back all services and shuts the endpoint for good. -/
def destroyServer (order : Traversal ExporterRef) (s : ServerRef) : Attempt Unit := do
  let server := (← get).servers.get s
  modifyServer s fun server => { server with exporters := .empty }
  retireAll (order.walk server.exporters)
  destroyEndpoint server.endpoint

def handle (s : ServerRef) (q : Option RequestRef) : Step Response := do
  handleAt ((← get).servers.get s).endpoint q

end RpcHost
