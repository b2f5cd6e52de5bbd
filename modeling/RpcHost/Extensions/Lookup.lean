import RpcHost.Host.Basic
/-!
Making things by name. A registry is made once for an address and handed out again; all else
is made anew. A name without a constructor leaves a line in the log.
-/
namespace RpcHost

def addExtensions (x : Extensions) : Step ExtensionsRef := do
  let h ← get
  set { h with extensions := h.extensions.add x }
  return h.extensions.fresh

def modifyExtensions (x : ExtensionsRef) (f : Extensions → Extensions) : Step Unit :=
  modify fun h => { h with extensions := h.extensions.modify x f }

def addEndpoint (e : Endpoint) : Step EndpointRef := do
  let h ← get
  set { h with endpoints := h.endpoints.add e }
  return h.endpoints.fresh

def addTable (routes : Routes) : Step TableRef := do
  let h ← get
  set { h with tables := h.tables.add routes }
  return h.tables.fresh

def addRegistry (r : Registry) : Step RegistryRef := do
  let h ← get
  set { h with registries := h.registries.add r }
  return h.registries.fresh

def addProviderOn (b : Backend) : Step ProviderRef := do
  let h ← get
  set { h with
    backends := h.backends.add b
    providers := h.providers.add ⟨h.backends.fresh, [], none⟩ }
  return h.providers.fresh

def makeEndpoint (x : ExtensionsRef) (u : UrlRef) : Step (Option EndpointRef) := do
  let protocol := (← getUrl u).protocol
  match Extensions.usable ((← get).extensions.get x).endpoints protocol with
  | none =>
    writeLog .warning ["没有找到服务器扩展 ", protocol, "\n"]
    return none
  | some .nothing => return none
  | some .made => return some (← addEndpoint ⟨u, none, false⟩)

def makeTable (x : ExtensionsRef) (name : String) : Step (Option TableRef) := do
  match Extensions.usable ((← get).extensions.get x).tables name with
  | none =>
    writeLog .warning ["没有找到消息处理扩展 ", name, "\n"]
    return none
  | some .nothing => return none
  | some .made => return some (← addTable .empty)

/-- The prototype of that name; making a filter from it is another step. -/
def findFilter (x : ExtensionsRef) (name : String) : Step (Option FilterKind) := do
  match Extensions.usable ((← get).extensions.get x).filters name with
  | none =>
    writeLog .warning ["没有找到过滤器扩展 ", name, "\n"]
    return none
  | some maker => return maker

def makeProvider (x : ExtensionsRef) (u : UrlRef) : Step (Option ProviderRef) := do
  let url ← getUrl u
  let name := url.paramOr Url.providerKey Extensions.defaultName
  match Extensions.usable ((← get).extensions.get x).providers name with
  | none =>
    writeLog .warning ["没有找到provider扩展 ", name, "\n"]
    return none
  | some maker =>
    match maker.make u url with
    | none => return none
    | some backend => return some (← addProviderOn backend)

/-- The registry of an address: the one made before, or a new one that is kept. -/
def findRegistry (x : ExtensionsRef) (u : UrlRef) : Attempt (Option RegistryRef) := do
  let url ← getUrl u
  emit (.sought url.identity)
  let extensions := (← get).extensions.get x
  match extensions.instances.find? url.identity with
  | some registry => return some registry
  | none =>
    match extensions.registries.find? url.protocol with
    | none =>
      writeLog .warning ["没有找到注册中心扩展 ", url.protocol, "\n"]
      return none
    | some none => throw .emptyConstructor
    | some (some constructor) =>
      emit (.constructed constructor.label url.identity)
      match constructor.maker.make u with
      | .error fault => throw fault
      | .ok none => return none
      | .ok (some registry) =>
        let r ← addRegistry registry
        modifyExtensions x fun extensions =>
          { extensions with instances := extensions.instances.insert url.identity r }
        return some r

end RpcHost
