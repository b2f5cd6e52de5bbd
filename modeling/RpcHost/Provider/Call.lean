import RpcHost.Filter.Chain
/-!
What backends do with a call, and the call of a provider through its layers. A scripted
backend may send the call on to a dispatch table; how that is done is a parameter here.
-/
namespace RpcHost

def modifyBackend (b : BackendRef) (f : Backend → Backend) : Step Unit :=
  modify fun h => { h with backends := h.backends.modify b f }

def addMethods (t : MethodTable) : Step MethodsRef := do
  let h ← get
  set { h with methods := h.methods.add t }
  return h.methods.fresh

def buildMethod (d : MethodDraft) : Step (Option Method) := do
  match d.build? with
  | some m => return some m
  | none =>
    writeLog .error ["方法描述不完整, name: ", d.name, "\n"]
    return none

def addMethod (t : MethodsRef) (d : MethodDraft) : Step Bool := do
  match ← buildMethod d with
  | none => return false
  | some m =>
    modify fun h => { h with methods := h.methods.modify t fun table => table.addMethod m }
    return true

def runMethod (m : Method) (given : Json) : Attempt Json := do
  emit (.ran m.name given m.announced)
  match m.run given with
  | .ok result => return result
  | .error fault => throw fault

/-- A standard backend takes a table of methods only; a scripted one takes anything. -/
def setService (p : ProviderRef) (service : Option Service) : Step Unit := do
  let h ← get
  let b := (h.providers.get p).backend
  match (h.backends.get b).engine with
  | .standard _ =>
    match service with
    | some (.methods table) =>
      modifyBackend b fun backend => { backend with engine := .standard (some table) }
    | _ =>
      writeLog .error ["DefaultProvider只接受MethodTable类型的业务对象, path: ", h.pathOf p, "\n"]
  | .scripted behaviour first calls memory _ =>
    modifyBackend b fun backend =>
      { backend with engine := .scripted behaviour first calls memory service }

def setProviderUrl (p : ProviderRef) (u : UrlRef) : Step Unit := do
  modifyBackend ((← get).providers.get p).backend fun backend => { backend with url := u }

def destroyProvider (p : ProviderRef) : Step Unit := do
  let b := ((← get).providers.get p).backend
  modifyBackend b Backend.destroyed
  emit (.retired b)

def answerUnavailable (path : String) (q : Option RequestRef) : Step Response := do
  let info ← requestInfo q
  writeLog .error ["provider ", path, " 不可用, ", info, "\n"]
  return .ofFailure (← requestRid q) (.unavailable ("provider " ++ path ++ " is unavailable."))

def answerUnknownMethod (name : String) (q : Option RequestRef) : Step Response := do
  let info ← requestInfo q
  writeLog .error ["方法 ", name, " 不存在, ", info, "\n"]
  return .ofFailure (← requestRid q)
    (.serviceError ("method " ++ name ++ " is not found in provider."))

def answerInvalidParams (name field : String) (q : Option RequestRef) : Step Response := do
  writeLog .warning ["方法 ", name, " 的参数 ", field, " 缺失或类型错误\n"]
  return .ofFailure (← requestRid q) (.serviceError ("invalid params for " ++ name))

/-- A failure that the business logic raises reaches the caller as one of that kind. -/
def answerRefusal (name : String) (failure : Failure) (q : Option RequestRef) :
    Step Response := do
  writeLog .warning ["方法 ", name, " 业务异常: ", failure.message, "\n"]
  return .ofFailure (← requestRid q) { failure with kind := .business }

def answerInvalidResult (name : String) (q : Option RequestRef) : Step Response := do
  writeLog .warning ["方法 ", name, " 的返回值类型错误\n"]
  return .ofFailure (← requestRid q) (.serviceError ("invalid return value of " ++ name))

def callMethod (m : Method) (name : String) (q : Option RequestRef) : Attempt Response := do
  let given ← requestParams q
  match m.offendingParam? given with
  | some field => answerInvalidParams name field q
  | none =>
    emit (.ran m.name given m.announced)
    match m.run given with
    | .error (.refusal failure) => answerRefusal name failure q
    | .error fault => throw fault
    | .ok result =>
      if m.returns.admits result then return .ofResult (← requestRid q) result
      else answerInvalidResult name q

def callStandard (available : Bool) (methods : Option MethodsRef) (path : String)
    (q : Option RequestRef) : Attempt Response := do
  match available, methods with
  | true, some table =>
    let name ← requestMethod q
    match ((← get).methods.get table).find? name with
    | none => answerUnknownMethod name q
    | some m => callMethod m name q
  | _, _ => answerUnavailable path q

abbrev Forwarding := TableRef → Option RequestRef → Attempt (Option Response)

def forwardedRequest (service : String) (q : Option RequestRef) : Step RequestRef := do
  let rid ← requestRid q
  let method ← requestMethod q
  let params ← requestParams q
  addRequest { Request.empty with
    rid := rid ++ "+", service := .text service, method := .text method, params := some params }

/-- Takes the provider out of the table, if it is the one at its path. -/
def removeProvider (t : TableRef) (p : ProviderRef) : Step Unit := do
  let h ← get
  let path := h.pathOf p
  if (h.tables.get t).find? path = some p then
    set { h with tables := h.tables.modify t fun routes => routes.erase path }
    emit (.unrouted t path)

def addProvider (t : TableRef) (p : ProviderRef) : Step Unit := do
  let h ← get
  let path := h.pathOf p
  set { h with tables := h.tables.modify t fun routes => routes.insert path p }
  emit (.routed t path p)

def editRequest : Option RequestRef → (Request → Request) → Step Unit
  | none, _ => return ()
  | some q, edit => modifyRequest q edit

def recordVisit (b : BackendRef) (engine : Engine) (q : Option RequestRef)
    (edit : Request → Request) : Step Unit := do
  editRequest q edit
  modifyBackend b fun backend => { backend with engine }

/-- How the call of a scripted backend ends; `outcome` is for one that ends it by itself. -/
def behave (forwarding : Forwarding) (behaviour : Behaviour) (firstPath : String)
    (outcome : Except Fault (Option Response)) (q : Option RequestRef) :
    Attempt (Option Response) := do
  match behaviour with
  | .own .. =>
    match outcome with
    | .ok answer => return answer
    | .error fault => throw fault
  | .forward table service => forwarding table (some (← forwardedRequest service q))
  | .withdraw table =>
    match ((← get).tables.get table).find? firstPath with
    | some p => removeProvider table p
    | none => pure ()
    return some (.ofResult (← requestRid q) (.str "gone"))

def callBackend (forwarding : Forwarding) (b : BackendRef) (q : Option RequestRef) :
    Attempt (Option Response) := do
  let h ← get
  let backend := h.backends.get b
  let path := (h.urls.get backend.url).path
  match backend.engine with
  | .standard methods => return some (← callStandard backend.available methods path q)
  | .scripted behaviour first calls memory service =>
    let firstPath := (h.urls.get first).path
    let reaction := behaviour.react ⟨path, firstPath, memory, q.map h.requests.get⟩
    recordVisit b (.scripted behaviour first (calls + 1) reaction.memory service) q reaction.edit
    if behaviour.announces then emit (.called firstPath)
    behave forwarding behaviour firstPath reaction.outcome q

def callLayers (q : Option RequestRef) (call : Attempt (Option Response)) :
    List (List FilterKind) → Attempt (Option Response)
  | [] => call
  | chain :: rest => callThrough q (callLayers q call rest) chain

def callProviderWith (forwarding : Forwarding) (p : ProviderRef) (q : Option RequestRef) :
    Attempt (Option Response) := do
  let h ← get
  let provider := h.providers.get p
  let chains := provider.layers.map fun head =>
    (h.chainOf head).map fun f => (h.filters.get f).kind
  callLayers q (callBackend forwarding provider.backend q) chains

end RpcHost
