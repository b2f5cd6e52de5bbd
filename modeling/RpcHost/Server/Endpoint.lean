import RpcHost.Dispatch
/-!
An endpoint hands requests to its dispatch table. Without a table, and for good once it is
destroyed, it answers that it is unavailable.
-/
namespace RpcHost

def modifyEndpoint (e : EndpointRef) (f : Endpoint → Endpoint) : Step Unit :=
  modify fun h => { h with endpoints := h.endpoints.modify e f }

def setTable (e : EndpointRef) (t : Option TableRef) : Step Unit :=
  modifyEndpoint e fun endpoint => { endpoint with table := t }

def setEndpointUrl (e : EndpointRef) (u : UrlRef) : Step Unit :=
  modifyEndpoint e fun endpoint => { endpoint with url := u }

def destroyEndpoint (e : EndpointRef) : Step Unit :=
  modifyEndpoint e fun endpoint => { endpoint with destroyed := true }

def Endpoint.servingTable (e : Endpoint) : Option TableRef :=
  if e.destroyed then none else e.table

def answerDestroyed (q : Option RequestRef) : Step Response := do
  let info ← requestInfo q
  writeLog .warning ["服务器不可用. req:", info, "\n"]
  return .ofFailure (← requestRid q) (.unavailable "server is destroyed")

def handleAt (e : EndpointRef) (q : Option RequestRef) : Step Response := do
  match ((← get).endpoints.get e).servingTable with
  | none => answerDestroyed q
  | some t => dispatch t q

end RpcHost
