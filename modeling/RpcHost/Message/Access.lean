import RpcHost.Host.Basic
import RpcHost.Message.Response
/-!
Reading the requests that a process holds. Each reading returns the value and leaves the mark
of having looked. Where there is no request, all texts are empty.
-/
namespace RpcHost

def addRequest (q : Request) : Step RequestRef := do
  let h ← get
  set { h with requests := h.requests.add q }
  return h.requests.fresh

def modifyRequest (q : RequestRef) (f : Request → Request) : Step Unit :=
  modify fun h => { h with requests := h.requests.modify q f }

/-- The value that `view` shows, after leaving the mark of `mark`. -/
def readRequest {α : Type} (mark : Request → Request) (view : Request → α) (q : RequestRef) :
    Step α := do
  let request := (← get).requests.get q
  modifyRequest q mark
  return view request

def requestRid : Option RequestRef → Step String
  | none => return ""
  | some q => return ((← get).requests.get q).rid

def requestService : Option RequestRef → Step String
  | none => return ""
  | some q => readRequest Request.serviceSeen (·.service.value) q

def requestMethod : Option RequestRef → Step String
  | none => return ""
  | some q => readRequest Request.methodSeen (·.method.value) q

def requestParams : Option RequestRef → Step Json
  | none => return .null
  | some q => readRequest Request.paramsSeen Request.parameters q

def requestInfo : Option RequestRef → Step String
  | none => return "null request"
  | some q => readRequest Request.infoSeen Request.info q

def checkRequest (q : RequestRef) : Step Bool := do
  let (defect, request) := ((← get).requests.get q).check
  modifyRequest q fun _ => request
  match defect with
  | none => return true
  | some defect =>
    writeLog .error [defect.message]
    return false

def checkResponse (r : Response) : Step (Bool × Response) := do
  if !r.isComplete then writeLog .error [Response.incompleteMessage]
  return (r.isComplete, r.checked)

end RpcHost
