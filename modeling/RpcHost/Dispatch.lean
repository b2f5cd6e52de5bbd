import RpcHost.Provider.Call
/-!
Dispatch of requests by service name. Whatever a provider does, the caller gets an answer:
a refusal is answered by its failure, and any other fault or no answer by a panic. A call that
ends follows each route at most once, so the number of routes bounds the depth of calls.
-/
namespace RpcHost

def clearTable (t : TableRef) : Step Unit :=
  modify fun h => { h with tables := h.tables.set t .empty }

def answerEmptyRequest : Step Response := do
  writeLog .error ["收到空的请求\n"]
  return .ofFailure "" (.serviceError "empty request")

def answerNoProvider (q : Option RequestRef) : Step Response := do
  let info ← requestInfo q
  writeLog .error ["not found provider for ", info, "\n"]
  let rid ← requestRid q
  return .ofFailure rid (.serviceError ("not found provider for " ++ (← requestService q)))

def answerPanic (q : Option RequestRef) : Step Response := do
  return .ofFailure (← requestRid q) (.serviceError "provider call panic")

def answerFault (fault : Fault) (q : Option RequestRef) : Step Response := do
  let info ← requestInfo q
  match fault with
  | .refusal failure =>
    writeLog .warning ["provider call error. req:", info, ", err:", failure.message, "\n"]
    return .ofFailure (← requestRid q) failure
  | _ =>
    writeLog .error ["provider call panic. req:", info, ", err:",
      fault.reason?.getD "unknown", "\n"]
    answerPanic q

def answerSilence (q : Option RequestRef) : Step Response := do
  let info ← requestInfo q
  writeLog .error ["provider返回了空的响应. req:", info, "\n"]
  answerPanic q

/-- The hint has 32 bits; a longer number keeps its low ones. -/
def hintOf (n : Int) : Int := n.bmod 4294967296

def withGzipSize (p : ProviderRef) (r : Response) : Step Response := do
  let n ← readIntParam ((← get).addressOf p) Url.gzipSizeKey 0
  return { r with gzipSize := some (hintOf n) }

/-- Dispatch by a table, where `call` is the call of a provider. -/
def dispatchWith (call : ProviderRef → Option RequestRef → Attempt (Option Response))
    (t : TableRef) : Option RequestRef → Step Response
  | none => answerEmptyRequest
  | some q => do
    let service ← requestService (some q)
    match ((← get).tables.get t).find? service with
    | none => answerNoProvider (some q)
    | some p =>
      match ← (call p (some q)).run with
      | .error fault => answerFault fault (some q)
      | .ok none => answerSilence (some q)
      | .ok (some r) => withGzipSize p r

/-- A call that may be sent on `depth` times. -/
def callAtDepth : Nat → ProviderRef → Option RequestRef → Attempt (Option Response)
  | 0 => callProviderWith fun _ _ => throw .unknown
  | depth + 1 => callProviderWith fun t q => do return some (← dispatchWith (callAtDepth depth) t q)

def Host.routeCount (h : Host) : Nat :=
  h.tables.cells.foldr (fun cell n => cell.2.size + n) 0

def callProvider (p : ProviderRef) (q : Option RequestRef) : Attempt (Option Response) := do
  callAtDepth ((← get).routeCount + 1) p q

def dispatch (t : TableRef) (q : Option RequestRef) : Step Response := do
  dispatchWith (callAtDepth ((← get).routeCount + 1)) t q

def callFilter (f : FilterRef) (p : ProviderRef) (q : Option RequestRef) :
    Attempt (Option Response) := do
  let h ← get
  callThrough q (callProvider p q) ((h.chainOf f).map fun f => (h.filters.get f).kind)

end RpcHost
