import RpcHost.Calculator
import RpcHost.Configuration.Load
import RpcHost.Json.Writer
import RpcHost.Server.Deployment
import RpcHost.Uuid
/-!
The demonstration: load a configuration, serve a calculator under each configured service, and
ask each of them for a sum and for a quotient by zero.
-/
namespace RpcHost.Demo

/-- What a run of the demonstration leaves open: how the configuration is read, and the orders in
which services are exported, asked and taken back. -/
structure Setting where
  loader : Loader
  exported : Traversal UrlRef
  asked : Traversal UrlRef
  retired : Traversal ExporterRef

def Setting.standard : Setting := ⟨.standard, .byKey, .byKey, .byKey⟩

def defaultFile : String := "./conf/server.json"

def newRid : Step String := do
  let sequence ← nextSequence
  return Uuid.text ((← get).random sequence) sequence

def operands (a b : Int) : Json := .obj [("num1", .int a), ("num2", .int b)]

def request (service method : String) (params : Json) : Step RequestRef := do
  let rid ← newRid
  addRequest { Request.empty with
    rid, service := .text service, method := .text method, params := some params }

def showResponse (r : Response) : Step Unit := do
  if r.hasFailure then
    let failure := r.failure.value
    writeLog .info ["rid=", r.rid, " exception: code=", toString failure.code, ", msg=",
      failure.message, "\n"]
  else
    writeLog .info ["rid=", r.rid, " result: ", r.resultValue.write ++ "\n", ", gzipSize=",
      toString (r.gzipSize.getD 0), "\n"]

structure Exchange where
  service : String
  method : String
  rid : String
  answer : Response

structure Report where
  exitCode : Nat
  exchanges : List Exchange

def ask (s : ServerRef) (service method : String) (params : Json) : Step Exchange := do
  let q ← request service method params
  let rid ← requestRid (some q)
  let answer ← handle s (some q)
  showResponse answer
  return ⟨service, method, rid, answer⟩

def askAll (s : ServerRef) : List (String × UrlRef) → Step (List Exchange)
  | [] => return []
  | (_, u) :: rest => do
    let sum ← ask s (← getUrl u).path "Add" (operands 11 22)
    let quotient ← ask s (← getUrl u).path "Div" (operands 11 0)
    return sum :: quotient :: (← askAll s rest)

def calculators : List (String × UrlRef) → Step (Keyed (Option Service))
  | [] => return .empty
  | (name, _) :: rest => do
    let table ← addMethods Calculator.methods
    return (← calculators rest).insert name (some (.methods table))

def serve (order : Traversal UrlRef) (s : ServerRef) (services : List (String × UrlRef)) :
    Attempt Report := do
  let impls ← calculators services
  let status ← exportAll order s impls
  if status = .ok then return ⟨0, ← askAll s services⟩
  else
    writeLog .fatal ["导出服务失败: ", status.reason, "\n"]
    return ⟨1, []⟩

/-- The server is taken down however serving it ended. -/
def serveAndDestroy (setting : Setting) (s : ServerRef) (services : List (String × UrlRef)) :
    Attempt Report := do
  let report ← tryCatch (serve setting.exported s services) fun fault => do
    destroyServer setting.retired s
    throw fault
  destroyServer setting.retired s
  return report

def run (setting : Setting) (argument : Option String) : Attempt Report := do
  let file := argument.getD defaultFile
  let c ← addConfiguration
  let status ← loadFile setting.loader c file
  if status = .ok then
    let x ← addExtensions .builtIn
    match setting.asked.walk ((← get).configurations.get c).services with
    | [] =>
      writeLog .fatal ["配置中没有任何服务\n"]
      return ⟨1, []⟩
    | (name, u) :: rest =>
      let s ← newServer c x u
      serveAndDestroy setting s ((name, u) :: rest)
  else
    writeLog .fatal ["加载配置 ", file, " 失败: ", status.reason, "\n"]
    return ⟨1, []⟩

end RpcHost.Demo
