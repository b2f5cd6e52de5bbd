import RpcHost.Proofs.Runs
/-!
The directory that a server stands for: a business object and an address for each path that it
serves, and whether it is shut. What it answers is a function of it, of the methods, and of the
request.
-/
namespace RpcHost

def Method.reply (m : Method) (name : String) (q : Request) : Except Fault Response :=
  match m.offendingParam? q.parameters with
  | some _ => .ok (.ofFailure q.rid (.serviceError ("invalid params for " ++ name)))
  | none =>
    match m.run q.parameters with
    | .error (.refusal failure) => .ok (.ofFailure q.rid { failure with kind := .business })
    | .error fault => .error fault
    | .ok result =>
      if m.returns.admits result then .ok (.ofResult q.rid result)
      else .ok (.ofFailure q.rid (.serviceError ("invalid return value of " ++ name)))

def Service.methods? : Option Service → Option MethodsRef
  | some (.methods table) => some table
  | _ => none

def Request.reply (q : Request) (methods : Store .methods MethodTable) (path : String) :
    Option MethodsRef → Except Fault Response
  | none => .ok (.ofFailure q.rid (.unavailable ("provider " ++ path ++ " is unavailable.")))
  | some table =>
    match (methods.get table).find? q.method.value with
    | none => .ok (.ofFailure q.rid
        (.serviceError ("method " ++ q.method.value ++ " is not found in provider.")))
    | some m => m.reply q.method.value q

def Extensions.kindsOf (x : Extensions) (url : Url) : List FilterKind :=
  (url.listParam Url.filterKey).filterMap x.filterNamed

def Extensions.filtered (x : Extensions) (url : Url) (r : Response) : Response :=
  if (x.kindsOf url).isEmpty then r else r.failureSeen

structure Directory where
  services : Keyed (Url × Option Service)
  closed : Bool

namespace Directory

def empty : Directory := ⟨.empty, false⟩

/-- What a command makes of the directory. A refused deployment makes nothing of it. -/
def follow (d : Directory) : Command → Directory
  | .deploy url service status =>
    if status = .ok then { d with services := d.services.insert url.path (url, service) } else d
  | .retire path => { d with services := d.services.erase path }
  | .close => ⟨.empty, true⟩

def after (commands : List Command) : Directory := commands.foldl follow empty

def serve (x : Extensions) (methods : Store .methods MethodTable) (url : Url)
    (service : Option Service) (q : Request) : Response :=
  match q.reply methods url.path (Service.methods? service) with
  | .error _ => .ofFailure q.rid (.serviceError "provider call panic")
  | .ok r => { x.filtered url r with gzipSize := some (hintOf (url.intValue Url.gzipSizeKey 0)) }

/-- The answer to a request, or to none at all. -/
def answer (d : Directory) (x : Extensions) (methods : Store .methods MethodTable)
    (q : Option Request) : Response :=
  if d.closed then .ofFailure ((q.map Request.rid).getD "") (.unavailable "server is destroyed")
  else
    match q with
    | none => .ofFailure "" (.serviceError "empty request")
    | some q =>
      match d.services.find? q.service.value with
      | none => .ofFailure q.rid (.serviceError ("not found provider for " ++ q.service.value))
      | some (url, service) => serve x methods url service q

theorem answer_open {d : Directory} (isOpen : d.closed = false) (x : Extensions)
    (methods : Store .methods MethodTable) (q : Request) :
    d.answer x methods (some q) =
      match d.services.find? q.service.value with
      | none => .ofFailure q.rid (.serviceError ("not found provider for " ++ q.service.value))
      | some (url, service) => serve x methods url service q := by
  unfold answer
  rw [isOpen]
  rfl

theorem follow_accepted (d : Directory) (url : Url) (service : Option Service) :
    d.follow (.deploy url service .ok) =
      { d with services := d.services.insert url.path (url, service) } := by
  simp only [follow, if_true]

theorem follow_refused (d : Directory) (url : Url) (service : Option Service) {status : Status}
    (refused : status ≠ .ok) : d.follow (.deploy url service status) = d := by
  simp only [follow, if_neg refused]

theorem after_append (commands more : List Command) :
    after (commands ++ more) = more.foldl follow (after commands) :=
  List.foldl_append

end Directory

theorem Method.reply_ne_refusal (m : Method) (name : String) (q : Request) (failure : Failure) :
    m.reply name q ≠ .error (.refusal failure) := by
  unfold reply
  split
  · simp
  · split
    · simp
    · rename_i other _
      simpa using other failure
    · split <;> simp

theorem Request.reply_ne_refusal (q : Request) (methods : Store .methods MethodTable)
    (path : String) (table : Option MethodsRef) (failure : Failure) :
    q.reply methods path table ≠ .error (.refusal failure) := by
  unfold reply
  split
  · simp
  · split
    · simp
    · exact Method.reply_ne_refusal _ _ _ _

end RpcHost
