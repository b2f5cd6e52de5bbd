import RpcHost.Failure
import RpcHost.Json.Basic
/-!
Responses: a result or a failure for the request of the same id. As in a request, looking at
an absent member leaves a null behind. The compression hint travels beside the body.
-/
namespace RpcHost

inductive FailureMember where
  | absent
  | blank
  | failure (f : Failure)
  deriving DecidableEq, Repr

namespace FailureMember

def seen : FailureMember → FailureMember
  | absent => blank
  | m => m

def isFailure : FailureMember → Bool
  | failure _ => true
  | _ => false

def value : FailureMember → Failure
  | failure f => f
  | _ => .none

@[simp] theorem value_seen (m : FailureMember) : m.seen.value = m.value := by cases m <;> rfl

@[simp] theorem isFailure_seen (m : FailureMember) : m.seen.isFailure = m.isFailure := by
  cases m <;> rfl

@[simp] theorem seen_seen (m : FailureMember) : m.seen.seen = m.seen := by cases m <;> rfl

end FailureMember

def Failure.json (f : Failure) : Json :=
  .obj [("errcode", .int f.code), ("errmsg", .str f.message), ("errtype", .int f.kind.number)]

structure Response where
  rid : String
  result : Option Json
  failure : FailureMember
  gzipSize : Option Int
  processTime : Int

namespace Response

def empty : Response := ⟨"", none, .absent, none, 0⟩

instance : Inhabited Response := ⟨empty⟩

def ofFailure (rid : String) (f : Failure) : Response :=
  { empty with rid, failure := .failure f }

def ofResult (rid : String) (result : Json) : Response :=
  { empty with rid, result := some result }

def resultValue (r : Response) : Json := r.result.getD .null

def hasFailure (r : Response) : Bool := r.failure.isFailure

def resultSeen (r : Response) : Response := { r with result := some r.resultValue }

def failureSeen (r : Response) : Response := { r with failure := r.failure.seen }

def isComplete (r : Response) : Bool := !r.resultValue.isNull || r.hasFailure

/-- What checking leaves: the failure is looked at only where there is no result. -/
def checked (r : Response) : Response :=
  if r.resultValue.isNull then r.resultSeen.failureSeen else r.resultSeen

@[simp] theorem hasFailure_failureSeen (r : Response) :
    r.failureSeen.hasFailure = r.hasFailure := by
  simp [hasFailure, failureSeen]

theorem isComplete_ofFailure (rid : String) (f : Failure) :
    (ofFailure rid f).isComplete = true := rfl

def incompleteMessage : String := "响应中没有Rpc调用结果也没有异常信息!\n"

/-- The hint, created as zero where it is wanted and not there. -/
def withHint (r : Response) (create : Bool) : Response :=
  if create then { r with gzipSize := some (r.gzipSize.getD 0) } else r

def failureJson? : FailureMember → Option Json
  | .absent => none
  | .blank => some .null
  | .failure f => some f.json

def body (r : Response) : Json :=
  let members : List (String × Option Json) :=
    [("exception", failureJson? r.failure), ("result", r.result)]
  match members.filterMap fun entry => entry.2.map fun v => (entry.1, v) with
  | [] => .null
  | present => .obj present

end Response

end RpcHost
