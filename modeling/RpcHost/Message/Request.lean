import RpcHost.Json.Basic
/-!
Requests. A member of a message body is absent, blank, or set; looking at an absent member
leaves a blank one behind, which reads the same.
-/
namespace RpcHost

inductive TextMember where
  | absent
  | blank
  | text (s : String)
  deriving DecidableEq, Repr

namespace TextMember

def value : TextMember → String
  | text s => s
  | _ => ""

def isText : TextMember → Bool
  | text _ => true
  | _ => false

def seen : TextMember → TextMember
  | absent => blank
  | m => m

def json? : TextMember → Option Json
  | absent => none
  | blank => some .null
  | text s => some (.str s)

@[simp] theorem value_seen (m : TextMember) : m.seen.value = m.value := by cases m <;> rfl

@[simp] theorem isText_seen (m : TextMember) : m.seen.isText = m.isText := by cases m <;> rfl

@[simp] theorem seen_seen (m : TextMember) : m.seen.seen = m.seen := by cases m <;> rfl

theorem json?_seen (m : TextMember) : m.seen.json? = some (m.json?.getD .null) := by
  cases m <;> rfl

end TextMember

structure Request where
  rid : String
  service : TextMember
  method : TextMember
  methodDesc : TextMember
  params : Option Json
  attachments : Option (Keyed TextMember)

namespace Request

def empty : Request := ⟨"", .absent, .absent, .absent, none, none⟩

instance : Inhabited Request := ⟨empty⟩

def setAttachment (q : Request) (key value : String) : Request :=
  { q with attachments := some ((q.attachments.getD .empty).insert key (.text value)) }

def attachment (q : Request) (key : String) : String :=
  (((q.attachments.getD .empty).find? key).getD .absent).value

def parameters (q : Request) : Json := q.params.getD .null

def serviceSeen (q : Request) : Request := { q with service := q.service.seen }

def methodSeen (q : Request) : Request := { q with method := q.method.seen }

def methodDescSeen (q : Request) : Request := { q with methodDesc := q.methodDesc.seen }

def paramsSeen (q : Request) : Request := { q with params := some q.parameters }

def attachmentSeen (q : Request) (key : String) : Request :=
  let held := q.attachments.getD .empty
  { q with attachments := some (held.insert key ((held.find? key).getD .absent).seen) }

/-- The short description for log lines, which looks at the service and the method. -/
def info (q : Request) : String :=
  "service=" ++ q.service.value ++ ", method=" ++ q.method.value ++ ", rid=" ++ q.rid

def infoSeen (q : Request) : Request := q.serviceSeen.methodSeen

inductive Defect where
  | service | method | params
  deriving DecidableEq, Repr

def Defect.message : Defect → String
  | service => "RPC请求中没有服务名称或服务名称类型错误!\n"
  | method => "RPC请求中没有方法名称或方法名称类型错误!\n"
  | params => "RPC请求中参数信息类型错误!\n"

def paramsFit (q : Request) : Bool := q.parameters.isNull || q.parameters.isObject

/-- The first defect, and the request after looking no further than that. -/
def check (q : Request) : Option Defect × Request :=
  let q := q.serviceSeen
  if !q.service.isText then (some .service, q)
  else
    let q := q.methodSeen
    if !q.method.isText then (some .method, q)
    else
      let q := q.paramsSeen
      if q.paramsFit then (none, q) else (some .params, q)

def attachmentsJson (held : Keyed TextMember) : Json :=
  .obj (held.entries.map fun entry => (entry.1, (entry.2.json?).getD .null))

/-- The body: null before anything was set or looked at, then an object. -/
def body (q : Request) : Json :=
  let members : List (String × Option Json) :=
    [("attachments", q.attachments.map attachmentsJson), ("method", q.method.json?),
      ("method_desc", q.methodDesc.json?), ("parameters", q.params),
      ("service", q.service.json?)]
  match members.filterMap fun entry => entry.2.map fun v => (entry.1, v) with
  | [] => .null
  | present => .obj present

end Request

end RpcHost
