import RpcHost.Failure
import RpcHost.Json.Basic
/-!
Reading a structured value as something else, with a conversion fault where it is not.
-/
namespace RpcHost.Json

def orFault {α : Type} : Option α → Except Fault α
  | some a => .ok a
  | none => .error .conversion

def asText (v : Json) : Except Fault String := orFault v.text?

def asInt32 (v : Json) : Except Fault Int := orFault v.int32?

/-- The member of that name or null; only an object and null can be asked. -/
def lookUp (name : String) (v : Json) : Except Fault Json :=
  if v.hasMembers then .ok (v.member name) else .error .conversion

/-- Whether there is a member of that name; only an object and null can be asked. -/
def hasMember (name : String) (v : Json) : Except Fault Bool :=
  if v.hasMembers then .ok (v.member? name).isSome else .error .conversion

theorem lookUp_obj (name : String) (members : List (String × Json)) :
    lookUp name (.obj members) = .ok ((Entries.find? name members).getD .null) := rfl

theorem hasMember_obj (name : String) (members : List (String × Json)) :
    hasMember name (.obj members) = .ok (Entries.find? name members).isSome := rfl

end RpcHost.Json
