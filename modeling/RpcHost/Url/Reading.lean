import RpcHost.Json.Basic
import RpcHost.Url.Basic
/-!
Addresses read from structured values. The members named after the five fields set those, and
the other scalars are parameters; arrays and objects among them are passed over. A field that
is an array or an object, or a port outside 32 bits, cannot be read.
-/
namespace RpcHost.Url

inductive Field where
  | protocol | host | port | path | group
  deriving DecidableEq, Repr

def Field.ofName? (name : String) : Option Field :=
  if name = "protocol" then some .protocol
  else if name = "host" then some .host
  else if name = "port" then some .port
  else if name = "path" then some .path
  else if name = "group" then some .group
  else none

/-- An integral value is the port; any other scalar counts by the integer its text begins
with. -/
def portOf? (v : Json) : Option Int :=
  if v.isIntegral then v.int32?
  else v.text?.map fun s => Text.leadingInteger (Text.charsBeforeNul s.toList)

def setField? (u : Url) (field : Field) (v : Json) : Option Url :=
  match field with
  | .protocol => v.text?.map fun s => { u with protocol := s }
  | .host => v.text?.map fun s => { u with host := s }
  | .port => (portOf? v).map fun n => { u with port := n }
  | .path => v.text?.map fun s => { u with path := s }
  | .group => v.text?.map fun s => { u with group := s }

/-- The address, unless a field cannot be read, and the members passed over before that. -/
structure Reading where
  ignored : List String
  url? : Option Url

def readMembers : List (String × Json) → Url → Reading
  | [], u => ⟨[], some u⟩
  | (name, v) :: rest, u =>
    match Field.ofName? name with
    | some field =>
      match u.setField? field v with
      | some u => readMembers rest u
      | none => ⟨[], none⟩
    | none =>
      match v.text? with
      | some s => readMembers rest (u.putParam name s)
      | none =>
        let reading := readMembers rest u
        { reading with ignored := name :: reading.ignored }

def read? : Json → Option Reading
  | .obj members => some (readMembers members empty)
  | _ => none

end RpcHost.Url
