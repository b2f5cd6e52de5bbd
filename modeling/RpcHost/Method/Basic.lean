import RpcHost.Json.Access
/-!
Methods of a service: a name, declared parameters, a declared type of the result, and what it
does with the parameters. A call is checked before the method runs and its result after.
-/
namespace RpcHost

inductive ValueType where
  | bool | integral | numeric | string | array | object | any
  /-- A number that names no type; no value has it. -/
  | unnamed
  deriving DecidableEq, Repr

namespace ValueType

def ofName? (name : String) : Option ValueType :=
  if name = "BOOL" then some .bool
  else if name = "INTEGRAL" then some .integral
  else if name = "NUMERIC" then some .numeric
  else if name = "STRING" then some .string
  else if name = "ARRAY" then some .array
  else if name = "OBJECT" then some .object
  else if name = "ANY" then some .any
  else none

def ofNumber (n : Int) : ValueType :=
  match n with
  | 0 => .bool
  | 1 => .integral
  | 2 => .numeric
  | 3 => .string
  | 4 => .array
  | 5 => .object
  | 6 => .any
  | _ => .unnamed

def admits : ValueType → Json → Bool
  | bool, v => v.isBool
  | integral, v => v.isIntegral
  | numeric, v => v.isNumeric
  | string, v => v.isString
  | array, v => v.isArray
  | object, v => v.isObject
  | any, _ => true
  | unnamed, _ => false

end ValueType

/-- `announced` methods leave a mark in the trace when they run. -/
structure Method where
  name : String
  params : List (String × ValueType)
  returns : ValueType
  announced : Bool
  run : Json → Except Fault Json

namespace Method

def hasParam (given : Json) (param : String × ValueType) : Bool :=
  match given with
  | .obj members =>
    match Entries.find? param.1 members with
    | some v => param.2.admits v
    | none => false
  | _ => false

def offendingParam? (m : Method) (given : Json) : Option String :=
  (m.params.find? fun param => !hasParam given param).map Prod.fst

theorem offendingParam?_eq_none_iff (m : Method) (given : Json) :
    m.offendingParam? given = none ↔ ∀ param ∈ m.params, hasParam given param = true := by
  simp [offendingParam?]

/-- Whether the parameter is there with a value of its type. Only an object is asked for members. -/
def checkParam (given : Json) (param : String × ValueType) : Except Fault Bool := do
  if given.isObject then
    if ← given.hasMember param.1 then return param.2.admits (← given.lookUp param.1)
    else return false
  else return false

/-- Checks the parameters as far as the first that does not pass, and tells whether all pass.
`field` then has the name of that one in its place. -/
def checkParams (given : Json) (field : String) :
    List (String × ValueType) → Except Fault (Bool × String)
  | [] => return (true, field)
  | param :: rest => do
    if ← checkParam given param then checkParams given field rest else return (false, param.1)

def validate (m : Method) (given : Json) (field : String) : Except Fault (Bool × String) :=
  checkParams given field m.params

theorem checkParam_eq (given : Json) (param : String × ValueType) :
    checkParam given param = .ok (hasParam given param) := by
  cases given with
  | obj members =>
    simp only [checkParam, hasParam, Json.isObject, Json.hasMember_obj, Json.lookUp_obj, if_true]
    cases Entries.find? param.1 members <;> rfl
  | _ => rfl

theorem validate_eq (m : Method) (given : Json) (field : String) :
    m.validate given field =
      .ok ((m.offendingParam? given).isNone, (m.offendingParam? given).getD field) := by
  unfold validate offendingParam?
  induction m.params with
  | nil => rfl
  | cons param rest ih =>
    rw [checkParams, checkParam_eq, List.find?_cons]
    cases hasParam given param with
    | true => exact ih
    | false => rfl

end Method

/-- A method as it is put together, which may lack its name or its body. -/
structure MethodDraft where
  name : String
  params : List (String × ValueType)
  returns : ValueType
  announced : Bool
  body? : Option (Json → Except Fault Json)

namespace MethodDraft

def blank : MethodDraft := ⟨"", [], .object, false, none⟩

def build? (d : MethodDraft) : Option Method :=
  match d.body? with
  | none => none
  | some run =>
    if d.name.isEmpty then none
    else some ⟨d.name, d.params, d.returns, d.announced, run⟩

end MethodDraft

/-- Methods by name; of two with one name the later replaces the earlier. -/
abbrev MethodTable := Keyed Method

def MethodTable.addMethod (t : MethodTable) (m : Method) : MethodTable := t.insert m.name m

end RpcHost
