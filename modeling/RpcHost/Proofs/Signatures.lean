import Mathlib.Algebra.Group.Int.Defs
import RpcHost.Proofs.Tenure
/-!
The declared parameters of a method. The check ends without a fault for every value, passes exactly
what has each of them with a value of its type, and otherwise names the first that is not there.
-/
namespace RpcHost

/-- The values of a type. Where a number names no type there are none. -/
inductive ValueType.Has : ValueType → Json → Prop
  | bool (b : Bool) : Has .bool (.bool b)
  | integral (n : Int) : Has .integral (.int n)
  | whole {x : Binary64} {n : Int} (whole : x.whole? = some n) (low : -2 ^ 63 ≤ n)
    (high : n < 2 ^ 64) : Has .integral (.real x)
  | int (n : Int) : Has .numeric (.int n)
  | real (x : Binary64) : Has .numeric (.real x)
  | string (s : String) : Has .string (.str s)
  | array (items : List Json) : Has .array (.arr items)
  | object (members : List (String × Json)) : Has .object (.obj members)
  | any (v : Json) : Has .any v

/-- The value is an object that has the parameter, with a value of its type. -/
def Json.Carries (given : Json) (param : String × ValueType) : Prop :=
  ∃ members v, given = .obj members ∧ Entries.find? param.1 members = some v ∧ param.2.Has v

variable {m : Method} {given : Json} {name : String}

theorem Json.isIntegral_iff (v : Json) : v.isIntegral = true ↔ ValueType.integral.Has v := by
  constructor
  · intro integral
    cases v with
    | int n => exact .integral n
    | real x =>
      cases whole : x.whole? with
      | none => simp [isIntegral, whole] at integral
      | some n =>
        simp only [isIntegral, whole, Bool.and_eq_true, decide_eq_true_eq] at integral
        exact .whole whole integral.1 integral.2
    | _ => cases integral
  · intro has
    cases has with
    | integral n => rfl
    | whole whole low high => simpa [isIntegral, whole] using And.intro low high

theorem ValueType.has_of_admits {type : ValueType} {v : Json} (admitted : type.admits v = true) :
    type.Has v := by
  cases type with
  | bool =>
    cases v with
    | bool b => exact .bool b
    | _ => cases admitted
  | integral => exact v.isIntegral_iff.1 admitted
  | numeric =>
    cases v with
    | int n => exact .int n
    | real x => exact .real x
    | _ => cases admitted
  | string =>
    cases v with
    | str s => exact .string s
    | _ => cases admitted
  | array =>
    cases v with
    | arr items => exact .array items
    | _ => cases admitted
  | object =>
    cases v with
    | obj members => exact .object members
    | _ => cases admitted
  | any => exact .any v
  | unnamed => cases admitted

theorem ValueType.admits_iff (type : ValueType) (v : Json) :
    type.admits v = true ↔ type.Has v := by
  refine ⟨has_of_admits, fun has => ?_⟩
  cases has with
  | integral n => rfl
  | whole exact low high => exact (Json.isIntegral_iff _).2 (.whole exact low high)
  | _ => rfl

namespace Method

theorem hasParam_iff_carries (param : String × ValueType) :
    hasParam given param = true ↔ given.Carries param := by
  rw [hasParam_iff]
  simp only [ValueType.admits_iff]
  rfl

theorem offendingParam?_eq_none_iff_carries :
    m.offendingParam? given = none ↔ ∀ param ∈ m.params, given.Carries param := by
  rw [offendingParam?_eq_none_iff]
  exact forall₂_congr fun param _ => hasParam_iff_carries param

theorem offendingParam?_eq_some_iff :
    m.offendingParam? given = some name ↔ ∃ before type rest,
      m.params = before ++ (name, type) :: rest ∧ (∀ param ∈ before, given.Carries param) ∧
        ¬given.Carries (name, type) := by
  simp only [offendingParam?, Option.map_eq_some_iff, List.find?_eq_some_iff_append,
    ← hasParam_iff_carries, Bool.not_not, Bool.not_eq_true, Bool.not_eq_true']
  constructor
  · rintro ⟨⟨_, type⟩, ⟨missing, before, rest, declared, earlier⟩, rfl⟩
    exact ⟨before, type, rest, declared, earlier, missing⟩
  · rintro ⟨before, type, rest, declared, earlier, missing⟩
    exact ⟨(name, type), ⟨missing, before, rest, declared, earlier⟩, rfl⟩

theorem carries_all_iff {params : List (String × ValueType)} :
    (∀ param ∈ params, given.Carries param) ↔ params = [] ∨ ∃ members, given = .obj members ∧
      ∀ param ∈ params, ∃ v, Entries.find? param.1 members = some v ∧ param.2.Has v := by
  constructor
  · intro all
    cases params with
    | nil => exact .inl rfl
    | cons first rest =>
      obtain ⟨members, _, rfl, _⟩ := all first List.mem_cons_self
      refine .inr ⟨members, rfl, fun param member => ?_⟩
      obtain ⟨_, v, same, found, has⟩ := all param member
      cases same
      exact ⟨v, found, has⟩
  · rintro (rfl | ⟨members, rfl, all⟩) param member
    · cases member
    · obtain ⟨v, found, has⟩ := all param member
      exact ⟨members, v, rfl, found, has⟩

/-- The check agrees with the declaration, whatever is given: it ends without a fault; it passes
exactly when nothing is declared or an object has every declared parameter with a value of its type;
`field` stays as it was then, and otherwise holds the name of the first parameter that is missing or
of another type, which is the first of all where no object is given. A call of the method goes by
the same. -/
theorem validate_agrees (m : Method) (given : Json) (field : String) :
    ∃ valid after, m.validate given field = .ok (valid, after) ∧
      (valid = true ↔ m.params = [] ∨ ∃ members, given = .obj members ∧
        ∀ param ∈ m.params, ∃ v, Entries.find? param.1 members = some v ∧ param.2.Has v) ∧
      (valid = true → after = field) ∧
      (valid = false → ∃ before type rest, m.params = before ++ (after, type) :: rest ∧
        (∀ param ∈ before, given.Carries param) ∧ ¬given.Carries (after, type)) ∧
      (valid = false → given.isObject = false → ∃ type rest, m.params = (after, type) :: rest) ∧
      m.offendingParam? given = if valid then none else some after := by
  refine ⟨_, _, m.validate_eq given field, ?_⟩
  rw [← carries_all_iff, ← offendingParam?_eq_none_iff_carries]
  cases offends : m.offendingParam? given with
  | none => simp
  | some name =>
    obtain ⟨before, type, rest, declared, earlier, missing⟩ := offendingParam?_eq_some_iff.1 offends
    refine ⟨by simp, nofun, fun _ => ⟨before, type, rest, declared, earlier, missing⟩,
      fun _ other => ?_, rfl⟩
    cases before with
    | nil => exact ⟨type, rest, declared⟩
    | cons first others =>
      -- whatever carries a parameter is an object
      obtain ⟨_, _, rfl, _⟩ := earlier first List.mem_cons_self
      cases other

/-- A text cannot be asked for members, and the check does not ask it. A name that is declared twice
needs a value of both types. -/
example :
    Json.hasMember "n" (.str "scalar") = .error .conversion ∧
      checkParams (.str "scalar") "-" [("n", .integral)] = .ok (false, "n") ∧
      checkParams (.obj [("n", .int 1)]) "-" [("n", .integral)] = .ok (true, "-") ∧
      checkParams (.obj [("n", .int 1)]) "-" [("n", .integral), ("n", .string)] =
        .ok (false, "n") := ⟨rfl, rfl, rfl, rfl⟩

end Method

end RpcHost
