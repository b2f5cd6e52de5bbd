import RpcHost.Text.Cut
/-!
What can go wrong. A failure is what a caller is told: a code, a message and a kind. A fault
is what stops a computation on its way; a refusal carries a failure, the other faults none.
-/
namespace RpcHost

/-- 0 is the framework, 1 the service, 2 the business logic; peers may send other numbers. -/
structure FailureKind where
  number : Int
  deriving DecidableEq, Repr

def FailureKind.framework : FailureKind := ⟨0⟩

def FailureKind.service : FailureKind := ⟨1⟩

def FailureKind.business : FailureKind := ⟨2⟩

structure Failure where
  code : Int
  message : String
  kind : FailureKind
  deriving DecidableEq, Repr

def Failure.none : Failure := ⟨0, "", .service⟩

def Failure.serviceError (message : String) : Failure := ⟨500, message, .service⟩

def Failure.unavailable (message : String) : Failure := ⟨503, message, .service⟩

inductive Fault where
  /-- A failure that is raised on purpose. -/
  | refusal (failure : Failure)
  | conversion
  /-- A constructor that is registered without a body. -/
  | emptyConstructor
  | crash (reason : String)
  | unknown
  deriving DecidableEq, Repr

/-- The reason that is given for a fault, where it has one. A reason ends at its first NUL, also
where the failure's message goes on. -/
def Fault.reason? : Fault → Option String
  | .refusal failure => some (Text.beforeNul failure.message)
  | .conversion => some "value is not convertible"
  | .emptyConstructor => some "constructor has no body"
  | .crash reason => some (Text.beforeNul reason)
  | .unknown => none

theorem Fault.reason?_eq_none_iff (fault : Fault) : fault.reason? = none ↔ fault = .unknown := by
  cases fault <;> simp [reason?]

end RpcHost
