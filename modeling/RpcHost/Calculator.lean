import RpcHost.Json.Access
import RpcHost.Method.Basic
/-!
A service of two methods on 32-bit integers. Addition has room for every sum. Division drops
the fraction and refuses a zero divisor and the one quotient that has no room.
-/
namespace RpcHost.Calculator

def operand (name : String) (given : Json) : Except Fault Int := do
  (← given.lookUp name).asInt32

def addition (given : Json) : Except Fault Json := do
  let a ← operand "num1" given
  let b ← operand "num2" given
  return .int (a + b)

def refuse (message : String) : Fault := .refusal ⟨400, message, .business⟩

def division (given : Json) : Except Fault Json := do
  let a ← operand "num1" given
  let b ← operand "num2" given
  if b = 0 then throw (refuse "divide by zero")
  if a = Json.minInt32 ∧ b = -1 then throw (refuse "integer overflow")
  return .int (a.tdiv b)

def method (name : String) (run : Json → Except Fault Json) : Method where
  name
  params := [("num1", .integral), ("num2", .integral)]
  returns := .integral
  announced := false
  run

def methods : MethodTable :=
  MethodTable.addMethod (MethodTable.addMethod .empty (method "Add" addition))
    (method "Div" division)

end RpcHost.Calculator
