import RpcHost.Proofs.Layers
import RpcHost.Proofs.Operands
/-!
The calculator counts as the machine does. Its operands are words of 32 bits, a sum of two has room
in 64, and the one quotient that has no room in 32 is refused before it is taken.
-/
namespace RpcHost

open Host

namespace Calculator

variable {a b : Int32}

/-- The sum that the machine takes of two operands. -/
def sumOf (a b : Int32) : Int64 := a.toInt64 + b.toInt64

/-- The quotient that the machine takes of two operands. -/
def quotientOf (a b : Int32) : Int32 := a / b

/-- The quotient drops the fraction: what it leaves of the dividend is less than the divisor, and
it leaves nothing or something of the sign of the dividend. -/
def Truncates (dividend divisor quotient : Int) : Prop :=
  ∃ rest, dividend = quotient * divisor + rest ∧ rest.natAbs < divisor.natAbs ∧
    (rest = 0 ∨ rest.sign = dividend.sign)

theorem truncates_tdiv (n : Int) {m : Int} (nonzero : m ≠ 0) : Truncates n m (n.tdiv m) := by
  refine ⟨n.tmod m, (Int.tdiv_mul_add_tmod n m).symm, ?_, ?_⟩
  · rw [Int.natAbs_tmod]
    exact Nat.mod_lt _ (Int.natAbs_pos.2 nonzero)
  · by_cases divides : m ∣ n
    · exact Or.inl (Int.tmod_eq_zero_of_dvd divides)
    · refine Or.inr ?_
      rw [Int.sign_tmod, if_neg divides]

theorem admits_int {name : String} {m : Method} (found : methods.find? name = some m) (n : Int) :
    m.returns.admits (.int n) = true := by
  rcases find?_methods_cases found with ⟨-, rfl⟩ | ⟨-, rfl⟩ <;> rfl

theorem fits_toInt (a : Int32) : Fits a.toInt := by
  have low := a.le_toInt
  have high := a.toInt_lt
  simp only [Fits, Json.minInt32, Json.maxInt32]
  omega

theorem toInt_sumOf (a b : Int32) : (sumOf a b).toInt = a.toInt + b.toInt := by
  have left := fits_toInt a
  have right := fits_toInt b
  simp only [Fits, Json.minInt32, Json.maxInt32] at left right
  simp only [sumOf, Int64.toInt_add, Int32.toInt_toInt64]
  apply Int.bmod_eq_of_le <;> omega

theorem toInt_quotientOf (room : ¬(a = Int32.minValue ∧ b = -1)) :
    (quotientOf a b).toInt = a.toInt.tdiv b.toInt := by
  by_cases least : a = Int32.minValue
  · exact Int32.toInt_div_of_ne_right a b fun one => room ⟨least, one⟩
  · exact Int32.toInt_div_of_ne_left a b least

theorem toInt_eq_zero_iff : b.toInt = 0 ↔ b = 0 := by
  rw [← Int32.toInt_inj, Int32.toInt_zero]

theorem outgrows_iff : a.toInt = Json.minInt32 ∧ b.toInt = -1 ↔ a = Int32.minValue ∧ b = -1 := by
  rw [← Int32.toInt_inj, ← Int32.toInt_inj]
  exact Iff.rfl

/-- The request is answered by the number, and the method's check of its results lets it pass. -/
structure Answers (v : Except Fault (Option Response)) (r : Request) (n : Int) : Prop where
  answer : v = .ok (some (.ofResult r.rid (.int n)))
  declared : ∀ m, methods.find? r.method.value = some m → m.returns.admits (.int n) = true

end Calculator

variable {h : Host} {p : ProviderRef} {q : RequestRef} {table : MethodsRef}

theorem Host.bareReply_of_method {r : Request} {m : Method}
    (offered : (h.backendOf p).offered = some table)
    (calculates : h.methods.get table = Calculator.methods)
    (found : Calculator.methods.find? r.method.value = some m) :
    h.bareReply p r = m.reply r.method.value r := by
  unfold Host.bareReply
  rw [offered, Request.reply_of_method calculates found]

theorem callProvider_reply {m : Method} (bare : (h.providers.get p).layers = [])
    (offered : (h.backendOf p).offered = some table)
    (calculates : h.methods.get table = Calculator.methods)
    (found : Calculator.methods.find? (h.requests.get q).method.value = some m) :
    (callProvider p (some q)).outcome h =
      (m.reply (h.requests.get q).method.value (h.requests.get q)).map some := by
  rw [callProvider_replies (Backend.standard_of_offered offered) q, Host.replyOf_bare bare,
    Host.bareReply_of_method offered calculates found]

/-- Whether they are written as integers or as reals, two operands of 32 bits are answered by their
sum, and by their quotient unless there is none or it has no room. -/
theorem callProvider_calculates {a b : Int32} (bare : (h.providers.get p).layers = [])
    (offered : (h.backendOf p).offered = some table)
    (calculates : h.methods.get table = Calculator.methods)
    (gives : (h.requests.get q).parameters.Gives a.toInt b.toInt) :
    let r := h.requests.get q
    let ends := (callProvider p (some q)).outcome h
    (r.method.value = "Add" → Calculator.Answers ends r (Calculator.sumOf a b).toInt ∧
      (Calculator.sumOf a b).toInt = a.toInt + b.toInt) ∧
    (r.method.value = "Div" →
      if b = 0 then ends = .ok (some (.ofFailure r.rid ⟨400, "divide by zero", .business⟩))
      else if a = Int32.minValue ∧ b = -1 then
        ends = .ok (some (.ofFailure r.rid ⟨400, "integer overflow", .business⟩))
      else Calculator.Answers ends r (Calculator.quotientOf a b).toInt ∧
        Calculator.Truncates a.toInt b.toInt (Calculator.quotientOf a b).toInt) := by
  have left := Calculator.fits_toInt a
  have right := Calculator.fits_toInt b
  refine ⟨fun asks => ?_, fun asks => ?_⟩
  · have ends := callProvider_reply bare offered calculates (asks ▸ Calculator.find?_methods_add)
    rw [asks, Calculator.reply_add gives (Calculator.admitted_of_fits gives left right),
      if_pos ⟨left, right⟩, ← Calculator.toInt_sumOf] at ends
    exact ⟨⟨ends, fun m found => Calculator.admits_int found _⟩, Calculator.toInt_sumOf a b⟩
  · have ends := callProvider_reply bare offered calculates (asks ▸ Calculator.find?_methods_div)
    rw [asks, Calculator.reply_div gives (Calculator.admitted_of_fits gives left right),
      if_pos ⟨left, right⟩] at ends
    simp only [Calculator.toInt_eq_zero_iff, Calculator.outgrows_iff] at ends
    by_cases zero : b = 0
    · rw [if_pos zero] at ends ⊢
      exact ends
    · rw [if_neg zero] at ends ⊢
      by_cases outgrows : a = Int32.minValue ∧ b = -1
      · rw [if_pos outgrows] at ends ⊢
        exact ends
      · have quotient := Calculator.toInt_quotientOf outgrows
        rw [if_neg outgrows] at ends ⊢
        rw [← quotient] at ends
        refine ⟨⟨ends, fun m found => Calculator.admits_int found _⟩, ?_⟩
        rw [quotient]
        exact Calculator.truncates_tdiv _ fun none => zero (Calculator.toInt_eq_zero_iff.1 none)

def Host.reckoner (method : String) (params : Json) : Host :=
  { furnished .builtIn .empty [⟨"mrpc", "127.0.0.1", 1, "p", "", .empty⟩] with
    methods := Store.empty.add Calculator.methods
    backends := Store.empty.add ⟨⟨0⟩, true, .standard (some ⟨0⟩)⟩
    providers := Store.empty.add ⟨⟨0⟩, [], none⟩
    requests := Store.empty.add
      { Request.empty with
        rid := "1", service := .text "p", method := .text method, params := some params } }

/-- The dividend is a real, and the quotient loses a fraction. -/
theorem callProvider_calculates_real :
    (callProvider ⟨0⟩ (some ⟨0⟩)).outcome (.reckoner "Div"
      (.obj [("num1", .real (.finite false 11 1)), ("num2", .int (-7))])) =
        .ok (some (.ofResult "1" (.int (-3)))) := by
  have gives : (Json.obj [("num1", .real (.finite false 11 1)), ("num2", .int (-7))]).Gives
      (22 : Int32).toInt (-7 : Int32).toInt := ⟨by decide, by decide⟩
  have quotient := (callProvider_calculates (h := .reckoner "Div" _) (p := ⟨0⟩) (q := ⟨0⟩)
    rfl rfl rfl gives).2 rfl
  rw [if_neg (by decide), if_neg (by decide)] at quotient
  exact quotient.1.answer

end RpcHost
