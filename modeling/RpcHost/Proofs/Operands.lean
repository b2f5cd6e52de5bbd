import RpcHost.Calculator
import RpcHost.Proofs.Directory
/-!
What the calculator reads as its operands. A value stands for a whole number whether it is written
as an integer or as a real. The declared check lets every such number of a word pass; the methods
take those of 32 bits, and end in a conversion fault at any other.
-/
namespace RpcHost

namespace Binary64

variable {x : Binary64} {low high n : Int}

theorem scaleByTwo_pos {den : Nat} (positive : 0 < den) (num : Nat) (shift : Int) :
    0 < (scaleByTwo num den shift).2 := by
  unfold scaleByTwo
  split
  · exact positive
  · exact Nat.mul_pos positive (Nat.pow_pos (by decide))

theorem quotient?_pos {num : Int} {den : Nat} (exact : x.quotient? = some (num, den)) :
    0 < den := by
  cases x with
  | infinite negative => cases exact
  | finite negative significand exponent =>
    have positive := scaleByTwo_pos Nat.one_pos significand exponent
    simp only [quotient?, Option.some.injEq, Prod.mk.injEq] at exact
    rw [← exact.2]
    exact positive

theorem truncateWithin?_of_whole (whole : x.whole? = some n) :
    x.truncateWithin? low high = if low ≤ n ∧ n ≤ high then some n else none := by
  unfold whole? at whole
  unfold truncateWithin?
  cases exact : x.quotient? with
  | none => simp [exact] at whole
  | some quotient =>
    obtain ⟨num, den⟩ := quotient
    have positive : (0 : Int) < den := Int.natCast_pos.2 (quotient?_pos exact)
    simp only [exact, Option.ite_none_right_eq_some, Option.some.injEq] at whole
    obtain ⟨divides, rfl⟩ := whole
    have num_eq : num = num / den * den := (Int.ediv_mul_cancel_of_emod_eq_zero divides).symm
    generalize num / (den : Int) = n at num_eq
    subst num_eq
    simp only [Int.mul_le_mul_right positive, Int.mul_tdiv_cancel n (Int.ne_of_gt positive)]

end Binary64

namespace Calculator

def Fits (n : Int) : Prop := Json.minInt32 ≤ n ∧ n ≤ Json.maxInt32

instance (n : Int) : Decidable (Fits n) := inferInstanceAs (Decidable (_ ∧ _))

end Calculator

namespace Json

variable {v : Json} {n : Int}

def wholeNumber? : Json → Option Int
  | int n => some n
  | real x => x.whole?
  | _ => none

theorem wholeNumber?_of_isIntegral (integral : v.isIntegral = true) :
    ∃ n, v.wholeNumber? = some n := by
  cases v with
  | int n => exact ⟨n, rfl⟩
  | real x =>
    cases whole : x.whole? with
    | none => simp [isIntegral, whole] at integral
    | some n => exact ⟨n, whole⟩
  | _ => cases integral

theorem isIntegral_of_fits (whole : v.wholeNumber? = some n) (fits : Calculator.Fits n) :
    v.isIntegral = true := by
  obtain ⟨low, high⟩ := fits
  unfold minInt32 at low
  unfold maxInt32 at high
  cases v with
  | int n => rfl
  | real x =>
    have whole : x.whole? = some n := whole
    simp only [isIntegral, whole, Bool.and_eq_true, decide_eq_true_eq]
    omega
  | _ => cases whole

theorem int32?_of_whole (whole : v.wholeNumber? = some n) :
    v.int32? = if Calculator.Fits n then some n else none := by
  cases v with
  | int m =>
    cases whole
    rfl
  | real x => exact Binary64.truncateWithin?_of_whole whole
  | _ => cases whole

/-- The two operands stand for these numbers. -/
structure Gives (given : Json) (a b : Int) : Prop where
  left : (given.member? "num1").bind wholeNumber? = some a
  right : (given.member? "num2").bind wholeNumber? = some b

end Json

namespace Calculator

variable {a b : Int} {given : Json} {name : String} {run : Json → Except Fault Json} {q : Request}

theorem operand_of_whole (whole : (given.member? name).bind Json.wholeNumber? = some a) :
    operand name given = if Fits a then .ok a else .error .conversion := by
  obtain ⟨v, member, whole⟩ := Option.bind_eq_some_iff.1 whole
  have looks : given.lookUp name = .ok v := by
    unfold Json.lookUp Json.member
    rw [member]
    cases given with
    | obj members => rfl
    | _ => cases member
  unfold operand Json.asInt32
  rw [looks]
  show Json.orFault v.int32? = _
  rw [Json.int32?_of_whole whole]
  split <;> rfl

theorem addition_of_gives (gives : given.Gives a b) :
    addition given = if Fits a ∧ Fits b then .ok (.int (a + b)) else .error .conversion := by
  unfold addition
  rw [operand_of_whole gives.left, operand_of_whole gives.right]
  by_cases left : Fits a
  · by_cases right : Fits b
    · rw [if_pos left, if_pos right, if_pos ⟨left, right⟩]
      rfl
    · rw [if_pos left, if_neg right, if_neg fun both => right both.2]
      rfl
  · rw [if_neg fun both : Fits a ∧ Fits b => left both.1, if_neg left]
    rfl

theorem division_of_gives (gives : given.Gives a b) :
    division given =
      if Fits a ∧ Fits b then
        if b = 0 then .error (refuse "divide by zero")
        else if a = Json.minInt32 ∧ b = -1 then .error (refuse "integer overflow")
        else .ok (.int (a.tdiv b))
      else .error .conversion := by
  unfold division
  rw [operand_of_whole gives.left, operand_of_whole gives.right]
  by_cases left : Fits a
  · by_cases right : Fits b
    · rw [if_pos left, if_pos right, if_pos ⟨left, right⟩]
      by_cases zero : b = 0
      · rw [if_pos zero]
        subst zero
        rfl
      · rw [if_neg zero]
        by_cases least : a = Json.minInt32 ∧ b = -1
        · rw [if_pos least]
          obtain ⟨rfl, rfl⟩ := least
          rfl
        · rw [if_neg least]
          simp only [bind, Except.bind, if_neg zero, if_neg least]
          rfl
    · rw [if_pos left, if_neg right, if_neg fun both => right both.2]
      rfl
  · rw [if_neg fun both : Fits a ∧ Fits b => left both.1, if_neg left]
    rfl

theorem gives_of_admitted (admitted : (method name run).offendingParam? given = none) :
    ∃ a b, given.Gives a b := by
  have admits := (Method.offendingParam?_eq_none_iff _ given).1 admitted
  have whole (name : String) (has : Method.hasParam given (name, .integral) = true) :
      ∃ n, (given.member? name).bind Json.wholeNumber? = some n := by
    cases given with
    | obj members =>
      cases found : Entries.find? name members with
      | none => simp [Method.hasParam, found] at has
      | some v =>
        simp only [Method.hasParam, found] at has
        obtain ⟨n, whole⟩ := Json.wholeNumber?_of_isIntegral has
        exact ⟨n, by simp [Json.member?, found, whole]⟩
    | _ => cases has
  obtain ⟨a, left⟩ := whole "num1" (admits _ (by simp [method]))
  obtain ⟨b, right⟩ := whole "num2" (admits _ (by simp [method]))
  exact ⟨a, b, left, right⟩

theorem admitted_of_fits (gives : given.Gives a b) (left : Fits a) (right : Fits b) :
    (method name run).offendingParam? given = none := by
  have has {name : String} {n : Int} (fits : Fits n)
      (whole : (given.member? name).bind Json.wholeNumber? = some n) :
      Method.hasParam given (name, .integral) = true := by
    obtain ⟨v, member, stands⟩ := Option.bind_eq_some_iff.1 whole
    cases given with
    | obj members =>
      have found : Entries.find? name members = some v := member
      simp only [Method.hasParam, found]
      exact Json.isIntegral_of_fits stands fits
    | _ => cases member
  rw [Method.offendingParam?_eq_none_iff]
  simp only [method, List.forall_mem_cons]
  exact ⟨has left gives.left, has right gives.right, by simp⟩

theorem reply_add (gives : q.parameters.Gives a b)
    (admitted : (method "Add" addition).offendingParam? q.parameters = none) :
    (method "Add" addition).reply "Add" q =
      if Fits a ∧ Fits b then .ok (.ofResult q.rid (.int (a + b))) else .error .conversion := by
  have runs : (method "Add" addition).run q.parameters = _ := addition_of_gives gives
  by_cases fits : Fits a ∧ Fits b
  · simp only [Method.reply, admitted, runs, if_pos fits]
    rfl
  · simp only [Method.reply, admitted, runs, if_neg fits]

theorem reply_div (gives : q.parameters.Gives a b)
    (admitted : (method "Div" division).offendingParam? q.parameters = none) :
    (method "Div" division).reply "Div" q =
      if Fits a ∧ Fits b then
        if b = 0 then .ok (.ofFailure q.rid ⟨400, "divide by zero", .business⟩)
        else if a = Json.minInt32 ∧ b = -1 then
          .ok (.ofFailure q.rid ⟨400, "integer overflow", .business⟩)
        else .ok (.ofResult q.rid (.int (a.tdiv b)))
      else .error .conversion := by
  have runs : (method "Div" division).run q.parameters = _ := division_of_gives gives
  by_cases fits : Fits a ∧ Fits b
  · by_cases zero : b = 0
    · simp only [Method.reply, admitted, runs, if_pos fits, if_pos zero, refuse]
    · by_cases least : a = Json.minInt32 ∧ b = -1
      · simp only [Method.reply, admitted, runs, if_pos fits, if_neg zero, if_pos least, refuse]
      · simp only [Method.reply, admitted, runs, if_pos fits, if_neg zero, if_neg least]
        rfl
  · simp only [Method.reply, admitted, runs, if_neg fits]

theorem find?_methods_add : methods.find? "Add" = some (method "Add" addition) := rfl

theorem find?_methods_div : methods.find? "Div" = some (method "Div" division) := rfl

theorem find?_methods_cases {m : Method} (found : methods.find? name = some m) :
    name = "Add" ∧ m = method "Add" addition ∨ name = "Div" ∧ m = method "Div" division := by
  simp only [methods, MethodTable.addMethod, Keyed.find?_insert, Keyed.find?_empty] at found
  split at found
  · rename_i div
    exact Or.inr ⟨div, (Option.some.inj found).symm⟩
  · split at found
    · rename_i add
      exact Or.inl ⟨add, (Option.some.inj found).symm⟩
    · cases found

end Calculator

theorem Request.reply_of_method {q : Request} {methods : Store .methods MethodTable}
    {table : MethodsRef} {path : String} {m : Method}
    (calculates : methods.get table = Calculator.methods)
    (found : Calculator.methods.find? q.method.value = some m) :
    q.reply methods path (some table) = m.reply q.method.value q := by
  simp only [reply, calculates, found]

end RpcHost
