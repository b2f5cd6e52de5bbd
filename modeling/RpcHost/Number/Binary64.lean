/-!
Binary floating-point numbers of 64 bits, as exact values: a sign, a whole significand below
2^53 and a power of two from 2^-1074 to 2^971. Reading a decimal rounds to the nearest such
number, ties to the even significand.
-/
namespace RpcHost

inductive Binary64 where
  | finite (negative : Bool) (significand : Nat) (exponent : Int)
  | infinite (negative : Bool)
  deriving DecidableEq, Repr

/-- The nearest whole number to `num / den`, a half to the even one. -/
def roundHalfEven (num den : Nat) : Nat :=
  let floor := num / den
  let twice := 2 * (num % den)
  if twice < den then floor
  else if den < twice then floor + 1
  else floor + floor % 2

def scaleByTwo (num den : Nat) (shift : Int) : Nat × Nat :=
  if 0 ≤ shift then (num * Nat.pow 2 shift.toNat, den) else (num, den * Nat.pow 2 (-shift).toNat)

def scaleByTen (num den : Nat) (shift : Int) : Nat × Nat :=
  if 0 ≤ shift then (num * Nat.pow 10 shift.toNat, den) else (num, den * Nat.pow 10 (-shift).toNat)

namespace Binary64

def minExponent : Int := -1074

def maxExponent : Int := 971

def zero (negative : Bool) : Binary64 := .finite negative 0 minExponent

/-- The exponent at which the quotient has 53 bits before its point, or the least one. -/
def exponentFor (num den : Nat) : Int :=
  let guess := max ((Nat.log2 num : Int) - Nat.log2 den - 53) minExponent
  let (n, d) := scaleByTwo num den (-guess)
  if n / d < Nat.pow 2 53 then guess else guess + 1

def ofQuotient (negative : Bool) (num den : Nat) : Binary64 :=
  if num = 0 then zero negative
  else
    let exponent := exponentFor num den
    let (n, d) := scaleByTwo num den (-exponent)
    let rounded := roundHalfEven n d
    let (significand, exponent) :=
      if rounded < Nat.pow 2 53 then (rounded, exponent) else (Nat.pow 2 52, exponent + 1)
    if exponent ≤ maxExponent then .finite negative significand exponent
    else .infinite negative

/-- `digits * 10 ^ scale`, where `digits` was written with `count` digits. Far out of range the
power of ten is not computed. -/
def ofDecimal (negative : Bool) (digits count : Nat) (scale : Int) : Binary64 :=
  if digits = 0 then zero negative
  else if 400 < scale then .infinite negative
  else if scale + count < -400 then zero negative
  else
    let (num, den) := scaleByTen digits 1 scale
    ofQuotient negative num den

def quotient? : Binary64 → Option (Int × Nat)
  | .infinite _ => none
  | .finite negative significand exponent =>
    let (num, den) := scaleByTwo significand 1 exponent
    some (if negative then -(num : Int) else num, den)

def whole? (x : Binary64) : Option Int :=
  match x.quotient? with
  | none => none
  | some (num, den) => if num % den = 0 then some (num / den) else none

/-- The value without its fraction, where the value lies from `low` to `high`. -/
def truncateWithin? (low high : Int) (x : Binary64) : Option Int :=
  match x.quotient? with
  | none => none
  | some (num, den) =>
    if low * den ≤ num ∧ num ≤ high * den then some (num.tdiv den) else none

end Binary64

end RpcHost
