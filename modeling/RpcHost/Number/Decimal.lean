import RpcHost.Number.Binary64
/-!
Decimal text of a number: 17 significant digits, rounded exactly, without trailing zeros.
Powers of ten from 10^-4 to 10^16 are written positionally and all others with an exponent
of at least two digits. A text that is all digits gets `.0`.
-/
namespace RpcHost.Binary64

def significantDigits : Nat := 17

/-- The power of ten of the first digit, and all significant digits as one number. -/
def decimalDigits (num den : Nat) : Int × Nat :=
  let shifted := num * Nat.pow 10 400 / den
  let lead : Int := (toString shifted).length - 401
  let (n, d) := scaleByTen num den (significantDigits - 1 - lead)
  let digits := roundHalfEven n d
  if digits < Nat.pow 10 significantDigits then (lead, digits)
  else (lead + 1, digits / 10)

def dropTrailingZeros (cs : List Char) : List Char :=
  (cs.reverse.dropWhile (· == '0')).reverse

def withFraction (whole fraction : List Char) : List Char :=
  let kept := dropTrailingZeros fraction
  if kept.isEmpty then whole else whole ++ '.' :: kept

/-- Digits with the power of ten `lead` of the first of them, positionally. -/
def positional (lead : Int) (digits : List Char) : List Char :=
  if 0 ≤ lead then
    withFraction (digits.take (lead.toNat + 1)) (digits.drop (lead.toNat + 1))
  else
    withFraction ['0'] (List.replicate (-lead - 1).toNat '0' ++ digits)

def withExponent (lead : Int) (digits : List Char) : List Char :=
  let sign := if lead < 0 then '-' else '+'
  let magnitude := (toString lead.natAbs).toList
  let padded := if magnitude.length < 2 then '0' :: magnitude else magnitude
  withFraction (digits.take 1) (digits.drop 1) ++ 'e' :: sign :: padded

def magnitudeText (significand : Nat) (exponent : Int) : List Char :=
  if significand = 0 then ['0']
  else
    let (num, den) := scaleByTwo significand 1 exponent
    let (lead, digits) := decimalDigits num den
    let cs := (toString digits).toList
    if -4 ≤ lead ∧ lead < significantDigits then positional lead cs else withExponent lead cs

def signText (negative : Bool) (cs : List Char) : List Char :=
  if negative then '-' :: cs else cs

def textChars : Binary64 → List Char
  | .infinite negative => signText negative ['i', 'n', 'f']
  | .finite negative significand exponent =>
    let cs := magnitudeText significand exponent
    signText negative (if cs.any fun c => c == '.' || c == 'e' then cs else cs ++ ['.', '0'])

def text (x : Binary64) : String := String.ofList x.textChars

end RpcHost.Binary64
