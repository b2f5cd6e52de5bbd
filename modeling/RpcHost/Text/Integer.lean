/-!
Whole numbers written in a text: blanks, an optional sign, decimal digits. `wholeInteger?`
wants nothing after the digits and a number of 64 bits; `leadingInteger` takes what digits
there are.
-/
namespace RpcHost.Text

/-- What may stand before a number. Wider than the blanks that trimming removes. -/
def isSpace (c : Char) : Bool :=
  c == ' ' || c == '\t' || c == '\n' || c == '\x0b' || c == '\x0c' || c == '\r'

def isDigit (c : Char) : Bool := '0' ≤ c && c ≤ '9'

def digitValue (c : Char) : Nat := c.toNat - '0'.toNat

def digitsValue (cs : List Char) : Nat := cs.foldl (fun n c => 10 * n + digitValue c) 0

def splitSign : List Char → Bool × List Char
  | '-' :: rest => (true, rest)
  | '+' :: rest => (false, rest)
  | cs => (false, cs)

def signed (negative : Bool) (magnitude : Nat) : Int :=
  if negative then -(magnitude : Int) else magnitude

def inWord64 (n : Int) : Bool := -9223372036854775808 ≤ n && n < 9223372036854775808

/-- Nothing at all reads as zero. -/
def wholeInteger? (cs : List Char) : Option Int :=
  if cs.isEmpty then some 0
  else
    let (negative, digits) := splitSign (cs.dropWhile isSpace)
    let n := signed negative (digitsValue digits)
    if !digits.isEmpty && digits.all isDigit && inWord64 n then some n else none

/-- Zero where no digit stands in front. -/
def leadingInteger (cs : List Char) : Int :=
  let (negative, rest) := splitSign (cs.dropWhile isSpace)
  signed negative (digitsValue (rest.takeWhile isDigit))

end RpcHost.Text
