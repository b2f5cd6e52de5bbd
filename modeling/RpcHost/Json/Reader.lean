import RpcHost.Json.Basic
import RpcHost.Text.Integer
/-!
Reading the text of a structured value. Blanks may stand between tokens and nothing may
follow the value. Of members with one name the last is kept. A number without fraction and
exponent is an integer if it fits a signed or an unsigned word, else a real.
-/
namespace RpcHost.Json

def skipBlanks (cs : List Char) : List Char :=
  cs.dropWhile fun c => c == ' ' || c == '\t' || c == '\n' || c == '\r'

def expect (token : List Char) (cs : List Char) : Option (List Char) :=
  if token.isPrefixOf cs then some (cs.drop token.length) else none

def hexValue? (c : Char) : Option Nat :=
  if '0' ≤ c && c ≤ '9' then some (c.toNat - '0'.toNat)
  else if 'a' ≤ c && c ≤ 'f' then some (c.toNat - 'a'.toNat + 10)
  else if 'A' ≤ c && c ≤ 'F' then some (c.toNat - 'A'.toNat + 10)
  else none

def fourHex? : List Char → Option (Nat × List Char)
  | a :: b :: c :: d :: rest => do
    let a ← hexValue? a
    let b ← hexValue? b
    let c ← hexValue? c
    let d ← hexValue? d
    some (((a * 16 + b) * 16 + c) * 16 + d, rest)
  | _ => none

/-- The character of an escape whose `\u` is already read. Half of a surrogate pair without the
other half is no character. -/
def unicodeEscape? (cs : List Char) : Option (Char × List Char) :=
  match fourHex? cs with
  | none => none
  | some (unit, rest) =>
    if 0xd800 ≤ unit ∧ unit < 0xdc00 then
      match rest with
      | '\\' :: 'u' :: more =>
        match fourHex? more with
        | none => none
        | some (low, after) =>
          if 0xdc00 ≤ low ∧ low < 0xe000 then
            some (Char.ofNat (0x10000 + (unit - 0xd800) * 0x400 + (low - 0xdc00)), after)
          else none
      | _ => none
    else if 0xdc00 ≤ unit ∧ unit < 0xe000 then none
    else some (Char.ofNat unit, rest)

def simpleEscape? (c : Char) : Option Char :=
  match c with
  | '"' => some '"'
  | '\\' => some '\\'
  | '/' => some '/'
  | 'b' => some '\x08'
  | 'f' => some '\x0c'
  | 'n' => some '\n'
  | 'r' => some '\r'
  | 't' => some '\t'
  | _ => none

/-- The characters up to the closing quote; `done` holds those before, last first. -/
def readString (fuel : Nat) (done : List Char) (cs : List Char) : Option (String × List Char) :=
  match fuel, cs with
  | 0, _ => none
  | _, [] => none
  | _ + 1, '"' :: rest => some (String.ofList done.reverse, rest)
  | fuel + 1, '\\' :: 'u' :: rest =>
    match unicodeEscape? rest with
    | none => none
    | some (c, after) => readString fuel (c :: done) after
  | fuel + 1, '\\' :: c :: rest =>
    match simpleEscape? c with
    | none => none
    | some e => readString fuel (e :: done) rest
  | fuel + 1, c :: rest =>
    if c == '\\' || c.toNat < 0x20 then none else readString fuel (c :: done) rest

def splitDigits (cs : List Char) : List Char × List Char :=
  (cs.takeWhile Text.isDigit, cs.dropWhile Text.isDigit)

def readFraction? : List Char → Option (Option (List Char) × List Char)
  | '.' :: rest =>
    let (digits, after) := splitDigits rest
    if digits.isEmpty then none else some (some digits, after)
  | cs => some (none, cs)

def readExponent? : List Char → Option (Option Int × List Char)
  | c :: rest =>
    if c == 'e' || c == 'E' then
      let (negative, unsigned) := Text.splitSign rest
      let (digits, after) := splitDigits unsigned
      if digits.isEmpty then none
      else some (some (Text.signed negative (Text.digitsValue digits)), after)
    else some (none, c :: rest)
  | [] => some (none, [])

def numberOf (negative : Bool) (whole : List Char) (fraction : Option (List Char))
    (exponent : Option Int) : Json :=
  let digits := whole ++ fraction.getD []
  let scale := exponent.getD 0 - (fraction.getD []).length
  let asReal := real (.ofDecimal negative (Text.digitsValue digits) digits.length scale)
  let n := Text.signed negative (Text.digitsValue whole)
  if fraction.isSome || exponent.isSome then asReal
  else if -9223372036854775808 ≤ n && n < 18446744073709551616 then int n
  else asReal

def readNumber? (cs : List Char) : Option (Json × List Char) :=
  let (negative, unsigned) := match cs with
    | '-' :: rest => (true, rest)
    | _ => (false, cs)
  let (whole, afterWhole) := splitDigits unsigned
  if whole.isEmpty || (whole.length > 1 && whole.head? == some '0') then none
  else
    match readFraction? afterWhole with
    | none => none
    | some (fraction, afterFraction) =>
      match readExponent? afterFraction with
      | none => none
      | some (exponent, rest) => some (numberOf negative whole fraction exponent, rest)

mutual

def readValue (fuel : Nat) (cs : List Char) : Option (Json × List Char) :=
  match fuel with
  | 0 => none
  | fuel + 1 =>
    match skipBlanks cs with
    | [] => none
    | c :: rest =>
      if c == '"' then (readString rest.length [] rest).map fun (s, after) => (str s, after)
      else if c == '[' then
        match skipBlanks rest with
        | ']' :: after => some (arr [], after)
        | _ => (readItems fuel rest).map fun (items, after) => (arr items, after)
      else if c == '\x7b' then
        match skipBlanks rest with
        | '\x7d' :: after => some (obj [], after)
        | _ => (readMembers fuel [] rest).map fun (members, after) => (obj members, after)
      else if c == 't' then
        (expect "rue".toList rest).map fun after => (bool true, after)
      else if c == 'f' then
        (expect "alse".toList rest).map fun after => (bool false, after)
      else if c == 'n' then
        (expect "ull".toList rest).map fun after => (null, after)
      else readNumber? (c :: rest)

def readItems (fuel : Nat) (cs : List Char) : Option (List Json × List Char) :=
  match fuel with
  | 0 => none
  | fuel + 1 =>
    match readValue fuel cs with
    | none => none
    | some (item, rest) =>
      match skipBlanks rest with
      | ',' :: more => (readItems fuel more).map fun (items, after) => (item :: items, after)
      | ']' :: after => some ([item], after)
      | _ => none

/-- At least one member, and the closing brace; `done` holds the members before. -/
def readMembers (fuel : Nat) (done : List (String × Json)) (cs : List Char) :
    Option (List (String × Json) × List Char) :=
  match fuel with
  | 0 => none
  | fuel + 1 =>
    match skipBlanks cs with
    | '"' :: quoted =>
      match readString quoted.length [] quoted with
      | none => none
      | some (name, afterName) =>
        match skipBlanks afterName with
        | ':' :: afterColon =>
          match readValue fuel afterColon with
          | none => none
          | some (value, rest) =>
            match skipBlanks rest with
            | ',' :: more => readMembers fuel (Entries.insert name value done) more
            | '\x7d' :: after => some (Entries.insert name value done, after)
            | _ => none
        | _ => none
    | _ => none

end

/-- Each step of reading consumes a character, so twice the length bounds their number. -/
def read? (s : String) : Option Json :=
  let cs := s.toList
  match readValue (2 * cs.length + 2) cs with
  | none => none
  | some (value, rest) => if (skipBlanks rest).isEmpty then some value else none

end RpcHost.Json
