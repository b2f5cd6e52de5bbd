import RpcHost.Keyed
import RpcHost.Number.Decimal
/-!
Structured values. A whole number of any size is an `int`; readers make one only from the
ranges of 64-bit integers. The members of an object stand in the order of their names.
-/
namespace RpcHost

inductive Json where
  | null
  | bool (b : Bool)
  | int (n : Int)
  | real (x : Binary64)
  | str (s : String)
  | arr (items : List Json)
  | obj (members : List (String × Json))

namespace Json

instance : Inhabited Json := ⟨null⟩

def isNull : Json → Bool
  | null => true
  | _ => false

def isBool : Json → Bool
  | bool _ => true
  | _ => false

def isString : Json → Bool
  | str _ => true
  | _ => false

def isArray : Json → Bool
  | arr _ => true
  | _ => false

def isObject : Json → Bool
  | obj _ => true
  | _ => false

def isComposite (v : Json) : Bool := v.isArray || v.isObject

def isNumeric : Json → Bool
  | int _ => true
  | real _ => true
  | _ => false

/-- A real is integral when it is whole and fits a signed or an unsigned word. -/
def isIntegral : Json → Bool
  | int _ => true
  | real x =>
    match x.whole? with
    | some n => -9223372036854775808 ≤ n && n < 18446744073709551616
    | none => false
  | _ => false

def text? : Json → Option String
  | null => some ""
  | bool b => some (if b then "true" else "false")
  | int n => some (toString n)
  | real x => some x.text
  | str s => some s
  | arr _ => none
  | obj _ => none

def minInt32 : Int := -2147483648

def maxInt32 : Int := 2147483647

/-- The value as a 32-bit integer; a real loses its fraction, a text is not read. -/
def int32? : Json → Option Int
  | null => some 0
  | bool b => some (if b then 1 else 0)
  | int n => if minInt32 ≤ n ∧ n ≤ maxInt32 then some n else none
  | real x => x.truncateWithin? minInt32 maxInt32
  | str _ => none
  | arr _ => none
  | obj _ => none

/-- The member of that name: none in an object without it and in null, a fault elsewhere. -/
def member? (name : String) : Json → Option Json
  | obj members => Entries.find? name members
  | _ => none

def member (name : String) (v : Json) : Json := (v.member? name).getD null

def hasMembers : Json → Bool
  | obj _ => true
  | null => true
  | _ => false

/-- An object with `value` under that name; what is no object becomes one. -/
def setMember (v : Json) (name : String) (value : Json) : Json :=
  match v with
  | obj members => obj (Entries.insert name value members)
  | _ => obj [(name, value)]

def ofEntries (members : List (String × Json)) : Json :=
  obj (members.foldl (fun acc entry => Entries.insert entry.1 entry.2 acc) [])

theorem text?_eq_none_iff (v : Json) : v.text? = none ↔ v.isComposite = true := by
  cases v <;> simp [text?, isComposite, isArray, isObject]

end Json

end RpcHost
