/-!
Cutting a text short: at its first NUL, or at a number of bytes.
-/
namespace RpcHost.Text

def charsBeforeNul (cs : List Char) : List Char := cs.takeWhile (· != '\x00')

def beforeNul (s : String) : String := String.ofList (charsBeforeNul s.toList)

/-- The longest beginning of whole characters that fits in `limit` bytes. -/
def takeBytes : Nat → List Char → List Char
  | _, [] => []
  | limit, c :: rest =>
    if c.utf8Size ≤ limit then c :: takeBytes (limit - c.utf8Size) rest else []

end RpcHost.Text
