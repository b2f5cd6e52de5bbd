/-!
Blank-trimmed pieces of a text. Blanks are space, tab, carriage return and line feed.
A separator cuts at its leftmost occurrences that do not overlap, and pieces that are
blank are dropped.
-/
namespace RpcHost.Text

def isBlank (c : Char) : Bool :=
  c == ' ' || c == '\t' || c == '\r' || c == '\n'

def trimEnd (cs : List Char) : List Char := (cs.reverse.dropWhile isBlank).reverse

def trimChars (cs : List Char) : List Char := trimEnd (cs.dropWhile isBlank)

def trim (s : String) : String := String.ofList (trimChars s.toList)

def extendFirst (c : Char) : List (List Char) → List (List Char)
  | [] => [[c]]
  | piece :: rest => (c :: piece) :: rest

/-- The pieces between the occurrences of `sep`, which is not empty; `skip` counts the
characters that belong to an occurrence already found. -/
def cutsFrom (sep : List Char) : Nat → List Char → List (List Char)
  | _, [] => [[]]
  | skip + 1, _ :: rest => cutsFrom sep skip rest
  | 0, c :: rest =>
    if sep.isPrefixOf (c :: rest) then [] :: cutsFrom sep (sep.length - 1) rest
    else extendFirst c (cutsFrom sep 0 rest)

def cuts (sep cs : List Char) : List (List Char) := cutsFrom sep 0 cs

/-- With an empty separator the whole text is one piece. -/
def pieces (s sep : String) : List (List Char) :=
  if sep.isEmpty then [s.toList] else cuts sep.toList s.toList

def splitTrimmed (s sep : String) : List String :=
  (((pieces s sep).map trimChars).filter fun piece => !piece.isEmpty).map String.ofList

theorem extendFirst_ne_nil (c : Char) (parts : List (List Char)) : extendFirst c parts ≠ [] := by
  cases parts <;> simp [extendFirst]

theorem cutsFrom_ne_nil (sep : List Char) (skip : Nat) (cs : List Char) :
    cutsFrom sep skip cs ≠ [] := by
  induction cs generalizing skip with
  | nil => simp [cutsFrom]
  | cons c rest ih =>
    cases skip with
    | succ skip => exact ih skip
    | zero =>
      rw [cutsFrom]
      split
      · simp
      · exact extendFirst_ne_nil c _

end RpcHost.Text
