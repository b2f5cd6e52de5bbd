import RpcHost.Text.Cut
/-!
Records of the log: a level and a message. Levels are ordered by a number and have names.
-/
namespace RpcHost

structure Level where
  rank : Int
  deriving DecidableEq, Repr

namespace Level

def debug : Level := ⟨1⟩

def info : Level := ⟨2⟩

def warning : Level := ⟨3⟩

def error : Level := ⟨4⟩

def fatal : Level := ⟨5⟩

def name (level : Level) : String :=
  if level = debug then "DEBUG"
  else if level = info then "INFO"
  else if level = warning then "WARING"
  else if level = error then "ERROR"
  else if level = fatal then "FATAL"
  else "UNKOWN"

def ofName? (s : String) : Option Level :=
  if s = "DEBUG" then some debug
  else if s = "INFO" then some info
  else if s = "WARING" ∨ s = "WARNING" then some warning
  else if s = "ERROR" then some error
  else if s = "FATAL" then some fatal
  else none

end Level

structure Record where
  level : Level
  message : String
  deriving DecidableEq, Repr

namespace Record

def messageLimit : Nat := 1023

/-- A message shows each of its pieces up to the piece's first NUL, and then what fits. -/
def messageOf (pieces : List String) : String :=
  String.ofList <| Text.takeBytes messageLimit <|
    pieces.flatMap fun piece => Text.charsBeforeNul piece.toList

def line (record : Record) : String := "[" ++ record.level.name ++ "] " ++ record.message

end Record

end RpcHost
