import RpcHost.Log.Record
/-!
The settings of the log: a least level, a sink and the path of a file. They say where a record
goes. Records below the level go nowhere, and so do records for a sink that is neither the
screen nor a file.
-/
namespace RpcHost

structure Sink where
  number : Int
  deriving DecidableEq, Repr

def Sink.screen : Sink := ⟨1⟩

def Sink.file : Sink := ⟨2⟩

structure Log where
  least : Level
  sink : Sink
  path : String
  deriving DecidableEq, Repr

inductive Destination where
  | screen
  | file (path : String)
  deriving DecidableEq, Repr

namespace Log

def defaultPath : String := "./log.txt"

def start : Log := ⟨.debug, .screen, defaultPath⟩

instance : Inhabited Log := ⟨start⟩

def destination? (log : Log) (level : Level) : Option Destination :=
  if level.rank < log.least.rank then none
  else if log.sink = .screen then some .screen
  else if log.sink = .file then some (.file log.path)
  else none

end Log

end RpcHost
