import RpcHost.Keyed
import RpcHost.Text.Blank
import RpcHost.Text.Cut
import RpcHost.Text.Integer
/-!
Service addresses: protocol, host, port, path, group, and parameters by name. A parameter
that is absent differs from an empty one; an empty field or port zero counts as unset.
-/
namespace RpcHost

structure Url where
  protocol : String
  host : String
  port : Int
  path : String
  group : String
  params : Keyed String

inductive IntParam where
  | unset
  | whole (n : Int)
  | malformed (text : String)
  deriving DecidableEq, Repr

namespace Url

def empty : Url := ⟨"", "", 0, "", "", .empty⟩

instance : Inhabited Url := ⟨empty⟩

def registryKey : String := "registry"

def nodeTypeKey : String := "nodeType"

def filterKey : String := "filter"

def gzipSizeKey : String := "gzipSize"

def providerKey : String := "provider"

def basicServiceKey : String := "basicService"

def paramOr (u : Url) (key fallback : String) : String := (u.params.find? key).getD fallback

def param (u : Url) (key : String) : String := u.paramOr key ""

def hasParam (u : Url) (key : String) : Bool := u.params.contains key

def putParam (u : Url) (key value : String) : Url :=
  { u with params := u.params.insert key value }

def removeParam (u : Url) (key : String) : Url :=
  { u with params := u.params.erase key }

/-- A text that begins with NUL reads as zero, as an empty one would; only a blank one is
unset. -/
def intParam (u : Url) (key : String) : IntParam :=
  let cs := Text.trimChars (u.param key).toList
  if cs.isEmpty then .unset
  else
    match Text.wholeInteger? (Text.charsBeforeNul cs) with
    | some n => .whole n
    | none => .malformed (String.ofList cs)

def intValue (u : Url) (key : String) (fallback : Int) : Int :=
  match u.intParam key with
  | .whole n => n
  | _ => fallback

/-- The parts that tell addresses apart, as one text. -/
def identity (u : Url) : String :=
  u.protocol ++ "://" ++ u.host ++ ":" ++ toString u.port ++ "/" ++ u.path ++ "?group=" ++ u.group

/-- Takes over from `base` what is unset here. The path is never taken over. -/
def mergeFrom (u base : Url) : Url where
  protocol := if u.protocol.isEmpty then base.protocol else u.protocol
  host := if u.host.isEmpty then base.host else u.host
  port := if u.port = 0 then base.port else u.port
  path := u.path
  group := if u.group.isEmpty then base.group else u.group
  params := base.params.entries.foldl (fun m entry => m.insertNew entry.1 entry.2) u.params

def listParam (u : Url) (key : String) : List String := Text.splitTrimmed (u.param key) ","

theorem paramOr_putParam_self (u : Url) (key value fallback : String) :
    (u.putParam key value).paramOr key fallback = value := by
  simp [paramOr, putParam]

end Url

end RpcHost
