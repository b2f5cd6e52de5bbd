import RpcHost.Event
import RpcHost.FileTree
import RpcHost.Log
import RpcHost.Message.Request
import RpcHost.Method.Basic
import RpcHost.Server.Basic
import RpcHost.Url.Basic
/-!
All that one process holds. A `Step` changes it and cannot fail; an `Attempt` may end in a
fault, and what it changed before that stays changed.
-/
namespace RpcHost

abbrev RequestRef := Handle .request

structure Host where
  urls : Store .url Url
  backends : Store .backend Backend
  providers : Store .provider Provider
  filters : Store .filter FilterNode
  registries : Store .registry Registry
  methods : Store .methods MethodTable
  tables : Store .table Routes
  endpoints : Store .endpoint Endpoint
  exporters : Store .exporter Exporter
  configurations : Store .configuration Configuration
  extensions : Store .extensions Extensions
  servers : Store .server Server
  requests : Store .request Request
  log : Log
  screen : List Record
  files : FileTree
  /-- The random bytes of the identifier of each sequence number. -/
  random : UInt64 → Fin 8 → UInt8
  /-- The milliseconds that a call took, by what had been logged when it ended. -/
  elapsed : List Record → FileTree → Nat
  sequence : UInt64
  journal : List Event

abbrev Step := StateM Host

abbrev Attempt := ExceptT Fault (StateM Host)

namespace Host

def terminal : FilterRef := ⟨0⟩

def start (files : FileTree) (random : UInt64 → Fin 8 → UInt8)
    (elapsed : List Record → FileTree → Nat) : Host where
  urls := .empty
  backends := .empty
  providers := .empty
  filters := Store.empty.add (.ofKind .terminal)
  registries := .empty
  methods := .empty
  tables := .empty
  endpoints := .empty
  exporters := .empty
  configurations := .empty
  extensions := .empty
  servers := .empty
  requests := .empty
  log := .start
  screen := []
  files
  random
  elapsed
  sequence := 1
  journal := []

def backendOf (h : Host) (p : ProviderRef) : Backend := h.backends.get (h.providers.get p).backend

def addressOf (h : Host) (p : ProviderRef) : UrlRef := (h.backendOf p).url

def pathOf (h : Host) (p : ProviderRef) : String := (h.urls.get (h.addressOf p)).path

/-- Puts a record where the settings of the log send it. -/
def record (h : Host) (record : Record) : Host :=
  match h.log.destination? record.level with
  | none => h
  | some .screen => { h with screen := h.screen ++ [record] }
  | some (.file path) => { h with files := h.files.append path record }

end Host

def writeLog (level : Level) (pieces : List String) : Step Unit :=
  modify fun h => h.record ⟨level, Record.messageOf pieces⟩

def emit (event : Event) : Step Unit :=
  modify fun h => { h with journal := h.journal ++ [event] }

def getUrl (u : UrlRef) : Step Url := do return (← get).urls.get u

def addUrl (u : Url) : Step UrlRef := do
  let h ← get
  set { h with urls := h.urls.add u }
  return h.urls.fresh

def modifyUrl (u : UrlRef) (f : Url → Url) : Step Unit :=
  modify fun h => { h with urls := h.urls.modify u f }

def readIntParam (u : UrlRef) (key : String) (fallback : Int) : Step Int := do
  let url ← getUrl u
  match url.intParam key with
  | .malformed s => writeLog .warning ["URL参数 ", key, "=", s, " 不是合法的整数，使用默认值\n"]
  | _ => pure ()
  return url.intValue key fallback

def writeFile (path text : String) : Step Unit :=
  modify fun h => { h with files := h.files.write path text }

def nextSequence : Step UInt64 := do
  let h ← get
  set { h with sequence := h.sequence + 1 }
  return h.sequence

end RpcHost
