import RpcHost.Host.Basic
import RpcHost.Json.Ordered
import RpcHost.Status
import RpcHost.Url.Reading
/-!
Loading a configuration: three sections of addresses by name, services that take over what
they do not set from a base service, and the settings of the log. Nothing is in force before
all of it could be read.
-/
namespace RpcHost

/-- How configurations are read: what a text says, and the order in which services take over what
their base services set. -/
structure Loader where
  read? : String → Option Json
  ordered : ∀ {text v}, read? text = some v → v.Ordered
  services : Traversal UrlRef

def Loader.standard : Loader := ⟨Json.read?, Json.read?_ordered, .byKey⟩

theorem Loader.read?_standard : Loader.standard.read? = Json.read? := rfl

def modifyConfiguration (c : ConfigurationRef) (f : Configuration → Configuration) : Step Unit :=
  modify fun h => { h with configurations := h.configurations.modify c f }

def addConfiguration : Step ConfigurationRef := do
  let h ← get
  set { h with configurations := h.configurations.add .empty }
  return h.configurations.fresh

def warnIgnored : List String → Step Unit
  | [] => return ()
  | name :: rest => do
    writeLog .warning ["URL参数 ", name, " 不是简单类型，已忽略\n"]
    warnIgnored rest

def readUrl (v : Json) : Attempt (Option UrlRef) := do
  match Url.read? v with
  | none =>
    writeLog .error ["URL配置必须是json对象!\n"]
    return none
  | some reading =>
    warnIgnored reading.ignored
    match reading.url? with
    | none => throw .conversion
    | some url => return some (← addUrl url)

def readEntries (heading : String) :
    List (String × Json) → Keyed UrlRef → Attempt (Option (Keyed UrlRef))
  | [], urls => return some urls
  | (name, v) :: rest, urls => do
    match ← readUrl v with
    | none =>
      writeLog .error ["配置段落 ", heading, " 中的 ", name, " 解析失败!\n"]
      return none
    | some u => readEntries heading rest (urls.insert name u)

/-- A section that is absent or null is empty. -/
def readSection (document : Json) (heading : String) : Attempt (Option (Keyed UrlRef)) := do
  match document.member heading with
  | .null => return some .empty
  | .obj members => readEntries heading members .empty
  | _ =>
    writeLog .error ["配置段落 ", heading, " 必须是json对象!\n"]
    return none

/-- Merges each service with the base service it names. False where there is none of that
name. -/
def inheritAll (basics : Keyed UrlRef) : List (String × UrlRef) → Step Bool
  | [] => return true
  | (name, u) :: rest => do
    let basic := (← getUrl u).param Url.basicServiceKey
    if basic.isEmpty then inheritAll basics rest
    else
      match basics.find? basic with
      | none =>
        writeLog .error ["服务 ", name, " 引用的基础配置 ", basic, " 不存在!\n"]
        return false
      | some base =>
        let baseUrl ← getUrl base
        modifyUrl u fun url => url.mergeFrom baseUrl
        inheritAll basics rest

def stringMember? (v : Json) (name : String) : Option String :=
  match v.member name with
  | .str s => some s
  | _ => none

def Log.configured (log : Log) (settings : Json) : Log :=
  { log with
    path := (stringMember? settings "file").getD log.path
    sink := match stringMember? settings "type" with
      | some "file" => .file
      | some _ => .screen
      | none => log.sink
    least := match stringMember? settings "level" with
      | some name => (Level.ofName? name).getD .debug
      | none => log.least }

def applyLogSettings (settings : Json) : Step Unit :=
  modify fun h => { h with log := h.log.configured settings }

def keptDocument (document : Json) : Json :=
  document.setMember Configuration.logSection (document.member Configuration.logSection)

def readSections (document : Json) :
    Attempt (Option (Keyed UrlRef × Keyed UrlRef × Keyed UrlRef)) := do
  match ← readSection document Configuration.registrySection with
  | none => return none
  | some registries =>
    match ← readSection document Configuration.basicSection with
    | none => return none
    | some basics =>
      match ← readSection document Configuration.serviceSection with
      | none => return none
      | some services => return some (registries, basics, services)

def loadDocument (loader : Loader) (c : ConfigurationRef) (document : Json) : Attempt Status := do
  match ← readSections document with
  | none => return .configError
  | some (registries, basics, services) =>
    if ← inheritAll basics (loader.services.walk services) then
      applyLogSettings (document.member Configuration.logSection)
      modifyConfiguration c fun configuration =>
        { configuration with document := keptDocument document, registries, basics, services }
      writeLog .info ["配置加载完成，注册中心 ", toString registries.size, " 个，服务 ",
        toString services.size, " 个\n"]
      return .ok
    else return .configError

def loadText (loader : Loader) (c : ConfigurationRef) (text : String) : Attempt Status := do
  match loader.read? text with
  | some (.obj members) => loadDocument loader c (.obj members)
  | some _ =>
    writeLog .error ["配置内容不是合法的json对象!\n"]
    return .configError
  | none =>
    writeLog .fatal ["UnSerialize failed! the text is not well formed\n"]
    writeLog .error ["配置内容不是合法的json对象!\n"]
    return .configError

/-- The name of the file is kept as soon as it could be opened. -/
def loadFile (loader : Loader) (c : ConfigurationRef) (name : String) : Attempt Status := do
  match (← get).files.read? name with
  | none =>
    writeLog .error ["打开配置文件 ", name, " 失败!\n"]
    return .configError
  | some text =>
    modifyConfiguration c fun configuration => { configuration with file := name }
    loadText loader c text

end RpcHost
