import RpcHost.Host.Basic
/-!
Registering services and taking them back. A direct registry always accepts; a scripted one
remembers the demand and leaves a mark before it accepts or fails.
-/
namespace RpcHost

def modifyRegistry (r : RegistryRef) (f : Registry → Registry) : Step Unit :=
  modify fun h => { h with registries := h.registries.modify r f }

def registryHost (r : RegistryRef) : Step String := do
  let h ← get
  return (h.urls.get (h.registries.get r).url).host

/-- What is done at a registry: the demand, what becomes of the list of a direct registry, what
happened then, and what a direct registry notes in the log. -/
structure Errand where
  demand : Demand
  relist : Keyed Unit → Keyed Unit
  event : Option String → Bool → Event
  note : String

namespace Errand

def register (r : RegistryRef) (identity : String) : Errand where
  demand := .register identity
  relist listed := listed.insert identity ()
  event host taken := .registered r host identity taken
  note := "direct registry 注册服务 "

def unregister (r : RegistryRef) (identity : String) : Errand where
  demand := .unregister identity
  relist listed := listed.erase identity
  event host taken := .unregistered r host identity taken
  note := "direct registry 注销服务 "

/-- The errand for the identity of an address, done at the registry. -/
def run (errandFor : String → Errand) (r : RegistryRef) (u : UrlRef) : Attempt Unit := do
  let identity := (← getUrl u).identity
  let errand := errandFor identity
  match ((← get).registries.get r).state with
  | .direct listed =>
    modifyRegistry r fun registry => { registry with state := .direct (errand.relist listed) }
    emit (errand.event none true)
    writeLog .info [errand.note, identity, "\n"]
  | .scripted script asked =>
    let host ← registryHost r
    let fault? := script asked errand.demand
    modifyRegistry r fun registry =>
      { registry with state := .scripted script (errand.demand :: asked) }
    emit (errand.event (some host) fault?.isNone)
    match fault? with
    | some fault => throw fault
    | none => return ()

end Errand

def registerService (r : RegistryRef) (u : UrlRef) : Attempt Unit := Errand.run (.register r) r u

def unregisterService (r : RegistryRef) (u : UrlRef) : Attempt Unit :=
  Errand.run (.unregister r) r u

end RpcHost
