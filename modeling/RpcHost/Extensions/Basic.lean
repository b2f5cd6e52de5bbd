import RpcHost.Provider.Basic
/-!
Constructors by name, and the registries made so far by the identity of their address. A name
may stand with no constructor behind it: look-ups treat that like an unknown name, except the
look-up of a registry, which fails on it.
-/
namespace RpcHost

abbrev ExtensionsRef := Handle .extensions

inductive PlainMaker where
  | made
  | nothing
  deriving DecidableEq, Repr

/-- A constructor with a label leaves a mark under it when it runs. -/
structure RegistryConstructor where
  label : Option String
  maker : RegistryMaker

structure Extensions where
  endpoints : Keyed (Option PlainMaker)
  tables : Keyed (Option PlainMaker)
  registries : Keyed (Option RegistryConstructor)
  filters : Keyed (Option FilterMaker)
  providers : Keyed (Option ProviderMaker)
  instances : Keyed RegistryRef

namespace Extensions

def defaultName : String := "default"

def empty : Extensions := ⟨.empty, .empty, .empty, .empty, .empty, .empty⟩

instance : Inhabited Extensions := ⟨empty⟩

def builtIn : Extensions where
  endpoints := .ofList [("mrpc", some .made), ("local", some .made), ("cgi", some .made)]
  tables := .ofList [(defaultName, some .made)]
  registries := .ofList [(Registry.directName, some ⟨none, .direct⟩)]
  filters := .ofList [(FilterKind.accessLog.name, some (some .accessLog))]
  providers := .ofList [(defaultName, some .standard)]
  instances := .empty

/-- The constructor of that name, unless there is none behind the name. -/
def usable {α : Type} (makers : Keyed (Option α)) (name : String) : Option α :=
  (makers.find? name).join

end Extensions

end RpcHost
