import RpcHost.Filter.Basic
import RpcHost.Message.Request
import RpcHost.Message.Response
import RpcHost.Url.Basic
/-!
Providers answer the requests of one path. A provider is a backend with layers of filters
around it. Wrapping a provider makes a new one on the same backend, so the address, the
availability and the business object are shared by all its wrappings.
-/
namespace RpcHost

abbrev BackendRef := Handle .backend

abbrev ProviderRef := Handle .provider

abbrev MethodsRef := Handle .methods

abbrev TableRef := Handle .table

inductive Service where
  | methods (table : MethodsRef)
  | foreign (label : Nat)
  deriving DecidableEq, Repr

/-- What a scripted backend goes by in a call: the paths of its address and of the address it was
made with, what it remembers of earlier calls, and the request. -/
structure Visit where
  path : String
  firstPath : String
  memory : Json
  request : Option Request

/-- What it makes of the call: what it remembers from then on, what it changes in the request, and
how the call ends. -/
structure Reaction where
  memory : Json
  edit : Request → Request
  outcome : Except Fault (Option Response)

inductive Behaviour where
  /-- Ends the call by itself, and leaves a mark if it is announced. -/
  | own (announced : Bool) (react : Visit → Reaction)
  | forward (table : TableRef) (service : String)
  | withdraw (table : TableRef)

namespace Behaviour

def announces : Behaviour → Bool
  | own announced _ => announced
  | _ => true

/-- A backend that does not end the call by itself keeps its memory and the request as they are. -/
def react : Behaviour → Visit → Reaction
  | own _ react, visit => react visit
  | _, visit => ⟨visit.memory, id, .ok none⟩

/-- Answers each request under its id, and remembers nothing. -/
def answering (announced : Bool) (answer : Visit → String → Except Fault (Option Response)) :
    Behaviour :=
  .own announced fun visit =>
    ⟨visit.memory, id, answer visit (visit.request.elim "" Request.rid)⟩

def ownPath : Behaviour :=
  answering false fun visit rid => .ok (some (.ofResult rid (.str visit.path)))

def firstPath : Behaviour :=
  answering true fun visit rid => .ok (some (.ofResult rid (.str visit.firstPath)))

end Behaviour

inductive Engine where
  | standard (methods : Option MethodsRef)
  | scripted (behaviour : Behaviour) (first : UrlRef) (calls : Nat) (memory : Json)
    (service : Option Service)

structure Backend where
  url : UrlRef
  available : Bool
  engine : Engine

namespace Backend

instance : Inhabited Backend := ⟨⟨default, false, .standard none⟩⟩

def standardAt (url : UrlRef) : Backend := ⟨url, true, .standard none⟩

def scriptedAt (behaviour : Behaviour) (url : UrlRef) : Backend :=
  ⟨url, true, .scripted behaviour url 0 .null none⟩

/-- For good: nothing makes the backend available again. -/
def destroyed (b : Backend) : Backend :=
  match b.engine with
  | .standard _ => { b with available := false, engine := .standard none }
  | .scripted .. => { b with available := false }

end Backend

/-- `layers` are the heads of the filter chains, the outermost first; `inner` is the provider
that was wrapped. -/
structure Provider where
  backend : BackendRef
  layers : List FilterRef
  inner : Option ProviderRef

instance : Inhabited Provider := ⟨⟨default, [], none⟩⟩

/-- A provider constructor makes a new backend for an address, or nothing. The mark that an export
leaves at the address makes no difference to it. -/
structure ProviderMaker where
  make : UrlRef → Url → Option Backend
  url_make : ∀ {u url b}, make u url = some b → b.url = u
  available_make : ∀ {u url b}, make u url = some b → b.available = true
  make_marked : ∀ u url, make u (url.putParam Url.nodeTypeKey "service") = make u url

namespace ProviderMaker

def standard : ProviderMaker where
  make u _ := some (.standardAt u)
  url_make | rfl => rfl
  available_make | rfl => rfl
  make_marked _ _ := rfl

def scripted (behaviour : Behaviour) : ProviderMaker where
  make u _ := some (.scriptedAt behaviour u)
  url_make | rfl => rfl
  available_make | rfl => rfl
  make_marked _ _ := rfl

def nothing : ProviderMaker where
  make _ _ := none
  url_make := by rintro _ _ _ ⟨⟩
  available_make := by rintro _ _ _ ⟨⟩
  make_marked _ _ := rfl

end ProviderMaker

end RpcHost
