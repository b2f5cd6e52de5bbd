import RpcHost.Extensions.Lookup
import RpcHost.Message.Access
/-!
Filter chains: composing one from the names that an address lists, and calling through it.
Each filter goes on to the one named before it, so the last name is called first; behind the
first name stands the terminal, which calls the provider.
-/
namespace RpcHost

def addFilter (node : FilterNode) : Step FilterRef := do
  let h ← get
  set { h with filters := h.filters.add node }
  return h.filters.fresh

/-- The filters from `head` on. There are no more of them than filters in all. -/
def Host.chainFrom (h : Host) : Nat → FilterRef → List FilterRef
  | 0, _ => []
  | bound + 1, head =>
    match (h.filters.get head).next with
    | none => [head]
    | some next => head :: h.chainFrom bound next

def Host.chainOf (h : Host) (head : FilterRef) : List FilterRef :=
  h.chainFrom h.filters.next head

/-- Names joined by arrows. Empty names in front of all others are left out with their arrows;
later ones are kept. -/
def joinNames (names : List String) : String := "->".intercalate (names.dropWhile String.isEmpty)

def Host.chainInfo (h : Host) (head : FilterRef) : String :=
  joinNames ((h.chainOf head).map fun f => (h.filters.get f).kind.name)

def setNext (f : FilterRef) (next : Option FilterRef) : Step Unit := do
  let h ← get
  match (h.filters.get f).kind with
  | .terminal => writeLog .warning ["lastEndPointFilter 不能设置后续过滤器\n"]
  | _ => set { h with filters := h.filters.modify f fun node => { node with next } }

def giveContext (f : FilterRef) (c : ConfigurationRef) : Step Bool := do
  let h ← get
  let keeps := (h.filters.get f).kind.keepsContext
  if keeps then
    set { h with filters := h.filters.modify f fun node => { node with context := some c } }
  return keeps

/-- The filter of a prototype for an address. The terminal is always the shared one. -/
def bindFilter (kind : FilterKind) (u : UrlRef) : Step (Option FilterRef) := do
  match kind with
  | .unbound _ => return none
  | .terminal => return some Host.terminal
  | .recording _ => return some (← addFilter { FilterNode.ofKind kind with url := some u })
  | _ => return some (← addFilter (.ofKind kind))

def findFilters (x : ExtensionsRef) : List String → Step (List FilterKind)
  | [] => return []
  | name :: rest => do
    let found ← findFilter x name
    let others ← findFilters x rest
    return found.toList ++ others

def addressFilters (x : ExtensionsRef) (u : UrlRef) : Step (List FilterKind) := do
  findFilters x ((← getUrl u).listParam Url.filterKey)

def composeChain (c : ConfigurationRef) (u : UrlRef) :
    List FilterKind → FilterRef → Step FilterRef
  | [], head => return head
  | kind :: rest, head => do
    match ← bindFilter kind u with
    | none => composeChain c u rest head
    | some f =>
      if kind.forwards then
        let _ ← giveContext f c
        setNext f (some head)
        composeChain c u rest f
      else composeChain c u rest head

def wrapProvider (p : ProviderRef) (x : ExtensionsRef) (c : ConfigurationRef) :
    Step ProviderRef := do
  let u := (← get).addressOf p
  let kinds ← addressFilters x u
  let head ← composeChain c u kinds Host.terminal
  let h ← get
  let inner := h.providers.get p
  let wrapped : Provider := ⟨inner.backend, head :: inner.layers, some p⟩
  set { h with providers := h.providers.add wrapped }
  writeLog .info ["FilterProviderWrapper url: ", (h.urls.get u).identity, ", filter size:",
    toString kinds.length, ", filters:", h.chainInfo head, "\n"]
  return h.providers.fresh

def succeeded (answer : Option Response) : Bool := answer.any fun r => !r.hasFailure

def logAccess (info : String) (answer : Option Response) : Step Unit := do
  let h ← get
  writeLog .info ["access: ", info, ", cost=", toString (h.elapsed h.screen h.files),
    "ms, success=", if succeeded answer then "true" else "false", "\n"]

/-- What one filter does with a call: `next` is what stands behind it, `call` the provider. -/
def FilterKind.apply (kind : FilterKind) (q : Option RequestRef)
    (call next : Attempt (Option Response)) : Attempt (Option Response) :=
  match kind with
  | recording name => do
    emit (.entered name)
    let answer ← next
    emit (.left name)
    return answer
  | accessLog => do
    let answer ← next
    logAccess (← requestInfo q) answer
    return answer.map Response.failureSeen
  | terminal => call
  | throwing _ fault => throw fault
  | answering _ failure => do return some (.ofFailure (← requestRid q) failure)
  | repeating _ => do
    let _ ← next
    next
  | inert _ => next
  | unbound _ => next

def callThrough (q : Option RequestRef) (call : Attempt (Option Response)) :
    List FilterKind → Attempt (Option Response)
  | [] => call
  | kind :: rest => kind.apply q call (callThrough q call rest)

end RpcHost
