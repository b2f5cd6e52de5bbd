import RpcHost.Proofs.Containment
/-!
How a call of a standard backend ends behind any filters, and what a server answers with it. Each
filter hands on how the call behind it ends, or ends the call itself, so what comes out is a
function of the methods, the filters and the request. Nothing but requests and the log changes.
-/
namespace RpcHost

open Host

variable {h h' mid : Host} {q : RequestRef} {r : Request} {p : ProviderRef} {s : ServerRef}
  {t : TableRef} {u v : Except Fault Response}

/-- How a call ends at the filter, where what stands behind the filter ends as `next` and the
provider as `call`. -/
def FilterKind.hands (kind : FilterKind) (r : Request) (call next : Except Fault Response) :
    Except Fault Response :=
  match kind with
  | accessLog => next.map Response.failureSeen
  | terminal => call
  | throwing _ fault => .error fault
  | answering _ failure => .ok (.ofFailure r.rid failure)
  | _ => next

def Request.through (r : Request) (call : Except Fault Response) (kinds : List FilterKind) :
    Except Fault Response :=
  kinds.foldr (fun kind next => kind.hands r call next) call

def Request.layered (r : Request) (call : Except Fault Response)
    (chains : List (List FilterKind)) : Except Fault Response :=
  chains.foldr (fun kinds behind => r.through behind kinds) call

def Backend.offered (b : Backend) : Option MethodsRef :=
  match b.engine with
  | .standard methods => if b.available then methods else none
  | .scripted .. => none

def Backend.Standard (b : Backend) : Prop := ∃ methods, b.engine = .standard methods

theorem Backend.standard_of_offered {b : Backend} {table : MethodsRef}
    (offered : b.offered = some table) : b.Standard := by
  cases engine : b.engine with
  | standard methods => exact ⟨methods, engine⟩
  | scripted => simp [Backend.offered, engine] at offered

namespace Host

def bareReply (h : Host) (p : ProviderRef) (r : Request) : Except Fault Response :=
  r.reply h.methods (h.pathOf p) (h.backendOf p).offered

/-- How the provider ends a call with the request. -/
def replyOf (h : Host) (p : ProviderRef) (r : Request) : Except Fault Response :=
  r.layered (h.bareReply p r) (h.kindsOf p)

theorem kindsOf_bare {h : Host} {p : ProviderRef} (bare : (h.providers.get p).layers = []) :
    h.kindsOf p = [] := by
  unfold kindsOf
  rw [bare]
  rfl

theorem replyOf_bare {h : Host} {p : ProviderRef} (bare : (h.providers.get p).layers = [])
    (r : Request) : h.replyOf p r = h.bareReply p r := by
  unfold replyOf
  rw [kindsOf_bare bare]
  rfl

def reached (h : Host) (s : ServerRef) (path : String) : Option ProviderRef :=
  ((h.endpoints.get (h.servers.get s).endpoint).servingTable).bind fun t =>
    (h.tables.get t).find? path

end Host

namespace Host.Reading

theorem apply_hands (kind : FilterKind) {call next : Attempt (Option Response)}
    (calls : ∀ mid, h.Reading q r mid → Attempt.Gives (h.Reading q r) call (u.map some) mid)
    (goes : ∀ mid, h.Reading q r mid → Attempt.Gives (h.Reading q r) next (v.map some) mid)
    (reading : h.Reading q r mid) :
    Attempt.Gives (h.Reading q r) (kind.apply (some q) call next)
      ((kind.hands r u v).map some) mid := by
  cases kind with
  | recording name =>
    refine Attempt.gives_bind (Attempt.gives_lift (reading.emit_gives rfl)) fun mid reading => ?_
    cases v with
    | error fault => exact Attempt.gives_bind_error (goes mid reading)
    | ok answer =>
      refine Attempt.gives_bind (goes mid reading) fun mid reading => ?_
      refine Attempt.gives_bind (Attempt.gives_lift (reading.emit_gives rfl)) ?_
      exact fun _ reading => Attempt.gives_pure _ reading
  | accessLog =>
    cases v with
    | error fault => exact Attempt.gives_bind_error (goes mid reading)
    | ok answer =>
      refine Attempt.gives_bind (goes mid reading) fun mid reading => ?_
      refine Attempt.gives_bind (Attempt.gives_lift reading.requestInfo_gives) ?_
      refine fun mid reading => Attempt.gives_bind
        (Attempt.gives_lift (reading.logAccess_gives _ _)) fun _ reading => ?_
      exact Attempt.gives_pure _ reading
  | terminal => exact calls mid reading
  | throwing name fault => exact Attempt.gives_throw _ reading
  | answering name failure =>
    refine Attempt.gives_bind (Attempt.gives_lift reading.requestRid_gives) ?_
    exact fun _ reading => Attempt.gives_pure _ reading
  | repeating name =>
    cases v with
    | error fault => exact Attempt.gives_bind_error (goes mid reading)
    | ok answer => exact Attempt.gives_bind (goes mid reading) goes
  | inert name => exact goes mid reading
  | unbound name => exact goes mid reading

theorem callThrough_through {call : Attempt (Option Response)}
    (calls : ∀ mid, h.Reading q r mid → Attempt.Gives (h.Reading q r) call (u.map some) mid)
    (kinds : List FilterKind) (reading : h.Reading q r mid) :
    Attempt.Gives (h.Reading q r) (callThrough (some q) call kinds)
      ((r.through u kinds).map some) mid := by
  induction kinds generalizing mid with
  | nil => exact calls mid reading
  | cons kind rest ih => exact apply_hands kind calls (fun _ => ih) reading

theorem callLayers_layered {call : Attempt (Option Response)}
    (calls : ∀ mid, h.Reading q r mid → Attempt.Gives (h.Reading q r) call (u.map some) mid)
    (chains : List (List FilterKind)) (reading : h.Reading q r mid) :
    Attempt.Gives (h.Reading q r) (callLayers (some q) call chains)
      ((r.layered u chains).map some) mid := by
  induction chains generalizing mid with
  | nil => exact calls mid reading
  | cons kinds rest ih => exact callThrough_through (fun _ => ih) kinds reading

variable (reading : h.Reading q r mid)

include reading

theorem callStandard_offered (available : Bool) (methods : Option MethodsRef) (path : String) :
    Attempt.Gives (h.Reading q r) (callStandard available methods path (some q))
      (r.reply h.methods path (if available then methods else none)) mid := by
  cases available with
  | true => exact reading.callStandard_gives methods path
  | false => exact Attempt.gives_lift (reading.informed_gives .error _ _)

theorem backendOf (p : ProviderRef) : mid.backendOf p = h.backendOf p := by
  obtain ⟨_, _, _, _, rfl⟩ := reading.rest
  rfl

theorem pathOf (p : ProviderRef) : mid.pathOf p = h.pathOf p := by
  obtain ⟨_, _, _, _, rfl⟩ := reading.rest
  rfl

theorem kindsOf (p : ProviderRef) : mid.kindsOf p = h.kindsOf p := by
  obtain ⟨_, _, _, _, rfl⟩ := reading.rest
  exact kindsOf_congr rfl rfl

theorem hintAt (p : ProviderRef) : mid.hintAt p = h.hintAt p := by
  obtain ⟨_, _, _, _, rfl⟩ := reading.rest
  rfl

variable (standard : (h.backendOf p).Standard)

include standard

theorem callBackend_bare (forwarding : Forwarding) :
    Attempt.Gives (h.Reading q r) (callBackend forwarding (mid.providers.get p).backend (some q))
      ((h.bareReply p r).map some) mid := by
  obtain ⟨methods, engine⟩ := standard
  have bare : h.bareReply p r = r.reply h.methods (h.pathOf p)
      (if (h.backendOf p).available then methods else none) := by
    unfold Host.bareReply Backend.offered
    rw [engine]
  rw [← reading.backendOf] at engine bare
  rw [← reading.pathOf] at bare
  refine Attempt.gives_get_bind ?_
  show Attempt.Gives _ (match (mid.backendOf p).engine with
    | .standard methods => _
    | .scripted .. => _) _ _
  rw [engine, bare]
  exact Attempt.gives_map some
    (reading.callStandard_offered (mid.backendOf p).available methods (mid.pathOf p))

theorem callProviderWith_replies (forwarding : Forwarding) :
    Attempt.Gives (h.Reading q r) (callProviderWith forwarding p (some q))
      ((h.replyOf p r).map some) mid := by
  refine Attempt.gives_get_bind ?_
  have same : (mid.providers.get p).backend = (h.providers.get p).backend := by
    obtain ⟨_, _, _, _, rfl⟩ := reading.rest
    rfl
  unfold Host.replyOf
  rw [← reading.kindsOf]
  refine callLayers_layered (fun later reading => ?_) _ reading
  have calls := reading.callBackend_bare standard forwarding
  rw [show (later.providers.get p).backend = (mid.providers.get p).backend from ?_] at calls
  · exact calls
  · obtain ⟨_, _, _, _, rfl⟩ := reading.rest
    exact same.symm

theorem callAtDepth_replies (depth : Nat) :
    Attempt.Gives (h.Reading q r) (callAtDepth depth p (some q))
      ((h.replyOf p r).map some) mid := by
  cases depth with
  | zero => exact reading.callProviderWith_replies standard _
  | succ depth => exact reading.callProviderWith_replies standard _

end Host.Reading

theorem callProvider_replies (standard : (h.backendOf p).Standard) (q : RequestRef) :
    (callProvider p (some q)).outcome h = (h.replyOf p (h.requests.get q)).map some := by
  unfold callProvider Attempt.outcome
  rw [Attempt.ending_get_bind]
  exact ((Reading.refl h q).callAtDepth_replies standard _).1

def Host.answerOf (h : Host) (p : ProviderRef) (r : Request) : Response :=
  settled r.rid (h.hintAt p) ((h.replyOf p r).map some)

theorem dispatch_replies (standard : ∀ p, h.routeFor t q = some p → (h.backendOf p).Standard) :
    (dispatch t (some q)).value h =
      match h.routeFor t q with
      | none => .ofFailure (h.requests.get q).rid
          ⟨500, "not found provider for " ++ (h.requests.get q).service.value, .service⟩
      | some p => h.answerOf p (h.requests.get q) := by
  unfold dispatch
  rw [Step.value_bind, Step.value_get, Step.after_get]
  cases routed : h.routeFor t q with
  | none => exact (dispatchWith_unrouted _ routed).1
  | some p =>
    rw [(dispatchWith_routed _ routed).1]
    have reading : h.Reading q (h.requests.get q) (h.located q) :=
      ((Reading.refl h q).requestService_gives).2
    obtain ⟨ends, leaves⟩ := reading.callAtDepth_replies (standard p routed) (h.routeCount + 1)
    rw [ends, leaves.same.rid, leaves.hintAt]
    rfl

theorem handle_null (s : ServerRef) (h : Host) :
    (handle s none).value h = .ofFailure ""
      (match (h.endpoints.get (h.servers.get s).endpoint).servingTable with
      | none => .unavailable "server is destroyed"
      | some _ => ⟨500, "empty request", .service⟩) := by
  unfold handle handleAt
  simp only [Step.value_bind, Step.value_get, Step.after_get]
  cases (h.endpoints.get (h.servers.get s).endpoint).servingTable with
  | none => rfl
  | some t => rfl

/-- A server answers as the provider does that the request reaches, where it reaches one. -/
theorem handle_replies
    (standard : ∀ p, h.reached s (h.requests.get q).service.value = some p →
      (h.backendOf p).Standard) :
    (handle s (some q)).value h =
      match (h.endpoints.get (h.servers.get s).endpoint).servingTable with
      | none => .ofFailure (h.requests.get q).rid (.unavailable "server is destroyed")
      | some _ =>
        match h.reached s (h.requests.get q).service.value with
        | none => .ofFailure (h.requests.get q).rid
            ⟨500, "not found provider for " ++ (h.requests.get q).service.value, .service⟩
        | some p => h.answerOf p (h.requests.get q) := by
  unfold Host.reached at standard ⊢
  unfold handle handleAt
  simp only [Step.value_bind, Step.value_get, Step.after_get]
  cases serving : (h.endpoints.get (h.servers.get s).endpoint).servingTable with
  | none =>
    exact ((Reading.refl h q).informed_gives .warning
      (fun info => ["服务器不可用. req:", info, "\n"])
      fun rid => .ofFailure rid (.unavailable "server is destroyed")).1
  | some t =>
    rw [serving] at standard
    exact dispatch_replies standard

end RpcHost
