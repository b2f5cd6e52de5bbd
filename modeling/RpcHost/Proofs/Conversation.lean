import RpcHost.Proofs.Elsewhere
/-!
Calls depend only on what they look at. Two states that show calls the same give the same
answers and show the same afterwards, however deep the calls are sent on.
-/
namespace RpcHost

open Host

variable {α β : Type} {R : Host → Host → Prop} {a b : Host} {p : ProviderRef}

namespace Step

/-- From `a` and from `b` the steps give the same value and leave related states. -/
def Alike (R : Host → Host → Prop) (m : Step α) (a : Host) (m' : Step α) (b : Host) : Prop :=
  m.value a = m'.value b ∧ R (m.after a) (m'.after b)

theorem alike_pure (v : α) (related : R a b) : Alike R (pure v) a (pure v) b := ⟨rfl, related⟩

theorem alike_bind {m m' : Step α} {k k' : α → Step β} (first : Alike R m a m' b)
    (rest : ∀ v a b, R a b → Alike R (k v) a (k' v) b) : Alike R (m >>= k) a (m' >>= k') b := by
  unfold Alike
  rw [value_bind, value_bind, after_bind, after_bind, first.1]
  exact rest _ _ _ first.2

theorem alike_get_bind {k k' : Host → Step β} (rest : Alike R (k a) a (k' b) b) :
    Alike R (get >>= k) a (get >>= k') b := by
  unfold Alike
  rw [value_bind, value_bind, after_bind, after_bind]
  exact rest

end Step

namespace Attempt

def Alike (R : Host → Host → Prop) (m : Attempt α) (a : Host) (m' : Attempt α) (b : Host) : Prop :=
  m.outcome a = m'.outcome b ∧ R (m.after a) (m'.after b)

theorem alike_pure (v : α) (related : R a b) : Alike R (pure v) a (pure v) b := ⟨rfl, related⟩

theorem alike_throw (fault : Fault) (related : R a b) :
    Alike R (throw fault : Attempt α) a (throw fault) b := ⟨rfl, related⟩

theorem alike_lift {m m' : Step α} (alike : Step.Alike R m a m' b) :
    Alike R (liftM m) a (liftM m') b :=
  ⟨congrArg Except.ok alike.1, alike.2⟩

theorem alike_bind {m m' : Attempt α} {k k' : α → Attempt β} (first : Alike R m a m' b)
    (rest : ∀ v a b, R a b → Alike R (k v) a (k' v) b) : Alike R (m >>= k) a (m' >>= k') b := by
  unfold Alike outcome
  rw [after_bind, after_bind, ending_bind, ending_bind, first.1]
  cases m'.outcome b with
  | ok v => exact rest v _ _ first.2
  | error fault => exact ⟨rfl, first.2⟩

theorem alike_get_bind {k k' : Host → Attempt β} (rest : Alike R (k a) a (k' b) b) :
    Alike R (get >>= k) a (get >>= k') b := by
  unfold Alike outcome Attempt.after
  rw [ending_get_bind, ending_get_bind]
  exact rest

end Attempt

theorem FilterKind.apply_alike (kind : FilterKind) (q : Option RequestRef)
    (emits : ∀ event a b, event.isRegistration = false → R a b →
      Step.Alike R (emit event) a (emit event) b)
    (logs : ∀ info answer a b, R a b →
      Step.Alike R (logAccess info answer) a (logAccess info answer) b)
    (rids : ∀ a b, R a b → Step.Alike R (requestRid q) a (requestRid q) b)
    (infos : ∀ a b, R a b → Step.Alike R (requestInfo q) a (requestInfo q) b)
    {call call' next next' : Attempt (Option Response)}
    (calls : ∀ a b, R a b → Attempt.Alike R call a call' b)
    (goes : ∀ a b, R a b → Attempt.Alike R next a next' b) (related : R a b) :
    Attempt.Alike R (kind.apply q call next) a (kind.apply q call' next') b := by
  cases kind with
  | recording name =>
    refine Attempt.alike_bind (Attempt.alike_lift (emits _ a b rfl related))
      fun _ a b related => Attempt.alike_bind (goes a b related) fun answer a b related => ?_
    refine Attempt.alike_bind (Attempt.alike_lift (emits _ a b rfl related)) ?_
    exact fun _ _ _ related => Attempt.alike_pure _ related
  | accessLog =>
    refine Attempt.alike_bind (goes a b related) fun answer a b related => ?_
    refine Attempt.alike_bind (Attempt.alike_lift (infos a b related)) fun info a b related => ?_
    refine Attempt.alike_bind (Attempt.alike_lift (logs _ _ a b related)) ?_
    exact fun _ _ _ related => Attempt.alike_pure _ related
  | terminal => exact calls a b related
  | throwing name fault => exact Attempt.alike_throw _ related
  | answering name failure =>
    refine Attempt.alike_bind (Attempt.alike_lift (rids a b related)) ?_
    exact fun _ _ _ related => Attempt.alike_pure _ related
  | repeating name =>
    exact Attempt.alike_bind (goes a b related) fun _ a b related => goes a b related
  | inert name => exact goes a b related
  | unbound name => exact goes a b related

def Host.kindsOf (h : Host) (p : ProviderRef) : List (List FilterKind) :=
  (h.providers.get p).layers.map fun head =>
    (h.chainOf head).map fun f => (h.filters.get f).kind

theorem Host.chainFrom_congr (filters : b.filters = a.filters) (bound : Nat) (head : FilterRef) :
    b.chainFrom bound head = a.chainFrom bound head := by
  induction bound generalizing head with
  | zero => rfl
  | succ bound ih =>
    unfold chainFrom
    rw [filters]
    split
    · rfl
    · rw [ih]

theorem Host.kindsOf_congr (filters : b.filters = a.filters)
    (provider : b.providers.get p = a.providers.get p) : b.kindsOf p = a.kindsOf p := by
  unfold kindsOf chainOf
  rw [provider, filters]
  simp only [chainFrom_congr filters]

/-- Requests that read the same. -/
structure Request.Same (a b : Request) : Prop where
  rid : a.rid = b.rid
  service : a.service.value = b.service.value
  method : a.method.value = b.method.value
  methodDesc : a.methodDesc.value = b.methodDesc.value
  parameters : a.parameters = b.parameters
  attachment : ∀ key, a.attachment key = b.attachment key

namespace Request.Same

variable {a b c : Request}

theorem refl (a : Request) : a.Same a := ⟨rfl, rfl, rfl, rfl, rfl, fun _ => rfl⟩

theorem symm (same : a.Same b) : b.Same a :=
  ⟨same.rid.symm, same.service.symm, same.method.symm, same.methodDesc.symm, same.parameters.symm,
    fun key => (same.attachment key).symm⟩

theorem trans (first : a.Same b) (second : b.Same c) : a.Same c :=
  ⟨first.rid.trans second.rid, first.service.trans second.service,
    first.method.trans second.method, first.methodDesc.trans second.methodDesc,
    first.parameters.trans second.parameters,
    fun key => (first.attachment key).trans (second.attachment key)⟩

theorem info (same : a.Same b) : a.info = b.info := by
  unfold Request.info
  rw [same.rid, same.service, same.method]

theorem serviceSeen (a : Request) : a.serviceSeen.Same a :=
  ⟨rfl, a.service.value_seen, rfl, rfl, rfl, fun _ => rfl⟩

theorem methodSeen (a : Request) : a.methodSeen.Same a :=
  ⟨rfl, rfl, a.method.value_seen, rfl, rfl, fun _ => rfl⟩

theorem paramsSeen (a : Request) : a.paramsSeen.Same a :=
  ⟨rfl, rfl, rfl, rfl, rfl, fun _ => rfl⟩

theorem infoSeen (a : Request) : a.infoSeen.Same a :=
  (methodSeen a.serviceSeen).trans (serviceSeen a)

end Request.Same

/-- Related states show calls the same but for requests and what was written, and stay related by
what calls change there. `P` are the providers and `B` the backends that calls may reach; `may`
tells the tables that backends take providers out of. -/
structure Showing (R : Host → Host → Prop) (P : ProviderRef → Prop) (B : BackendRef → Prop)
    (may : TableRef → Prop) : Prop where
  methods : ∀ {a b}, R a b → a.methods = b.methods
  tables : ∀ {a b}, R a b → a.tables = b.tables
  urls : ∀ {a b}, R a b → ∀ u, (a.urls.get u).Like (b.urls.get u)
  routed : ∀ {a b t path p}, R a b → (a.tables.get t).find? path = some p → P p
  backing : ∀ {a b p}, R a b → P p → B (a.providers.get p).backend
  provider : ∀ {a b p}, R a b → P p →
    (a.providers.get p).backend = (b.providers.get p).backend ∧ a.kindsOf p = b.kindsOf p
  backend : ∀ {a b x}, R a b → B x → a.backends.get x = b.backends.get x
  called : ∀ {a b x behaviour first calls memory service}, R a b → B x →
    (a.backends.get x).engine = .scripted behaviour first calls memory service →
    ∀ calls' memory', R
      { a with backends := a.backends.modify x fun backend =>
          { backend with engine := .scripted behaviour first calls' memory' service } }
      { b with backends := b.backends.modify x fun backend =>
          { backend with engine := .scripted behaviour first calls' memory' service } }
  withdrawing : ∀ {a b x table first calls memory service}, R a b → B x →
    (a.backends.get x).engine = .scripted (.withdraw table) first calls memory service → may table
  erased : ∀ {a b table}, R a b → may table → ∀ path,
    R { a with tables := a.tables.modify table fun routes => routes.erase path }
      { b with tables := b.tables.modify table fun routes => routes.erase path }

/-- The backend goes by its request alike in both states, and leaves them related. -/
def Behaviour.Heeds (R : Host → Host → Prop) (a b : Host) (behaviour : Behaviour) (memory : Json)
    (q : Option RequestRef) : Prop :=
  ∀ path firstPath,
    let one := behaviour.react ⟨path, firstPath, memory, q.map a.requests.get⟩
    let other := behaviour.react ⟨path, firstPath, memory, q.map b.requests.get⟩
    one.memory = other.memory ∧ one.outcome = other.outcome ∧
      R ((editRequest q one.edit).after a) ((editRequest q other.edit).after b)

/-- Requests read the same in related states, to backends too, and what is written keeps them
related. -/
structure Heeding (R : Host → Host → Prop) (P : ProviderRef → Prop) (B : BackendRef → Prop)
    (may : TableRef → Prop) : Prop extends Showing R P B may where
  reacting : ∀ {a b x behaviour first calls memory service}, R a b → B x →
    (a.backends.get x).engine = .scripted behaviour first calls memory service →
    ∀ q, behaviour.Heeds R a b memory q
  logged : ∀ {a b} level pieces pieces', R a b →
    R ((writeLog level pieces).after a) ((writeLog level pieces').after b)
  emitted : ∀ {a b event}, event.isRegistration = false → R a b →
    R ((emit event).after a) ((emit event).after b)
  requests : ∀ {a b}, R a b → ∀ q, (a.requests.get q).Same (b.requests.get q)
  fresh : ∀ {a b}, R a b → a.requests.fresh = b.requests.fresh
  marked : ∀ {a b mark} q, (∀ r : Request, (mark r).Same r) → R a b →
    R { a with requests := a.requests.modify q mark }
      { b with requests := b.requests.modify q mark }
  added : ∀ {a b} r, R a b →
    R { a with requests := a.requests.add r } { b with requests := b.requests.add r }

structure Observing (R : Host → Host → Prop) (P : ProviderRef → Prop) (B : BackendRef → Prop)
    (may : TableRef → Prop) : Prop extends Showing R P B may where
  noted : ∀ {a b a' b'}, R a b → a.Noted a' → b.Noted b' → R a' b'
  requests : ∀ {a b}, R a b → a.requests = b.requests
  requested : ∀ {a b requests}, R a b → R { a with requests } { b with requests }

namespace Heeding

variable {P : ProviderRef → Prop} {B : BackendRef → Prop} {may : TableRef → Prop}
  (heeding : Heeding R P B may)

include heeding

theorem writeLog_alike (level : Level) (pieces : List String) (related : R a b) :
    Step.Alike R (writeLog level pieces) a (writeLog level pieces) b :=
  ⟨rfl, heeding.logged level pieces pieces related⟩

theorem logAccess_alike (info : String) (answer : Option Response) (related : R a b) :
    Step.Alike R (logAccess info answer) a (logAccess info answer) b := by
  obtain ⟨pieces, one⟩ := exists_logAccess a info answer
  obtain ⟨pieces', other⟩ := exists_logAccess b info answer
  unfold Step.Alike Step.value Step.after
  rw [one, other]
  exact ⟨rfl, heeding.logged .info pieces pieces' related⟩

theorem emit_alike {event : Event} (other : event.isRegistration = false) (related : R a b) :
    Step.Alike R (emit event) a (emit event) b :=
  ⟨rfl, heeding.emitted other related⟩

theorem readRequest_alike {mark : Request → Request} {view : Request → α}
    (marks : ∀ r, (mark r).Same r) (views : ∀ r s, r.Same s → view r = view s) (q : RequestRef)
    (related : R a b) : Step.Alike R (readRequest mark view q) a (readRequest mark view q) b :=
  ⟨views _ _ (heeding.requests related q), heeding.marked q marks related⟩

theorem requestRid_alike (q : Option RequestRef) (related : R a b) :
    Step.Alike R (requestRid q) a (requestRid q) b := by
  cases q with
  | none => exact Step.alike_pure "" related
  | some q => exact ⟨(heeding.requests related q).rid, related⟩

theorem requestService_alike (q : Option RequestRef) (related : R a b) :
    Step.Alike R (requestService q) a (requestService q) b := by
  cases q with
  | none => exact Step.alike_pure "" related
  | some q =>
    exact heeding.readRequest_alike Request.Same.serviceSeen (fun _ _ same => same.service) q
      related

theorem requestMethod_alike (q : Option RequestRef) (related : R a b) :
    Step.Alike R (requestMethod q) a (requestMethod q) b := by
  cases q with
  | none => exact Step.alike_pure "" related
  | some q =>
    exact heeding.readRequest_alike Request.Same.methodSeen (fun _ _ same => same.method) q related

theorem requestParams_alike (q : Option RequestRef) (related : R a b) :
    Step.Alike R (requestParams q) a (requestParams q) b := by
  cases q with
  | none => exact Step.alike_pure Json.null related
  | some q =>
    exact heeding.readRequest_alike Request.Same.paramsSeen (fun _ _ same => same.parameters) q
      related

theorem requestInfo_alike (q : Option RequestRef) (related : R a b) :
    Step.Alike R (requestInfo q) a (requestInfo q) b := by
  cases q with
  | none => exact Step.alike_pure "null request" related
  | some q =>
    exact heeding.readRequest_alike Request.Same.infoSeen (fun _ _ same => same.info) q related

theorem answer_alike (q : Option RequestRef) (answer : String → Response) (related : R a b) :
    Step.Alike R (do return answer (← requestRid q)) a (do return answer (← requestRid q)) b :=
  Step.alike_bind (heeding.requestRid_alike q related) fun _ _ _ related =>
    Step.alike_pure _ related

theorem informed_alike (level : Level) (pieces : String → List String) (q : Option RequestRef)
    (answer : String → Response) (related : R a b) :
    Step.Alike R
      (do
        let info ← requestInfo q
        writeLog level (pieces info)
        return answer (← requestRid q)) a
      (do
        let info ← requestInfo q
        writeLog level (pieces info)
        return answer (← requestRid q)) b :=
  Step.alike_bind (heeding.requestInfo_alike q related) fun _ _ _ related =>
    Step.alike_bind (heeding.writeLog_alike _ _ related) fun _ _ _ related =>
      heeding.answer_alike q answer related

theorem answerUnavailable_alike (path : String) (q : Option RequestRef) (related : R a b) :
    Step.Alike R (answerUnavailable path q) a (answerUnavailable path q) b :=
  heeding.informed_alike .error _ q _ related

theorem callMethod_alike (m : Method) (name : String) (q : Option RequestRef)
    (related : R a b) : Attempt.Alike R (callMethod m name q) a (callMethod m name q) b := by
  refine Attempt.alike_bind (Attempt.alike_lift (heeding.requestParams_alike q related))
    fun given a b related => ?_
  split
  · exact Attempt.alike_lift (Step.alike_bind (heeding.writeLog_alike _ _ related)
      fun _ _ _ related => heeding.answer_alike q _ related)
  · refine Attempt.alike_bind (Attempt.alike_lift (heeding.emit_alike rfl related))
      fun _ a b related => ?_
    split
    · exact Attempt.alike_lift (Step.alike_bind (heeding.writeLog_alike _ _ related)
        fun _ _ _ related => heeding.answer_alike q _ related)
    · exact Attempt.alike_throw _ related
    · split
      · refine Attempt.alike_bind (Attempt.alike_lift (heeding.requestRid_alike q related)) ?_
        exact fun _ _ _ related => Attempt.alike_pure _ related
      · exact Attempt.alike_lift (Step.alike_bind (heeding.writeLog_alike _ _ related)
          fun _ _ _ related => heeding.answer_alike q _ related)

theorem callStandard_alike (available : Bool) (methods : Option MethodsRef) (path : String)
    (q : Option RequestRef) (related : R a b) :
    Attempt.Alike R (callStandard available methods path q) a
      (callStandard available methods path q) b := by
  unfold callStandard
  split
  · refine Attempt.alike_bind (Attempt.alike_lift (heeding.requestMethod_alike q related))
      fun name a b related => Attempt.alike_get_bind ?_
    rw [heeding.methods related]
    split
    · exact Attempt.alike_lift (heeding.informed_alike .error _ q _ related)
    · exact heeding.callMethod_alike _ name q related
  · exact Attempt.alike_lift (heeding.answerUnavailable_alike path q related)

theorem forwardedRequest_alike (service : String) (q : Option RequestRef) (related : R a b) :
    Step.Alike R (forwardedRequest service q) a (forwardedRequest service q) b := by
  refine Step.alike_bind (heeding.requestRid_alike q related) fun rid a b related => ?_
  refine Step.alike_bind (heeding.requestMethod_alike q related) fun method a b related => ?_
  refine Step.alike_bind (heeding.requestParams_alike q related) fun params a b related => ?_
  exact ⟨heeding.fresh related, heeding.added _ related⟩

theorem addressOf (reached : P p) (related : R a b) : a.addressOf p = b.addressOf p := by
  have backing := heeding.backing related reached
  unfold Host.addressOf Host.backendOf
  rw [heeding.backend related backing, (heeding.provider related reached).1]

theorem pathOf (reached : P p) (related : R a b) : a.pathOf p = b.pathOf p := by
  unfold Host.pathOf
  rw [heeding.addressOf reached related]
  exact (heeding.urls related _).path

theorem removeProvider_alike {t : TableRef} (allowed : may t) (reached : P p)
    (related : R a b) : Step.Alike R (removeProvider t p) a (removeProvider t p) b := by
  refine Step.alike_get_bind ?_
  dsimp only
  rw [heeding.pathOf reached related, heeding.tables related]
  split
  · have erased := heeding.erased related allowed (b.pathOf p)
    rw [heeding.tables related] at erased
    exact Step.alike_bind ⟨rfl, erased⟩ fun _ _ _ related => heeding.emit_alike rfl related
  · exact Step.alike_pure _ related

section Forwarding

variable {forwarding : Forwarding}
  (onward : ∀ t q a b, R a b → Attempt.Alike R (forwarding t q) a (forwarding t q) b)

include onward

theorem behave_alike {behaviour : Behaviour}
    (allowed : ∀ table, behaviour = .withdraw table → may table) (firstPath : String)
    (outcome : Except Fault (Option Response)) (q : Option RequestRef) (related : R a b) :
    Attempt.Alike R (behave forwarding behaviour firstPath outcome q) a
      (behave forwarding behaviour firstPath outcome q) b := by
  cases behaviour with
  | own announced react =>
    cases outcome with
    | ok answer => exact Attempt.alike_pure answer related
    | error fault => exact Attempt.alike_throw fault related
  | forward table service =>
    refine Attempt.alike_bind (Attempt.alike_lift
      (heeding.forwardedRequest_alike service q related)) fun sent a b related => ?_
    exact onward table (some sent) a b related
  | withdraw table =>
    have gone {a b : Host} (related : R a b) :
        Attempt.Alike R (do return some (Response.ofResult (← requestRid q) (.str "gone"))) a
          (do return some (Response.ofResult (← requestRid q) (.str "gone"))) b :=
      Attempt.alike_bind (Attempt.alike_lift (heeding.requestRid_alike q related))
        fun _ _ _ related => Attempt.alike_pure _ related
    refine Attempt.alike_get_bind ?_
    rw [heeding.tables related]
    cases found : (b.tables.get table).find? firstPath with
    | none => exact gone related
    | some p =>
      rw [← heeding.tables related] at found
      refine Attempt.alike_bind (Attempt.alike_lift (heeding.removeProvider_alike
        (allowed table rfl) (heeding.routed related found) related)) fun _ _ _ related => ?_
      exact gone related

omit onward in
theorem recordVisit_alike {x : BackendRef} {behaviour : Behaviour} {first : UrlRef} {calls : Nat}
    {memory : Json} {service : Option Service} {q : Option RequestRef}
    {edit edit' : Request → Request} (reached : B x)
    (engine : (a.backends.get x).engine = .scripted behaviour first calls memory service)
    (edited : R ((editRequest q edit).after a) ((editRequest q edit').after b)) (calls' : Nat)
    (memory' : Json) :
    Step.Alike R (recordVisit x (.scripted behaviour first calls' memory' service) q edit) a
      (recordVisit x (.scripted behaviour first calls' memory' service) q edit') b := by
  have held : (((editRequest q edit).after a).backends.get x).engine =
      .scripted behaviour first calls memory service := by
    cases q <;> exact engine
  unfold recordVisit Step.Alike
  rw [Step.after_bind, Step.after_bind, after_modifyBackend, after_modifyBackend]
  exact ⟨rfl, heeding.called edited reached held calls' memory'⟩

theorem callBackend_alike {x : BackendRef} (reached : B x) (q : Option RequestRef)
    (related : R a b) :
    Attempt.Alike R (callBackend forwarding x q) a (callBackend forwarding x q) b := by
  refine Attempt.alike_get_bind ?_
  dsimp only
  have same := heeding.backend related reached
  rw [← same, (heeding.urls related (a.backends.get x).url).path]
  cases engine : (a.backends.get x).engine with
  | standard methods =>
    refine Attempt.alike_bind (heeding.callStandard_alike _ methods _ q related) ?_
    exact fun _ _ _ related => Attempt.alike_pure _ related
  | scripted behaviour first calls memory service =>
    dsimp only
    rw [(heeding.urls related first).path]
    obtain ⟨remembered, outcome, edited⟩ := heeding.reacting related reached engine q
      (b.urls.get (a.backends.get x).url).path (b.urls.get first).path
    rw [← remembered, ← outcome]
    have visited := heeding.recordVisit_alike reached engine edited (calls + 1)
    refine Attempt.alike_bind (Attempt.alike_lift (visited _)) fun _ a' b' after => ?_
    have allowed (table : TableRef) (withdraws : behaviour = .withdraw table) : may table :=
      heeding.withdrawing related reached (by rw [engine, withdraws])
    split
    · refine Attempt.alike_bind (Attempt.alike_lift (heeding.emit_alike rfl after)) ?_
      exact fun _ _ _ related => heeding.behave_alike onward allowed _ _ q related
    · exact heeding.behave_alike onward allowed _ _ q after

end Forwarding

theorem apply_alike (kind : FilterKind) (q : Option RequestRef)
    {call next : Attempt (Option Response)}
    (calls : ∀ a b, R a b → Attempt.Alike R call a call b)
    (goes : ∀ a b, R a b → Attempt.Alike R next a next b) (related : R a b) :
    Attempt.Alike R (kind.apply q call next) a (kind.apply q call next) b :=
  kind.apply_alike q (fun _ _ _ other => heeding.emit_alike other)
    (fun info answer _ _ => heeding.logAccess_alike info answer)
    (fun _ _ => heeding.requestRid_alike q) (fun _ _ => heeding.requestInfo_alike q)
    calls goes related

theorem callThrough_alike (q : Option RequestRef) {call : Attempt (Option Response)}
    (calls : ∀ a b, R a b → Attempt.Alike R call a call b) (kinds : List FilterKind)
    (related : R a b) :
    Attempt.Alike R (callThrough q call kinds) a (callThrough q call kinds) b := by
  induction kinds generalizing a b with
  | nil => exact calls a b related
  | cons kind rest ih => exact heeding.apply_alike kind q calls (fun _ _ => ih) related

theorem callLayers_alike (q : Option RequestRef) {call : Attempt (Option Response)}
    (calls : ∀ a b, R a b → Attempt.Alike R call a call b) (chains : List (List FilterKind))
    (related : R a b) :
    Attempt.Alike R (callLayers q call chains) a (callLayers q call chains) b := by
  induction chains generalizing a b with
  | nil => exact calls a b related
  | cons chain rest ih => exact heeding.callThrough_alike q (fun _ _ => ih) chain related

theorem callProviderWith_alike {forwarding : Forwarding}
    (onward : ∀ t q a b, R a b → Attempt.Alike R (forwarding t q) a (forwarding t q) b)
    (reached : P p) (q : Option RequestRef) (related : R a b) :
    Attempt.Alike R (callProviderWith forwarding p q) a (callProviderWith forwarding p q) b := by
  refine Attempt.alike_get_bind ?_
  dsimp only
  obtain ⟨backend, kinds⟩ := heeding.provider related reached
  have backing := heeding.backing related reached
  unfold Host.kindsOf at kinds
  rw [← backend, ← kinds]
  exact heeding.callLayers_alike q
    (fun _ _ related => heeding.callBackend_alike onward backing q related) _ related

theorem withGzipSize_alike (reached : P p) (r : Response) (related : R a b) :
    Step.Alike R (withGzipSize p r) a (withGzipSize p r) b := by
  refine Step.alike_get_bind ?_
  rw [heeding.addressOf reached related]
  refine Step.alike_bind ?_ fun _ _ _ related => Step.alike_pure _ related
  have held := (heeding.urls related (b.addressOf p)).intParam
    (show Url.gzipSizeKey ≠ Url.nodeTypeKey by decide)
  refine Step.alike_get_bind ?_
  rw [Url.intValue, Url.intValue, held]
  split
  · refine Step.alike_bind (heeding.writeLog_alike _ _ related) ?_
    exact fun _ _ _ related => Step.alike_pure _ related
  · exact Step.alike_pure _ related

theorem answerFault_alike (fault : Fault) (q : Option RequestRef) (related : R a b) :
    Step.Alike R (answerFault fault q) a (answerFault fault q) b := by
  refine Step.alike_bind (heeding.requestInfo_alike q related) fun info a b related => ?_
  split
  · exact Step.alike_bind (heeding.writeLog_alike _ _ related) fun _ _ _ related =>
      heeding.answer_alike q _ related
  · exact Step.alike_bind (heeding.writeLog_alike _ _ related) fun _ _ _ related =>
      heeding.answer_alike q _ related

theorem answerNoProvider_alike (q : Option RequestRef) (related : R a b) :
    Step.Alike R (answerNoProvider q) a (answerNoProvider q) b := by
  refine Step.alike_bind (heeding.requestInfo_alike q related) fun info a b related => ?_
  refine Step.alike_bind (heeding.writeLog_alike _ _ related) fun _ a b related => ?_
  refine Step.alike_bind (heeding.requestRid_alike q related) fun rid a b related => ?_
  refine Step.alike_bind (heeding.requestService_alike q related) ?_
  exact fun _ _ _ related => Step.alike_pure _ related

theorem dispatchWith_alike
    {call : ProviderRef → Option RequestRef → Attempt (Option Response)}
    (calls : ∀ p q a b, P p → R a b → Attempt.Alike R (call p q) a (call p q) b)
    (t : TableRef) (q : Option RequestRef) (related : R a b) :
    Step.Alike R (dispatchWith call t q) a (dispatchWith call t q) b := by
  cases q with
  | none =>
    refine Step.alike_bind (heeding.writeLog_alike _ _ related) ?_
    exact fun _ _ _ related => Step.alike_pure _ related
  | some q =>
    refine Step.alike_bind (heeding.requestService_alike (some q) related)
      fun service a b related => Step.alike_get_bind ?_
    rw [heeding.tables related]
    cases found : (b.tables.get t).find? service with
    | none => exact heeding.answerNoProvider_alike (some q) related
    | some p =>
      rw [← heeding.tables related] at found
      have reached := heeding.routed related found
      refine Step.alike_bind (calls p (some q) a b reached related) fun result a b related => ?_
      cases result with
      | error fault => exact heeding.answerFault_alike fault (some q) related
      | ok answer =>
        cases answer with
        | none => exact heeding.informed_alike .error _ (some q) _ related
        | some r => exact heeding.withGzipSize_alike reached r related

theorem onward_alike
    {call : ProviderRef → Option RequestRef → Attempt (Option Response)}
    (calls : ∀ p q a b, P p → R a b → Attempt.Alike R (call p q) a (call p q) b)
    (t : TableRef) (q : Option RequestRef) (related : R a b) :
    Attempt.Alike R (do return some (← dispatchWith call t q)) a
      (do return some (← dispatchWith call t q)) b :=
  Attempt.alike_bind (Attempt.alike_lift (heeding.dispatchWith_alike calls t q related))
    fun _ _ _ related => Attempt.alike_pure _ related

theorem callAtDepth_alike (depth : Nat) (p : ProviderRef) (q : Option RequestRef)
    (a b : Host) (reached : P p) (related : R a b) :
    Attempt.Alike R (callAtDepth depth p q) a (callAtDepth depth p q) b := by
  -- on how often the call may be sent on
  induction depth generalizing p q a b with
  | zero =>
    refine heeding.callProviderWith_alike (fun _ _ _ _ related => ?_) reached q related
    exact Attempt.alike_throw _ related
  | succ depth ih =>
    refine heeding.callProviderWith_alike (fun t q _ _ related => ?_) reached q related
    exact heeding.onward_alike ih t q related

theorem forwarding_alike (depth : Nat) :
    ∃ forwarding, callAtDepth depth = callProviderWith forwarding ∧
      ∀ t q a b, R a b → Attempt.Alike R (forwarding t q) a (forwarding t q) b := by
  cases depth with
  | zero => exact ⟨_, rfl, fun _ _ _ _ related => Attempt.alike_throw _ related⟩
  | succ depth =>
    refine ⟨_, rfl, fun t q _ _ related => ?_⟩
    exact heeding.onward_alike (heeding.callAtDepth_alike depth) t q related

theorem dispatch_alike (t : TableRef) (q : Option RequestRef) (related : R a b) :
    Step.Alike R (dispatch t q) a (dispatch t q) b := by
  refine Step.alike_get_bind ?_
  unfold Host.routeCount
  rw [heeding.tables related]
  exact heeding.dispatchWith_alike (heeding.callAtDepth_alike _) t q related

theorem handleAt_alike {e : EndpointRef} (same : a.endpoints.get e = b.endpoints.get e)
    (q : Option RequestRef) (related : R a b) :
    Step.Alike R (handleAt e q) a (handleAt e q) b := by
  refine Step.alike_get_bind ?_
  rw [same]
  split
  · exact heeding.informed_alike .warning _ q _ related
  · exact heeding.dispatch_alike _ q related

theorem handle_alike {s : ServerRef}
    (server : (a.servers.get s).endpoint = (b.servers.get s).endpoint)
    (same : a.endpoints.get (a.servers.get s).endpoint =
      b.endpoints.get (b.servers.get s).endpoint)
    (q : Option RequestRef) (related : R a b) :
    Step.Alike R (handle s q) a (handle s q) b := by
  refine Step.alike_get_bind ?_
  rw [← server] at same ⊢
  exact heeding.handleAt_alike same q related

end Heeding

namespace Observing

variable {P : ProviderRef → Prop} {B : BackendRef → Prop} {may : TableRef → Prop}
  (observing : Observing R P B may)

include observing

theorem heeding : Heeding R P B may where
  toShowing := observing.toShowing
  reacting {a b _ _ _ _ _ _} related _ _ q path firstPath := by
    rw [observing.requests related]
    refine ⟨rfl, rfl, ?_⟩
    cases q with
    | none => exact related
    | some q =>
      have same := observing.requests related
      show R { a with requests := a.requests.modify q _ } _
      rw [same]
      exact observing.requested related
  logged _ _ _ related :=
    observing.noted related (writeLog_within _ _ _) (writeLog_within _ _ _)
  emitted other related :=
    observing.noted related (emit_within _ other _) (emit_within _ other _)
  requests related q := by
    rw [observing.requests related]
    exact .refl _
  fresh related := congrArg Store.fresh (observing.requests related)
  marked q _ related := by
    rw [observing.requests related]
    exact observing.requested related
  added r related := by
    rw [observing.requests related]
    exact observing.requested related

theorem handle_alike {s : ServerRef}
    (server : (a.servers.get s).endpoint = (b.servers.get s).endpoint)
    (same : a.endpoints.get (a.servers.get s).endpoint =
      b.endpoints.get (b.servers.get s).endpoint)
    (q : Option RequestRef) (related : R a b) :
    Step.Alike R (handle s q) a (handle s q) b :=
  observing.heeding.handle_alike server same q related

end Observing

/-- `Q` goes on to hold whatever calls do. `may` tells the tables that backends take providers out
of. -/
structure Lasting (Q : Host → Prop) (may : TableRef → Prop) : Prop where
  noted : ∀ {a a'}, Q a → a.Noted a' → Q a'
  requested : ∀ {a requests}, Q a → Q { a with requests }
  called : ∀ {a x behaviour first calls memory service}, Q a →
    (a.backends.get x).engine = .scripted behaviour first calls memory service →
    ∀ calls' memory', Q { a with backends := a.backends.modify x fun backend =>
      { backend with engine := .scripted behaviour first calls' memory' service } }
  withdrawing : ∀ {a x table first calls memory service}, Q a →
    (a.backends.get x).engine = .scripted (.withdraw table) first calls memory service → may table
  erased : ∀ {a table}, Q a → may table → ∀ path,
    Q { a with tables := a.tables.modify table fun routes => routes.erase path }

theorem Lasting.observing {Q : Host → Prop} {may : TableRef → Prop} (lasting : Lasting Q may) :
    Observing (fun a b => a.Written b ∧ Q a) (fun _ => True) (fun _ => True) may where
  noted := by
    rintro a b a' b' ⟨⟨_, _, _, rfl⟩, holds⟩ first second
    refine ⟨?_, lasting.noted holds first⟩
    obtain ⟨_, _, _, rfl⟩ := first.written
    obtain ⟨screen, files, journal, rfl⟩ := second.written
    exact ⟨screen, files, journal, rfl⟩
  requests := by
    rintro a b ⟨same, _⟩
    exact same.registering.requests.symm
  methods := by
    rintro a b ⟨same, _⟩
    exact same.registering.methods.symm
  tables := by
    rintro a b ⟨same, _⟩
    exact same.registering.tables.symm
  urls := by
    rintro a b ⟨same, _⟩ u
    rw [same.registering.urls]
    exact .refl _
  routed _ _ := trivial
  backing _ _ := trivial
  provider := by
    rintro a b p ⟨same, _⟩ _
    have provider := congrArg (Store.get · p) same.registering.providers
    exact ⟨congrArg Provider.backend provider.symm,
      (kindsOf_congr same.registering.filters provider).symm⟩
  backend := by
    rintro a b y ⟨same, _⟩ _
    rw [same.registering.backends]
  requested := by
    rintro a b requests ⟨⟨screen, files, journal, rfl⟩, holds⟩
    exact ⟨⟨screen, files, journal, rfl⟩, lasting.requested holds⟩
  called := by
    rintro a b y _ _ _ _ _ ⟨⟨screen, files, journal, rfl⟩, holds⟩ _ engine calls' memory'
    exact ⟨⟨screen, files, journal, rfl⟩, lasting.called holds engine calls' memory'⟩
  withdrawing := by
    rintro a b y _ _ _ _ _ ⟨_, holds⟩ _ engine
    exact lasting.withdrawing holds engine
  erased := by
    rintro a b table ⟨⟨screen, files, journal, rfl⟩, holds⟩ allowed path
    exact ⟨⟨screen, files, journal, rfl⟩, lasting.erased holds allowed path⟩

def Host.Called (h h' : Host) : Prop :=
  ∃ backends tables requests screen files journal,
    h' = { h with backends, tables, requests, screen, files, journal }

namespace Host.Called

variable {h h' : Host}

theorem refl (h : Host) : h.Called h := ⟨_, _, _, _, _, _, rfl⟩

variable (called : h.Called h')

include called

theorem providers : h'.providers = h.providers := by
  obtain ⟨_, _, _, _, _, _, rfl⟩ := called
  rfl

theorem filters : h'.filters = h.filters := by
  obtain ⟨_, _, _, _, _, _, rfl⟩ := called
  rfl

theorem noted {h'' : Host} (noted : h'.Noted h'') : h.Called h'' := by
  obtain ⟨_, _, _, _, _, _, rfl⟩ := called
  obtain ⟨screen, files, journal, rfl⟩ := noted.written
  exact ⟨_, _, _, _, _, _, rfl⟩

theorem withRequests (requests : Store .request Request) : h.Called { h' with requests } := by
  obtain ⟨_, _, _, _, _, _, rfl⟩ := called
  exact ⟨_, _, _, _, _, _, rfl⟩

theorem withBackends (backends : Store .backend Backend) : h.Called { h' with backends } := by
  obtain ⟨_, _, _, _, _, _, rfl⟩ := called
  exact ⟨_, _, _, _, _, _, rfl⟩

theorem withTables (tables : Store .table Routes) : h.Called { h' with tables } := by
  obtain ⟨_, _, _, _, _, _, rfl⟩ := called
  exact ⟨_, _, _, _, _, _, rfl⟩

end Host.Called

theorem Host.Called.lasting (h : Host) : Lasting h.Called (fun _ => True) where
  noted called noted := called.noted noted
  requested called := called.withRequests _
  called called _ _ _ := called.withBackends _
  withdrawing _ _ := trivial
  erased called _ _ := called.withTables _

theorem Lasting.callAtDepth {Q : Host → Prop} {may : TableRef → Prop} (lasting : Lasting Q may)
    (depth : Nat) (p : ProviderRef) (q : Option RequestRef) {h : Host} (holds : Q h) :
    Q ((callAtDepth depth p q).after h) :=
  (lasting.observing.heeding.callAtDepth_alike depth p q h h trivial ⟨Course.refl h, holds⟩).2.2

end RpcHost
