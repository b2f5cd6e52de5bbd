import RpcHost.Proofs.Directory
/-!
The answers of a server, worked out step by step. Standard backends behind access logs look at
a request and write to the log, and nothing else changes while they answer.
-/
namespace RpcHost

open Host

variable {α β : Type} {I : Host → Prop} {h h' : Host} {q : RequestRef} {r : Request}

namespace Step

/-- From `h` the steps give the value and leave a state of which `I` holds. -/
def Gives (I : Host → Prop) (m : Step α) (v : α) (h : Host) : Prop :=
  m.value h = v ∧ I (m.after h)

theorem gives_pure (v : α) (holds : I h) : Gives I (pure v) v h := ⟨rfl, holds⟩

theorem gives_bind {m : Step α} {k : α → Step β} {v : α} {w : β} (first : Gives I m v h)
    (rest : ∀ h, I h → Gives I (k v) w h) : Gives I (m >>= k) w h := by
  unfold Gives
  rw [value_bind, after_bind, first.1]
  exact rest _ first.2

theorem gives_get_bind {k : Host → Step β} {w : β} (rest : Gives I (k h) w h) :
    Gives I (get >>= k) w h := by
  unfold Gives
  rw [value_bind, after_bind]
  exact rest

end Step

namespace Attempt

def Gives (I : Host → Prop) (m : Attempt α) (v : Except Fault α) (h : Host) : Prop :=
  m.outcome h = v ∧ I (m.after h)

theorem gives_pure (v : α) (holds : I h) : Gives I (pure v) (.ok v) h := ⟨rfl, holds⟩

theorem gives_throw (fault : Fault) (holds : I h) :
    Gives I (throw fault : Attempt α) (.error fault) h := ⟨rfl, holds⟩

theorem gives_lift {m : Step α} {v : α} (gives : Step.Gives I m v h) :
    Gives I (liftM m) (.ok v) h :=
  ⟨congrArg Except.ok gives.1, gives.2⟩

theorem gives_bind {m : Attempt α} {k : α → Attempt β} {v : α} {w : Except Fault β}
    (first : Gives I m (.ok v) h) (rest : ∀ h, I h → Gives I (k v) w h) :
    Gives I (m >>= k) w h := by
  unfold Gives outcome
  rw [after_bind, ending_bind, first.1]
  exact rest _ first.2

theorem gives_bind_error {m : Attempt α} {k : α → Attempt β} {fault : Fault}
    (first : Gives I m (.error fault) h) : Gives I (m >>= k) (.error fault) h := by
  unfold Gives outcome
  rw [after_bind, ending_bind, first.1]
  exact ⟨rfl, first.2⟩

theorem gives_map {m : Attempt α} {v : Except Fault α} (f : α → β) (first : Gives I m v h) :
    Gives I (do return f (← m)) (v.map f) h := by
  cases v with
  | error fault => exact gives_bind_error first
  | ok a => exact gives_bind first fun _ holds => gives_pure (f a) holds

theorem Gives.run {m : Attempt α} {v : Except Fault α} (gives : Gives I m v h) :
    Step.Gives I m.run v h := gives

theorem gives_get_bind {k : Host → Attempt β} {w : Except Fault β} (rest : Gives I (k h) w h) :
    Gives I (get >>= k) w h := by
  unfold Gives outcome Attempt.after
  rw [ending_get_bind]
  exact rest

end Attempt

/-- The request reads as `r`, and but for requests and the log all is as in `h`. -/
structure Host.Reading (h : Host) (q : RequestRef) (r : Request) (h' : Host) : Prop where
  rest : ∃ requests screen files journal, h' = { h with requests, screen, files, journal }
  same : (h'.requests.get q).Same r

namespace Host.Reading

theorem refl (h : Host) (q : RequestRef) : h.Reading q (h.requests.get q) h :=
  ⟨⟨_, _, _, _, rfl⟩, .refl _⟩

variable {mid : Host} (reading : h.Reading q r mid)

include reading

theorem noted (noted : mid.Noted h') : h.Reading q r h' := by
  have same := reading.same
  obtain ⟨_, _, _, _, rfl⟩ := reading.rest
  obtain ⟨_, _, _, rfl⟩ := noted.written
  exact ⟨⟨_, _, _, _, rfl⟩, same⟩

theorem writeLog_gives (level : Level) (pieces : List String) :
    Step.Gives (h.Reading q r) (writeLog level pieces) () mid :=
  ⟨rfl, reading.noted (writeLog_within _ _ mid)⟩

theorem logAccess_gives (info : String) (answer : Option Response) :
    Step.Gives (h.Reading q r) (logAccess info answer) () mid :=
  ⟨rfl, reading.noted (logAccess_within info answer mid)⟩

theorem emit_gives {event : Event} (other : event.isRegistration = false) :
    Step.Gives (h.Reading q r) (emit event) () mid :=
  ⟨rfl, reading.noted (emit_within _ other mid)⟩

theorem readRequest_gives {mark : Request → Request} {view : Request → α}
    (marks : ∀ a, (mark a).Same a) (views : ∀ a b, a.Same b → view a = view b) :
    Step.Gives (h.Reading q r) (readRequest mark view q) (view r) mid := by
  refine ⟨views _ _ reading.same, ?_⟩
  have same := reading.same
  obtain ⟨_, _, _, _, rfl⟩ := reading.rest
  refine ⟨⟨_, _, _, _, rfl⟩, ?_⟩
  show ((Store.modify _ q mark).get q).Same r
  rw [Store.get_modify_self]
  exact (marks _).trans same

theorem requestRid_gives : Step.Gives (h.Reading q r) (requestRid (some q)) r.rid mid :=
  ⟨reading.same.rid, reading⟩

theorem requestService_gives :
    Step.Gives (h.Reading q r) (requestService (some q)) r.service.value mid :=
  reading.readRequest_gives Request.Same.serviceSeen fun _ _ same => same.service

theorem requestMethod_gives :
    Step.Gives (h.Reading q r) (requestMethod (some q)) r.method.value mid :=
  reading.readRequest_gives Request.Same.methodSeen fun _ _ same => same.method

theorem requestParams_gives :
    Step.Gives (h.Reading q r) (requestParams (some q)) r.parameters mid :=
  reading.readRequest_gives Request.Same.paramsSeen fun _ _ same => same.parameters

theorem requestInfo_gives : Step.Gives (h.Reading q r) (requestInfo (some q)) r.info mid :=
  reading.readRequest_gives Request.Same.infoSeen fun _ _ same => same.info

theorem answer_gives (answer : String → Response) :
    Step.Gives (h.Reading q r) (do return answer (← requestRid (some q))) (answer r.rid) mid :=
  Step.gives_bind reading.requestRid_gives fun _ reading => Step.gives_pure _ reading

theorem noted_gives (level : Level) (pieces : List String) (answer : String → Response) :
    Step.Gives (h.Reading q r)
      (do
        writeLog level pieces
        return answer (← requestRid (some q))) (answer r.rid) mid :=
  Step.gives_bind (reading.writeLog_gives level pieces) fun _ reading =>
    reading.answer_gives answer

theorem informed_gives (level : Level) (pieces : String → List String)
    (answer : String → Response) :
    Step.Gives (h.Reading q r)
      (do
        let info ← requestInfo (some q)
        writeLog level (pieces info)
        return answer (← requestRid (some q))) (answer r.rid) mid :=
  Step.gives_bind reading.requestInfo_gives fun _ reading => reading.noted_gives level _ answer

theorem callMethod_gives (m : Method) (name : String) :
    Attempt.Gives (h.Reading q r) (callMethod m name (some q)) (m.reply name r) mid := by
  refine Attempt.gives_bind (Attempt.gives_lift reading.requestParams_gives) fun h reading => ?_
  unfold Method.reply
  cases m.offendingParam? r.parameters with
  | some field => exact Attempt.gives_lift (reading.noted_gives .warning _ _)
  | none =>
    refine Attempt.gives_bind (Attempt.gives_lift (reading.emit_gives rfl)) fun h reading => ?_
    cases m.run r.parameters with
    | error fault =>
      cases fault with
      | refusal failure => exact Attempt.gives_lift (reading.noted_gives .warning _ _)
      | _ => exact Attempt.gives_throw _ reading
    | ok result =>
      dsimp only
      split
      · refine Attempt.gives_bind (Attempt.gives_lift reading.requestRid_gives) ?_
        exact fun _ reading => Attempt.gives_pure _ reading
      · exact Attempt.gives_lift (reading.noted_gives .warning _ _)

theorem callStandard_gives (methods : Option MethodsRef) (path : String) :
    Attempt.Gives (h.Reading q r) (callStandard true methods path (some q))
      (r.reply h.methods path methods) mid := by
  have unavailable := Attempt.gives_lift (reading.informed_gives .error
    (fun info => ["provider ", path, " 不可用, ", info, "\n"])
    fun rid => .ofFailure rid (.unavailable ("provider " ++ path ++ " is unavailable.")))
  cases methods with
  | none => exact unavailable
  | some table =>
    refine Attempt.gives_bind (Attempt.gives_lift reading.requestMethod_gives) fun h₁ reading => ?_
    refine Attempt.gives_get_bind ?_
    have same : h₁.methods = h.methods := by
      obtain ⟨_, _, _, _, rfl⟩ := reading.rest
      rfl
    rw [same]
    unfold Request.reply
    dsimp only
    cases (h.methods.get table).find? r.method.value with
    | none => exact Attempt.gives_lift (reading.informed_gives .error _ _)
    | some m => exact reading.callMethod_gives m _

end Host.Reading

theorem Response.failureSeen_failureSeen (r : Response) :
    r.failureSeen.failureSeen = r.failureSeen := by
  simp [failureSeen]

def Response.logged (n : Nat) (r : Response) : Response := if n = 0 then r else r.failureSeen

theorem Response.failureSeen_logged (n : Nat) (r : Response) :
    (r.logged n).failureSeen = r.logged (n + 1) := by
  unfold logged
  rw [if_neg (Nat.succ_ne_zero n)]
  split
  · rfl
  · exact r.failureSeen_failureSeen

theorem FilterKind.stack_accessLog {kinds : List FilterKind}
    (only : ∀ kind ∈ kinds, kind = .accessLog) (behind : List FilterKind) :
    stack kinds behind = List.replicate kinds.length .accessLog ++ behind := by
  induction kinds generalizing behind with
  | nil => rfl
  | cons kind rest ih =>
    obtain rfl : kind = .accessLog := only kind List.mem_cons_self
    have others := ih (fun kind member => only kind (List.mem_cons_of_mem _ member))
    rw [List.length_cons, List.replicate_succ', List.append_assoc]
    exact others _

theorem Extensions.filtered_eq_logged (x : Extensions) (url : Url) (r : Response) :
    x.filtered url r = r.logged (x.kindsOf url).length := by
  unfold filtered Response.logged
  cases x.kindsOf url <;> rfl

namespace Host.Reading

theorem callThrough_gives {call : Attempt (Option Response)} {v : Except Fault Response}
    (calls : ∀ mid, h.Reading q r mid →
      Attempt.Gives (h.Reading q r) call (v.map some) mid) (n : Nat) {mid : Host}
    (reading : h.Reading q r mid) :
    Attempt.Gives (h.Reading q r)
      (callThrough (some q) call (List.replicate n .accessLog ++ [.terminal]))
      ((v.map (Response.logged n)).map some) mid := by
  -- on how many access logs there are; the state at hand may have been looked at by those outside
  induction n generalizing mid with
  | zero =>
    have same : (v.map (Response.logged 0)).map some = v.map some := by cases v <;> rfl
    rw [same]
    exact calls mid reading
  | succ n ih =>
    cases v with
    | error fault => exact Attempt.gives_bind_error (ih reading)
    | ok answer =>
      refine Attempt.gives_bind (ih reading) fun _ reading => ?_
      refine Attempt.gives_bind (Attempt.gives_lift reading.requestInfo_gives) fun _ reading => ?_
      refine Attempt.gives_bind (Attempt.gives_lift (reading.logAccess_gives _ _))
        fun _ reading => ?_
      have same : Option.map Response.failureSeen (some (answer.logged n)) =
          some (answer.logged (n + 1)) := congrArg some (answer.failureSeen_logged n)
      rw [same]
      exact Attempt.gives_pure _ reading

end Host.Reading

/-- The provider answers for the business object, at an address that is like the given one. -/
structure Host.Renders (h : Host) (x : Extensions) (p : ProviderRef) (url : Url)
    (service : Option Service) : Prop where
  address : (h.urls.get (h.addressOf p)).Like url
  available : (h.backendOf p).available = true
  engine : (h.backendOf p).engine = .standard (Service.methods? service)
  kinds : h.kindsOf p = [FilterKind.stack (x.kindsOf url) [.terminal]]

namespace Host.Renders

variable {x : Extensions} {p : ProviderRef} {url : Url} {service : Option Service} {mid : Host}

theorem reading (renders : h.Renders x p url service) (reading : h.Reading q r mid) :
    mid.Renders x p url service := by
  have kinds : mid.kindsOf p = h.kindsOf p := by
    obtain ⟨_, _, _, _, rfl⟩ := reading.rest
    exact kindsOf_congr rfl rfl
  rw [renders.kinds] at kinds
  obtain ⟨_, _, _, _, rfl⟩ := reading.rest
  exact ⟨renders.address, renders.available, renders.engine, kinds⟩

variable (renders : h.Renders x p url service)

include renders

theorem callBackend_gives (reading : h.Reading q r mid) (forwarding : Forwarding) :
    Attempt.Gives (h.Reading q r) (callBackend forwarding (h.providers.get p).backend (some q))
      ((r.reply h.methods url.path (Service.methods? service)).map some) mid := by
  have backend : mid.backends.get (h.providers.get p).backend = h.backendOf p := by
    obtain ⟨_, _, _, _, rfl⟩ := reading.rest
    rfl
  have path : (mid.urls.get (h.backendOf p).url).path = url.path := by
    obtain ⟨_, _, _, _, rfl⟩ := reading.rest
    exact renders.address.path
  refine Attempt.gives_get_bind ?_
  simp only [backend, renders.engine, renders.available, path]
  exact Attempt.gives_map some (reading.callStandard_gives (Service.methods? service) url.path)

variable (only : ∀ kind ∈ x.kindsOf url, kind = .accessLog)

include only

theorem callProviderWith_gives (reading : h.Reading q r mid) (forwarding : Forwarding) :
    Attempt.Gives (h.Reading q r) (callProviderWith forwarding p (some q))
      (((r.reply h.methods url.path (Service.methods? service)).map (x.filtered url)).map some)
      mid := by
  have here := renders.reading reading
  have backend : (mid.providers.get p).backend = (h.providers.get p).backend := by
    obtain ⟨_, _, _, _, rfl⟩ := reading.rest
    rfl
  have kinds : (mid.providers.get p).layers.map (fun head =>
      (mid.chainOf head).map fun f => (mid.filters.get f).kind) =
        [List.replicate (x.kindsOf url).length .accessLog ++ [.terminal]] :=
    here.kinds.trans (by rw [FilterKind.stack_accessLog only])
  have filtered : x.filtered url = Response.logged (x.kindsOf url).length :=
    funext (x.filtered_eq_logged url)
  refine Attempt.gives_get_bind ?_
  dsimp only
  rw [kinds, backend, filtered]
  refine Reading.callThrough_gives (fun mid reading => ?_) _ reading
  exact renders.callBackend_gives reading forwarding

theorem callAtDepth_gives (reading : h.Reading q r mid) (depth : Nat) :
    Attempt.Gives (h.Reading q r) (callAtDepth depth p (some q))
      (((r.reply h.methods url.path (Service.methods? service)).map (x.filtered url)).map some)
      mid := by
  cases depth with
  | zero => exact renders.callProviderWith_gives only reading _
  | succ depth => exact renders.callProviderWith_gives only reading _

end Host.Renders

namespace Host.Reading

variable {mid : Host} {p : ProviderRef} {url : Url} (reading : h.Reading q r mid)

include reading

theorem answerFault_gives {fault : Fault} (other : ∀ failure, fault ≠ .refusal failure) :
    Step.Gives (h.Reading q r) (answerFault fault (some q))
      (.ofFailure r.rid (.serviceError "provider call panic")) mid := by
  refine Step.gives_bind reading.requestInfo_gives fun _ reading => ?_
  cases fault with
  | refusal failure => exact absurd rfl (other failure)
  | _ =>
    exact Step.gives_bind (reading.writeLog_gives _ _) fun _ reading => reading.answer_gives _

theorem answerNoProvider_gives : Step.Gives (h.Reading q r) (answerNoProvider (some q))
    (.ofFailure r.rid (.serviceError ("not found provider for " ++ r.service.value))) mid := by
  refine Step.gives_bind reading.requestInfo_gives fun _ reading => ?_
  refine Step.gives_bind (reading.writeLog_gives _ _) fun _ reading => ?_
  refine Step.gives_bind reading.requestRid_gives fun _ reading => ?_
  exact Step.gives_bind reading.requestService_gives fun _ reading => Step.gives_pure _ reading

theorem withGzipSize_gives (address : (h.urls.get (h.addressOf p)).Like url) (answer : Response) :
    Step.Gives (h.Reading q r) (withGzipSize p answer)
      { answer with gzipSize := some (hintOf (url.intValue Url.gzipSizeKey 0)) } mid := by
  have same : mid.addressOf p = h.addressOf p := by
    obtain ⟨_, _, _, _, rfl⟩ := reading.rest
    rfl
  have held : (mid.urls.get (h.addressOf p)).intParam Url.gzipSizeKey =
      url.intParam Url.gzipSizeKey := by
    obtain ⟨_, _, _, _, rfl⟩ := reading.rest
    exact address.intParam (by decide)
  refine Step.gives_get_bind ?_
  rw [same]
  refine Step.gives_bind (v := url.intValue Url.gzipSizeKey 0) ?_ fun _ reading =>
    Step.gives_pure _ reading
  refine Step.gives_get_bind ?_
  dsimp only
  rw [Url.intValue, Url.intValue, held]
  split
  · refine Step.gives_bind (reading.writeLog_gives _ _) fun _ reading => ?_
    exact Step.gives_pure _ reading
  · exact Step.gives_pure _ reading

end Host.Reading

/-- The routes of the server are those of the directory, and lead to providers that answer for
its business objects. -/
structure Host.Shows (h : Host) (s : ServerRef) (x : Extensions) (d : Directory) : Prop where
  table : ∃ t, h.tableOf s = some t
  closed : (h.endpoints.get (h.servers.get s).endpoint).destroyed = d.closed
  served : ∀ path p, h.routeAt s path = some p → ∃ url service,
    d.services.find? path = some (url, service) ∧ h.Renders x p url service
  unserved : ∀ path, h.routeAt s path = none → d.services.find? path = none

namespace Host.Shows

variable {s : ServerRef} {t : TableRef} {x : Extensions} {d : Directory}
  (shows : h.Shows s x d) (only : ∀ url, ∀ kind ∈ x.kindsOf url, kind = .accessLog)

include shows only

theorem dispatch_gives (table : h.tableOf s = some t) (isOpen : d.closed = false) (q : RequestRef) :
    Step.Gives (h.Reading q (h.requests.get q)) (dispatch t (some q))
      (d.answer x h.methods (some (h.requests.get q))) h := by
  have reading := Reading.refl h q
  generalize h.requests.get q = r at reading
  refine Step.gives_get_bind (Step.gives_bind reading.requestService_gives fun mid reading => ?_)
  refine Step.gives_get_bind ?_
  have routes : (mid.tables.get t).find? r.service.value = h.routeAt s r.service.value := by
    rw [routeAt_of_table table]
    obtain ⟨_, _, _, _, rfl⟩ := reading.rest
    rfl
  rw [Directory.answer_open isOpen, routes]
  cases route : h.routeAt s r.service.value with
  | none =>
    rw [shows.unserved _ route]
    exact reading.answerNoProvider_gives
  | some p =>
    obtain ⟨url, service, found, renders⟩ := shows.served _ p route
    rw [found]
    have calls := renders.callAtDepth_gives (only url) reading (h.routeCount + 1)
    dsimp only
    unfold Directory.serve
    cases replies : r.reply h.methods url.path (Service.methods? service) with
    | error fault =>
      rw [replies] at calls
      refine Step.gives_bind calls.run fun _ reading => ?_
      exact reading.answerFault_gives fun failure same =>
        r.reply_ne_refusal h.methods _ _ failure (same ▸ replies)
    | ok answer =>
      rw [replies] at calls
      refine Step.gives_bind calls.run fun _ reading => ?_
      exact reading.withGzipSize_gives renders.address _

/-- A server answers as the directory does that it stands for, and but for requests and the log
nothing changes. -/
theorem handle_gives (q : Option RequestRef) :
    Step.Gives
      (fun h' => ∃ requests screen files journal, h' = { h with requests, screen, files, journal })
      (handle s q) (d.answer x h.methods (q.map h.requests.get)) h := by
  obtain ⟨t, table⟩ := shows.table
  have closed := shows.closed
  refine Step.gives_get_bind (Step.gives_get_bind ?_)
  unfold Endpoint.servingTable
  rw [closed, show (h.endpoints.get (h.servers.get s).endpoint).table = some t from table]
  cases shut : d.closed with
  | true =>
    have answer (q : Option Request) : d.answer x h.methods q = .ofFailure
        ((q.map Request.rid).getD "") (.unavailable "server is destroyed") := by
      unfold Directory.answer
      rw [shut]
      rfl
    rw [answer]
    cases q with
    | none =>
      obtain ⟨_, _, _, leaves⟩ :=
        (writeLog_within .warning ["服务器不可用. req:", "null request", "\n"] h).written
      exact ⟨rfl, _, _, _, _, leaves⟩
    | some q =>
      obtain ⟨value, reading⟩ := (Reading.refl h q).informed_gives .warning
        (fun info => ["服务器不可用. req:", info, "\n"])
        fun rid => .ofFailure rid (.unavailable "server is destroyed")
      exact ⟨value, reading.rest⟩
  | false =>
    cases q with
    | none =>
      obtain ⟨_, _, _, leaves⟩ := (writeLog_within .error ["收到空的请求\n"] h).written
      refine ⟨?_, _, _, _, _, leaves⟩
      unfold Directory.answer
      rw [shut]
      rfl
    | some q =>
      obtain ⟨value, reading⟩ := shows.dispatch_gives only table shut q
      exact ⟨value, reading.rest⟩

end Host.Shows

end RpcHost
