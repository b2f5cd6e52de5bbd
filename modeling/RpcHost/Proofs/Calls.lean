import RpcHost.Proofs.Registration
/-!
What a call may do to a process: write to the log, leave marks, look at requests and make new ones,
count the calls of a backend, and take providers out of the table of a backend that withdraws. A
relation between states that allows each of these holds from before a call to after it.
-/
namespace RpcHost

open Attempt Host

variable {α : Type} {h : Host} {R : Host → Host → Prop}

def Event.isMark : Event → Bool
  | entered _ => true
  | left _ => true
  | called _ => true
  | ran .. => true
  | _ => false

/-- The relation allows each thing that a call may do. -/
structure Permits (R : Host → Host → Prop) : Prop where
  logged : ∀ level pieces, (writeLog level pieces).Within R
  marked : ∀ event, event.isMark = true → (emit event).Within R
  requested : ∀ (h : Host) requests, R h { h with requests }
  counted : ∀ {h x behaviour first calls memory service},
    (h.backends.get x).engine = .scripted behaviour first calls memory service →
      ∀ calls' memory', R h { h with backends := h.backends.modify x fun backend =>
        { backend with engine := .scripted behaviour first calls' memory' service } }
  withdrew : ∀ {h x table first calls memory service},
    (h.backends.get x).engine = .scripted (.withdraw table) first calls memory service →
      ∀ p, R h ((removeProvider table p).after h)

namespace Permits

variable (permits : Permits R)

include permits

theorem readRequest_within (mark : Request → Request) (view : Request → α) (q : RequestRef) :
    (readRequest mark view q).Within R := fun h => permits.requested h _

variable [Course R]

omit permits in
theorem requestRid_within (q : Option RequestRef) : (requestRid q).Within R := by
  cases q <;> exact fun h => Course.refl h

theorem requestService_within (q : Option RequestRef) : (requestService q).Within R := by
  cases q with
  | none => exact Step.within_pure _
  | some q => exact permits.readRequest_within _ _ q

theorem requestMethod_within (q : Option RequestRef) : (requestMethod q).Within R := by
  cases q with
  | none => exact Step.within_pure _
  | some q => exact permits.readRequest_within _ _ q

theorem requestParams_within (q : Option RequestRef) : (requestParams q).Within R := by
  cases q with
  | none => exact Step.within_pure _
  | some q => exact permits.readRequest_within _ _ q

theorem requestInfo_within (q : Option RequestRef) : (requestInfo q).Within R := by
  cases q with
  | none => exact Step.within_pure _
  | some q => exact permits.readRequest_within _ _ q

omit permits in
theorem answer_within (q : Option RequestRef) (answer : String → Response) :
    Step.Within R (do return answer (← requestRid q)) :=
  Step.within_bind (requestRid_within q) fun _ => Step.within_pure _

theorem noted_within (level : Level) (pieces : List String) (q : Option RequestRef)
    (answer : String → Response) :
    Step.Within R (do
      writeLog level pieces
      return answer (← requestRid q)) :=
  Step.within_bind (permits.logged _ _) fun _ => answer_within q answer

theorem informed_within (level : Level) (pieces : String → List String) (q : Option RequestRef)
    (answer : String → Response) :
    Step.Within R (do
      let info ← requestInfo q
      writeLog level (pieces info)
      return answer (← requestRid q)) :=
  Step.within_bind (permits.requestInfo_within q) fun _ => permits.noted_within level _ q answer

theorem callMethod_within (m : Method) (name : String) (q : Option RequestRef) :
    (callMethod m name q).Within R := by
  refine Attempt.within_bind (within_lift (permits.requestParams_within q)) fun given => ?_
  split
  · exact within_lift (permits.noted_within .warning _ q _)
  · refine Attempt.within_bind (within_lift (permits.marked _ rfl)) fun _ => ?_
    split
    · exact within_lift (permits.noted_within .warning _ q _)
    · exact Attempt.within_throw _
    · split
      · exact Attempt.within_bind (within_lift (requestRid_within q)) fun _ =>
          Attempt.within_pure _
      · exact within_lift (permits.noted_within .warning _ q _)

theorem callStandard_within (available : Bool) (methods : Option MethodsRef) (path : String)
    (q : Option RequestRef) : (callStandard available methods path q).Within R := by
  unfold callStandard
  split
  · refine Attempt.within_bind (within_lift (permits.requestMethod_within q)) fun name =>
      Attempt.within_bind Attempt.within_get fun h => ?_
    split
    · exact within_lift (permits.informed_within .error _ q _)
    · exact permits.callMethod_within _ name q
  · exact within_lift (permits.informed_within .error _ q _)

theorem forwardedRequest_within (service : String) (q : Option RequestRef) :
    (forwardedRequest service q).Within R :=
  Step.within_bind (requestRid_within q) fun _ =>
    Step.within_bind (permits.requestMethod_within q) fun _ =>
      Step.within_bind (permits.requestParams_within q) fun _ h => permits.requested h _

omit [Course R] in
theorem logAccess_within (info : String) (answer : Option Response) :
    (logAccess info answer).Within R := by
  intro h
  obtain ⟨pieces, writes⟩ := exists_logAccess h info answer
  rw [Step.after, writes]
  exact permits.logged .info pieces h

theorem apply_within (kind : FilterKind) (q : Option RequestRef)
    {call next : Attempt (Option Response)} (calls : call.Within R) (goes : next.Within R) :
    (kind.apply q call next).Within R := by
  cases kind with
  | recording name =>
    exact Attempt.within_bind (within_lift (permits.marked _ rfl)) fun _ =>
      Attempt.within_bind goes fun _ =>
        Attempt.within_bind (within_lift (permits.marked _ rfl)) fun _ => Attempt.within_pure _
  | accessLog =>
    exact Attempt.within_bind goes fun _ =>
      Attempt.within_bind (within_lift (permits.requestInfo_within q)) fun _ =>
        Attempt.within_bind (within_lift (permits.logAccess_within _ _)) fun _ =>
          Attempt.within_pure _
  | terminal => exact calls
  | throwing name fault => exact Attempt.within_throw _
  | answering name failure =>
    exact Attempt.within_bind (within_lift (requestRid_within q)) fun _ => Attempt.within_pure _
  | repeating name => exact Attempt.within_bind goes fun _ => goes
  | inert name => exact goes
  | unbound name => exact goes

theorem callThrough_within (q : Option RequestRef) {call : Attempt (Option Response)}
    (calls : call.Within R) (kinds : List FilterKind) : (callThrough q call kinds).Within R := by
  induction kinds with
  | nil => exact calls
  | cons kind rest ih => exact permits.apply_within kind q calls ih

theorem callLayers_within (q : Option RequestRef) {call : Attempt (Option Response)}
    (calls : call.Within R) (chains : List (List FilterKind)) :
    (callLayers q call chains).Within R := by
  induction chains with
  | nil => exact calls
  | cons chain rest ih => exact permits.callThrough_within q ih chain

omit permits [Course R] in
theorem engine_recordVisit (h : Host) (x : BackendRef) (engine : Engine) (q : Option RequestRef)
    (edit : Request → Request) :
    (((recordVisit x engine q edit).after h).backends.get x).engine = engine := by
  cases q <;> exact congrArg Backend.engine (Store.get_modify_self _ _ _)

theorem recordVisit_within {x : BackendRef} {behaviour : Behaviour} {first : UrlRef} {calls : Nat}
    {memory : Json} {service : Option Service}
    (engine : (h.backends.get x).engine = .scripted behaviour first calls memory service)
    (calls' : Nat) (memory' : Json) (q : Option RequestRef) (edit : Request → Request) :
    R h ((recordVisit x (.scripted behaviour first calls' memory' service) q edit).after h) := by
  cases q with
  | none => exact permits.counted engine calls' memory'
  | some q =>
    -- the request is edited first, which leaves the backends as they are
    exact Course.trans (permits.requested h (h.requests.modify q edit))
      (permits.counted (h := { h with requests := h.requests.modify q edit }) engine calls' memory')

section Forwarding

variable {forwarding : Forwarding} (onward : ∀ t q, (forwarding t q).Within R)

include onward

theorem behave_leaves {behaviour : Behaviour}
    (withdraws : ∀ table, behaviour = .withdraw table → ∃ x first calls memory service,
      (h.backends.get x).engine = .scripted (.withdraw table) first calls memory service)
    (firstPath : String) (outcome : Except Fault (Option Response)) (q : Option RequestRef) :
    R h ((behave forwarding behaviour firstPath outcome q).after h) := by
  cases behaviour with
  | own announced react => cases outcome <;> exact Course.refl h
  | forward table service =>
    exact Attempt.within_bind (within_lift (permits.forwardedRequest_within service q))
      (fun _ => onward table _) h
  | withdraw table =>
    obtain ⟨x, first, calls, memory, service, engine⟩ := withdraws table rfl
    have gone : Attempt.Within R
        (do return some (Response.ofResult (← requestRid q) (.str "gone"))) :=
      Attempt.within_bind (within_lift (requestRid_within q)) fun _ => Attempt.within_pure _
    unfold behave
    rw [after_get_bind]
    dsimp only
    split
    · rename_i p found
      rw [after_lift_bind]
      exact Course.trans (permits.withdrew engine p) (gone _)
    · exact gone h

theorem callBackend_within (x : BackendRef) (q : Option RequestRef) :
    (callBackend forwarding x q).Within R := by
  intro h
  unfold callBackend
  rw [after_get_bind]
  dsimp only
  split
  · exact Attempt.within_bind (permits.callStandard_within _ _ _ q)
      (fun _ => Attempt.within_pure _) h
  · rename_i behaviour first calls memory service engine
    generalize behaviour.react _ = reaction
    rw [after_lift_bind]
    refine Course.trans
      (permits.recordVisit_within engine (calls + 1) reaction.memory q reaction.edit) ?_
    have behaves (h : Host) (engine : (h.backends.get x).engine =
        .scripted behaviour first (calls + 1) reaction.memory service) (firstPath : String) :
        R h ((behave forwarding behaviour firstPath reaction.outcome q).after h) :=
      permits.behave_leaves onward
        (fun table same => ⟨x, first, calls + 1, reaction.memory, service, same ▸ engine⟩)
        firstPath reaction.outcome q
    have settled := engine_recordVisit h x
      (.scripted behaviour first (calls + 1) reaction.memory service) q reaction.edit
    split
    · rw [after_lift_bind]
      exact Course.trans (permits.marked (.called (h.urls.get first).path) rfl _)
        (behaves ((emit (.called (h.urls.get first).path)).after ((recordVisit x _ q _).after h))
          settled _)
    · exact behaves _ settled _

theorem callProviderWith_within (p : ProviderRef) (q : Option RequestRef) :
    (callProviderWith forwarding p q).Within R :=
  Attempt.within_bind Attempt.within_get fun _ =>
    permits.callLayers_within q (permits.callBackend_within onward _ q) _

end Forwarding

theorem withGzipSize_within (p : ProviderRef) (r : Response) : (withGzipSize p r).Within R := by
  refine Step.within_bind Step.within_get fun h =>
    Step.within_bind (Step.within_bind Step.within_get fun h' => ?_) fun _ => Step.within_pure _
  split
  · exact Step.within_bind (permits.logged _ _) fun _ => Step.within_pure _
  · exact Step.within_pure _

theorem answerFault_within (fault : Fault) (q : Option RequestRef) :
    (answerFault fault q).Within R := by
  refine Step.within_bind (permits.requestInfo_within q) fun info => ?_
  cases fault <;> exact permits.noted_within _ _ q _

theorem answerNoProvider_within (q : Option RequestRef) : (answerNoProvider q).Within R :=
  Step.within_bind (permits.requestInfo_within q) fun _ =>
    Step.within_bind (permits.logged _ _) fun _ =>
      Step.within_bind (requestRid_within q) fun _ =>
        Step.within_bind (permits.requestService_within q) fun _ => Step.within_pure _

theorem dispatchWith_within
    {call : ProviderRef → Option RequestRef → Attempt (Option Response)}
    (calls : ∀ p q, (call p q).Within R) (t : TableRef) (q : Option RequestRef) :
    (dispatchWith call t q).Within R := by
  cases q with
  | none => exact Step.within_bind (permits.logged _ _) fun _ => Step.within_pure _
  | some q =>
    refine Step.within_bind (permits.requestService_within (some q)) fun service =>
      Step.within_bind Step.within_get fun h => ?_
    split
    · exact permits.answerNoProvider_within (some q)
    · rename_i p found
      refine Step.within_bind (calls p (some q)) fun result => ?_
      split
      · exact permits.answerFault_within _ (some q)
      · exact permits.informed_within .error _ (some q) _
      · exact permits.withGzipSize_within p _

theorem callAtDepth_within (depth : Nat) (p : ProviderRef) (q : Option RequestRef) :
    (callAtDepth depth p q).Within R := by
  -- on how often the call may be sent on
  induction depth generalizing p q with
  | zero => exact permits.callProviderWith_within (fun _ _ => Attempt.within_throw _) p q
  | succ depth ih =>
    refine permits.callProviderWith_within (fun t q => ?_) p q
    exact Attempt.within_bind (within_lift (permits.dispatchWith_within ih t q)) fun _ =>
      Attempt.within_pure _

theorem dispatch_within (t : TableRef) (q : Option RequestRef) : (dispatch t q).Within R :=
  Step.within_bind Step.within_get fun _ =>
    permits.dispatchWith_within (permits.callAtDepth_within _) t q

end Permits

end RpcHost
