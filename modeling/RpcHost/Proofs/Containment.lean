import RpcHost.Proofs.Answering
/-!
What a table makes of its providers. However a call ends, the caller gets an answer, and the table
stays as it is. Providers that share nothing do not notice each other's calls.
-/
namespace RpcHost

open Attempt Host

variable {σ α : Type} {h h' a b mid : Host} {t : TableRef} {p : ProviderRef} {q : RequestRef}
  {call : ProviderRef → Option RequestRef → Attempt (Option Response)}
  {view : ProviderRef → Host → σ} {I : Host → Prop} {service : String}

namespace Host

/-- Requests were looked at and lines were logged, and nothing else happened. -/
structure Glanced (h h' : Host) : Prop where
  rest : ∃ requests screen files journal, h' = { h with requests, screen, files, journal }
  next : h'.requests.next = h.requests.next
  same : ∀ q, (h'.requests.get q).Same (h.requests.get q)

instance : Course Glanced where
  refl h := ⟨⟨_, _, _, _, rfl⟩, rfl, fun _ => .refl _⟩
  trans := by
    rintro h mid h' ⟨⟨_, _, _, _, rfl⟩, next, same⟩ ⟨⟨_, _, _, _, rfl⟩, next', same'⟩
    exact ⟨⟨_, _, _, _, rfl⟩, next'.trans next, fun q => (same' q).trans (same q)⟩

theorem Noted.glanced (noted : h.Noted h') : h.Glanced h' := by
  obtain ⟨_, _, _, rfl⟩ := noted.written
  exact ⟨⟨_, _, _, _, rfl⟩, rfl, fun _ => .refl _⟩

/-- The table is as it was, and the requests that there were say what they said. -/
structure Spared (t : TableRef) (h h' : Host) : Prop where
  table : h'.tables.get t = h.tables.get t
  requests : ∀ q, h.requests.Allocated q →
    h'.requests.Allocated q ∧ (h'.requests.get q).Same (h.requests.get q)

instance : Course (Spared t) where
  refl _ := ⟨rfl, fun _ known => ⟨known, .refl _⟩⟩
  trans first second := by
    refine ⟨second.table.trans first.table, fun q known => ?_⟩
    obtain ⟨between, same⟩ := first.requests q known
    obtain ⟨after, same'⟩ := second.requests q between
    exact ⟨after, same'.trans same⟩

theorem Glanced.spared (glanced : h.Glanced h') : h.Spared t h' := by
  obtain ⟨⟨_, _, _, _, rfl⟩, next, same⟩ := glanced
  exact ⟨rfl, fun q known => ⟨Nat.lt_of_lt_of_eq known next.symm, same q⟩⟩

end Host

theorem readRequest_glances {mark : Request → Request} (marks : ∀ a, (mark a).Same a)
    (view : Request → α) (q : RequestRef) : (readRequest mark view q).Within Glanced := by
  refine fun h => ⟨⟨_, _, _, _, rfl⟩, rfl, fun other => ?_⟩
  show ((h.requests.modify q mark).get other).Same _
  rw [Store.get_modify]
  split
  · rename_i here
    rw [here]
    exact marks _
  · exact .refl _

theorem requestRid_glances (q : RequestRef) : (requestRid (some q)).Within Glanced :=
  fun h => Course.refl h

theorem requestService_glances (q : RequestRef) : (requestService (some q)).Within Glanced :=
  readRequest_glances Request.Same.serviceSeen _ q

theorem requestInfo_glances (q : RequestRef) : (requestInfo (some q)).Within Glanced :=
  readRequest_glances Request.Same.infoSeen _ q

theorem writeLog_glances (level : Level) (pieces : List String) :
    (writeLog level pieces).Within Glanced :=
  fun h => (writeLog_within level pieces h).glanced

theorem informed_glances (level : Level) (pieces : String → List String) (q : RequestRef)
    (answer : String → Response) :
    Step.Within Glanced (do
      let info ← requestInfo (some q)
      writeLog level (pieces info)
      return answer (← requestRid (some q))) :=
  Step.within_bind (requestInfo_glances q) fun _ =>
    Step.within_bind (writeLog_glances level _) fun _ =>
      Step.within_bind (requestRid_glances q) fun _ => Step.within_pure _

theorem answerNoProvider_glances (q : RequestRef) :
    (answerNoProvider (some q)).Within Glanced :=
  Step.within_bind (requestInfo_glances q) fun _ =>
    Step.within_bind (writeLog_glances _ _) fun _ =>
      Step.within_bind (requestRid_glances q) fun _ =>
        Step.within_bind (requestService_glances q) fun _ => Step.within_pure _

theorem answerFault_glances (fault : Fault) (q : RequestRef) :
    (answerFault fault (some q)).Within Glanced := by
  refine Step.within_bind (requestInfo_glances q) fun info => ?_
  cases fault <;> exact Step.within_bind (writeLog_glances _ _) fun _ =>
    Step.within_bind (requestRid_glances q) fun _ => Step.within_pure _

theorem withGzipSize_glances (p : ProviderRef) (r : Response) :
    (withGzipSize p r).Within Glanced := by
  refine Step.within_bind Step.within_get fun h =>
    Step.within_bind (Step.within_bind Step.within_get fun h' => ?_) fun _ => Step.within_pure _
  split
  · exact Step.within_bind (writeLog_glances _ _) fun _ => Step.within_pure _
  · exact Step.within_pure _

/-- The failure that is answered where a provider gives neither an answer nor a failure. -/
def Failure.panic : Failure := ⟨500, "provider call panic", .service⟩

def Host.hintAt (h : Host) (p : ProviderRef) : Int :=
  (h.urls.get (h.addressOf p)).intValue Url.gzipSizeKey 0

def settled (rid : String) (hint : Int) : Except Fault (Option Response) → Response
  | .error (.refusal failure) => .ofFailure rid failure
  | .error _ => .ofFailure rid .panic
  | .ok none => .ofFailure rid .panic
  | .ok (some r) => { r with gzipSize := some (hintOf hint) }

theorem settled_fault {fault : Fault} (other : ∀ failure, fault ≠ .refusal failure)
    (rid : String) (hint : Int) : settled rid hint (.error fault) = .ofFailure rid .panic := by
  cases fault with
  | refusal failure => exact absurd rfl (other failure)
  | _ => rfl

def settle (p : ProviderRef) (q : RequestRef) : Except Fault (Option Response) → Step Response
  | .error fault => answerFault fault (some q)
  | .ok none => answerSilence (some q)
  | .ok (some r) => withGzipSize p r

theorem settle_glances (p : ProviderRef) (q : RequestRef)
    (result : Except Fault (Option Response)) : (settle p q result).Within Glanced := by
  cases result with
  | error fault => exact answerFault_glances fault q
  | ok answer =>
    cases answer with
    | none => exact informed_glances .error _ q _
    | some r => exact withGzipSize_glances p r

theorem value_settle (p : ProviderRef) (q : RequestRef)
    (result : Except Fault (Option Response)) (h : Host) :
    (settle p q result).value h = settled (h.requests.get q).rid (h.hintAt p) result := by
  have reading := Reading.refl h q
  cases result with
  | error fault =>
    cases fault with
    | refusal failure => exact (reading.informed_gives .warning _ _).1
    | _ => exact (reading.answerFault_gives fun _ same => by cases same).1
  | ok answer =>
    cases answer with
    | none => exact (reading.informed_gives .error _ _).1
    | some r => exact (reading.withGzipSize_gives (.refl _) r).1

namespace Host

def routeFor (h : Host) (t : TableRef) (q : RequestRef) : Option ProviderRef :=
  (h.tables.get t).find? (h.requests.get q).service.value

def located (h : Host) (q : RequestRef) : Host := (requestService (some q)).after h

theorem glanced_located (h : Host) (q : RequestRef) : h.Glanced (h.located q) :=
  requestService_glances q h

end Host

theorem run_dispatchWith (call : ProviderRef → Option RequestRef → Attempt (Option Response))
    (t : TableRef) (q : RequestRef) (h : Host) :
    StateT.run (dispatchWith call t (some q)) h =
      match h.routeFor t q with
      | none => StateT.run (answerNoProvider (some q)) (h.located q)
      | some p => StateT.run (settle p q ((call p (some q)).outcome (h.located q)))
        ((call p (some q)).after (h.located q)) := by
  show StateT.run (match h.routeFor t q with | none => _ | some p => _) (h.located q) = _
  cases h.routeFor t q <;> rfl

theorem dispatchWith_unrouted
    (call : ProviderRef → Option RequestRef → Attempt (Option Response))
    (unrouted : h.routeFor t q = none) :
    (dispatchWith call t (some q)).value h = .ofFailure (h.requests.get q).rid
        ⟨500, "not found provider for " ++ (h.requests.get q).service.value, .service⟩ ∧
      h.Glanced ((dispatchWith call t (some q)).after h) := by
  have run := run_dispatchWith call t q h
  rw [unrouted] at run
  have looked := h.glanced_located q
  unfold Step.value Step.after
  rw [run]
  refine ⟨?_, Course.trans looked (answerNoProvider_glances q _)⟩
  have gives := (Reading.refl (h.located q) q).answerNoProvider_gives.1
  rw [(looked.same q).rid, (looked.same q).service] at gives
  exact gives

theorem dispatchWith_routed
    (call : ProviderRef → Option RequestRef → Attempt (Option Response))
    (routed : h.routeFor t q = some p) :
    (dispatchWith call t (some q)).value h =
        settled (((call p (some q)).after (h.located q)).requests.get q).rid
          (((call p (some q)).after (h.located q)).hintAt p)
          ((call p (some q)).outcome (h.located q)) ∧
      ((call p (some q)).after (h.located q)).Glanced
        ((dispatchWith call t (some q)).after h) := by
  have run := run_dispatchWith call t q h
  rw [routed] at run
  unfold Step.value Step.after
  rw [run]
  exact ⟨value_settle p q _ _, settle_glances p q _ _⟩

theorem dispatchWith_null (call : ProviderRef → Option RequestRef → Attempt (Option Response))
    (t : TableRef) (h : Host) :
    (dispatchWith call t none).value h = .ofFailure "" ⟨500, "empty request", .service⟩ ∧
      h.Glanced ((dispatchWith call t none).after h) :=
  ⟨rfl, writeLog_glances _ _ h⟩

/-- Dispatch keeps to what its provider does, and glances. -/
theorem dispatchWith_leaves {R : Host → Host → Prop} [Course R]
    (glances : ∀ h h', h.Glanced h' → R h h') (q : Option RequestRef)
    (calls : ∀ q' p, q = some q' → h.routeFor t q' = some p →
      R (h.located q') ((call p q).after (h.located q'))) :
    R h ((dispatchWith call t q).after h) := by
  cases q with
  | none => exact glances _ _ (dispatchWith_null call t h).2
  | some q =>
    cases route : h.routeFor t q with
    | none => exact glances _ _ (dispatchWith_unrouted call route).2
    | some p =>
      have called : R h ((call p (some q)).after (h.located q)) :=
        Course.trans (glances _ _ (h.glanced_located q)) (calls q p rfl route)
      exact Course.trans called (glances _ _ (dispatchWith_routed call route).2)

def dispatchAll (call : ProviderRef → Option RequestRef → Attempt (Option Response))
    (t : TableRef) : List (Option RequestRef) → Step (List (Option RequestRef × Response))
  | [] => return []
  | q :: rest => do
    let answer ← dispatchWith call t q
    return (q, answer) :: (← dispatchAll call t rest)

def Host.asks (h : Host) (service : String) (q : Option RequestRef) : Bool :=
  q.any fun q => (h.requests.get q).service.value == service

/-- Providers share nothing. Each has a part of the state, the view of it, that its calls and the
compression hint depend on and that only its own calls change. They leave the table and what
requests say alone. All this is asked of states of which `I` holds, and it holds of what they lead
to. -/
structure Secluded (call : ProviderRef → Option RequestRef → Attempt (Option Response))
    (t : TableRef) (view : ProviderRef → Host → σ) (I : Host → Prop) : Prop where
  called : ∀ p q {h}, I h → I ((call p (some q)).after h)
  looked : ∀ {h h'}, I h → h.Glanced h' → I h'
  own : ∀ {p q a b}, I a → I b → view p a = view p b →
    (a.requests.get q).Same (b.requests.get q) →
      (call p (some q)).outcome a = (call p (some q)).outcome b ∧
        view p ((call p (some q)).after a) = view p ((call p (some q)).after b)
  others : ∀ {p p' q h}, I h → p' ≠ p → view p ((call p' (some q)).after h) = view p h
  glanced : ∀ {p h h'}, I h → h.Glanced h' → view p h' = view p h
  hint : ∀ {p} {a b : Host}, I a → I b → view p a = view p b → a.hintAt p = b.hintAt p
  spares : ∀ p q {h : Host}, I h → h.Spared t ((call p (some q)).after h)

def Host.Unshared (h : Host) (t : TableRef) : Prop :=
  ∀ path other p, (h.tables.get t).find? path = some p → (h.tables.get t).find? other = some p →
    path = other

/-- Two states that came from `h` and in which the provider of the service finds the same. -/
structure Host.Paired (h : Host) (t : TableRef) (view : ProviderRef → Host → σ) (I : Host → Prop)
    (service : String) (a b : Host) : Prop where
  left : h.Spared t a ∧ I a
  right : h.Spared t b ∧ I b
  view : ∀ p, (h.tables.get t).find? service = some p → view p a = view p b

theorem Host.Spared.routeFor (spared : h.Spared t h') (known : h.requests.Allocated q) :
    h'.routeFor t q = h.routeFor t q := by
  unfold Host.routeFor
  rw [spared.table, (spared.requests q known).2.service]

namespace Secluded

variable (secluded : Secluded call t view I)

include secluded

theorem located (q : RequestRef) (holds : I h) : I (h.located q) :=
  secluded.looked holds (h.glanced_located q)

theorem dispatchWith_spares (q : Option RequestRef) (holds : I h) :
    h.Spared t ((dispatchWith call t q).after h) ∧ I ((dispatchWith call t q).after h) := by
  let R (h h' : Host) : Prop := I h → h.Spared t h' ∧ I h'
  have course : Course R := by
    refine ⟨fun h holds => ⟨Course.refl h, holds⟩, fun first second holds => ?_⟩
    obtain ⟨spared, holds⟩ := first holds
    obtain ⟨spared', holds⟩ := second holds
    exact ⟨Course.trans spared spared', holds⟩
  refine dispatchWith_leaves (R := R)
    (fun _ _ glanced holds => ⟨glanced.spared, secluded.looked holds glanced⟩) q
    (fun q' p same _ holds => ?_) holds
  rw [same]
  exact ⟨secluded.spares p q' holds, secluded.called p q' holds⟩

theorem dispatchWith_stays {c : Host} (q : Option RequestRef) (came : h.Spared t c ∧ I c) :
    h.Spared t ((dispatchWith call t q).after c) ∧ I ((dispatchWith call t q).after c) := by
  obtain ⟨spared, holds⟩ := secluded.dispatchWith_spares q came.2
  exact ⟨Course.trans came.1 spared, holds⟩

theorem paired_other {q : Option RequestRef} (paired : h.Paired t view I service a b)
    (unshared : h.Unshared t) (known : ∀ q', q = some q' → h.requests.Allocated q')
    (other : h.asks service q = false) :
    h.Paired t view I service ((dispatchWith call t q).after a) b := by
  refine ⟨secluded.dispatchWith_stays q paired.left, paired.right,
    fun p route => Eq.trans ?_ (paired.view p route)⟩
  cases q with
  | none => exact secluded.glanced paired.left.2 (dispatchWith_null call t a).2
  | some q =>
    have routes := paired.left.1.routeFor (known q rfl)
    cases routed : a.routeFor t q with
    | none => exact secluded.glanced paired.left.2 (dispatchWith_unrouted call routed).2
    | some p' =>
      have differ : p' ≠ p := by
        rintro rfl
        have asked := unshared _ _ p' (routes.symm.trans routed) route
        simp [asks, asked] at other
      have holds := secluded.located q paired.left.2
      rw [secluded.glanced (secluded.called p' q holds) (dispatchWith_routed call routed).2,
        secluded.others holds differ, secluded.glanced paired.left.2 (a.glanced_located q)]

theorem rid_called {c : Host} (came : h.Spared t c ∧ I c) (known : h.requests.Allocated q)
    (p : ProviderRef) :
    (((call p (some q)).after (c.located q)).requests.get q).rid = (h.requests.get q).rid := by
  have called : (c.located q).Spared t ((call p (some q)).after (c.located q)) :=
    secluded.spares p q (secluded.located q came.2)
  have all : h.Spared t ((call p (some q)).after (c.located q)) :=
    Course.trans (Course.trans came.1 (c.glanced_located q).spared) called
  exact (all.requests q known).2.rid

theorem paired_called (paired : h.Paired t view I service a b) (known : h.requests.Allocated q)
    (route : (h.tables.get t).find? service = some p) :
    (call p (some q)).outcome (a.located q) = (call p (some q)).outcome (b.located q) ∧
      view p ((call p (some q)).after (a.located q)) =
        view p ((call p (some q)).after (b.located q)) := by
  have views : view p (a.located q) = view p (b.located q) := by
    rw [secluded.glanced paired.left.2 (a.glanced_located q),
      secluded.glanced paired.right.2 (b.glanced_located q)]
    exact paired.view p route
  have left := ((a.glanced_located q).same q).trans (paired.left.1.requests q known).2
  have right := ((b.glanced_located q).same q).trans (paired.right.1.requests q known).2
  exact secluded.own (secluded.located q paired.left.2) (secluded.located q paired.right.2) views
    (left.trans right.symm)

theorem paired_own (paired : h.Paired t view I service a b) (known : h.requests.Allocated q)
    (mine : (h.requests.get q).service.value = service) :
    (dispatchWith call t (some q)).value a = (dispatchWith call t (some q)).value b ∧
      h.Paired t view I service ((dispatchWith call t (some q)).after a)
        ((dispatchWith call t (some q)).after b) := by
  have left := (paired.left.1.requests q known).2
  have right := (paired.right.1.requests q known).2
  have routes {c : Host} (came : h.Spared t c ∧ I c) :
      c.routeFor t q = (h.tables.get t).find? service := by
    rw [came.1.routeFor known]
    unfold Host.routeFor
    rw [mine]
  -- both states route the service as `h` does
  cases route : (h.tables.get t).find? service with
  | none =>
    obtain ⟨gives, _⟩ := dispatchWith_unrouted call ((routes paired.left).trans route)
    obtain ⟨gives', _⟩ := dispatchWith_unrouted call ((routes paired.right).trans route)
    refine ⟨?_, secluded.dispatchWith_stays _ paired.left,
      secluded.dispatchWith_stays _ paired.right, fun p found => ?_⟩
    · rw [gives, gives', left.rid, left.service, right.rid, right.service]
    · rw [route] at found
      cases found
  | some p =>
    -- the provider sees the same in both, and so does the same
    obtain ⟨outcome, after⟩ := secluded.paired_called paired known route
    have ends := secluded.called p q (secluded.located q paired.left.2)
    have ends' := secluded.called p q (secluded.located q paired.right.2)
    obtain ⟨gives, glanced⟩ := dispatchWith_routed call ((routes paired.left).trans route)
    obtain ⟨gives', glanced'⟩ := dispatchWith_routed call ((routes paired.right).trans route)
    refine ⟨?_, secluded.dispatchWith_stays _ paired.left,
      secluded.dispatchWith_stays _ paired.right, fun other found => ?_⟩
    · rw [gives, gives', secluded.rid_called paired.left known,
        secluded.rid_called paired.right known, secluded.hint ends ends' after, outcome]
    · rw [route] at found
      cases found
      rw [secluded.glanced ends glanced, secluded.glanced ends' glanced', after]

/-- The answers to requests for one service are those to these requests alone. -/
theorem filter_dispatchAll (unshared : h.Unshared t) {qs : List (Option RequestRef)}
    (known : ∀ q, some q ∈ qs → h.requests.Allocated q)
    (paired : h.Paired t view I service a b) :
    ((dispatchAll call t qs).value a).filter (fun answer => h.asks service answer.1) =
      (dispatchAll call t (qs.filter (h.asks service))).value b := by
  -- what is paired stays so: `b` goes on with a request for the service, and without any other
  induction qs generalizing a b with
  | nil => rfl
  | cons q rest ih =>
    have later : ∀ q, some q ∈ rest → h.requests.Allocated q :=
      fun q member => known q (List.mem_cons_of_mem _ member)
    have here : ∀ q', q = some q' → h.requests.Allocated q' := by
      rintro q' rfl
      exact known q' List.mem_cons_self
    simp only [dispatchAll, Step.value_bind, Step.value_pure]
    cases asked : h.asks service q with
    | true =>
      rw [List.filter_cons_of_pos (by simp [asked]), List.filter_cons_of_pos (by simp [asked])]
      cases q with
      | none => cases asked
      | some q =>
        obtain ⟨answered, paired⟩ :=
          secluded.paired_own paired (here q rfl) (eq_of_beq asked)
        simp only [dispatchAll, Step.value_bind, Step.value_pure, answered, ih later paired]
    | false =>
      rw [List.filter_cons_of_neg (by simp [asked]), List.filter_cons_of_neg (by simp [asked])]
      exact ih later (secluded.paired_other paired unshared here asked)

end Secluded

/-- Dispatch answers whatever its providers do: a request that is missing, one for a service that
has no provider, and one whose provider fails or gives no answer. A refusal keeps its failure, and
an answer is handed on with a compression hint. Where providers leave the table alone it stays as
it is; where they share nothing, a service answers as if nothing else were asked. -/
theorem dispatchWith_contains
    (call : ProviderRef → Option RequestRef → Attempt (Option Response)) (t : TableRef)
    (h : Host) :
    (dispatchWith call t none).value h = .ofFailure "" ⟨500, "empty request", .service⟩ ∧
      (∀ q, h.routeFor t q = none → (dispatchWith call t (some q)).value h =
        .ofFailure (h.requests.get q).rid
          ⟨500, "not found provider for " ++ (h.requests.get q).service.value, .service⟩) ∧
      (∀ q p mid, h.routeFor t q = some p →
        (∀ failure, (call p (some q)).Fails (h.located q) (.refusal failure) mid →
          (dispatchWith call t (some q)).value h =
            .ofFailure (mid.requests.get q).rid failure) ∧
        (∀ fault, (∀ failure, fault ≠ .refusal failure) →
          (call p (some q)).Fails (h.located q) fault mid →
            (dispatchWith call t (some q)).value h =
              .ofFailure (mid.requests.get q).rid ⟨500, "provider call panic", .service⟩) ∧
        ((call p (some q)).Yields (h.located q) none mid →
          (dispatchWith call t (some q)).value h =
            .ofFailure (mid.requests.get q).rid ⟨500, "provider call panic", .service⟩) ∧
        ∀ r, (call p (some q)).Yields (h.located q) (some r) mid →
          (dispatchWith call t (some q)).value h =
            { r with gzipSize := some (hintOf (mid.hintAt p)) }) ∧
      (∀ q, (∀ q' p, q = some q' → h.routeFor t q' = some p →
          ((call p q).after (h.located q')).tables.get t = h.tables.get t) →
        ((dispatchWith call t q).after h).tables.get t = h.tables.get t) ∧
      ∀ {σ : Type} (view : ProviderRef → Host → σ) (I : Host → Prop),
        Secluded call t view I → I h → h.Unshared t →
          ∀ service (qs : List (Option RequestRef)),
            (∀ q, some q ∈ qs → h.requests.Allocated q) →
              ((dispatchAll call t qs).value h).filter (fun answer => h.asks service answer.1) =
                (dispatchAll call t (qs.filter (h.asks service))).value h := by
  refine ⟨rfl, fun q unrouted => (dispatchWith_unrouted call unrouted).1,
    fun q p mid routed => ?_, fun q spares => ?_,
    fun view I secluded holds unshared service qs known => ?_⟩
  · have gives := (dispatchWith_routed call routed).1
    refine ⟨fun failure run => ?_, fun fault other run => ?_, fun run => ?_, fun r run => ?_⟩
    · obtain ⟨outcome, after⟩ := fails_iff.1 run
      rw [gives, outcome, after]
      rfl
    · obtain ⟨outcome, after⟩ := fails_iff.1 run
      rw [gives, outcome, after]
      exact settled_fault other _ _
    · obtain ⟨outcome, after⟩ := yields_iff.1 run
      rw [gives, outcome, after]
      rfl
    · obtain ⟨outcome, after⟩ := yields_iff.1 run
      rw [gives, outcome, after]
      rfl
  · let R (h h' : Host) : Prop := h'.tables.get t = h.tables.get t
    have course : Course R := ⟨fun _ => rfl, fun first second => second.trans first⟩
    refine dispatchWith_leaves (R := R) (fun _ _ glanced => (glanced.spared (t := t)).table) q
      fun q' p same routed => ?_
    exact (spares q' p same routed).trans (h.glanced_located q').spared.table.symm
  · exact secluded.filter_dispatchAll unshared known
      ⟨⟨Course.refl h, holds⟩, ⟨Course.refl h, holds⟩, fun _ _ => rfl⟩

/-- Providers with a switch each, which a call turns. One of them fails; the others tell how the
switch stood. -/
def switching (p : ProviderRef) (q : Option RequestRef) : Attempt (Option Response) := do
  let stood := ((← get).backends.get ⟨p.index⟩).available
  modifyBackend ⟨p.index⟩ fun backend => { backend with available := !backend.available }
  if p = ⟨1⟩ then throw .unknown
  return some (.ofResult (← requestRid q) (.bool stood))

theorem ending_switching (p : ProviderRef) (q : RequestRef) (h : Host) :
    (switching p (some q)).ending h =
      (if p = ⟨1⟩ then .error .unknown
        else .ok (some (.ofResult (h.requests.get q).rid
          (.bool (h.backends.get ⟨p.index⟩).available))),
        { h with backends := h.backends.modify ⟨p.index⟩ fun backend =>
          { backend with available := !backend.available } }) := by
  unfold switching
  by_cases fails : p = ⟨1⟩
  · subst fails
    rfl
  · simp only [if_neg fails]
    rfl

theorem hintAt_switched (p : ProviderRef) (x : BackendRef) (h : Host) :
    Host.hintAt { h with backends := h.backends.modify x fun backend =>
      { backend with available := !backend.available } } p = h.hintAt p := by
  have url (y : BackendRef) : ((h.backends.modify x fun backend =>
      { backend with available := !backend.available }).get y).url = (h.backends.get y).url := by
    rw [Store.get_modify]
    split
    · rename_i here
      rw [here]
    · rfl
  unfold Host.hintAt Host.addressOf Host.backendOf
  rw [url]

theorem switching_secluded : Secluded switching t
    (fun p h => ((h.backends.get ⟨p.index⟩).available, h.hintAt p)) fun _ => True where
  called _ _ _ _ := trivial
  looked _ _ := trivial
  own {p q a b} _ _ views same := by
    obtain ⟨available, hint⟩ := Prod.ext_iff.1 views
    unfold Attempt.outcome Attempt.after
    rw [ending_switching, ending_switching, same.rid]
    refine ⟨?_, Prod.ext ?_ ?_⟩
    · dsimp only at available ⊢
      rw [available]
    · dsimp only at available ⊢
      rw [Store.get_modify_self, Store.get_modify_self, available]
    · dsimp only at hint ⊢
      rw [hintAt_switched, hintAt_switched, hint]
  others {p p' q h} _ differ := by
    unfold Attempt.after
    rw [ending_switching]
    refine Prod.ext ?_ (hintAt_switched p ⟨p'.index⟩ h)
    have apart : (⟨p.index⟩ : BackendRef) ≠ ⟨p'.index⟩ := fun same =>
      Store.index_ne differ (congrArg Handle.index same).symm
    exact congrArg Backend.available (Store.get_modify_ne _ apart _)
  glanced _ glanced := by
    obtain ⟨⟨_, _, _, _, rfl⟩, _, _⟩ := glanced
    rfl
  hint _ _ views := congrArg Prod.snd views
  spares p q h _ := by
    unfold Attempt.after
    rw [ending_switching]
    exact ⟨rfl, fun _ known => ⟨known, .refl _⟩⟩

def Host.twofold : Host :=
  { furnished .builtIn .empty [] with
    tables := Store.empty.add (.ofList [("a", ⟨0⟩), ("b", ⟨1⟩)])
    requests := (Store.empty.add { Request.empty with rid := "1", service := .text "a" }).add
      { Request.empty with rid := "2", service := .text "b" } }

theorem dispatchWith_contains_twofold :
    (dispatchWith switching ⟨0⟩ (some ⟨1⟩)).value .twofold =
        .ofFailure "2" ⟨500, "provider call panic", .service⟩ ∧
      ((dispatchWith switching ⟨0⟩ (some ⟨1⟩)).after .twofold).tables.get ⟨0⟩ =
        Host.twofold.tables.get ⟨0⟩ ∧
      ((dispatchAll switching ⟨0⟩ [some ⟨0⟩, some ⟨1⟩, none, some ⟨0⟩]).value .twofold).filter
          (fun answer => Host.twofold.asks "a" answer.1) =
        (dispatchAll switching ⟨0⟩ [some ⟨0⟩, some ⟨0⟩]).value .twofold := by
  obtain ⟨_, _, exits, spares, isolates⟩ := dispatchWith_contains switching ⟨0⟩ .twofold
  have routes (path : String) : (Host.twofold.tables.get ⟨0⟩).find? path =
      if path = "b" then some ⟨1⟩ else if path = "a" then some ⟨0⟩ else none := by
    show ((Keyed.empty.insert "a" (⟨0⟩ : ProviderRef)).insert "b" ⟨1⟩).find? path = _
    rw [Keyed.find?_insert, Keyed.find?_insert]
    rfl
  have unshared : Host.twofold.Unshared ⟨0⟩ := by
    intro path other p found found'
    rw [routes] at found found'
    grind
  refine ⟨?_, spares (some ⟨1⟩) fun q p same _ => ?_, ?_⟩
  · obtain ⟨_, panics, _⟩ := exits ⟨1⟩ ⟨1⟩ _ (by decide)
    exact panics .unknown (fun _ same => by cases same) (ending_switching ⟨1⟩ ⟨1⟩ _)
  · cases same
    have spared : (Host.twofold.located ⟨1⟩).Spared ⟨0⟩ _ := switching_secluded.spares p ⟨1⟩ trivial
    exact spared.table.trans (Host.twofold.glanced_located ⟨1⟩).spared.table
  · refine isolates _ _ switching_secluded trivial unshared "a"
      [some ⟨0⟩, some ⟨1⟩, none, some ⟨0⟩] ?_
    intro q member
    have cases : q = ⟨0⟩ ∨ q = ⟨1⟩ ∨ q = ⟨0⟩ := by simpa using member
    rcases cases with rfl | rfl | rfl
    · exact Nat.zero_lt_two
    · exact Nat.one_lt_two
    · exact Nat.zero_lt_two

end RpcHost
