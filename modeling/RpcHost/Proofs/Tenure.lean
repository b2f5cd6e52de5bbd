import RpcHost.Proofs.Calls
import RpcHost.Proofs.Layers
import RpcHost.Proofs.Nesting
/-!
A standard backend from its making on, given business objects, moved, called and destroyed in any
order. Whether a call runs a method follows from what was done to the backend, from what its table
of methods holds now, and from the parameters. One method runs at most, and once.
-/
namespace RpcHost

open Attempt Host

inductive Treatment where
  | given (service : Option Service)
  | moved (u : UrlRef)
  | called (q : RequestRef)
  | ended
  deriving DecidableEq, Repr

namespace Treatment

def accepts? : Treatment → Option MethodsRef
  | given (some (.methods table)) => some table
  | _ => none

def accepted (deeds : List Treatment) : Option MethodsRef := deeds.reverse.findSome? accepts?

/-- What calls are answered by: nothing once the backend was destroyed, whatever it was given
since. -/
def offered (deeds : List Treatment) : Option MethodsRef :=
  if ended ∈ deeds then none else accepted deeds

theorem accepted_snoc (deeds : List Treatment) (deed : Treatment) :
    accepted (deeds ++ [deed]) = deed.accepts?.or (accepted deeds) := by
  unfold accepted
  rw [List.reverse_append, List.reverse_singleton, List.singleton_append, List.findSome?_cons]
  cases deed.accepts? <;> rfl

theorem ended_mem_snoc {deeds : List Treatment} {deed : Treatment} :
    ended ∈ deeds ++ [deed] ↔ ended ∈ deeds ∨ deed = ended := by
  rw [List.mem_append, List.mem_singleton, @eq_comm _ ended]

end Treatment

/-- The treatment is done, through any provider of the backend. -/
inductive Treated (b : BackendRef) : Treatment → Host → Host → Prop
  | given (h : Host) (p : ProviderRef) (service : Option Service)
    (own : (h.providers.get p).backend = b) :
    Treated b (.given service) h ((setService p service).after h)
  | moved (h : Host) (p : ProviderRef) (u : UrlRef) (own : (h.providers.get p).backend = b) :
    Treated b (.moved u) h ((setProviderUrl p u).after h)
  | called (h : Host) (p : ProviderRef) (q : RequestRef) (own : (h.providers.get p).backend = b) :
    Treated b (.called q) h ((callProvider p (some q)).after h)
  | ended (h : Host) (p : ProviderRef) (own : (h.providers.get p).backend = b) :
    Treated b .ended h ((destroyProvider p).after h)

/-- A standard backend from its making on. In between anything may happen that leaves it alone; so
tables of methods may change at any time. -/
inductive Tenure (b : BackendRef) (start : Host) : List Treatment → Host → Prop
  | start {u : UrlRef} (new : start.backends.get b = .standardAt u) : Tenure b start [] start
  | elsewhere {deeds : List Treatment} {h h' : Host} (before : Tenure b start deeds h)
    (kept : h'.backends.get b = h.backends.get b) : Tenure b start deeds h'
  | treated {deeds : List Treatment} {deed : Treatment} {h h' : Host}
    (before : Tenure b start deeds h) (done : Treated b deed h h') :
    Tenure b start (deeds ++ [deed]) h'

structure Backend.Suits (backend : Backend) (deeds : List Treatment) : Prop where
  available : backend.available = decide (Treatment.ended ∉ deeds)
  engine : ∃ methods, backend.engine = .standard methods ∧
    (Treatment.ended ∉ deeds → methods = Treatment.accepted deeds)

variable {start h h' : Host} {b : BackendRef} {p : ProviderRef} {q : RequestRef}
  {backend : Backend} {deeds : List Treatment} {deed : Treatment} {r : Request} {m : Method}
  {given : Json}

namespace Backend.Suits

theorem offered (suits : backend.Suits deeds) : backend.offered = Treatment.offered deeds := by
  obtain ⟨methods, engine, same⟩ := suits.engine
  unfold Backend.offered Treatment.offered
  rw [engine, suits.available]
  by_cases gone : Treatment.ended ∈ deeds
  · simp [gone]
  · simp [gone, same gone]

theorem idle (suits : backend.Suits deeds) (silent : deed.accepts? = none)
    (goes : deed ≠ .ended) (u : UrlRef) : Suits { backend with url := u } (deeds ++ [deed]) := by
  have gone : Treatment.ended ∈ deeds ++ [deed] ↔ Treatment.ended ∈ deeds := by
    rw [Treatment.ended_mem_snoc]
    exact or_iff_left goes
  obtain ⟨methods, engine, same⟩ := suits.engine
  refine ⟨?_, methods, engine, fun kept => ?_⟩
  · simp only [gone, suits.available]
  · rw [Treatment.accepted_snoc, silent]
    exact same fun member => kept (gone.2 member)

theorem served (suits : backend.Suits deeds) (service : Option Service) :
    (backend.serving service).Suits (deeds ++ [.given service]) := by
  obtain ⟨methods, engine, _⟩ := suits.engine
  unfold Backend.serving
  rw [engine]
  match service with
  | none => exact suits.idle rfl (by simp) backend.url
  | some (.foreign _) => exact suits.idle rfl (by simp) backend.url
  | some (.methods table) =>
    refine ⟨?_, some table, rfl, fun _ => ?_⟩
    · simp [suits.available]
    · rw [Treatment.accepted_snoc]
      rfl

theorem destroyed (suits : backend.Suits deeds) :
    backend.destroyed.Suits (deeds ++ [.ended]) := by
  obtain ⟨methods, engine, _⟩ := suits.engine
  have gone : Treatment.ended ∈ deeds ++ [.ended] := by simp
  unfold Backend.destroyed
  rw [engine]
  exact ⟨by simp, none, rfl, fun kept => absurd gone kept⟩

end Backend.Suits

def Host.Minds (b : BackendRef) (h h' : Host) : Prop :=
  (h.backends.get b).Standard → h'.backends.get b = h.backends.get b

instance : Course (Host.Minds b) where
  refl _ _ := rfl
  trans first second standard := by
    have kept := first standard
    rw [← kept] at standard
    exact (second standard).trans kept

theorem Host.minds_permits (b : BackendRef) : Permits (Host.Minds b) where
  logged level pieces h _ := by rw [(writeLog_within level pieces h).registering.backends]
  marked _ _ _ _ := rfl
  requested _ _ _ := rfl
  counted := by
    rintro h x _ _ _ _ _ engine calls' memory' ⟨methods, standard⟩
    have differ : b ≠ x := by
      rintro rfl
      rw [engine] at standard
      cases standard
    exact Store.get_modify_ne _ differ _
  withdrew := by
    intro h x table _ _ _ _ _ p _
    rw [(removeProvider_within table p h).registering.backends]

theorem callProvider_minds (p : ProviderRef) (q : Option RequestRef) :
    (callProvider p q).Within (Host.Minds b) :=
  Attempt.within_bind Attempt.within_get fun _ => (Host.minds_permits b).callAtDepth_within _ p q

theorem Treated.suits (done : Treated b deed h h') (suits : (h.backends.get b).Suits deeds) :
    (h'.backends.get b).Suits (deeds ++ [deed]) := by
  cases done with
  | given _ p service own =>
    obtain ⟨backends, noted, _, gets⟩ := setService_spec p service h
    rw [noted.registering.backends]
    show (backends.get b).Suits _
    rw [gets, if_pos own.symm]
    unfold Host.backendOf
    rw [own]
    exact suits.served service
  | moved _ p u own =>
    show ((h.backends.modify (h.providers.get p).backend _).get b).Suits _
    rw [own, Store.get_modify_self]
    exact suits.idle rfl (by simp) u
  | called _ p q own =>
    obtain ⟨methods, engine, _⟩ := suits.engine
    rw [callProvider_minds p (some q) h ⟨methods, engine⟩]
    exact suits.idle rfl (by simp) (h.backends.get b).url
  | ended _ p own =>
    show ((h.backends.modify (h.providers.get p).backend _).get b).Suits _
    rw [own, Store.get_modify_self]
    exact suits.destroyed

theorem Tenure.suits (tenure : Tenure b start deeds h) : (h.backends.get b).Suits deeds := by
  -- a new backend suits no deeds, and each treatment keeps it so
  induction tenure with
  | start new =>
    rw [new]
    exact ⟨rfl, none, rfl, fun _ => rfl⟩
  | elsewhere _ kept ih =>
    rw [kept]
    exact ih
  | treated _ done ih => exact done.suits ih

def Method.Accepts (m : Method) (given : Json) : Prop :=
  ∀ param ∈ m.params, ∃ members v, given = .obj members ∧
    Entries.find? param.1 members = some v ∧ param.2.admits v = true

theorem Method.hasParam_iff (given : Json) (param : String × ValueType) :
    hasParam given param = true ↔ ∃ members v, given = .obj members ∧
      Entries.find? param.1 members = some v ∧ param.2.admits v = true := by
  cases given with
  | obj members => cases found : Entries.find? param.1 members <;> simp [hasParam, found]
  | _ => simp [hasParam]

theorem Method.accepts_iff : m.Accepts given ↔ m.offendingParam? given = none := by
  rw [offendingParam?_eq_none_iff]
  exact forall₂_congr fun param _ => (hasParam_iff given param).symm

/-- What runs, and how the call ends, when the request meets the methods, if there are any. The
path is that of the provider. -/
inductive Request.Fares (r : Request) (path : String) :
    Option MethodTable → List Event → Except Fault Response → Prop
  | unavailable : r.Fares path none []
    (.ok (.ofFailure r.rid ⟨503, "provider " ++ path ++ " is unavailable.", .service⟩))
  | unknown {table : MethodTable} (missing : table.find? r.method.value = none) :
    r.Fares path (some table) [] (.ok (.ofFailure r.rid
      ⟨500, "method " ++ r.method.value ++ " is not found in provider.", .service⟩))
  | unfit {table : MethodTable} {m : Method} (found : table.find? r.method.value = some m)
    (unfit : ¬m.Accepts r.parameters) :
    r.Fares path (some table) [] (.ok (.ofFailure r.rid
      ⟨500, "invalid params for " ++ r.method.value, .service⟩))
  | refused {table : MethodTable} {m : Method} {failure : Failure}
    (found : table.find? r.method.value = some m) (fits : m.Accepts r.parameters)
    (raises : m.run r.parameters = .error (.refusal failure)) :
    r.Fares path (some table) [.ran m.name r.parameters m.announced]
      (.ok (.ofFailure r.rid ⟨failure.code, failure.message, .business⟩))
  | escaped {table : MethodTable} {m : Method} {fault : Fault}
    (found : table.find? r.method.value = some m) (fits : m.Accepts r.parameters)
    (raises : m.run r.parameters = .error fault) (other : ∀ failure, fault ≠ .refusal failure) :
    r.Fares path (some table) [.ran m.name r.parameters m.announced] (.error fault)
  | mistyped {table : MethodTable} {m : Method} {result : Json}
    (found : table.find? r.method.value = some m) (fits : m.Accepts r.parameters)
    (returns : m.run r.parameters = .ok result) (mistyped : m.returns.admits result = false) :
    r.Fares path (some table) [.ran m.name r.parameters m.announced] (.ok (.ofFailure r.rid
      ⟨500, "invalid return value of " ++ r.method.value, .service⟩))
  | answered {table : MethodTable} {m : Method} {result : Json}
    (found : table.find? r.method.value = some m) (fits : m.Accepts r.parameters)
    (returns : m.run r.parameters = .ok result) (typed : m.returns.admits result = true) :
    r.Fares path (some table) [.ran m.name r.parameters m.announced]
      (.ok (.ofResult r.rid result))

def Method.marks (m : Method) (given : Json) : List Event :=
  if m.offendingParam? given = none then [.ran m.name given m.announced] else []

def Request.marks (r : Request) (table? : Option MethodTable) : List Event :=
  match table?.bind fun table => table.find? r.method.value with
  | some m => m.marks r.parameters
  | none => []

theorem Request.fares_reply (r : Request) (methods : Store .methods MethodTable) (path : String)
    (table? : Option MethodsRef) :
    r.Fares path (table?.map methods.get) (r.marks (table?.map methods.get))
      (r.reply methods path table?) := by
  cases table? with
  | none => exact .unavailable
  | some table =>
    unfold Request.reply Request.marks
    simp only [Option.map_some, Option.bind_some]
    cases found : (methods.get table).find? r.method.value with
    | none => exact .unknown found
    | some m =>
      dsimp only
      unfold Method.reply Method.marks
      cases offends : m.offendingParam? r.parameters with
      | some field =>
        refine .unfit found fun fits => ?_
        rw [Method.accepts_iff, offends] at fits
        cases fits
      | none =>
        have fits := Method.accepts_iff.2 offends
        rw [if_pos rfl]
        cases ran : m.run r.parameters with
        | error fault =>
          cases fault with
          | refusal failure => exact .refused found fits ran
          | _ => exact .escaped found fits ran fun _ same => by cases same
        | ok result =>
          dsimp only
          split
          · rename_i typed
            exact .answered found fits ran typed
          · rename_i refused
            exact .mistyped found fits ran (Bool.eq_false_iff.2 refused)

theorem requestInfo_silent (q : RequestRef) : (requestInfo (some q)).Within Host.Silent :=
  fun _ => rfl

theorem noted_silent (level : Level) (pieces : List String) (q : RequestRef)
    (answer : String → Response) :
    Step.Within Host.Silent (do
      writeLog level pieces
      return answer (← requestRid (some q))) :=
  Step.within_bind (writeLog_silent _ _) fun _ => fun _ => rfl

theorem informed_silent (level : Level) (pieces : String → List String) (q : RequestRef)
    (answer : String → Response) :
    Step.Within Host.Silent (do
      let info ← requestInfo (some q)
      writeLog level (pieces info)
      return answer (← requestRid (some q))) :=
  Step.within_bind (requestInfo_silent q) fun _ => noted_silent level _ q answer

theorem journal_callMethod (m : Method) (name : String) (q : RequestRef) (h : Host) :
    ((callMethod m name (some q)).after h).journal =
      h.journal ++ m.marks (h.requests.get q).parameters := by
  have given : (requestParams (some q)).value h = (h.requests.get q).parameters := rfl
  have looked : ((requestParams (some q)).after h).journal = h.journal := rfl
  unfold callMethod Method.marks
  rw [after_lift_bind, given]
  cases offends : m.offendingParam? (h.requests.get q).parameters with
  | some field =>
    rw [if_neg (by simp), List.append_nil, ← looked]
    exact within_lift (noted_silent .warning _ q _) _
  | none =>
    rw [if_pos rfl, after_lift_bind, after_emit, ← looked]
    -- what comes after the mark leaves none
    refine Eq.trans (Attempt.Within.leaves (R := Host.Silent) ?_ rfl) rfl
    split
    · exact within_lift (noted_silent .warning _ q _)
    · exact Attempt.within_throw _
    · split
      · exact Attempt.within_bind (within_lift fun _ => rfl) fun _ => Attempt.within_pure _
      · exact within_lift (noted_silent .warning _ q _)

theorem journal_callStandard (available : Bool) (methods : Option MethodsRef) (path : String)
    (q : RequestRef) (h : Host) :
    ((callStandard available methods path (some q)).after h).journal = h.journal ++
      (h.requests.get q).marks ((if available then methods else none).map h.methods.get) := by
  have closed : ((callStandard false methods path (some q)).after h).journal = h.journal :=
    within_lift (informed_silent .error _ q _) h
  have absent : ((callStandard true none path (some q)).after h).journal = h.journal :=
    within_lift (informed_silent .error _ q _) h
  cases available with
  | false => exact closed.trans (List.append_nil _).symm
  | true =>
    cases methods with
    | none => exact absent.trans (List.append_nil _).symm
    | some table =>
      have name : (requestMethod (some q)).value h = (h.requests.get q).method.value := rfl
      have looked : ((requestMethod (some q)).after h).journal = h.journal := rfl
      have methods : ((requestMethod (some q)).after h).methods = h.methods := rfl
      have reads : (((requestMethod (some q)).after h).requests.get q).parameters =
          (h.requests.get q).parameters :=
        ((Reading.refl h q).requestMethod_gives).2.same.parameters
      unfold callStandard Request.marks
      simp only [after_lift_bind, after_get_bind, name, methods, if_true, Option.map_some,
        Option.bind_some]
      cases found : (h.methods.get table).find? (h.requests.get q).method.value with
      | none =>
        rw [List.append_nil, ← looked]
        exact within_lift (informed_silent .error _ q _) _
      | some m =>
        dsimp only
        rw [journal_callMethod, looked, reads]

theorem journal_callProvider (standard : (h.backendOf p).Standard)
    (bare : (h.providers.get p).layers = []) (q : RequestRef) :
    ((callProvider p (some q)).after h).journal = h.journal ++
      (h.requests.get q).marks ((h.backendOf p).offered.map h.methods.get) := by
  obtain ⟨methods, engine⟩ := standard
  obtain ⟨forwarding, forwards⟩ := callAtDepth_forwards (h.routeCount + 1)
  have after : (callProvider p (some q)).after h =
      (callBackend forwarding (h.providers.get p).backend (some q)).after h := by
    unfold callProvider
    rw [after_get_bind, forwards, Attempt.after, ending_callProviderWith, Host.kindsOf_bare bare]
    rfl
  have offered : (h.backendOf p).offered =
      if (h.backendOf p).available then methods else .none := by
    unfold Backend.offered
    rw [engine]
  rw [after, offered, ← journal_callStandard _ _ (h.pathOf p)]
  have engine : (h.backends.get (h.providers.get p).backend).engine = .standard methods := engine
  unfold callBackend
  rw [after_get_bind]
  dsimp only
  rw [engine, Attempt.after_bind]
  split <;> rfl

structure Host.Runs (h : Host) (deeds : List Treatment) (r : Request) (m : Method) : Prop where
  alive : Treatment.ended ∉ deeds
  listed : ∃ table, Treatment.accepted deeds = some table ∧
    (h.methods.get table).find? r.method.value = some m
  fits : m.Accepts r.parameters

theorem Host.Runs.marks (runs : h.Runs deeds r m) :
    r.marks ((Treatment.offered deeds).map h.methods.get) =
      [.ran m.name r.parameters m.announced] := by
  obtain ⟨table, accepted, found⟩ := runs.listed
  unfold Request.marks Treatment.offered
  rw [if_neg runs.alive, accepted]
  simp [found, Method.marks, Method.accepts_iff.1 runs.fits]

theorem Host.marks_of_idle (idle : ∀ m, ¬h.Runs deeds r m) :
    r.marks ((Treatment.offered deeds).map h.methods.get) = [] := by
  unfold Request.marks Treatment.offered
  split
  · rename_i m found
    unfold Method.marks
    split
    · rename_i fits
      by_cases gone : Treatment.ended ∈ deeds
      · simp [gone] at found
      · cases accepted : Treatment.accepted deeds with
        | none => simp [gone, accepted] at found
        | some table =>
          simp only [gone, accepted, if_false, Option.map_some, Option.bind_some] at found
          exact absurd ⟨gone, ⟨table, accepted, found⟩, Method.accepts_iff.2 fits⟩ (idle m)
    · rfl
  · rfl

theorem Request.Fares.rid {path : String} {table? : Option MethodTable} {events : List Event}
    {answer : Response} (fares : r.Fares path table? events (.ok answer)) : answer.rid = r.rid := by
  cases fares <;> rfl

/-- A call of a standard provider runs the method that its table has for the request, once and with
the parameters of the request, exactly when the backend was never destroyed, was given a table,
finds the method there now, and the parameters fit it. How it ends is decided in this order, and
every answer is for the id of the request. -/
theorem Tenure.calls (tenure : Tenure b start deeds h) (own : (h.providers.get p).backend = b)
    (bare : (h.providers.get p).layers = []) (q : RequestRef) :
    ∃ events v, (callProvider p (some q)).outcome h = v.map some ∧
      ((callProvider p (some q)).after h).journal = h.journal ++ events ∧
      (h.requests.get q).Fares (h.pathOf p) ((Treatment.offered deeds).map h.methods.get)
        events v ∧
      (∀ m, h.Runs deeds (h.requests.get q) m →
        events = [.ran m.name (h.requests.get q).parameters m.announced]) ∧
      ((∀ m, ¬h.Runs deeds (h.requests.get q) m) → events = []) ∧
      ∀ answer, v = .ok answer → answer.rid = (h.requests.get q).rid := by
  have suits : (h.backendOf p).Suits deeds := by
    unfold Host.backendOf
    rw [own]
    exact tenure.suits
  obtain ⟨methods, engine, _⟩ := suits.engine
  have replies : h.replyOf p (h.requests.get q) =
      (h.requests.get q).reply h.methods (h.pathOf p) (Treatment.offered deeds) := by
    rw [Host.replyOf_bare bare, ← suits.offered]
    rfl
  have fares := (h.requests.get q).fares_reply h.methods (h.pathOf p) (Treatment.offered deeds)
  refine ⟨_, _, ?_, ?_, fares, fun m runs => runs.marks, Host.marks_of_idle, ?_⟩
  · rw [callProvider_replies ⟨methods, engine⟩, replies]
  · rw [journal_callProvider ⟨methods, engine⟩ bare, suits.offered]
  · intro answer ends
    rw [ends] at fares
    exact fares.rid

def Method.echo : Method :=
  ⟨"Echo", [("n", .integral)], .integral, false, fun given => .ok (given.member "n")⟩

def Host.vacant : Host :=
  { furnished .builtIn .empty [⟨"mrpc", "127.0.0.1", 1, "p", "", .empty⟩] with
    methods := Store.empty.add (.ofList [("Echo", .echo)])
    backends := Store.empty.add (.standardAt ⟨0⟩)
    providers := Store.empty.add ⟨⟨0⟩, [], none⟩
    requests := Store.empty.add { Request.empty with
      rid := "1", service := .text "p", method := .text "Echo"
      params := some (.obj [("n", .int 3)]) } }

def Host.staffed : Host :=
  (setService ⟨0⟩ (some (.methods ⟨0⟩))).after ((setService ⟨0⟩ (some (.foreign 0))).after vacant)

theorem Host.tenure_staffed : Tenure ⟨0⟩ vacant
    [.given (some (.foreign 0)), .given (some (.methods ⟨0⟩))] staffed :=
  .treated (.treated (.start rfl) (.given vacant ⟨0⟩ _ rfl)) (.given _ ⟨0⟩ _ rfl)

theorem Host.runs_staffed : staffed.Runs
    [.given (some (.foreign 0)), .given (some (.methods ⟨0⟩))]
    (staffed.requests.get ⟨0⟩) .echo where
  alive := by decide
  listed := ⟨⟨0⟩, rfl, rfl⟩
  fits := Method.accepts_iff.2 rfl

theorem Tenure.calls_staffed :
    ((callProvider ⟨0⟩ (some ⟨0⟩)).after .staffed).journal =
        Host.staffed.journal ++ [.ran "Echo" (.obj [("n", .int 3)]) false] ∧
      ∃ h, Tenure ⟨0⟩ .vacant [.given (some (.foreign 0)), .given (some (.methods ⟨0⟩)), .ended,
          .given (some (.methods ⟨0⟩))] h ∧
        (callProvider ⟨0⟩ (some ⟨0⟩)).outcome h =
          .ok (some (.ofFailure "1" ⟨503, "provider p is unavailable.", .service⟩)) := by
  obtain ⟨_, _, _, journal, _, runs, _⟩ := Host.tenure_staffed.calls (p := ⟨0⟩) rfl rfl ⟨0⟩
  rw [runs _ Host.runs_staffed] at journal
  have revived := Tenure.treated (.treated Host.tenure_staffed (.ended _ ⟨0⟩ rfl))
    (.given _ ⟨0⟩ (some (.methods ⟨0⟩)) rfl)
  refine ⟨journal, _, revived, ?_⟩
  obtain ⟨_, _, ends, _, fares, _⟩ := Tenure.calls revived (p := ⟨0⟩) rfl rfl ⟨0⟩
  rw [ends]
  cases fares
  rfl

end RpcHost
