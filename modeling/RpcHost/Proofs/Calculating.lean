import RpcHost.Demo
import RpcHost.Proofs.Refinement
import RpcHost.Proofs.Account
import RpcHost.Proofs.Operands
import RpcHost.Proofs.Sweeps
/-!
A server all of whose services are calculators. Whatever a service's address says of filters and of
the compression hint, a sum is answered by the sum and a quotient by zero is refused, each under the
id of its request. What a direct registry lists stands for a service that is still served.
-/
namespace RpcHost

open Attempt Host

namespace Calculator

variable {a b : Int} {q : Request}

theorem gives_operands (a b : Int) : (Demo.operands a b).Gives a b := ⟨rfl, rfl⟩

theorem offendingParam?_operands (name : String) (run : Json → Except Fault Json) (a b : Int) :
    (method name run).offendingParam? (Demo.operands a b) = none := rfl

theorem reply_sum (left : Fits a) (right : Fits b) (given : q.parameters = Demo.operands a b) :
    (method "Add" addition).reply "Add" q = .ok (.ofResult q.rid (.int (a + b))) := by
  have gives : q.parameters.Gives a b := given ▸ gives_operands a b
  rw [reply_add gives (given ▸ offendingParam?_operands _ _ a b), if_pos ⟨left, right⟩]

theorem reply_quotient (fits : Fits a) (given : q.parameters = Demo.operands a 0) :
    (method "Div" division).reply "Div" q =
      .ok (.ofFailure q.rid ⟨400, "divide by zero", .business⟩) := by
  have gives : q.parameters.Gives a 0 := given ▸ gives_operands a 0
  have zero : Fits 0 := by decide
  rw [reply_div gives (given ▸ offendingParam?_operands _ _ a 0), if_pos ⟨fits, zero⟩, if_pos rfl]

end Calculator

variable {a b : Int} {q : Request} {methods : Store .methods MethodTable} {table : MethodsRef}

theorem Directory.serve_of_reply {x : Extensions} {url : Url} (service : Option Service)
    {answer : Response}
    (replies : q.reply methods url.path (Service.methods? service) = .ok answer) :
    let served := serve x methods url service q
    served.rid = answer.rid ∧ served.result = answer.result ∧
      served.hasFailure = answer.hasFailure ∧ served.failure.value = answer.failure.value := by
  unfold serve Extensions.filtered
  rw [replies]
  dsimp only
  split
  · exact ⟨rfl, rfl, rfl, rfl⟩
  · exact ⟨rfl, rfl, answer.failure.isFailure_seen, answer.failure.value_seen⟩

structure Response.Sums (r : Response) (rid : String) (a b : Int) : Prop where
  rid : r.rid = rid
  result : r.resultValue = .int (a + b)
  failure : r.hasFailure = false

structure Response.RefusesZero (r : Response) (rid : String) : Prop where
  rid : r.rid = rid
  failure : r.hasFailure = true
  value : r.failure.value = ⟨400, "divide by zero", .business⟩

namespace Directory

variable {x : Extensions} {url : Url}

theorem follow_closed (d : Directory) (url : Url) (service : Option Service) (status : Status) :
    (d.follow (.deploy url service status)).closed = d.closed := by
  by_cases accepted : status = .ok
  · rw [accepted, follow_accepted]
  · rw [follow_refused _ _ _ accepted]

theorem found_deployed {d : Directory} {status : Status} {service : Option Service}
    {path : String} {found : Url × Option Service}
    (finds : (d.follow (.deploy url service status)).services.find? path = some found) :
    found = (url, service) ∨ d.services.find? path = some found := by
  by_cases accepted : status = .ok
  · rw [accepted, follow_accepted] at finds
    dsimp only at finds
    rw [Keyed.find?_insert] at finds
    split at finds
    · exact Or.inl (Option.some.inj finds).symm
    · exact Or.inr finds
  · rw [follow_refused _ _ _ accepted] at finds
    exact Or.inr finds

theorem serve_sum (calculates : methods.get table = Calculator.methods)
    (left : Calculator.Fits a) (right : Calculator.Fits b) (asks : q.method.value = "Add")
    (given : q.parameters = Demo.operands a b) :
    (serve x methods url (some (.methods table)) q).Sums q.rid a b := by
  have replies : q.reply methods url.path (some table) = .ok (.ofResult q.rid (.int (a + b))) := by
    rw [Request.reply_of_method calculates (by rw [asks]; exact Calculator.find?_methods_add), asks]
    exact Calculator.reply_sum left right given
  obtain ⟨rid, result, failure, _⟩ := serve_of_reply (x := x) (some (.methods table)) replies
  refine ⟨rid, ?_, failure⟩
  unfold Response.resultValue
  rw [result]
  rfl

theorem serve_quotient (calculates : methods.get table = Calculator.methods)
    (fits : Calculator.Fits a) (asks : q.method.value = "Div")
    (given : q.parameters = Demo.operands a 0) :
    (serve x methods url (some (.methods table)) q).RefusesZero q.rid := by
  have replies : q.reply methods url.path (some table) =
      .ok (.ofFailure q.rid ⟨400, "divide by zero", .business⟩) := by
    rw [Request.reply_of_method calculates (by rw [asks]; exact Calculator.find?_methods_div), asks]
    exact Calculator.reply_quotient fits given
  obtain ⟨rid, _, failure, value⟩ := serve_of_reply (x := x) (some (.methods table)) replies
  exact ⟨rid, failure, value⟩

end Directory

variable {h mid h' : Host} {s : ServerRef} {d : Directory} {u : UrlRef} {path : String}
  {status : Status} {service : Option Service} {codes : List Status}
  {plan : List (UrlRef × Option Service)}

/-- What a direct registry lists stands for a service that is registered there. -/
def Host.Tallied (h : Host) (s : ServerRef) : Prop :=
  ∀ r, h.DirectAt r → ∀ identity, h.listsAt r identity = true → r ∈ h.registrations s identity

theorem Host.Tallied.of_eq (tallied : h.Tallied s) (registries : h'.registries = h.registries)
    (same : h'.registrations s = h.registrations s) : h'.Tallied s := by
  intro r direct identity lists
  unfold DirectAt at direct
  rw [registries] at direct
  rw [listsAt_congr registries] at lists
  rw [same]
  exact tallied r direct identity lists

theorem Host.Booked.tallied (booked : h.Booked s path h') (tallied : h.Tallied s) :
    h'.Tallied s := by
  intro r direct identity lists
  obtain ⟨before, listed⟩ := booked.recorded.listed r direct
  rw [listed, Standing.getLastD_turned] at lists
  rw [← List.count_pos_iff, h'.count_registrations s path, booked.others]
  rcases lists with here | ⟨none, was⟩
  · omega
  · have known := tallied r before identity was
    rw [← List.count_pos_iff, h.count_registrations s path] at known
    omega

structure Host.Calculates (h : Host) (s : ServerRef) (d : Directory) : Prop where
  mirrors : h.Mirrors s .builtIn d
  isOpen : d.closed = false
  tables : ∀ path url service, d.services.find? path = some (url, service) →
    ∃ table, service = some (.methods table) ∧ h.methods.get table = Calculator.methods
  stocked : h.Stocked (h.servers.get s).extensions
  tallied : h.Tallied s

/-- What asking changes: the requests, the next id, and what was logged and noted down. -/
def Host.Asks (h h' : Host) : Prop :=
  ∃ requests sequence screen files journal,
    h' = { h with requests, sequence, screen, files, journal }

instance : Course Host.Asks where
  refl h := ⟨_, _, _, _, _, rfl⟩
  trans := by
    rintro h mid h' ⟨_, _, _, _, _, rfl⟩ ⟨_, _, _, _, _, rfl⟩
    exact ⟨_, _, _, _, _, rfl⟩

theorem Host.Asks.urls (asks : h.Asks h') : h'.urls = h.urls := by
  obtain ⟨_, _, _, _, _, rfl⟩ := asks
  rfl

theorem Host.Mirrors.aside (mirrors : h.Mirrors s .builtIn d)
    (methods : Store .methods MethodTable) (asks : h.Asks h') :
    { h' with methods }.Mirrors s .builtIn d := by
  obtain ⟨requests, sequence, screen, files, journal, rfl⟩ := asks
  exact mirrors.frame methods requests sequence screen files journal

theorem Host.Calculates.asks (calculates : h.Calculates s d) (asks : h.Asks h') :
    h'.Calculates s d := by
  have mirrors := calculates.mirrors.aside h'.methods asks
  obtain ⟨requests, sequence, screen, files, journal, rfl⟩ := asks
  exact ⟨mirrors, calculates.isOpen, calculates.tables, calculates.stocked, calculates.tallied⟩

theorem Host.Calculates.exported (calculates : h.Calculates s d)
    (calculator : h.methods.get table = Calculator.methods)
    (ends : (exportService s u (some (.methods table))).Yields h status h') :
    h'.Calculates s (d.follow (.deploy (h.urls.get u) (some (.methods table)) status)) := by
  obtain ⟨mirrors, isOpen, tables, stocked, tallied⟩ := calculates
  obtain ⟨_, yields, _, _, steady⟩ := exportService_completes u (some (.methods table))
    mirrors.coherent mirrors.plain.terminated mirrors.plain.civil
  obtain ⟨_, rfl⟩ := ends.unique yields
  obtain ⟨_, server⟩ := steady.server
  have factory : (h'.servers.get s).extensions = (h.servers.get s).extensions := by rw [server]
  have booked := exportService_booked mirrors.coherent mirrors.plain.terminated stocked ends
  refine ⟨mirrors.exported Extensions.plain_builtIn ends, ?_, ?_, ?_, ?_⟩
  · rw [Directory.follow_closed, isOpen]
  · intro path url service finds
    rw [steady.methods]
    rcases Directory.found_deployed finds with same | there
    · cases same
      exact ⟨table, rfl, calculator⟩
    · exact tables path url service there
  · rw [factory]
    rcases booked with noted | booked
    · exact (Recorded.quiet stocked noted.uneventful noted.registries noted.extensions).stocked
    · exact booked.recorded.stocked
  · rcases booked with noted | booked
    · exact tallied.of_eq noted.registries (noted.registrations s)
    · exact booked.tallied tallied

theorem Host.Noted.asks (noted : h.Noted h') : h.Asks h' := by
  obtain ⟨_, _, _, rfl⟩ := noted.written
  exact ⟨_, _, _, _, _, rfl⟩

def Directory.Covers (d : Directory) (path : String) : Prop :=
  (d.services.find? path).isSome = true

theorem Directory.covers_deployed (d : Directory) (url : Url) (service : Option Service) :
    (d.follow (.deploy url service .ok)).Covers url.path := by
  unfold Covers
  rw [follow_accepted]
  dsimp only
  rw [Keyed.find?_insert_self]
  rfl

theorem Directory.Covers.deployed (covers : d.Covers path) (url : Url) (service : Option Service) :
    (d.follow (.deploy url service .ok)).Covers path := by
  unfold Covers at *
  rw [follow_accepted]
  dsimp only
  rw [Keyed.find?_insert]
  split
  · rfl
  · exact covers

/-- Calculators that are all accepted are served at each of their paths, also where several of them
share one. -/
theorem Sweep.calculates (sweep : Sweep s plan codes h h') (calculates : h.Calculates s d)
    (calculators : ∀ entry ∈ plan, ∃ table, entry.2 = some (.methods table) ∧
      h.methods.get table = Calculator.methods) (accepted : ∀ code ∈ codes, code = .ok) :
    ∃ d', h'.Calculates s d' ∧ h.Steady s h' ∧ (∀ path, d.Covers path → d'.Covers path) ∧
      ∀ entry ∈ plan, d'.Covers (h.urls.get entry.1).path := by
  -- on the exports: the directory that is reached covers what was covered and one path more
  induction sweep generalizing d with
  | done h => exact ⟨d, calculates, Course.refl h, fun _ => id, by simp⟩
  | passed noted _ ih =>
    obtain ⟨d', after, steady, kept, covers⟩ := ih (calculates.asks noted.asks)
      (by rwa [noted.registering.methods]) accepted
    refine ⟨d', after, Course.trans noted.steady steady, kept, fun entry member => ?_⟩
    rw [← noted.registering.urls]
    exact covers entry member
  | @exported plan codes h mid h' u service code ends _ ih =>
    obtain ⟨first, calculators⟩ := List.forall_mem_cons.1 calculators
    obtain ⟨rfl, others⟩ := List.forall_mem_cons.1 accepted
    obtain ⟨table, rfl, calculator⟩ := first
    obtain ⟨_, yields, _, _, steady⟩ := exportService_completes u (some (.methods table))
      calculates.mirrors.coherent calculates.mirrors.plain.terminated
      calculates.mirrors.plain.civil
    obtain ⟨_, rfl⟩ := ends.unique yields
    obtain ⟨d', after, later, kept, covers⟩ := ih (calculates.exported calculator ends)
      (by rwa [steady.methods]) others
    refine ⟨d', after, Course.trans steady later, fun path there => ?_, ?_⟩
    · exact kept path (there.deployed _ _)
    · refine List.forall_mem_cons.2 ⟨kept _ (d.covers_deployed _ _), fun entry member => ?_⟩
      rw [← (steady.urls entry.1).path]
      exact covers entry member

theorem Host.Calculates.destroyed (calculates : h.Calculates s d)
    (order : Traversal ExporterRef) :
    ∃ h', (destroyServer order s).Yields h () h' ∧
      ∀ r, h'.DirectAt r → ∀ identity, h'.listsAt r identity = false := by
  obtain ⟨_, h', ends, _⟩ := destroyServer_succeeds (s := s) order calculates.mirrors.plain.civil
  have recorded := destroyServer_recorded calculates.mirrors.coherent calculates.stocked ends
  refine ⟨h', ends, fun r direct identity => ?_⟩
  obtain ⟨before, listed⟩ := recorded.listed r direct
  rw [listed]
  unfold Standing.stamps
  cases number : (h.registrations s identity).count r with
  | zero =>
    have absent : r ∉ h.registrations s identity := List.count_eq_zero.1 number
    exact Bool.eq_false_iff.2 fun lists => absent (calculates.tallied r before identity lists)
  | succ n => simp [List.getLastD_eq_getLast?, List.getLast?_replicate]

end RpcHost
