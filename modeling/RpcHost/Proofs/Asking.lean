import RpcHost.Proofs.Completion
import RpcHost.Proofs.Conversation
/-!
What answering a request leaves: requests, counts of calls and the log may differ, and routes
that backends take out. A table that no backend takes providers out of stays as it is.
-/
namespace RpcHost

open Attempt Host

variable {h h' : Host} {s : ServerRef} {t : TableRef} {x : ExtensionsRef} {p old : ProviderRef}
  {e : ExporterRef} {registries : List RegistryRef}

def Engine.Withdraws (t : TableRef) : Engine → Prop
  | scripted (.withdraw table) _ _ _ _ => table = t
  | _ => False

theorem Backend.withdraws_destroyed (b : Backend) (t : TableRef) :
    b.destroyed.engine.Withdraws t ↔ b.engine.Withdraws t := by
  unfold destroyed
  split
  · rename_i standard
    rw [standard]
    rfl
  · rfl

theorem Backend.withdraws_serving (b : Backend) (service : Option Service) (t : TableRef) :
    (b.serving service).engine.Withdraws t ↔ b.engine.Withdraws t := by
  unfold serving
  split
  · rename_i standard
    rw [standard]
    rfl
  · rfl
  · rename_i behaviour _ _ _ _ scripted
    rw [scripted]
    cases behaviour <;> rfl

/-- No backend takes providers out of the table, and no constructor makes one that does. -/
structure Host.Spares (h : Host) (x : ExtensionsRef) (t : TableRef) : Prop where
  backends : ∀ b, ¬(h.backends.get b).engine.Withdraws t
  makers : ∀ name maker, Extensions.usable (h.extensions.get x).providers name = some maker →
    ∀ u url b, maker.make u url = some b → ¬b.engine.Withdraws t

namespace Host.Spares

theorem of_makers (spares : h.Spares x t) (backends : ∀ b, ¬(h'.backends.get b).engine.Withdraws t)
    (makers : ∃ instances, h'.extensions.get x = { h.extensions.get x with instances }) :
    h'.Spares x t := by
  refine ⟨backends, ?_⟩
  obtain ⟨_, same⟩ := makers
  rw [same]
  exact spares.makers

theorem backendFor (spares : h.Spares x t) {u : UrlRef} {url : Url} {b : Backend}
    (found : (h.extensions.get x).backendFor u url = some b) : ¬b.engine.Withdraws t := by
  obtain ⟨maker, usable, makes⟩ := Option.bind_eq_some_iff.1 found
  exact spares.makers _ maker usable u url b makes

theorem prepared (spares : h.Spares x t) {u : UrlRef} {service : Option Service} {mid : Host}
    (prepared : h.Prepared x u service p mid) : mid.Spares x t := by
  refine ⟨fun b => ?_, ?_⟩
  · by_cases own : b = (mid.providers.get p).backend
    · obtain ⟨made, found, serves⟩ := prepared.backend
      rw [own, ← Host.backendOf, serves, Backend.withdraws_serving]
      exact spares.backendFor found
    · rw [prepared.others b own]
      exact spares.backends b
  · rw [prepared.grown.extensions]
    exact spares.makers

theorem retiring (spares : h.Spares x t) (p : ProviderRef) (b : BackendRef) :
    ¬((h.retiring p).get b).engine.Withdraws t := by
  unfold Host.retiring
  rw [Store.get_modify]
  split
  · rw [Backend.withdraws_destroyed]
    exact spares.backends _
  · exact spares.backends b

end Host.Spares

theorem Opening.backends {result : Except Fault Status}
    (opening : Opening h s t p (result, h')) : h'.backends = h.backends := by
  cases opening with
  | accepted routed names offered kept =>
    have registering := offer_registering offered.after_eq
    exact kept.registering.backends.trans
      (registering.backends.trans routed.registering.backends)
  | stopped routed names offered =>
    have registering := offer_registering (Fails.after_eq offered)
    exact registering.backends.trans routed.registering.backends
  | refused routed lacks unrouted =>
    exact unrouted.registering.backends.trans routed.registering.backends

theorem Restoration.backends {result : Except Fault Unit}
    (restoration : Restoration h s t p (result, h')) :
    h'.backends = h.backends ∨ h'.backends = h.retiring p := by
  cases restoration with
  | restored routed names offered kept =>
    have registering := offer_registering offered.after_eq
    exact Or.inl (kept.registering.backends.trans
      (registering.backends.trans routed.registering.backends))
  | stopped routed names offered =>
    have registering := offer_registering (Fails.after_eq offered)
    exact Or.inl (registering.backends.trans routed.registering.backends)
  | lost routed lacks dropped => exact Or.inr dropped.registering.backends

theorem Changeover.backends {result : Except Fault Status}
    (changeover : Changeover h s t e old registries p (result, h')) :
    h'.backends = h.backends ∨ h'.backends = h.retiring old := by
  cases changeover with
  | @stuck h₁ _ _ routed withdrew =>
    have leaves := unregisterAll_registering (Fails.after_eq withdrew)
    exact Or.inl (leaves.backends.trans routed.registering.backends)
  | accepted replaced names offered kept => exact Or.inr kept.registering.backends
  | stopped replaced names offered =>
    have registering := offer_registering (Fails.after_eq offered)
    exact Or.inl (registering.backends.trans replaced.backends)
  | @refused _ _ h₃ h₄ _ _ replaced lacks unrouted restoration =>
    have backends := replaced.backends_unrouted unrouted
    have same : h₄.retiring old = h.retiring old :=
      Host.retiring_congr backends (replaced.providers_unrouted unrouted) old
    rw [← same, ← backends]
    exact restoration.backends

theorem Deployed.spares {u : UrlRef} {service : Option Service} {result : Except Fault Status}
    (deployed : Deployed h s t u service (result, h')) (table : h.tableOf s = some t)
    (spares : h.Spares (h.servers.get s).extensions t) :
    h'.Spares (h.servers.get s).extensions t := by
  have makers := (deployed.steady table).makers (h.servers.get s).extensions
  refine spares.of_makers (fun b => ?_) makers
  cases deployed with
  | unmade _ noted =>
    rw [noted.registering.backends]
    exact spares.backends b
  | first _ prepared opening =>
    rw [opening.backends]
    exact (spares.prepared prepared).backends b
  | again _ prepared changeover =>
    rcases changeover.backends with same | same
    · rw [same]
      exact (spares.prepared prepared).backends b
    · rw [same]
      exact (spares.prepared prepared).retiring _ b

def Backend.quiet (b : Backend) : Backend :=
  match b.engine with
  | .standard _ => b
  | .scripted behaviour first _ _ service =>
    { b with engine := .scripted behaviour first 0 .null service }

theorem Backend.quiet_called {b : Backend} {behaviour : Behaviour} {first : UrlRef} {calls : Nat}
    {memory : Json} {service : Option Service}
    (engine : b.engine = .scripted behaviour first calls memory service)
    (calls' : Nat) (memory' : Json) :
    Backend.quiet { b with engine := .scripted behaviour first calls' memory' service } =
      b.quiet := by
  unfold quiet
  rw [engine]

theorem Backend.url_quiet (b : Backend) : b.quiet.url = b.url := by
  unfold quiet
  split <;> rfl

theorem Backend.available_quiet (b : Backend) : b.quiet.available = b.available := by
  unfold quiet
  split <;> rfl

theorem Backend.withdraws_quiet (b : Backend) (t : TableRef) :
    b.quiet.engine.Withdraws t ↔ b.engine.Withdraws t := by
  unfold quiet
  split
  · rfl
  · rename_i behaviour _ _ _ _ scripted
    rw [scripted]
    cases behaviour <;> rfl

/-- What answering requests leaves, seen from the table `t`. -/
structure Host.Asked (t : TableRef) (h h' : Host) : Prop where
  rest : h.Called h'
  next : h'.backends.next = h.backends.next
  backends : ∀ b, (h'.backends.get b).quiet = (h.backends.get b).quiet
  table : h'.tables.get t = h.tables.get t

namespace Host.Asked

theorem refl (h : Host) : h.Asked t h := ⟨.refl h, rfl, fun _ => rfl, rfl⟩

variable (asked : h.Asked t h')

include asked

theorem noted {h'' : Host} (noted : h'.Noted h'') : h.Asked t h'' := by
  refine ⟨asked.rest.noted noted, ?_, ?_, ?_⟩
  · rw [noted.registering.backends]
    exact asked.next
  · rw [noted.registering.backends]
    exact asked.backends
  · rw [noted.registering.tables]
    exact asked.table

theorem withRequests (requests : Store .request Request) :
    h.Asked t { h' with requests } :=
  ⟨asked.rest.withRequests requests, asked.next, asked.backends, asked.table⟩

theorem withTables (tables : Store .table Routes) (table : tables.get t = h'.tables.get t) :
    h.Asked t { h' with tables } :=
  ⟨asked.rest.withTables tables, asked.next, asked.backends, table.trans asked.table⟩

theorem called {b : BackendRef} {behaviour : Behaviour} {first : UrlRef} {calls : Nat}
    {memory : Json} {service : Option Service}
    (engine : (h'.backends.get b).engine = .scripted behaviour first calls memory service)
    (calls' : Nat) (memory' : Json) :
    h.Asked t { h' with backends := h'.backends.modify b fun backend =>
      { backend with engine := .scripted behaviour first calls' memory' service } } := by
  refine ⟨asked.rest.withBackends _, asked.next, fun other => ?_, asked.table⟩
  show (Backend.quiet ((Store.modify _ _ _).get other)) = _
  rw [Store.get_modify, ← asked.backends other]
  split
  · rename_i here
    rw [here]
    exact Backend.quiet_called engine calls' memory'
  · rfl

end Host.Asked

theorem Host.Spares.lasting (spares : h.Spares x t) : Lasting (h.Asked t) (· ≠ t) where
  noted asked noted := asked.noted noted
  requested asked := asked.withRequests _
  called asked engine := asked.called engine
  withdrawing {_ y _ _ _ _ _} asked engine same := by
    apply spares.backends y
    rw [← Backend.withdraws_quiet, ← asked.backends, Backend.withdraws_quiet, engine]
    exact same
  erased asked differ path := asked.withTables _ (Store.get_modify_ne _ (Ne.symm differ) _)

theorem handle_asked (q : Option RequestRef) (spares : h.Spares x t) :
    h.Asked t ((handle s q).after h) := by
  have alike := spares.lasting.observing.handle_alike (s := s) rfl rfl q
    ⟨Course.refl h, .refl h⟩
  exact alike.2.2

end RpcHost
