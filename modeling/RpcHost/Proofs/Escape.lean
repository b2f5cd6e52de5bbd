import RpcHost.Proofs.Ledger
/-!
What a fault leaves that stops the export of a service. Only a refused export is rolled back:
a fault leaves the new provider routed, or the old one routed again without its export.
-/
namespace RpcHost

open Attempt Host

variable {h h' : Host} {s : ServerRef} {t : TableRef} {u : UrlRef} {service : Option Service}
  {p old : ProviderRef} {e : ExporterRef} {registries : List RegistryRef} {fault : Fault}

theorem Host.astray_of_withdrawn {path : String} (kept : h'.exporterAt s path = some e)
    (exporter : h'.exporters.get e = withdrawn (h.exporterOf s old registries))
    (available : (h'.backendOf old).available = true) :
    h'.exporterAt s path = some e ∧ (h'.exporters.get e).provider = some old ∧
      (h'.backendOf old).available = true ∧
      ¬(h'.routeAt s path = some old ∧ (h'.exporters.get e).exported = true) := by
  refine ⟨kept, ?_, available, fun both => ?_⟩
  · rw [exporter]
    rfl
  · have exported := both.2
    rw [exporter] at exported
    cases exported

namespace Changeover

theorem astray (changeover : Changeover h s t e old registries p (.error fault, h'))
    (table : h.tableOf s = some t) (differ : p ≠ old)
    (serves : h.Serves s (h.pathOf p) e old registries) :
    h'.exporterAt s (h.pathOf p) = some e ∧ (h'.exporters.get e).provider = some old ∧
      (h'.backendOf old).available = true ∧
      ¬(h'.routeAt s (h.pathOf p) = some old ∧ (h'.exporters.get e).exported = true) := by
  have elsewhere : some p ≠ some old := fun same => differ (Option.some.inj same)
  generalize ends : (Except.error fault : Except Fault Status) = result at changeover
  cases changeover with
  | @stuck h₁ _ _ routed withdrew =>
    -- the exporter still exports, but the path is routed to the new provider
    have registering := unregisterAll_registering (Fails.after_eq withdrew)
    have route : h₁.routeAt s (h.pathOf p) = some p :=
      (routed.registering.routeAt s _).trans (routeAt_routing table p)
    have exporter : h'.exporters.get e = h.exporterOf s old registries := by
      rw [registering.exporters, routed.registering.exporters]
      exact serves.exporter
    refine ⟨?_, ?_, ?_, fun both => elsewhere ?_⟩
    · rw [registering.exporterAt, routed.registering.exporterAt]
      exact serves.kept
    · rw [exporter]
      rfl
    · rw [registering.backendOf, routed.registering.backendOf]
      exact serves.available
    · rw [← both.1, registering.routeAt, route]
  | accepted => cases ends
  | @stopped h₁ h₂ h₃ _ _ replaced names offered =>
    -- the old exporter has been taken back
    have registering := offer_registering (Fails.after_eq offered)
    have exporter : h'.exporters.get e = withdrawn (h.exporterOf s old registries) := by
      rw [registering.exporters]
      exact replaced.exporter_added serves.known serves.exporter _
    refine astray_of_withdrawn ?_ exporter ?_
    · rw [registering.exporterAt]
      exact (replaced.exporterAt s _).trans serves.kept
    · rw [registering.backendOf]
      exact (congrArg Backend.available (replaced.backendOf old)).trans serves.available
  | @refused h₁ h₂ h₃ h₄ _ result replaced lacks unrouted restoration =>
    cases result with
    | ok done => cases ends
    | error fault =>
      -- putting the old provider back fails half-way, under an exporter that was taken back
      have path := (replaced.pathOf_unrouted unrouted old).trans serves.located
      obtain ⟨_, kept, backends, providers, exporters⟩ :=
        restoration.astray ((replaced.tableOf_unrouted unrouted s).trans table)
      have known : h₄.exporters.Allocated e :=
        serves.known.mono (replaced.exporters_unrouted unrouted)
      have own : h'.backendOf old = h₄.backendOf old := by
        unfold Host.backendOf
        rw [backends, providers]
      refine astray_of_withdrawn ?_ ((exporters e known).trans
        (replaced.exporter_unrouted unrouted serves.known serves.exporter)) ?_
      · rw [path] at kept
        rw [kept, unrouted.registering.exporterAt]
        exact (replaced.exporterAt s _).trans serves.kept
      · rw [own, replaced.backendOf_unrouted unrouted]
        exact serves.available

end Changeover

/-- Wherever a fault stops an export, a path that was not served is routed all the same, and
one that was served has its old exporter and provider, but not both route and export. -/
theorem exportService_astray (coherent : h.Coherent s) (terminated : h.Terminated)
    (fails : (exportService s u service).Fails h fault h') :
    (h.exporterAt s (h.urls.get u).path = none ∧
      h'.exporterAt s (h.urls.get u).path = none ∧
      ∃ p, h'.routeAt s (h.urls.get u).path = some p ∧ ¬h.providers.Allocated p) ∨
    ∃ e p, h.exporterAt s (h.urls.get u).path = some e ∧
      h.routeAt s (h.urls.get u).path = some p ∧ (h.exporters.get e).provider = some p ∧
      h'.exporterAt s (h.urls.get u).path = some e ∧ (h'.exporters.get e).provider = some p ∧
      (h'.backendOf p).available = true ∧
      ¬(h'.routeAt s (h.urls.get u).path = some p ∧ (h'.exporters.get e).exported = true) := by
  obtain ⟨t, table⟩ := coherent.table
  have deployed := exportService_deployed u service terminated table
    (coherent.state (h.urls.get u).path)
  rw [fails] at deployed
  cases deployed with
  | first unserved prepared opening =>
    have path := prepared.pathOf
    have table' := (prepared.grown.tableOf s).trans table
    rw [← path] at unserved ⊢
    obtain ⟨kept, route⟩ := opening.astray table' (by rw [prepared.grown.exporterAt, unserved])
    exact Or.inl ⟨unserved, kept, _, route, prepared.new⟩
  | @again mid _ p old e registries _ serves prepared changeover =>
    have path := prepared.pathOf
    have table' := (prepared.grown.tableOf s).trans table
    have there := prepared.grown.serves serves
    rw [← path] at serves there ⊢
    refine Or.inr ⟨e, old, serves.kept, serves.route, ?_, ?_⟩
    · rw [serves.exporter]
      rfl
    · exact changeover.astray table' (prepared.ne_made serves.made) there

namespace Host

def failing : Host :=
  furnished { Extensions.builtIn with
      registries := .ofList [(Registry.directName, some ⟨none, .direct⟩),
        ("closed", some ⟨none, .failing (.crash "no registry today")⟩)] }
    (.ofList [("main", ⟨0⟩), ("spare", ⟨1⟩)])
    [⟨"direct", "127.0.0.1", 9000, "", "", .empty⟩, ⟨"closed", "127.0.0.1", 9001, "", "", .empty⟩,
      ⟨"local", "127.0.0.1", 8000, "", "", .empty⟩, .sample,
      Url.sample.putParam Url.registryKey "spare"]

def halfway : Host :=
  (exportService ⟨0⟩ ⟨3⟩ (some (.methods ⟨0⟩))).after ((newServer ⟨0⟩ ⟨0⟩ ⟨2⟩).after failing)

theorem coherent_halfway : halfway.Coherent ⟨0⟩ ∧ halfway.Terminated := by
  have opened : ((newServer ⟨0⟩ ⟨0⟩ ⟨2⟩).after failing).Coherent ⟨0⟩ :=
    newServer_coherent ⟨0⟩ ⟨0⟩ ⟨2⟩ failing
  have terminated : ((newServer ⟨0⟩ ⟨0⟩ ⟨2⟩).after failing).Terminated := ⟨Nat.zero_lt_one, rfl⟩
  refine ⟨exportService_coherent opened terminated (yields_of_toOption (a := .ok) ?_),
    (exportService_steady _ _ opened terminated).terminated terminated⟩
  decide +kernel

theorem fails_halfway : ∃ fault, (exportService ⟨0⟩ ⟨4⟩ (some (.methods ⟨0⟩))).Fails halfway fault
    ((exportService ⟨0⟩ ⟨4⟩ (some (.methods ⟨0⟩))).after halfway) :=
  fails_of_toOption (by decide +kernel)

end Host

theorem exportService_astray_halfway : ∃ fault h' e p,
    (exportService ⟨0⟩ ⟨4⟩ (some (.methods ⟨0⟩))).Fails halfway fault h' ∧
      halfway.routeAt ⟨0⟩ "calculator" = some p ∧ h'.exporterAt ⟨0⟩ "calculator" = some e ∧
      ¬(h'.routeAt ⟨0⟩ "calculator" = some p ∧ (h'.exporters.get e).exported = true) := by
  obtain ⟨fault, fails⟩ := Host.fails_halfway
  have path : (halfway.urls.get ⟨4⟩).path = "calculator" := by decide +kernel
  have served : halfway.exporterAt ⟨0⟩ "calculator" ≠ none := by decide +kernel
  have astray := exportService_astray Host.coherent_halfway.1 Host.coherent_halfway.2 fails
  rw [path] at astray
  rcases astray with ⟨unserved, _⟩ | ⟨e, p, _, route, _, kept, _, _, lost⟩
  · exact absurd unserved served
  · exact ⟨fault, _, e, p, fails, route, kept, lost⟩

/-- The registry constructor fails when the new address is offered. The route then leads to the
new provider, and what was exported and registered before is so no more. -/
theorem redeploy_not_atomic : ∃ fault h' p,
    (exportService ⟨0⟩ ⟨4⟩ (some (.methods ⟨0⟩))).Fails halfway fault h' ∧
      halfway.exporterAt ⟨0⟩ "calculator" = some ⟨0⟩ ∧
      halfway.routeAt ⟨0⟩ "calculator" = some p ∧
      (halfway.exporters.get ⟨0⟩).exported = true ∧
      (halfway.registries.get ⟨0⟩).lists Url.sample.identity = true ∧
      h'.routeAt ⟨0⟩ "calculator" ≠ some p ∧ (h'.exporters.get ⟨0⟩).exported = false ∧
      (h'.registries.get ⟨0⟩).lists Url.sample.identity = false := by
  obtain ⟨fault, fails⟩ := Host.fails_halfway
  refine ⟨fault, _, ⟨1⟩, fails, ?_, ?_, ?_, ?_, ?_, ?_, ?_⟩ <;> decide +kernel

end RpcHost
