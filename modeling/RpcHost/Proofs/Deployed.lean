import RpcHost.Proofs.Elsewhere
/-!
What the path of a deployment comes to: the new provider is served, or the old one again, or
none, or a fault leaves the path astray.
-/
namespace RpcHost

open Attempt Host

variable {h h' : Host} {s : ServerRef} {t : TableRef} {path : String}

theorem Host.routeAt_routing (table : h.tableOf s = some t) (p : ProviderRef) :
    (h.routing t p).routeAt s (h.pathOf p) = some p := by
  rw [routeAt_of_table (h := h.routing t p) table]
  show ((h.tables.modify t _).get t).find? _ = _
  rw [Store.get_modify_self, Keyed.find?_insert_self]

theorem serves_routed {h₁ h₂ : Host} {p : ProviderRef} {registries : List RegistryRef}
    (table : h.tableOf s = some t) (routed : (h.routing t p).Noted h₁)
    (offered : (offer h₁ s p).after (h₁.offering s p) = h₂)
    (kept : Host.Noted { h₂ with
      exporters := h₁.exporting s p registries
      servers := h.keeping s (h.pathOf p) h.exporters.fresh } h')
    (made : h.providers.Allocated p) (backed : h.backends.Allocated (h.providers.get p).backend)
    (available : (h.backendOf p).available = true) :
    h'.Serves s (h.pathOf p) h.exporters.fresh p registries := by
  have registering := offer_registering offered
  have fresh := fresh_routed routed
  have providers : h₁.providers = h.providers := routed.registering.providers
  have backends : h₂.backends = h.backends :=
    registering.backends.trans routed.registering.backends
  have own : h₁.backendOf p = h.backendOf p := routed.registering.backendOf p
  rw [← fresh] at kept ⊢
  refine serves_of_kept registering kept ?_ ?_ ?_ ?_ ?_ ?_ ?_ ?_
  · rw [routed.registering.servers]
    exact ⟨_, h.get_keeping s _ _⟩
  · exact h.find?_keeping s _ _
  · rw [providers]
    exact made
  · rw [providers, backends]
    exact backed
  · rw [providers, backends, own]
    rfl
  · rw [own]
    exact available
  · exact routed.registering.pathOf p
  · exact (routed.registering.routeAt s _).trans (routeAt_routing table p)

theorem Host.Elsewhere.kept {h₁ h₂ start : Host} {p : ProviderRef} {registries : List RegistryRef}
    {e : Option ExporterRef} {b : Option BackendRef} (before : Elsewhere s path e b start h)
    (table : h.tableOf s = some t) (located : h.pathOf p = path)
    (routed : (h.routing t p).Noted h₁)
    (offered : (offer h₁ s p).Yields (h₁.offering s p) registries h₂)
    (kept : Host.Noted { h₂ with
      exporters := h₁.exporting s p registries
      servers := h.keeping s (h.pathOf p) h.exporters.fresh } h') :
    Elsewhere s path e b start h' := by
  have apart := before.routed table located routed
  obtain ⟨grown, added⟩ := apart.exporter_added _
  obtain ⟨server, others⟩ := before.keeping h.exporters.fresh
  rw [located] at kept
  exact (((apart.offered offered.after_eq).withExporters _ grown added).withServers _ server
    others).noted kept

namespace Opening

variable {p : ProviderRef} {result : Except Fault Status} {e : Option ExporterRef}
  {b : Option BackendRef} {start : Host}

theorem elsewhere (opening : Opening h s t p (result, h'))
    (before : Elsewhere s path e b start h) (table : h.tableOf s = some t)
    (located : h.pathOf p = path) : Elsewhere s path e b start h' := by
  cases opening with
  | accepted routed _ offered kept => exact before.kept table located routed offered kept
  | stopped routed names offered =>
    exact (before.routed table located routed).offered (Fails.after_eq offered)
  | refused routed lacks unrouted =>
    have apart := before.routed table located routed
    have table₁ := (routed.registering.tableOf s).trans table
    have located₁ := (routed.registering.pathOf p).trans located
    exact ((apart.opened p).withTables _ (apart.routes_without table₁ located₁)).noted unrouted

theorem serves (opening : Opening h s t p (.ok .ok, h')) (table : h.tableOf s = some t)
    (made : h.providers.Allocated p) (backed : h.backends.Allocated (h.providers.get p).backend)
    (available : (h.backendOf p).available = true) :
    ∃ registries, h'.Serves s (h.pathOf p) h.exporters.fresh p registries := by
  cases opening with
  | accepted routed names offered kept =>
    exact ⟨_, serves_routed table routed offered.after_eq kept made backed available⟩

theorem unserved {status : Status} (opening : Opening h s t p (.ok status, h'))
    (refused : status ≠ .ok) (table : h.tableOf s = some t)
    (unserved : h.exporterAt s (h.pathOf p) = none) :
    status = .registryNotFound ∧ h'.exporterAt s (h.pathOf p) = none ∧
      h'.routeAt s (h.pathOf p) = none := by
  cases opening with
  | accepted => exact absurd rfl refused
  | @refused h₁ _ routed lacks unrouted =>
    refine ⟨rfl, ?_, ?_⟩
    · rw [unrouted.registering.exporterAt, ← unserved]
      exact routed.registering.exporterAt s _
    · have table₁ : h₁.tableOf s = some t := (routed.registering.tableOf s).trans table
      have path : h₁.pathOf p = h.pathOf p := routed.registering.pathOf p
      have table' : h'.tableOf s = some t := (unrouted.registering.tableOf s).trans table₁
      rw [routeAt_of_table table', unrouted.registering.tables, ← path]
      refine h₁.find?_tablesWithout_self ?_
      rw [path, ← routeAt_of_table table₁]
      exact (routed.registering.routeAt s _).trans (routeAt_routing table p)

theorem astray {fault : Fault} (opening : Opening h s t p (.error fault, h'))
    (table : h.tableOf s = some t) (unserved : h.exporterAt s (h.pathOf p) = none) :
    h'.exporterAt s (h.pathOf p) = none ∧ h'.routeAt s (h.pathOf p) = some p := by
  cases opening with
  | @stopped h₁ _ _ routed names offered =>
    have registering := offer_registering (Fails.after_eq offered)
    refine ⟨?_, ?_⟩
    · rw [registering.exporterAt, ← unserved]
      exact routed.registering.exporterAt s _
    · rw [registering.routeAt]
      exact (routed.registering.routeAt s _).trans (routeAt_routing table p)

end Opening

theorem available_retiring (h : Host) (p : ProviderRef) :
    ((h.retiring p).get (h.providers.get p).backend).available = false := by
  unfold Host.retiring
  rw [Store.get_modify_self]
  unfold Backend.destroyed
  split <;> rfl

namespace Restoration

variable {p : ProviderRef} {result : Except Fault Unit} {e : Option ExporterRef}
  {b : Option BackendRef} {start : Host}

theorem elsewhere (restoration : Restoration h s t p (result, h'))
    (before : Elsewhere s path e b start h) (table : h.tableOf s = some t)
    (located : h.pathOf p = path) (backing : b = some (h.providers.get p).backend) :
    Elsewhere s path e b start h' := by
  cases restoration with
  | restored routed _ offered kept => exact before.kept table located routed offered kept
  | stopped routed names offered =>
    exact (before.routed table located routed).offered (Fails.after_eq offered)
  | lost routed lacks dropped =>
    have apart := before.routed table located routed
    have table₁ := (routed.registering.tableOf s).trans table
    have located₁ := (routed.registering.pathOf p).trans located
    obtain ⟨grown, retired⟩ := before.retiring backing
    obtain ⟨server, others⟩ := before.dropping
    rw [located] at dropped
    exact ((((apart.opened p).withTables _ (apart.routes_without table₁ located₁)).withBackends _
      grown retired).withServers _ server others).noted dropped

theorem serves (restoration : Restoration h s t p (.ok (), h')) (table : h.tableOf s = some t)
    (names : h.namesRegistries p = true) (made : h.providers.Allocated p)
    (backed : h.backends.Allocated (h.providers.get p).backend)
    (available : (h.backendOf p).available = true) :
    ∃ registries, h'.Serves s (h.pathOf p) h.exporters.fresh p registries := by
  cases restoration with
  | restored routed _ offered kept =>
    exact ⟨_, serves_routed table routed offered.after_eq kept made backed available⟩
  | lost _ lacks _ =>
    rw [names] at lacks
    cases lacks

theorem unserved (restoration : Restoration h s t p (.ok (), h')) (table : h.tableOf s = some t)
    (lacks : h.namesRegistries p = false) :
    h'.exporterAt s (h.pathOf p) = none ∧ h'.routeAt s (h.pathOf p) = none ∧
      (h'.backendOf p).available = false := by
  cases restoration with
  | restored _ names _ _ =>
    rw [lacks] at names
    cases names
  | @lost h₁ _ routed _ dropped =>
    have table₁ : h₁.tableOf s = some t := (routed.registering.tableOf s).trans table
    have path : h₁.pathOf p = h.pathOf p := routed.registering.pathOf p
    have table' : h'.tableOf s = some t := by
      unfold Host.tableOf at table₁ ⊢
      rw [dropped.registering.endpoints, dropped.registering.servers]
      show (h₁.endpoints.get ((h.dropping s (h.pathOf p)).get s).endpoint).table = some t
      rw [endpoint_dropping]
      rw [routed.registering.servers] at table₁
      exact table₁
    refine ⟨?_, ?_, ?_⟩
    · unfold Host.exporterAt
      rw [dropped.registering.servers]
      exact h.find?_dropping s _
    · rw [routeAt_of_table table', dropped.registering.tables, ← path]
      refine h₁.find?_tablesWithout_self ?_
      rw [path, ← routeAt_of_table table₁]
      exact (routed.registering.routeAt s _).trans (routeAt_routing table p)
    · unfold Host.backendOf
      rw [dropped.registering.backends, dropped.registering.providers]
      show ((h.retiring p).get (h₁.providers.get p).backend).available = false
      rw [routed.registering.providers]
      exact available_retiring h p

theorem astray {fault : Fault} (restoration : Restoration h s t p (.error fault, h'))
    (table : h.tableOf s = some t) :
    h'.routeAt s (h.pathOf p) = some p ∧ h'.exporterAt s (h.pathOf p) =
      h.exporterAt s (h.pathOf p) ∧ h'.backends = h.backends ∧ h'.providers = h.providers ∧
      ∀ e, h.exporters.Allocated e → h'.exporters.get e = h.exporters.get e := by
  cases restoration with
  | @stopped h₁ _ _ routed names offered =>
    have registering := offer_registering (Fails.after_eq offered)
    refine ⟨?_, ?_, ?_, ?_, fun e known => ?_⟩
    · rw [registering.routeAt]
      exact (routed.registering.routeAt s _).trans (routeAt_routing table p)
    · rw [registering.exporterAt]
      exact routed.registering.exporterAt s _
    · exact registering.backends.trans routed.registering.backends
    · exact registering.providers.trans routed.registering.providers
    · rw [registering.exporters]
      have same : h₁.exporters = h.exporters := routed.registering.exporters
      show (h₁.exporters.add _).get e = _
      rw [same, Store.get_add_ne _ known.ne_fresh]

end Restoration

variable {p old : ProviderRef} {e : ExporterRef} {registries : List RegistryRef} {start : Host}
  {b : Option BackendRef}

theorem Superseding.elsewhere {h₁ h₂ h₃ : Host}
    (replaced : Superseding h t e old registries p h₁ h₂ h₃)
    (before : Elsewhere s path (some e) b start h) (table : h.tableOf s = some t)
    (located : h.pathOf p = path) : Elsewhere s path (some e) b start h₃ := by
  have apart := (before.routed table located replaced.routed).registering replaced.registering
  refine (apart.withExporters (h.exporters.modify e withdrawn) before.exporters
    fun other known differ => ?_).noted replaced.unexported
  rw [Store.get_modify_ne _ fun same => differ (by rw [same])]
  exact before.exporter other known differ

theorem Superseding.namesRegistries_unrouted {h₁ h₂ h₃ h₄ : Host}
    (replaced : Superseding h t e old registries p h₁ h₂ h₃)
    (unrouted : Host.Noted { h₃.opening p with tables := h₁.tablesWithout t p } h₄)
    (q : ProviderRef) : h₄.namesRegistries q = h.namesRegistries q := by
  rw [← replaced.namesRegistries, ← namesRegistries_opening h₃ p]
  unfold Host.namesRegistries
  rw [unrouted.registering.urls, unrouted.registering.addressOf]
  rfl

namespace Changeover

variable {result : Except Fault Status}

theorem elsewhere (changeover : Changeover h s t e old registries p (result, h'))
    (before : Elsewhere s path (some e) b start h) (table : h.tableOf s = some t)
    (located : h.pathOf p = path) (same : h.pathOf old = path)
    (backing : b = some (h.providers.get old).backend) :
    Elsewhere s path (some e) b start h' := by
  cases changeover with
  | @stuck h₁ _ _ routed withdrew =>
    have apart := before.routed table located routed
    exact apart.registering (unregisterAll_registering (Fails.after_eq withdrew))
  | accepted replaced names offered kept =>
    have apart := replaced.elsewhere before table located
    obtain ⟨grown, added⟩ := apart.exporter_added _
    obtain ⟨more, retired⟩ := before.retiring backing
    obtain ⟨server, others⟩ := before.keeping h.exporters.fresh
    rw [located] at kept
    exact ((((apart.offered offered.after_eq).withExporters _ grown added).withBackends _ more
      retired).withServers _ server others).noted kept
  | stopped replaced names offered =>
    exact (replaced.elsewhere before table located).offered (Fails.after_eq offered)
  | @refused h₁ h₂ h₃ h₄ _ _ replaced lacks unrouted restoration =>
    have apart := before.routed table located replaced.routed
    have table₁ := (replaced.routed.registering.tableOf s).trans table
    have located₁ := (replaced.routed.registering.pathOf p).trans located
    have cleared : Elsewhere s path (some e) b start h₄ :=
      (((replaced.elsewhere before table located).opened p).withTables _
        (apart.routes_without table₁ located₁)).noted unrouted
    refine restoration.elsewhere cleared ((replaced.tableOf_unrouted unrouted s).trans table)
      ((replaced.pathOf_unrouted unrouted old).trans same) ?_
    rw [backing, replaced.providers_unrouted unrouted]

theorem serves (changeover : Changeover h s t e old registries p (.ok .ok, h'))
    (table : h.tableOf s = some t) (made : h.providers.Allocated p)
    (backed : h.backends.Allocated (h.providers.get p).backend)
    (available : (h.backendOf p).available = true)
    (differ : (h.providers.get p).backend ≠ (h.providers.get old).backend) :
    (∃ accepting, h'.Serves s (h.pathOf p) h.exporters.fresh p accepting) ∧
      (h'.backendOf old).available = false := by
  obtain ⟨h₁, h₂, h₃, h₄, accepting, replaced, names, offered, kept⟩ := changeover.accepted_cases
  have registering := offer_registering offered.after_eq
  have own := replaced.backendOf p
  constructor
  · refine ⟨accepting, ?_⟩
    rw [← replaced.fresh] at kept ⊢
    refine serves_of_kept registering kept ?_ ?_ ?_ ?_ ?_ ?_ ?_ ?_
    · rw [replaced.servers]
      exact ⟨_, h.get_keeping s _ _⟩
    · exact h.find?_keeping s _ _
    · rw [replaced.providers]
      exact made
    · rw [replaced.providers]
      exact backed
    · rw [replaced.providers, own]
      exact Host.get_retiring_ne _ differ
    · rw [own]
      exact available
    · exact replaced.pathOf p
    · have table₃ : h₃.tableOf s = some t := (replaced.tableOf s).trans table
      rw [routeAt_of_table table₃, replaced.tables, replaced.routed.registering.tables]
      rw [← routeAt_of_table (h := h.routing t p) table]
      exact routeAt_routing table p
  · unfold Host.backendOf
    rw [kept.registering.backends, kept.registering.providers]
    show ((h.retiring old).get (h₄.providers.get old).backend).available = false
    rw [registering.providers]
    show ((h.retiring old).get (h₃.providers.get old).backend).available = false
    rw [replaced.providers]
    exact available_retiring h old

/-- A refused provider is gone; the old one is served again, or lost with its registries. -/
theorem refusal {status : Status}
    (changeover : Changeover h s t e old registries p (.ok status, h')) (refused : status ≠ .ok)
    (table : h.tableOf s = some t) (same : h.pathOf old = h.pathOf p)
    (made : h.providers.Allocated old)
    (backed : h.backends.Allocated (h.providers.get old).backend)
    (available : (h.backendOf old).available = true) :
    status = .registryNotFound ∧
      if h.namesRegistries old then
        ∃ e' accepting, h'.Serves s (h.pathOf p) e' old accepting
      else h'.exporterAt s (h.pathOf p) = none ∧ h'.routeAt s (h.pathOf p) = none ∧
        (h'.backendOf old).available = false := by
  obtain ⟨rfl, h₁, h₂, h₃, h₄, replaced, lacks, unrouted, restoration⟩ :=
    changeover.refused_cases refused
  refine ⟨rfl, ?_⟩
  have providers := replaced.providers_unrouted unrouted
  have backends := replaced.backends_unrouted unrouted
  have own := replaced.backendOf_unrouted unrouted old
  have table₄ := (replaced.tableOf_unrouted unrouted s).trans table
  have path := (replaced.pathOf_unrouted unrouted old).trans same
  rw [← path, ← replaced.namesRegistries_unrouted unrouted]
  split
  · rename_i names
    have serves := restoration.serves table₄ names (by rwa [providers])
      (by rwa [providers, backends]) (by rwa [own])
    obtain ⟨accepting, serves⟩ := serves
    exact ⟨_, accepting, serves⟩
  · rename_i lacks
    exact restoration.unserved table₄ (by simpa using lacks)

end Changeover

theorem Host.Holds.frame (holds : h.Holds s path e p registries)
    (exporters : h.exporters.next ≤ h'.exporters.next)
    (exporter : h'.exporters.get e = h.exporters.get e)
    (endpoint : (h'.servers.get s).endpoint = (h.servers.get s).endpoint)
    (providers : h.providers.next ≤ h'.providers.next)
    (provider : h'.providers.get p = h.providers.get p)
    (backends : h.backends.next ≤ h'.backends.next)
    (url : (h'.backendOf p).url = (h.backendOf p).url)
    (available : (h'.backendOf p).available = (h.backendOf p).available)
    (located : (h'.urls.get (h.addressOf p)).path = (h.urls.get (h.addressOf p)).path)
    (route : h'.routeAt s path = h.routeAt s path) : h'.Holds s path e p registries where
  known := holds.known.mono exporters
  exporter := by
    rw [exporter, holds.exporter]
    unfold exporterOf Host.addressOf
    rw [url, endpoint]
  made := holds.made.mono providers
  backed := by
    rw [provider]
    exact holds.backed.mono backends
  available := by rw [available, holds.available]
  located := by
    rw [← holds.located]
    unfold Host.pathOf Host.addressOf at *
    rw [url, located]
  route := by rw [route, holds.route]

theorem Host.Holds.elsewhere {other : String} {excepted : Option ExporterRef}
    (holds : h.Holds s other e p registries) (apart : Elsewhere s path excepted b h h')
    (differ : other ≠ path) (exporter : excepted ≠ some e)
    (backend : b ≠ some (h.providers.get p).backend) : h'.Holds s other e p registries := by
  obtain ⟨_, server⟩ := apart.server
  have provider := apart.providers.get p holds.made
  have own : h'.backendOf p = h.backendOf p := by
    unfold Host.backendOf
    rw [provider, apart.backend _ holds.backed backend]
  exact holds.frame apart.exporters (apart.exporter e holds.known exporter) (by rw [server])
    apart.providers.next provider apart.backends (by rw [own]) (by rw [own])
    (apart.urls _).path (apart.routeAt differ)

namespace Host.Grown

variable (grown : h.Grown h')

include grown

theorem elsewhere (s : ServerRef) (path : String) (e : Option ExporterRef)
    (b : Option BackendRef) : Elsewhere s path e b h h' := by
  have providers := grown.providers
  have backends := grown.backends
  have filters := grown.filters
  obtain ⟨_, _, _, _, _, _, rfl⟩ := grown.rest
  exact { (Elsewhere.refl h : Elsewhere s path e b h h) with
    providers, filters, backends := backends.next, backend := fun other known _ =>
      backends.get other known }

theorem exporterAt (s : ServerRef) (path : String) :
    h'.exporterAt s path = h.exporterAt s path := by
  unfold Host.exporterAt
  rw [grown.servers]

theorem tableOf (s : ServerRef) : h'.tableOf s = h.tableOf s := by
  unfold Host.tableOf
  rw [grown.servers, grown.endpoints]

theorem routeAt (s : ServerRef) (path : String) : h'.routeAt s path = h.routeAt s path := by
  unfold Host.routeAt
  rw [grown.tableOf, grown.tables]

theorem backendOf {p : ProviderRef} (made : h.providers.Allocated p)
    (backed : h.backends.Allocated (h.providers.get p).backend) :
    h'.backendOf p = h.backendOf p := by
  unfold Host.backendOf
  rw [grown.providers.get p made, grown.backends.get _ backed]

theorem addressOf {p : ProviderRef} (made : h.providers.Allocated p)
    (backed : h.backends.Allocated (h.providers.get p).backend) :
    h'.addressOf p = h.addressOf p := by
  unfold Host.addressOf
  rw [grown.backendOf made backed]

theorem serves (serves : h.Serves s path e p registries) : h'.Serves s path e p registries := by
  have own := grown.backendOf serves.made serves.backed
  refine ⟨serves.toHolds.frame ?_ ?_ ?_ grown.providers.next (grown.providers.get p serves.made)
    grown.backends.next ?_ ?_ ?_ (grown.routeAt s path), ?_⟩
  · exact Nat.le_of_eq (by rw [grown.exporters])
  · rw [grown.exporters]
  · rw [grown.servers]
  · rw [own]
  · rw [own]
  · rw [grown.urls]
  · rw [grown.exporterAt]
    exact serves.kept

end Host.Grown

/-- How exporting a service ends on a path that is not served, or served as it should be. -/
inductive Deployed (h : Host) (s : ServerRef) (t : TableRef) (u : UrlRef)
    (service : Option Service) : Except Fault Status × Host → Prop
  | unmade {h' : Host}
    (none : (h.extensions.get (h.servers.get s).extensions).backendFor u (h.urls.get u) = none)
    (noted : h.Noted h') : Deployed h s t u service (.ok .noProvider, h')
  | first {mid h' : Host} {p : ProviderRef} {result : Except Fault Status}
    (unserved : h.exporterAt s (h.urls.get u).path = none)
    (prepared : h.Prepared (h.servers.get s).extensions u service p mid)
    (opening : Opening mid s t p (result, h')) : Deployed h s t u service (result, h')
  | again {mid h' : Host} {p old : ProviderRef} {e : ExporterRef}
    {registries : List RegistryRef} {result : Except Fault Status}
    (serves : h.Serves s (h.urls.get u).path e old registries)
    (prepared : h.Prepared (h.servers.get s).extensions u service p mid)
    (changeover : Changeover mid s t e old registries p (result, h')) :
    Deployed h s t u service (result, h')

namespace Host.Prepared

variable {x : ExtensionsRef} {u : UrlRef} {service : Option Service} {mid : Host}
  (prepared : h.Prepared x u service p mid)

include prepared

theorem pathOf : mid.pathOf p = (h.urls.get u).path := by
  unfold Host.pathOf
  rw [prepared.addressOf.1, prepared.grown.urls]

theorem ne_made (made : h.providers.Allocated old) : p ≠ old := by
  rintro rfl
  exact prepared.new made

theorem backend_ne (made : h.providers.Allocated old)
    (backed : h.backends.Allocated (h.providers.get old).backend) :
    (mid.providers.get p).backend ≠ (mid.providers.get old).backend := by
  rw [prepared.grown.providers.get old made]
  intro same
  exact prepared.apart (same ▸ backed)

end Host.Prepared

theorem exportService_deployed (u : UrlRef) (service : Option Service)
    (terminated : h.Terminated) (table : h.tableOf s = some t)
    (state : h.exporterAt s (h.urls.get u).path = none ∨
      ∃ e old registries, h.Serves s (h.urls.get u).path e old registries) :
    Deployed h s t u service ((exportService s u service).ending h) := by
  rcases exportService_cases s u service terminated with
    ⟨none, h', noted, _, run⟩ | ⟨p, mid, prepared, _, goes⟩
  · rw [run]
    exact .unmade none noted
  · rw [goes]
    have table' : mid.tableOf s = some t := (prepared.grown.tableOf s).trans table
    have path := prepared.pathOf
    rcases state with unserved | ⟨e, old, registries, serves⟩
    · refine .first unserved prepared (deploy_unserved table' prepared.addressOf.1 ?_)
      rw [path, prepared.grown.exporterAt, unserved]
    · have same := prepared.grown.serves serves
      rw [← path] at same
      exact .again serves prepared
        (deploy_served table' prepared.addressOf.1 (prepared.ne_made serves.made) same)

namespace Retiring

variable {h₁ : Host} (retiring : Retiring h t path e p registries h₁ h')

include retiring

theorem registering : h.Registering h₁ :=
  unregisterAll_registering retiring.withdrew.after_eq

theorem elsewhere (before : Elsewhere s path (some e) b start h) (table : h.tableOf s = some t)
    (backing : b = some (h.providers.get p).backend) :
    Elsewhere s path (some e) b start h' := by
  obtain ⟨grown, retired⟩ := before.retiring backing
  refine ((((before.registering retiring.registering).withTables
    (h.tables.modify t fun routes => routes.erase path) fun t' table' other differ => ?_)
    |>.withExporters (h.exporters.modify e withdrawn) before.exporters
      fun other known differ => ?_).withBackends _ grown retired).noted retiring.removed
  · have same := table'
    rw [← before.tableOf, table] at same
    obtain rfl : t = t' := Option.some.inj same
    rw [Store.find?_erase_elsewhere _ _ differ]
    exact before.routes t table' other differ
  · rw [Store.get_modify_ne _ fun same => differ (by rw [same])]
    exact before.exporter other known differ

theorem tableOf (s : ServerRef) : h'.tableOf s = h.tableOf s := by
  rw [retiring.removed.registering.tableOf]
  exact retiring.registering.tableOf s

theorem exporterAt (s : ServerRef) (other : String) :
    h'.exporterAt s other = h.exporterAt s other := by
  rw [retiring.removed.registering.exporterAt]
  exact retiring.registering.exporterAt s other

theorem unrouted (table : h.tableOf s = some t) : h'.routeAt s path = none := by
  rw [routeAt_of_table ((retiring.tableOf s).trans table), retiring.removed.registering.tables]
  exact (congrArg (Keyed.find? · path) (Store.get_modify_self _ _ _)).trans
    (Keyed.find?_erase_self _ _)

theorem destroyed : (h'.backendOf p).available = false := by
  unfold Host.backendOf
  rw [retiring.removed.registering.backends, retiring.removed.registering.providers]
  show ((h.retiring p).get (h₁.providers.get p).backend).available = false
  rw [retiring.registering.providers]
  exact available_retiring h p

end Retiring

end RpcHost
