import RpcHost.Proofs.Deployment
/-!
What an operation on one path of a server leaves as it was: the other paths with their
exporters and providers, and the addresses but for the mark that an export leaves.
-/
namespace RpcHost

open Attempt Host

theorem Url.asService_asService (u : Url) : u.asService.asService = u.asService := by
  have same : u.asService.asService.params = u.asService.params := by
    refine Keyed.ext_find? fun key => ?_
    by_cases node : key = Url.nodeTypeKey
    · subst node
      exact (Keyed.find?_insert_self _ _ _).trans (Keyed.find?_insert_self _ _ _).symm
    · exact find?_asService _ node
  exact congrArg (fun params => { u with params }) same

/-- Equal but for the mark that an export leaves. -/
def Url.Like (u v : Url) : Prop := u.asService = v.asService

namespace Url.Like

variable {u v w : Url}

theorem refl (u : Url) : u.Like u := rfl

theorem symm (like : u.Like v) : v.Like u := Eq.symm like

theorem trans (first : u.Like v) (second : v.Like w) : u.Like w := Eq.trans first second

theorem asService (u : Url) : u.asService.Like u := u.asService_asService

theorem path (like : u.Like v) : u.path = v.path := by
  rw [← u.path_asService, show u.asService = v.asService from like, v.path_asService]

theorem protocol (like : u.Like v) : u.protocol = v.protocol := by
  have same := congrArg Url.protocol (show u.asService = v.asService from like)
  exact same

theorem identity (like : u.Like v) : u.identity = v.identity := by
  rw [← u.identity_asService, show u.asService = v.asService from like, v.identity_asService]

theorem find? (like : u.Like v) {key : String} (differ : key ≠ Url.nodeTypeKey) :
    u.params.find? key = v.params.find? key := by
  have same := congrArg (fun url : Url => url.params.find? key)
    (show u.asService = v.asService from like)
  rwa [find?_asService u differ, find?_asService v differ] at same

theorem hasParam (like : u.Like v) : u.hasParam Url.registryKey = v.hasParam Url.registryKey := by
  unfold Url.hasParam Keyed.contains
  rw [like.find? (by decide)]

theorem paramOr (like : u.Like v) {key : String} (differ : key ≠ Url.nodeTypeKey)
    (fallback : String) : u.paramOr key fallback = v.paramOr key fallback := by
  unfold Url.paramOr
  rw [like.find? differ]

theorem listParam (like : u.Like v) {key : String} (differ : key ≠ Url.nodeTypeKey) :
    u.listParam key = v.listParam key := by
  unfold Url.listParam Url.param
  rw [like.paramOr differ]

theorem intParam (like : u.Like v) {key : String} (differ : key ≠ Url.nodeTypeKey) :
    u.intParam key = v.intParam key := by
  unfold Url.intParam Url.param
  rw [like.paramOr differ]

theorem make_eq (like : u.Like v) (maker : ProviderMaker) (ref : UrlRef) :
    maker.make ref u = maker.make ref v := by
  rw [← maker.make_marked ref u, ← maker.make_marked ref v]
  exact congrArg (maker.make ref) like

end Url.Like

theorem Url.like_modify (urls : Store .url Url) (u v : UrlRef) :
    ((urls.modify u Url.asService).get v).Like (urls.get v) := by
  rw [Store.get_modify]
  split
  · rename_i same
    rw [same]
    exact .asService _
  · exact .refl _

theorem Host.namesRegistries_opening (h : Host) (p q : ProviderRef) :
    (h.opening p).namesRegistries q = h.namesRegistries q :=
  (Url.like_modify h.urls (h.addressOf p) (h.addressOf q)).hasParam

/-- The server differs at most at the path; of the exporters that there were at most `e` differs,
and of the backends at most `b`. -/
structure Host.Elsewhere (s : ServerRef) (path : String) (e : Option ExporterRef)
    (b : Option BackendRef) (h h' : Host) : Prop where
  server : ∃ exporters, h'.servers.get s = { h.servers.get s with exporters }
  exporterAt : ∀ other, other ≠ path → h'.exporterAt s other = h.exporterAt s other
  endpoints : h'.endpoints = h.endpoints
  routes : ∀ t, h.tableOf s = some t → ∀ other, other ≠ path →
    (h'.tables.get t).find? other = (h.tables.get t).find? other
  exporters : h.exporters.next ≤ h'.exporters.next
  exporter : ∀ other, h.exporters.Allocated other → e ≠ some other →
    h'.exporters.get other = h.exporters.get other
  providers : h.providers.Extends h'.providers
  filters : h.filters.Extends h'.filters
  backends : h.backends.next ≤ h'.backends.next
  backend : ∀ other, h.backends.Allocated other → b ≠ some other →
    h'.backends.get other = h.backends.get other
  urls : ∀ u, (h'.urls.get u).Like (h.urls.get u)
  methods : h'.methods = h.methods
  requests : h'.requests = h.requests
  configurations : h'.configurations = h.configurations
  makers : ∀ x, ∃ instances, h'.extensions.get x = { h.extensions.get x with instances }

namespace Host.Elsewhere

variable {h mid h' : Host} {s : ServerRef} {path : String} {e : Option ExporterRef}
  {b : Option BackendRef}

theorem widen (apart : Elsewhere s path none none h h') : Elsewhere s path e b h h' :=
  { apart with
    exporter := fun other known _ => apart.exporter other known (by simp)
    backend := fun other known _ => apart.backend other known (by simp) }

theorem refl (h : Host) : Elsewhere s path e b h h where
  server := ⟨_, rfl⟩
  exporterAt _ _ := rfl
  endpoints := rfl
  routes _ _ _ _ := rfl
  exporters := Nat.le_refl _
  exporter _ _ _ := rfl
  providers := .refl _
  filters := .refl _
  backends := Nat.le_refl _
  backend _ _ _ := rfl
  urls _ := .refl _
  methods := rfl
  requests := rfl
  configurations := rfl
  makers _ := ⟨_, rfl⟩

variable (apart : Elsewhere s path e b h mid)

include apart

theorem tableOf : mid.tableOf s = h.tableOf s := by
  obtain ⟨_, server⟩ := apart.server
  unfold Host.tableOf
  rw [apart.endpoints, server]

theorem routeAt {other : String} (differ : other ≠ path) :
    mid.routeAt s other = h.routeAt s other := by
  unfold Host.routeAt
  rw [apart.tableOf]
  cases table : h.tableOf s with
  | none => rfl
  | some t => exact apart.routes t table other differ

theorem registering (leaves : mid.Registering h') : Elsewhere s path e b h h' where
  server := by rw [leaves.servers]; exact apart.server
  exporterAt other differ := by rw [leaves.exporterAt]; exact apart.exporterAt other differ
  endpoints := leaves.endpoints.trans apart.endpoints
  routes := by rw [leaves.tables]; exact apart.routes
  exporters := by rw [leaves.exporters]; exact apart.exporters
  exporter := by rw [leaves.exporters]; exact apart.exporter
  providers := by rw [leaves.providers]; exact apart.providers
  filters := by rw [leaves.filters]; exact apart.filters
  backends := by rw [leaves.backends]; exact apart.backends
  backend := by rw [leaves.backends]; exact apart.backend
  urls := by rw [leaves.urls]; exact apart.urls
  methods := leaves.methods.trans apart.methods
  requests := leaves.requests.trans apart.requests
  configurations := leaves.configurations.trans apart.configurations
  makers x := by
    obtain ⟨_, first⟩ := apart.makers x
    obtain ⟨instances, second⟩ := leaves.makers x
    exact ⟨instances, by rw [second, first]⟩

theorem noted (leaves : mid.Noted h') : Elsewhere s path e b h h' :=
  apart.registering leaves.registering

theorem withTables (tables : Store .table Routes)
    (routes : ∀ t, h.tableOf s = some t → ∀ other, other ≠ path →
      (tables.get t).find? other = (h.tables.get t).find? other) :
    Elsewhere s path e b h { mid with tables } :=
  { apart with routes }

theorem withExporters (exporters : Store .exporter Exporter)
    (grown : h.exporters.next ≤ exporters.next)
    (exporter : ∀ other, h.exporters.Allocated other → e ≠ some other →
      exporters.get other = h.exporters.get other) :
    Elsewhere s path e b h { mid with exporters } :=
  { apart with exporters := grown, exporter }

theorem withBackends (backends : Store .backend Backend)
    (grown : h.backends.next ≤ backends.next)
    (backend : ∀ other, h.backends.Allocated other → b ≠ some other →
      backends.get other = h.backends.get other) :
    Elsewhere s path e b h { mid with backends } :=
  { apart with backends := grown, backend }

theorem withUrls (urls : Store .url Url) (like : ∀ u, (urls.get u).Like (h.urls.get u)) :
    Elsewhere s path e b h { mid with urls } :=
  { apart with urls := like }

theorem withServers (servers : Store .server Server)
    (server : ∃ exporters, servers.get s = { h.servers.get s with exporters })
    (exporterAt : ∀ other, other ≠ path →
      (servers.get s).exporters.find? other = h.exporterAt s other) :
    Elsewhere s path e b h { mid with servers } :=
  { apart with server, exporterAt }

end Host.Elsewhere

open Host

variable {h h' : Host} {s : ServerRef} {t : TableRef} {path : String}

theorem Store.find?_insert_elsewhere (tables : Store .table Routes) (t : TableRef) (p : ProviderRef)
    {path other : String} (differ : other ≠ path) :
    ((tables.modify t fun routes => routes.insert path p).get t).find? other =
      (tables.get t).find? other := by
  rw [Store.get_modify_self, Keyed.find?_insert_ne _ differ]

theorem Store.find?_erase_elsewhere (tables : Store .table Routes) (t : TableRef)
    {path other : String} (differ : other ≠ path) :
    ((tables.modify t fun routes => routes.erase path).get t).find? other =
      (tables.get t).find? other := by
  rw [Store.get_modify_self, Keyed.find?_erase_ne _ differ]

theorem Host.find?_tablesWithout (h : Host) (t : TableRef) (p : ProviderRef) {other : String}
    (differ : other ≠ h.pathOf p) :
    ((h.tablesWithout t p).get t).find? other = (h.tables.get t).find? other := by
  unfold tablesWithout
  split
  · exact Store.find?_erase_elsewhere _ _ differ
  · rfl

theorem Host.find?_tablesWithout_self (h : Host) {t : TableRef} {p : ProviderRef}
    (found : (h.tables.get t).find? (h.pathOf p) = some p) :
    ((h.tablesWithout t p).get t).find? (h.pathOf p) = none := by
  unfold tablesWithout
  rw [if_pos found, Store.get_modify_self, Keyed.find?_erase_self]

namespace Host.Elsewhere

variable {h₁ h₂ : Host} {p : ProviderRef} {e : Option ExporterRef} {b : Option BackendRef}
  (apart : Elsewhere s path e b h h₁)

include apart

theorem routed (table : h₁.tableOf s = some t) (located : h₁.pathOf p = path)
    (routed : (h₁.routing t p).Noted h₂) : Elsewhere s path e b h h₂ := by
  refine Elsewhere.noted (apart.withTables _ fun t' table' other differ => ?_) routed
  rw [← apart.tableOf, table] at table'
  obtain rfl : t = t' := Option.some.inj table'
  rw [located, Store.find?_insert_elsewhere _ _ _ differ]
  exact apart.routes t (by rw [← apart.tableOf, table]) other differ

theorem routes_without (table : h₁.tableOf s = some t) (located : h₁.pathOf p = path)
    (t' : TableRef) (table' : h.tableOf s = some t') (other : String) (differ : other ≠ path) :
    ((h₁.tablesWithout t p).get t').find? other = (h.tables.get t').find? other := by
  have same := table'
  rw [← apart.tableOf, table] at same
  obtain rfl : t = t' := Option.some.inj same
  rw [h₁.find?_tablesWithout t p (located ▸ differ)]
  exact apart.routes t table' other differ

theorem keeping (kept : ExporterRef) :
    (∃ exporters, (h₁.keeping s path kept).get s = { h.servers.get s with exporters }) ∧
      ∀ other, other ≠ path →
        ((h₁.keeping s path kept).get s).exporters.find? other = h.exporterAt s other := by
  obtain ⟨exporters, server⟩ := apart.server
  rw [Host.get_keeping]
  refine ⟨⟨_, by rw [server]⟩, fun other differ => ?_⟩
  exact (Keyed.find?_insert_ne _ differ _).trans (apart.exporterAt other differ)

theorem dropping :
    (∃ exporters, (h₁.dropping s path).get s = { h.servers.get s with exporters }) ∧
      ∀ other, other ≠ path →
        ((h₁.dropping s path).get s).exporters.find? other = h.exporterAt s other := by
  obtain ⟨exporters, server⟩ := apart.server
  rw [Host.get_dropping]
  refine ⟨⟨_, by rw [server]⟩, fun other differ => ?_⟩
  exact (Keyed.find?_erase_ne _ differ).trans (apart.exporterAt other differ)

theorem retiring (backing : b = some (h₁.providers.get p).backend) :
    h.backends.next ≤ (h₁.retiring p).next ∧
      ∀ other, h.backends.Allocated other → b ≠ some other →
        (h₁.retiring p).get other = h.backends.get other := by
  refine ⟨apart.backends, fun other old differ => ?_⟩
  have others : other ≠ (h₁.providers.get p).backend := fun same =>
    differ (by rw [backing, same])
  rw [Host.get_retiring_ne _ others]
  exact apart.backend other old differ

theorem exporter_added (a : Exporter) :
    h.exporters.next ≤ (h₁.exporters.add a).next ∧
      ∀ other, h.exporters.Allocated other → e ≠ some other →
        (h₁.exporters.add a).get other = h.exporters.get other := by
  refine ⟨Nat.le_succ_of_le apart.exporters, fun other old differ => ?_⟩
  rw [Store.get_add_ne _ (old.mono apart.exporters).ne_fresh, apart.exporter other old differ]

theorem opened (p : ProviderRef) : Elsewhere s path e b h (h₁.opening p) := by
  obtain ⟨grown, added⟩ := apart.exporter_added (unready p)
  refine (apart.withExporters _ grown added).withUrls _ fun u => ?_
  exact (Url.like_modify _ _ _).trans (apart.urls u)

theorem offered (offered : (offer h₁ s p).after (h₁.offering s p) = h₂) :
    Elsewhere s path e b h h₂ := by
  obtain ⟨grown, added⟩ := apart.exporter_added { unready p with
    endpoint := some (h₁.servers.get s).endpoint, url := some (h₁.addressOf p) }
  exact ((apart.opened p).withExporters _ grown added).registering (offer_registering offered)

end Host.Elsewhere

theorem serves_of_kept {h₁ h₂ h' : Host} {p : ProviderRef} {registries : List RegistryRef}
    {backends : Store .backend Backend} {servers : Store .server Server}
    (registering : (h₁.offering s p).Registering h₂)
    (leaves : Host.Noted { h₂ with
      exporters := h₁.exporting s p registries, backends, servers } h')
    (server : ∃ exporters, servers.get s = { h₁.servers.get s with exporters })
    (kept : (servers.get s).exporters.find? path = some h₁.exporters.fresh)
    (made : h₁.providers.Allocated p)
    (backed : backends.Allocated (h₁.providers.get p).backend)
    (backend : backends.get (h₁.providers.get p).backend = h₁.backendOf p)
    (available : (h₁.backendOf p).available = true) (located : h₁.pathOf p = path)
    (route : h₁.routeAt s path = some p) :
    h'.Serves s path h₁.exporters.fresh p registries := by
  have providers : h'.providers = h₁.providers :=
    leaves.registering.providers.trans registering.providers
  have own : h'.backendOf p = h₁.backendOf p := by
    unfold Host.backendOf
    rw [providers, leaves.registering.backends]
    exact backend
  have address : h'.addressOf p = h₁.addressOf p := by
    unfold Host.addressOf
    rw [own]
  have exporters : h'.exporters = h₁.exporting s p registries := leaves.registering.exporters
  have urls (u : UrlRef) : (h'.urls.get u).path = (h₁.urls.get u).path := by
    rw [leaves.registering.urls]
    show (h₂.urls.get u).path = _
    rw [registering.urls]
    exact Url.path_modify_asService _ _ _
  obtain ⟨_, same⟩ := server
  have endpoint : (h'.servers.get s).endpoint = (h₁.servers.get s).endpoint := by
    rw [leaves.registering.servers]
    show (servers.get s).endpoint = _
    rw [same]
  have table : h'.tableOf s = h₁.tableOf s := by
    unfold Host.tableOf
    rw [endpoint, leaves.registering.endpoints]
    exact congrArg (fun endpoints => (Store.get endpoints (h₁.servers.get s).endpoint).table)
      registering.endpoints
  -- registries that are told change none of what makes the provider served
  refine ⟨⟨?_, ?_, ?_, ?_, ?_, ?_, ?_⟩, ?_⟩
  · rw [exporters]
    exact h₁.exporters.allocated_fresh_add _
  · rw [exporters]
    unfold exporting exporterOf
    rw [Store.get_add_fresh, address, endpoint]
  · rw [providers]
    exact made
  · rw [providers, leaves.registering.backends]
    exact backed
  · rw [own]
    exact available
  · unfold Host.pathOf
    rw [address, urls]
    exact located
  · unfold Host.routeAt at route ⊢
    rw [table, leaves.registering.tables]
    show (_ : Option TableRef).bind (fun t => (h₂.tables.get t).find? path) = _
    rw [registering.tables]
    exact route
  · unfold Host.exporterAt
    rw [leaves.registering.servers]
    exact kept

/-- What no operation of a server takes away: there is more of what there was, and addresses
differ by the mark of an export. -/
structure Host.Steady (s : ServerRef) (h h' : Host) : Prop where
  server : ∃ exporters, h'.servers.get s = { h.servers.get s with exporters }
  exporters : h.exporters.next ≤ h'.exporters.next
  providers : h.providers.Extends h'.providers
  filters : h.filters.Extends h'.filters
  backends : h.backends.next ≤ h'.backends.next
  urls : ∀ u, (h'.urls.get u).Like (h.urls.get u)
  methods : h'.methods = h.methods
  requests : h'.requests = h.requests
  configurations : h'.configurations = h.configurations
  makers : ∀ x, ∃ instances, h'.extensions.get x = { h.extensions.get x with instances }

instance : Course (Host.Steady s) where
  refl h := ⟨⟨_, rfl⟩, Nat.le_refl _, .refl _, .refl _, Nat.le_refl _, fun _ => .refl _, rfl, rfl,
    rfl, fun _ => ⟨_, rfl⟩⟩
  trans := by
    intro h mid h' first second
    obtain ⟨_, server₁⟩ := first.server
    obtain ⟨exporters, server₂⟩ := second.server
    refine ⟨⟨exporters, by rw [server₂, server₁]⟩, Nat.le_trans first.exporters second.exporters,
      first.providers.trans second.providers, first.filters.trans second.filters,
      Nat.le_trans first.backends second.backends, fun u => (second.urls u).trans (first.urls u),
      second.methods.trans first.methods, second.requests.trans first.requests,
      second.configurations.trans first.configurations, fun x => ?_⟩
    obtain ⟨_, makers₁⟩ := first.makers x
    obtain ⟨instances, makers₂⟩ := second.makers x
    exact ⟨instances, by rw [makers₂, makers₁]⟩

theorem Host.Elsewhere.steady {e : Option ExporterRef} {b : Option BackendRef}
    (apart : Elsewhere s path e b h h') : h.Steady s h' :=
  ⟨apart.server, apart.exporters, apart.providers, apart.filters, apart.backends, apart.urls,
    apart.methods, apart.requests, apart.configurations, apart.makers⟩

end RpcHost
