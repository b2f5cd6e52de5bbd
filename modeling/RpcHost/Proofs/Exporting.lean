import RpcHost.Proofs.Wrapping
/-!
Exporting a provider and taking the export back: what either leaves, and where it stops when a
registry ends it.
-/
namespace RpcHost

open Attempt Host

def Url.asService (u : Url) : Url := u.putParam Url.nodeTypeKey "service"

@[simp] theorem Url.path_asService (u : Url) : u.asService.path = u.path := rfl

@[simp] theorem Url.identity_asService (u : Url) : u.asService.identity = u.identity := rfl

theorem Url.find?_asService (u : Url) {key : String} (differ : key ≠ Url.nodeTypeKey) :
    u.asService.params.find? key = u.params.find? key :=
  Keyed.find?_insert_ne _ differ _

@[simp] theorem Url.hasParam_asService (u : Url) :
    u.asService.hasParam Url.registryKey = u.hasParam Url.registryKey := by
  unfold hasParam Keyed.contains
  rw [find?_asService u (by decide)]

@[simp] theorem Url.listParam_asService (u : Url) :
    u.asService.listParam Url.registryKey = u.listParam Url.registryKey := by
  unfold listParam param paramOr
  rw [find?_asService u (by decide)]

namespace Host

def unready (p : ProviderRef) : Exporter := { Exporter.fresh with provider := some p }

def ready (u : UrlRef) (registries : List RegistryRef) (endpoint : EndpointRef)
    (p : ProviderRef) : Exporter :=
  ⟨some u, registries, some endpoint, some p, true, true⟩

def opening (h : Host) (p : ProviderRef) : Host :=
  { h with
    exporters := h.exporters.add (unready p)
    urls := h.urls.modify (h.addressOf p) Url.asService }

def offering (h : Host) (s : ServerRef) (p : ProviderRef) : Host :=
  { h.opening p with
    exporters := h.exporters.add { unready p with
      endpoint := some (h.servers.get s).endpoint, url := some (h.addressOf p) } }

def registryNames (h : Host) (p : ProviderRef) : List String :=
  (h.urls.get (h.addressOf p)).listParam Url.registryKey

def namesRegistries (h : Host) (p : ProviderRef) : Bool :=
  (h.urls.get (h.addressOf p)).hasParam Url.registryKey

end Host

def offer (h : Host) (s : ServerRef) (p : ProviderRef) : Attempt (List RegistryRef) :=
  registerAll (h.servers.get s).extensions (h.servers.get s).configuration (h.addressOf p)
    (h.registryNames p)

theorem exportBy_refused {h : Host} {e : ExporterRef} {p : ProviderRef}
    (endpoint : Option EndpointRef) (x : ExtensionsRef) (c : ConfigurationRef)
    (idle : (h.exporters.get e).exported = false)
    (attached : (h.exporters.get e).provider = some p) (lacks : h.namesRegistries p = false) :
    ∃ h', (exportBy e endpoint x c).Yields h .registryNotFound h' ∧
      Host.Logged { h with urls := h.urls.modify (h.addressOf p) Url.asService } h' := by
  have bare : (h.urls.get (h.addressOf p)).asService.hasParam Url.registryKey = false := by
    rw [Url.hasParam_asService]
    exact lacks
  refine ⟨?after, ?run, ?logged⟩
  case run =>
    unfold Yields exportBy
    simp only [ending_get_bind, idle, attached, Bool.false_eq_true, if_false,
      ending_lift_bind, value_getUrl, after_getUrl, after_modifyUrl, Store.get_modify_self]
    rw [← Url.asService, bare, if_neg (by decide)]
    rfl
  case logged => exact writeLog_logged _ _ _

theorem exportBy_offered {h : Host} {e : ExporterRef} {p : ProviderRef}
    (endpoint : Option EndpointRef) (x : ExtensionsRef) (c : ConfigurationRef)
    (idle : (h.exporters.get e).exported = false)
    (attached : (h.exporters.get e).provider = some p) (names : h.namesRegistries p = true) :
    (exportBy e endpoint x c).ending h = (announce e endpoint x c (h.addressOf p)).ending
      { h with urls := h.urls.modify (h.addressOf p) Url.asService } := by
  have named : (h.urls.get (h.addressOf p)).asService.hasParam Url.registryKey = true := by
    rw [Url.hasParam_asService]
    exact names
  unfold exportBy
  simp only [ending_get_bind, idle, attached, Bool.false_eq_true, if_false,
    ending_lift_bind, value_getUrl, after_getUrl, after_modifyUrl, Store.get_modify_self]
  rw [← Url.asService, named, if_pos rfl]
  rfl

theorem exportOn_refused {h : Host} (s : ServerRef) {p : ProviderRef}
    (lacks : h.namesRegistries p = false) :
    ∃ h', (exportOn s p).Yields h (h.exporters.fresh, .registryNotFound) h' ∧
      (h.opening p).Noted h' := by
  have added := h.exporters.get_add_fresh (unready p)
  obtain ⟨h', run, logged⟩ := exportBy_refused
    (h := { h with exporters := h.exporters.add (unready p) })
    (some (h.servers.get s).endpoint) (h.servers.get s).extensions (h.servers.get s).configuration
    (congrArg Exporter.exported added) (congrArg Exporter.provider added) lacks
  refine ⟨h', ?_, logged.noted⟩
  unfold Yields exportOn
  simp only [ending_get_bind, ending_lift_bind, value_addExporter, after_addExporter]
  exact (run.ending_bind _).trans rfl

variable {h mid : Host} {e : ExporterRef} {u : UrlRef} {registries : List RegistryRef}

theorem announce_yields (endpoint : Option EndpointRef) (x : ExtensionsRef)
    (c : ConfigurationRef)
    (accepted : (registerAll x c u ((h.urls.get u).listParam Url.registryKey)).Yields
      { h with exporters := h.exporters.modify e fun exporter =>
          { exporter with endpoint, url := some u } } registries mid) :
    ∃ h', (announce e endpoint x c u).Yields h .ok h' ∧
      Host.Noted { mid with exporters := mid.exporters.modify e fun exporter =>
        { exporter with registries, exported := true, available := true } } h' := by
  refine ⟨?after, ?run, ?noted⟩
  case run =>
    unfold Yields announce
    simp only [ending_lift_bind, value_getUrl, after_getUrl, after_modifyExporter]
    refine (accepted.ending_bind _).trans ?_
    rfl
  case noted => exact writeLog_within _ _ _

theorem announce_fails {fault : Fault} (endpoint : Option EndpointRef) (x : ExtensionsRef)
    (c : ConfigurationRef)
    (stopped : (registerAll x c u ((h.urls.get u).listParam Url.registryKey)).Fails
      { h with exporters := h.exporters.modify e fun exporter =>
          { exporter with endpoint, url := some u } } fault mid) :
    (announce e endpoint x c u).Fails h fault mid := by
  unfold Fails announce
  simp only [ending_lift_bind, value_getUrl, after_getUrl, after_modifyExporter]
  exact (stopped.ending_bind _).trans rfl

theorem exportOn_offered (h : Host) (s : ServerRef) {p : ProviderRef}
    (names : h.namesRegistries p = true) :
    (exportOn s p).ending h =
      ((announce h.exporters.fresh (some (h.servers.get s).endpoint) (h.servers.get s).extensions
        (h.servers.get s).configuration (h.addressOf p) >>= fun status =>
          pure (h.exporters.fresh, status) : Attempt _)).ending (h.opening p) := by
  have added := h.exporters.get_add_fresh (unready p)
  have offered : (exportBy h.exporters.fresh (some (h.servers.get s).endpoint)
      (h.servers.get s).extensions (h.servers.get s).configuration).ending
        { h with exporters := h.exporters.add (unready p) } =
      (announce h.exporters.fresh (some (h.servers.get s).endpoint) (h.servers.get s).extensions
        (h.servers.get s).configuration (h.addressOf p)).ending (h.opening p) :=
    exportBy_offered _ _ _ (congrArg Exporter.exported added) (congrArg Exporter.provider added)
      names
  unfold exportOn
  simp only [ending_get_bind, ending_lift_bind, value_addExporter, after_addExporter]
  exact ending_bind_congr offered _

def Host.exporterOf (h : Host) (s : ServerRef) (p : ProviderRef)
    (registries : List RegistryRef) : Exporter :=
  ready (h.addressOf p) registries (h.servers.get s).endpoint p

theorem offer_ending (h : Host) (s : ServerRef) (p : ProviderRef) :
    (offer h s p).ending (h.offering s p) =
      (registerAll (h.servers.get s).extensions (h.servers.get s).configuration (h.addressOf p)
        (((h.opening p).urls.get (h.addressOf p)).listParam Url.registryKey)).ending
      { h.opening p with
        exporters := (h.opening p).exporters.modify h.exporters.fresh fun exporter =>
          { exporter with
            endpoint := some (h.servers.get s).endpoint, url := some (h.addressOf p) } } := by
  unfold offer offering registryNames opening
  rw [Store.get_modify_self, Url.listParam_asService, Store.modify_add_fresh]

section Offering

variable {s : ServerRef} {p : ProviderRef} (names : h.namesRegistries p = true)

include names

theorem exportOn_yields
    (offered : (offer h s p).Yields (h.offering s p) registries mid) :
    ∃ h', (exportOn s p).Yields h (h.exporters.fresh, .ok) h' ∧
      Host.Noted { mid with exporters := h.exporters.add (h.exporterOf s p registries) } h' := by
  have registering : Registering (h.offering s p) mid := by
    rw [← offered.after_eq]
    exact registerAll_within _ _ _ _ _
  obtain ⟨h', announced, noted⟩ := announce_yields _ _ _ ((offer_ending h s p).symm.trans offered)
  refine ⟨h', ?_, ?_⟩
  · unfold Yields
    rw [exportOn_offered h s names]
    exact (announced.ending_bind _).trans rfl
  · -- the exporter was added for the offer, and is ready once the registries have taken it
    obtain ⟨_, _, _, _, _, rfl⟩ := registering.rest
    have same := Store.modify_add_fresh h.exporters { unready p with
      endpoint := some (h.servers.get s).endpoint, url := some (h.addressOf p) } fun exporter =>
        { exporter with registries, exported := true, available := true }
    unfold offering at noted
    rw [same] at noted
    exact noted

theorem exportOn_fails {fault : Fault}
    (stopped : (offer h s p).Fails (h.offering s p) fault mid) :
    (exportOn s p).Fails h fault mid := by
  have announced := announce_fails _ _ _ ((offer_ending h s p).symm.trans stopped)
  unfold Fails
  rw [exportOn_offered h s names]
  exact announced.ending_bind _

end Offering

theorem exportOn_named (h : Host) (s : ServerRef) {p : ProviderRef}
    (names : h.namesRegistries p = true) :
    (∃ registries mid h', (offer h s p).Yields (h.offering s p) registries mid ∧
      (exportOn s p).Yields h (h.exporters.fresh, .ok) h' ∧
      Host.Noted { mid with exporters := h.exporters.add (h.exporterOf s p registries) } h') ∨
    ∃ fault mid, (offer h s p).Fails (h.offering s p) fault mid ∧
      (exportOn s p).Fails h fault mid := by
  rcases yields_or_fails (offer h s p) (h.offering s p) with ⟨registries, run⟩ | ⟨fault, run⟩
  · obtain ⟨h', exported, noted⟩ := exportOn_yields names run
    exact Or.inl ⟨registries, _, h', run, exported, noted⟩
  · exact Or.inr ⟨fault, _, run, exportOn_fails names run⟩

namespace Host

def tablesWithout (h : Host) (t : TableRef) (p : ProviderRef) : Store .table Routes :=
  if (h.tables.get t).find? (h.pathOf p) = some p then
    h.tables.modify t fun routes => routes.erase (h.pathOf p)
  else h.tables

theorem tablesWithout_congr {h h' : Host} {p : ProviderRef} (tables : h'.tables = h.tables)
    (path : h'.pathOf p = h.pathOf p) (t : TableRef) :
    h'.tablesWithout t p = h.tablesWithout t p := by
  unfold tablesWithout
  rw [tables, path]

def unroutedTables (h : Host) (endpoint : Option EndpointRef) (provider : Option ProviderRef) :
    Store .table Routes :=
  match endpoint.bind fun endpoint => (h.endpoints.get endpoint).table, provider with
  | some t, some p => h.tablesWithout t p
  | _, _ => h.tables

theorem unroutedTables_of_table {h : Host} {endpoint : EndpointRef} {t : TableRef}
    (table : (h.endpoints.get endpoint).table = some t) (p : ProviderRef) :
    h.unroutedTables (some endpoint) (some p) = h.tablesWithout t p := by
  simp [unroutedTables, table]

def withdrawn (e : Exporter) : Exporter := { e with exported := false }

end Host

theorem removeProvider_within (t : TableRef) (p : ProviderRef) (h : Host) :
    Host.Noted { h with tables := h.tablesWithout t p } ((removeProvider t p).after h) := by
  unfold removeProvider tablesWithout
  rw [Step.after_bind, Step.value_get, Step.after_get]
  dsimp only
  split
  · exact emit_within _ rfl _
  · exact Course.refl h

theorem addProvider_within (t : TableRef) (p : ProviderRef) (h : Host) :
    Host.Noted { h with tables := h.tables.modify t fun routes => routes.insert (h.pathOf p) p }
      ((addProvider t p).after h) := noted_event _ rfl

theorem destroyProvider_within (p : ProviderRef) (h : Host) :
    Host.Noted { h with
      backends := h.backends.modify (h.providers.get p).backend Backend.destroyed }
      ((destroyProvider p).after h) := noted_event _ rfl

theorem unroute_within (endpoint : Option EndpointRef) (provider : Option ProviderRef) (h : Host) :
    Host.Noted { h with tables := h.unroutedTables endpoint provider }
      ((unroute endpoint provider).after h) := by
  cases endpoint with
  | none => exact Course.refl h
  | some endpoint =>
    cases provider with
    | none =>
      have same : h.unroutedTables (some endpoint) none = h.tables := by simp [unroutedTables]
      rw [same]
      exact Course.refl h
    | some p =>
      unfold unroute
      rw [Step.after_bind, Step.value_get, Step.after_get]
      cases table : (h.endpoints.get endpoint).table with
      | none =>
        have same : h.unroutedTables (some endpoint) (some p) = h.tables := by
          simp [unroutedTables, table]
        rw [same]
        exact Course.refl h
      | some t =>
        rw [unroutedTables_of_table table]
        exact removeProvider_within t p h

theorem unexport_exported {h : Host} {e : ExporterRef} {u : UrlRef}
    (exported : (h.exporters.get e).exported = true) (url : (h.exporters.get e).url = some u) :
    (∃ mid h', (unregisterAll u (h.exporters.get e).registries).Yields h () mid ∧
      (unexport e).Yields h .ok h' ∧
      Host.Noted { mid with
        tables := h.unroutedTables (h.exporters.get e).endpoint (h.exporters.get e).provider
        exporters := h.exporters.modify e withdrawn } h') ∨
    ∃ fault mid, (unregisterAll u (h.exporters.get e).registries).Fails h fault mid ∧
      (unexport e).Fails h fault mid := by
  rcases yields_or_fails (unregisterAll u (h.exporters.get e).registries) h with
    ⟨_, run⟩ | ⟨fault, run⟩
  · left
    have registering : Registering h _ := unregisterAll_within u (h.exporters.get e).registries h
    generalize (unregisterAll u (h.exporters.get e).registries).after h = mid at run registering
    have unrouted :=
      unroute_within (h.exporters.get e).endpoint (h.exporters.get e).provider mid
    have still : mid.unroutedTables (h.exporters.get e).endpoint (h.exporters.get e).provider =
        h.unroutedTables (h.exporters.get e).endpoint (h.exporters.get e).provider := by
      obtain ⟨_, _, _, _, _, rfl⟩ := registering.rest
      rfl
    rw [still] at unrouted
    generalize leaves : (unroute (h.exporters.get e).endpoint (h.exporters.get e).provider).after
      mid = h₂ at unrouted
    have exporters : h₂.exporters = h.exporters :=
      unrouted.registering.exporters.trans registering.exporters
    refine ⟨mid, ?after, run, ?run, ?noted⟩
    case run =>
      unfold Yields unexport
      simp only [ending_get_bind, exported, if_true, url]
      refine (run.ending_bind _).trans ?_
      simp only [ending_lift_bind, after_modifyExporter, ending_pure, leaves, exporters]
      rfl
    case noted => exact Course.trans (unrouted.withExporters _) (writeLog_within _ _ _)
  · right
    generalize (unregisterAll u (h.exporters.get e).registries).after h = mid at run
    refine ⟨fault, mid, run, ?_⟩
    unfold Fails unexport
    simp only [ending_get_bind, exported, if_true, url]
    exact run.ending_bind _

theorem unexport_ready {h : Host} {e : ExporterRef} {u : UrlRef}
    {registries : List RegistryRef} {endpoint : EndpointRef} {t : TableRef} {p : ProviderRef}
    (holds : h.exporters.get e = ready u registries endpoint p)
    (table : (h.endpoints.get endpoint).table = some t) :
    (∃ mid h', (unregisterAll u registries).Yields h () mid ∧ (unexport e).Yields h .ok h' ∧
      Host.Noted { mid with
        tables := h.tablesWithout t p
        exporters := h.exporters.modify e withdrawn } h') ∨
    ∃ fault mid, (unregisterAll u registries).Fails h fault mid ∧
      (unexport e).Fails h fault mid := by
  rw [← unroutedTables_of_table table p]
  have exported := unexport_exported (h := h) (e := e) (u := u) (by rw [holds]; rfl)
    (by rw [holds]; rfl)
  rw [holds] at exported
  exact exported

end RpcHost
