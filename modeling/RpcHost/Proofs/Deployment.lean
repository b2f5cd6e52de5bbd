import RpcHost.Proofs.Exporting
/-!
Deploying on a server, case by case: which steps were done, and where a fault stopped them.
-/
namespace RpcHost

open Attempt Host

namespace Host

variable (h : Host) (s : ServerRef) (path : String)

def routing (t : TableRef) (p : ProviderRef) : Host :=
  { h with tables := h.tables.modify t fun routes => routes.insert (h.pathOf p) p }

def keeping (e : ExporterRef) : Store .server Server :=
  h.servers.modify s fun server => { server with exporters := server.exporters.insert path e }

def dropping : Store .server Server :=
  h.servers.modify s fun server => { server with exporters := server.exporters.erase path }

def retiring (p : ProviderRef) : Store .backend Backend :=
  h.backends.modify (h.providers.get p).backend Backend.destroyed

def exporting (p : ProviderRef) (registries : List RegistryRef) : Store .exporter Exporter :=
  h.exporters.add (h.exporterOf s p registries)

theorem get_keeping (e : ExporterRef) :
    (h.keeping s path e).get s = { h.servers.get s with
      exporters := (h.servers.get s).exporters.insert path e } :=
  Store.get_modify_self _ _ _

theorem find?_keeping (e : ExporterRef) :
    ((h.keeping s path e).get s).exporters.find? path = some e := by
  rw [get_keeping]
  exact Keyed.find?_insert_self _ _ _

theorem get_dropping :
    (h.dropping s path).get s = { h.servers.get s with
      exporters := (h.servers.get s).exporters.erase path } :=
  Store.get_modify_self _ _ _

theorem find?_dropping : ((h.dropping s path).get s).exporters.find? path = none := by
  rw [get_dropping]
  exact Keyed.find?_erase_self _ _

theorem get_retiring_ne {p : ProviderRef} {b : BackendRef}
    (differ : b ≠ (h.providers.get p).backend) : (h.retiring p).get b = h.backends.get b :=
  Store.get_modify_ne _ differ _

section Congruence

variable {h} {h' : Host}

theorem keeping_congr (servers : h'.servers = h.servers) (e : ExporterRef) :
    h'.keeping s path e = h.keeping s path e :=
  congrArg (Store.modify · s _) servers

theorem dropping_congr (servers : h'.servers = h.servers) :
    h'.dropping s path = h.dropping s path :=
  congrArg (Store.modify · s _) servers

theorem retiring_congr (backends : h'.backends = h.backends)
    (providers : h'.providers = h.providers) (p : ProviderRef) :
    h'.retiring p = h.retiring p := by
  unfold retiring
  rw [backends, providers]

end Congruence

end Host

theorem after_keepExporter (h : Host) (s : ServerRef) (path : String) (e : ExporterRef) :
    (keepExporter s path e).after h = { h with servers := h.keeping s path e } := rfl

theorem after_dropExporter (h : Host) (s : ServerRef) (path : String) :
    (dropExporter s path).after h = { h with servers := h.dropping s path } := rfl

theorem routeOn_within {h : Host} {s : ServerRef} {t : TableRef} (table : h.tableOf s = some t)
    (p : ProviderRef) : (h.routing t p).Noted ((routeOn s p).after h) := by
  unfold routeOn serverTable
  simp only [Step.after_bind, Step.value_bind, Step.value_get, Step.after_get, Step.value_pure,
    Step.after_pure]
  rw [show (h.endpoints.get (h.servers.get s).endpoint).table = some t from table]
  exact addProvider_within t p h

theorem unrouteOn_within {h : Host} {s : ServerRef} {t : TableRef}
    (table : h.tableOf s = some t) (p : ProviderRef) :
    Host.Noted { h with tables := h.tablesWithout t p } ((unrouteOn s p).after h) := by
  unfold unrouteOn serverTable
  simp only [Step.after_bind, Step.value_bind, Step.value_get, Step.after_get, Step.value_pure,
    Step.after_pure]
  rw [show (h.endpoints.get (h.servers.get s).endpoint).table = some t from table]
  exact removeProvider_within t p h

theorem Url.path_modify_asService (urls : Store .url Url) (u v : UrlRef) :
    ((urls.modify u Url.asService).get v).path = (urls.get v).path := by
  rw [Store.get_modify]
  split
  · rename_i same
    rw [same, path_asService]
  · rfl

theorem offer_registering {h mid : Host} {s : ServerRef} {p : ProviderRef}
    (offered : (offer h s p).after (h.offering s p) = mid) :
    (h.offering s p).Registering mid := by
  rw [← offered]
  exact registerAll_within _ _ _ _ _

theorem unregisterAll_registering {h h' : Host} {u : UrlRef} {registries : List RegistryRef}
    (withdrew : (unregisterAll u registries).after h = h') : h.Registering h' := by
  rw [← withdrew]
  exact unregisterAll_within _ _ _

theorem pathOf_opening (h : Host) (p q : ProviderRef) : (h.opening p).pathOf q = h.pathOf q :=
  Url.path_modify_asService h.urls (h.addressOf p) (h.addressOf q)

variable {h : Host} {s : ServerRef} {t : TableRef} {u : UrlRef} {p : ProviderRef}

section Paths

variable {h₁ h₂ : Host} {registries : List RegistryRef}

-- An export rewrites the address it exports, but for its path.

theorem path_refused (noted : (h.opening p).Noted h₁) (v : UrlRef) :
    (h₁.urls.get v).path = (h.urls.get v).path := by
  rw [noted.registering.urls]
  exact Url.path_modify_asService h.urls _ v

theorem pathOf_refused (noted : (h.opening p).Noted h₁) (q : ProviderRef) :
    h₁.pathOf q = h.pathOf q :=
  (noted.registering.pathOf q).trans (pathOf_opening h p q)

variable (registering : (h.offering s p).Registering h₁)
  (noted : Host.Noted { h₁ with exporters := h.exporting s p registries } h₂)

include registering noted

theorem path_exported (v : UrlRef) : (h₂.urls.get v).path = (h.urls.get v).path := by
  rw [noted.registering.urls]
  show (h₁.urls.get v).path = _
  rw [registering.urls]
  exact Url.path_modify_asService h.urls _ v

theorem pathOf_exported (q : ProviderRef) : h₂.pathOf q = h.pathOf q := by
  rw [noted.registering.pathOf]
  exact (registering.pathOf q).trans (pathOf_opening h p q)

end Paths

theorem namesRegistries_routed {h₁ : Host} (routed : (h.routing t p).Noted h₁) :
    h₁.namesRegistries p = h.namesRegistries p := by
  unfold namesRegistries
  rw [routed.registering.urls, routed.registering.addressOf]
  rfl

theorem fresh_routed {h₁ : Host} (routed : (h.routing t p).Noted h₁) :
    h₁.exporters.fresh = h.exporters.fresh := by
  rw [routed.registering.exporters]
  rfl

theorem keeping_exported {h h₁ h₂ h₃ : Host} {registries : List RegistryRef}
    (servers : h₁.servers = h.servers) (exporters : h₁.exporters.fresh = h.exporters.fresh)
    (registering : (h₁.offering s p).Registering h₂)
    (noted : Host.Noted { h₂ with exporters := h₁.exporting s p registries } h₃) (path : String) :
    h₃.keeping s path h₁.exporters.fresh = h.keeping s path h.exporters.fresh := by
  rw [exporters]
  have left : h₃.servers = h₁.servers := noted.registering.servers.trans registering.servers
  exact keeping_congr s path (left.trans servers) _

theorem unrouteOn_refused {h h' : Host} (table : h.tableOf s = some t)
    (noted : (h.opening p).Noted h') (level : Level) (pieces : List String) :
    Host.Noted { h.opening p with tables := h.tablesWithout t p }
      ((unrouteOn s p).after ((writeLog level pieces).after h')) := by
  have opened := Course.trans noted (writeLog_within level pieces h')
  generalize (writeLog level pieces).after h' = h'' at opened
  have table' : h''.tableOf s = some t := (opened.registering.tableOf s).trans table
  have tables : h''.tablesWithout t p = h.tablesWithout t p := by
    refine tablesWithout_congr ?_ ?_ t
    · exact opened.registering.tables
    · rw [opened.registering.pathOf, pathOf_opening]
  rw [← tables]
  exact Course.trans (opened.withTables _) (unrouteOn_within table' p)

inductive Restoration (h : Host) (s : ServerRef) (t : TableRef) (p : ProviderRef) :
    Except Fault Unit × Host → Prop
  | restored {h₁ h₂ h' : Host} {registries : List RegistryRef}
    (routed : (h.routing t p).Noted h₁)
    (names : h.namesRegistries p = true)
    (offered : (offer h₁ s p).Yields (h₁.offering s p) registries h₂)
    (kept : Host.Noted { h₂ with
      exporters := h₁.exporting s p registries
      servers := h.keeping s (h.pathOf p) h.exporters.fresh } h') :
    Restoration h s t p (.ok (), h')
  | stopped {h₁ h' : Host} {fault : Fault}
    (routed : (h.routing t p).Noted h₁)
    (names : h.namesRegistries p = true)
    (offered : (offer h₁ s p).Fails (h₁.offering s p) fault h') :
    Restoration h s t p (.error fault, h')
  | lost {h₁ h' : Host}
    (routed : (h.routing t p).Noted h₁)
    (lacks : h.namesRegistries p = false)
    (dropped : Host.Noted { h₁.opening p with
      tables := h₁.tablesWithout t p
      backends := h.retiring p
      servers := h.dropping s (h.pathOf p) } h') :
    Restoration h s t p (.ok (), h')

theorem restore_cases {e : ExporterRef} (table : h.tableOf s = some t)
    (holds : (h.exporters.get e).provider = some p) :
    Restoration h s t p ((restore s e).ending h) := by
  unfold restore
  simp only [ending_get_bind, holds, ending_lift_bind]
  have routed := routeOn_within table p
  generalize (routeOn s p).after h = h₁ at routed
  have path₁ : h₁.pathOf p = h.pathOf p := routed.registering.pathOf p
  have servers : h₁.servers = h.servers := routed.registering.servers
  have names₁ := namesRegistries_routed routed
  cases names : h.namesRegistries p with
  | true =>
    -- the provider is offered again, and the server keeps the exporter that was made for it
    rcases exportOn_named h₁ s (names₁.trans names) with
      ⟨registries, h₂, h₃, offered, exported, noted⟩ | ⟨fault, h', offered, stopped⟩
    · rw [exported.ending_bind]
      have registering := offer_registering offered.after_eq
      have path : h₃.pathOf p = h.pathOf p := (pathOf_exported registering noted p).trans path₁
      have exporters := fresh_routed routed
      simp only [ending_get_bind, if_true, ending_lift_bind, path]
      have written := writeLog_within .warning
        ["重新部署失败，服务 ", h.pathOf p, " 已恢复为旧版本\n"] h₃
      generalize (writeLog _ _).after h₃ = h₄ at written
      have all := Course.trans noted written
      rw [ending_lift, after_keepExporter, keeping_exported servers exporters registering all]
      exact .restored routed names offered (all.withServers _)
    · rw [stopped.ending_bind]
      exact .stopped routed names offered
  | false =>
    -- no registry is named: the provider is given up, with its backend and its place on the server
    obtain ⟨h₂, exported, noted⟩ := exportOn_refused s (names₁.trans names)
    rw [exported.ending_bind]
    have path : h₂.pathOf p = h.pathOf p := (pathOf_refused noted p).trans path₁
    simp only [ending_get_bind, reduceCtorEq, if_false, ending_lift_bind, path]
    have cleared := unrouteOn_refused ((routed.registering.tableOf s).trans table) noted .error
      ["恢复服务 ", h.pathOf p, " 失败: ", Status.registryNotFound.reason, "\n"]
    generalize (unrouteOn s p).after _ = h₄ at cleared
    have retired := destroyProvider_within p h₄
    generalize (destroyProvider p).after h₄ = h₅ at retired
    have backends : h₄.retiring p = h.retiring p :=
      retiring_congr (cleared.registering.backends.trans routed.registering.backends)
        (cleared.registering.providers.trans routed.registering.providers) p
    rw [← retiring, backends] at retired
    have ended := Course.trans (cleared.withBackends _) retired
    have left : h₅.servers = h.servers := ended.registering.servers.trans servers
    rw [ending_lift, after_dropExporter, dropping_congr s _ left]
    exact .lost routed names (ended.withServers _)

inductive Opening (h : Host) (s : ServerRef) (t : TableRef) (p : ProviderRef) :
    Except Fault Status × Host → Prop
  | accepted {h₁ h₂ h' : Host} {registries : List RegistryRef}
    (routed : (h.routing t p).Noted h₁)
    (names : h.namesRegistries p = true)
    (offered : (offer h₁ s p).Yields (h₁.offering s p) registries h₂)
    (kept : Host.Noted { h₂ with
      exporters := h₁.exporting s p registries
      servers := h.keeping s (h.pathOf p) h.exporters.fresh } h') :
    Opening h s t p (.ok .ok, h')
  | stopped {h₁ h' : Host} {fault : Fault}
    (routed : (h.routing t p).Noted h₁)
    (names : h.namesRegistries p = true)
    (offered : (offer h₁ s p).Fails (h₁.offering s p) fault h') :
    Opening h s t p (.error fault, h')
  | refused {h₁ h' : Host}
    (routed : (h.routing t p).Noted h₁)
    (lacks : h.namesRegistries p = false)
    (unrouted : Host.Noted { h₁.opening p with tables := h₁.tablesWithout t p } h') :
    Opening h s t p (.ok .registryNotFound, h')

/-- The exporter exports the provider, which is routed at the path and was not destroyed. -/
structure Host.Holds (h : Host) (s : ServerRef) (path : String) (e : ExporterRef)
    (p : ProviderRef) (registries : List RegistryRef) : Prop where
  known : h.exporters.Allocated e
  exporter : h.exporters.get e = h.exporterOf s p registries
  made : h.providers.Allocated p
  backed : h.backends.Allocated (h.providers.get p).backend
  available : (h.backendOf p).available = true
  located : h.pathOf p = path
  route : h.routeAt s path = some p

structure Host.Serves (h : Host) (s : ServerRef) (path : String) (e : ExporterRef)
    (p : ProviderRef) (registries : List RegistryRef) : Prop
    extends h.Holds s path e p registries where
  kept : h.exporterAt s path = some e

/-- A new provider `p` is routed, and what was exported for `old` is taken back. -/
structure Superseding (h : Host) (t : TableRef) (e : ExporterRef) (old : ProviderRef)
    (registries : List RegistryRef) (p : ProviderRef) (h₁ h₂ h₃ : Host) : Prop where
  routed : (h.routing t p).Noted h₁
  withdrew : (unregisterAll (h.addressOf old) registries).Yields h₁ () h₂
  unexported : Host.Noted { h₂ with exporters := h.exporters.modify e withdrawn } h₃

/-- How deploying `p` in place of `old` ends. -/
inductive Changeover (h : Host) (s : ServerRef) (t : TableRef) (e : ExporterRef)
    (old : ProviderRef) (registries : List RegistryRef) (p : ProviderRef) :
    Except Fault Status × Host → Prop
  | stuck {h₁ h' : Host} {fault : Fault}
    (routed : (h.routing t p).Noted h₁)
    (withdrew : (unregisterAll (h.addressOf old) registries).Fails h₁ fault h') :
    Changeover h s t e old registries p (.error fault, h')
  | accepted {h₁ h₂ h₃ h₄ h' : Host} {accepting : List RegistryRef}
    (replaced : Superseding h t e old registries p h₁ h₂ h₃)
    (names : h.namesRegistries p = true)
    (offered : (offer h₃ s p).Yields (h₃.offering s p) accepting h₄)
    (kept : Host.Noted { h₄ with
      exporters := h₃.exporting s p accepting
      backends := h.retiring old
      servers := h.keeping s (h.pathOf p) h.exporters.fresh } h') :
    Changeover h s t e old registries p (.ok .ok, h')
  | stopped {h₁ h₂ h₃ h' : Host} {fault : Fault}
    (replaced : Superseding h t e old registries p h₁ h₂ h₃)
    (names : h.namesRegistries p = true)
    (offered : (offer h₃ s p).Fails (h₃.offering s p) fault h') :
    Changeover h s t e old registries p (.error fault, h')
  | refused {h₁ h₂ h₃ h₄ h' : Host} {result : Except Fault Unit}
    (replaced : Superseding h t e old registries p h₁ h₂ h₃)
    (lacks : h.namesRegistries p = false)
    (unrouted : Host.Noted { h₃.opening p with tables := h₁.tablesWithout t p } h₄)
    (restoration : Restoration h₄ s t old (result, h')) :
    Changeover h s t e old registries p (result.map fun _ => .registryNotFound, h')

namespace Changeover

variable {h' : Host} {e : ExporterRef} {old : ProviderRef} {registries : List RegistryRef}

theorem accepted_cases (changeover : Changeover h s t e old registries p (.ok .ok, h')) :
    ∃ h₁ h₂ h₃ h₄ accepting, Superseding h t e old registries p h₁ h₂ h₃ ∧
      h.namesRegistries p = true ∧ (offer h₃ s p).Yields (h₃.offering s p) accepting h₄ ∧
      Host.Noted { h₄ with
        exporters := h₃.exporting s p accepting
        backends := h.retiring old
        servers := h.keeping s (h.pathOf p) h.exporters.fresh } h' := by
  generalize ends : (Except.ok Status.ok : Except Fault Status) = result at changeover
  cases changeover with
  | accepted replaced names offered kept => exact ⟨_, _, _, _, _, replaced, names, offered, kept⟩
  | @refused _ _ _ _ _ result => cases result <;> cases ends
  | stuck => cases ends
  | stopped => cases ends

theorem refused_cases {status : Status}
    (changeover : Changeover h s t e old registries p (.ok status, h')) (refused : status ≠ .ok) :
    status = .registryNotFound ∧ ∃ h₁ h₂ h₃ h₄, Superseding h t e old registries p h₁ h₂ h₃ ∧
      h.namesRegistries p = false ∧
      Host.Noted { h₃.opening p with tables := h₁.tablesWithout t p } h₄ ∧
      Restoration h₄ s t old (.ok (), h') := by
  generalize ends : (Except.ok status : Except Fault Status) = result at changeover
  cases changeover with
  | accepted =>
    cases ends
    exact absurd rfl refused
  | @refused _ _ _ _ _ result replaced lacks unrouted restoration =>
    cases result with
    | error fault => cases ends
    | ok done =>
      cases ends
      exact ⟨rfl, _, _, _, _, replaced, lacks, unrouted, restoration⟩
  | stuck => cases ends
  | stopped => cases ends

end Changeover

theorem deploy_unserved (table : h.tableOf s = some t) (address : h.addressOf p = u)
    (unserved : h.exporterAt s (h.pathOf p) = none) :
    Opening h s t p ((deployProvider s u p).ending h) := by
  subst address
  unfold deployProvider
  have routed := routeOn_within table p
  generalize leaves : (routeOn s p).after h = h₁ at routed
  have urls : h₁.urls = h.urls := routed.registering.urls
  have servers : h₁.servers = h.servers := routed.registering.servers
  have names₁ := namesRegistries_routed routed
  have none : (h₁.servers.get s).exporters.find? (h₁.urls.get (h.addressOf p)).path = none := by
    rw [servers, urls]
    exact unserved
  simp only [ending_lift_bind, ending_get_bind, value_getUrl, after_getUrl, leaves, none]
  cases names : h.namesRegistries p with
  | true =>
    -- what remains is to see that the exporter and the path are those told from `h`
    rcases exportOn_named h₁ s (names₁.trans names) with
      ⟨registries, h₂, h₃, offered, exported, noted⟩ | ⟨fault, h', offered, stopped⟩
    · rw [exported.ending_bind]
      have registering := offer_registering offered.after_eq
      have path : (h₃.urls.get (h.addressOf p)).path = h.pathOf p := by
        rw [path_exported registering noted, urls]
        rfl
      have exporters := fresh_routed routed
      simp only [if_true, ending_lift_bind, ending_pure, value_getUrl, after_getUrl, path,
        after_keepExporter, keeping_exported servers exporters registering noted]
      exact .accepted routed names offered (noted.withServers _)
    · rw [stopped.ending_bind]
      exact .stopped routed names offered
  | false =>
    -- the export is refused, and the provider is taken out of its table again
    obtain ⟨h₂, exported, noted⟩ := exportOn_refused s (names₁.trans names)
    rw [exported.ending_bind]
    have path : (h₂.urls.get (h.addressOf p)).path = h.pathOf p := by
      rw [path_refused noted, urls]
      rfl
    simp only [reduceCtorEq, if_false, ending_lift_bind, ending_pure, value_getUrl, after_getUrl,
      path]
    exact .refused routed names (unrouteOn_refused ((routed.registering.tableOf s).trans table)
      noted .error
      ["导出服务 ", h.pathOf p, " 失败: ", Status.registryNotFound.reason, "\n"])

theorem destroyProviderOf_within {h : Host} {e : ExporterRef} {p : ProviderRef}
    (holds : (h.exporters.get e).provider = some p) :
    Host.Noted { h with backends := h.retiring p } ((destroyProviderOf e).after h) := by
  unfold destroyProviderOf
  rw [Step.after_bind, Step.value_get, Step.after_get, holds]
  exact destroyProvider_within p h

variable {e : ExporterRef} {old : ProviderRef} {registries : List RegistryRef}

theorem tablesWithout_routed {h₁ : Host} (routed : (h.routing t p).Noted h₁) (differ : p ≠ old)
    (same : h.pathOf old = h.pathOf p) : h₁.tablesWithout t old = h₁.tables := by
  have found : (h₁.tables.get t).find? (h₁.pathOf old) = some p := by
    rw [routed.registering.tables, routed.registering.pathOf]
    show ((h.tables.modify t _).get t).find? (h.pathOf old) = some p
    rw [Store.get_modify_self, same, Keyed.find?_insert_self]
  unfold tablesWithout
  rw [found, if_neg (by simpa using differ)]

theorem unexport_superseded {h₁ : Host} (table : h.tableOf s = some t) (differ : p ≠ old)
    (serves : h.Serves s (h.pathOf p) e old registries) (routed : (h.routing t p).Noted h₁) :
    (∃ h₂ h₃, Superseding h t e old registries p h₁ h₂ h₃ ∧ (unexport e).Yields h₁ .ok h₃) ∨
      ∃ fault h', (unregisterAll (h.addressOf old) registries).Fails h₁ fault h' ∧
        (unexport e).Fails h₁ fault h' := by
  have exporters : h₁.exporters = h.exporters := routed.registering.exporters
  have holds : h₁.exporters.get e = ready (h.addressOf old) registries
      (h.servers.get s).endpoint old := by
    rw [exporters]
    exact serves.exporter
  have table₁ : (h₁.endpoints.get (h.servers.get s).endpoint).table = some t := by
    rw [routed.registering.endpoints]
    exact table
  rcases unexport_ready holds table₁ with ⟨h₂, h₃, withdrew, run, noted⟩ | stopped
  · have registering := unregisterAll_registering withdrew.after_eq
    rw [tablesWithout_routed routed differ serves.located, ← registering.tables, exporters]
      at noted
    exact Or.inl ⟨h₂, h₃, ⟨routed, withdrew, noted⟩, run⟩
  · exact Or.inr stopped

namespace Superseding

variable {h₁ h₂ h₃ : Host} (replaced : Superseding h t e old registries p h₁ h₂ h₃)

include replaced

theorem registering : h₁.Registering h₂ :=
  unregisterAll_registering replaced.withdrew.after_eq

theorem urls : h₃.urls = h.urls := by
  rw [replaced.unexported.registering.urls]
  exact replaced.registering.urls.trans replaced.routed.registering.urls

theorem servers : h₃.servers = h.servers := by
  rw [replaced.unexported.registering.servers]
  exact replaced.registering.servers.trans replaced.routed.registering.servers

theorem backends : h₃.backends = h.backends := by
  rw [replaced.unexported.registering.backends]
  exact replaced.registering.backends.trans replaced.routed.registering.backends

theorem providers : h₃.providers = h.providers := by
  rw [replaced.unexported.registering.providers]
  exact replaced.registering.providers.trans replaced.routed.registering.providers

theorem endpoints : h₃.endpoints = h.endpoints := by
  rw [replaced.unexported.registering.endpoints]
  exact replaced.registering.endpoints.trans replaced.routed.registering.endpoints

theorem tables : h₃.tables = h₁.tables := by
  rw [replaced.unexported.registering.tables]
  exact replaced.registering.tables

theorem exporters : h₃.exporters = h.exporters.modify e withdrawn :=
  replaced.unexported.registering.exporters

theorem backendOf (q : ProviderRef) : h₃.backendOf q = h.backendOf q := by
  unfold Host.backendOf
  rw [replaced.backends, replaced.providers]

theorem addressOf (q : ProviderRef) : h₃.addressOf q = h.addressOf q :=
  congrArg Backend.url (replaced.backendOf q)

theorem pathOf (q : ProviderRef) : h₃.pathOf q = h.pathOf q := by
  unfold Host.pathOf
  rw [replaced.urls, replaced.addressOf]

theorem namesRegistries (q : ProviderRef) : h₃.namesRegistries q = h.namesRegistries q := by
  unfold Host.namesRegistries
  rw [replaced.urls, replaced.addressOf]

theorem tableOf (s : ServerRef) : h₃.tableOf s = h.tableOf s := by
  unfold Host.tableOf
  rw [replaced.endpoints, replaced.servers]

theorem exporterAt (s : ServerRef) (path : String) :
    h₃.exporterAt s path = h.exporterAt s path := by
  unfold Host.exporterAt
  rw [replaced.servers]

theorem tablesWithout (t' : TableRef) (q : ProviderRef) :
    h₃.tablesWithout t' q = h₁.tablesWithout t' q := by
  refine tablesWithout_congr replaced.tables ?_ t'
  rw [replaced.pathOf, replaced.routed.registering.pathOf]
  rfl

end Superseding

namespace Superseding

variable {h₁ h₂ h₃ h₄ h₅ : Host} {accepting : List RegistryRef}
  (replaced : Superseding h t e old registries p h₁ h₂ h₃)

include replaced

theorem fresh : h₃.exporters.fresh = h.exporters.fresh := by
  rw [replaced.exporters]
  rfl

theorem exporter_added (known : h.exporters.Allocated e)
    (exporter : h.exporters.get e = h.exporterOf s old registries) (a : Exporter) :
    (h₃.exporters.add a).get e = withdrawn (h.exporterOf s old registries) := by
  have kept : (h.exporters.modify e withdrawn).Allocated e := known
  rw [replaced.exporters, Store.get_add_ne _ kept.ne_fresh, Store.get_modify_self, exporter]

theorem retiring (registering : (h₃.offering s p).Registering h₄)
    (noted : Host.Noted { h₄ with exporters := h₃.exporting s p accepting } h₅) :
    h₅.retiring old = h.retiring old := by
  refine retiring_congr ?_ ?_ old
  · exact (noted.registering.backends.trans registering.backends).trans replaced.backends
  · exact (noted.registering.providers.trans registering.providers).trans replaced.providers

/-- The old exporter still has the old provider, whose backend is destroyed. -/
theorem retired (known : h.exporters.Allocated e)
    (exporter : h.exporters.get e = h.exporterOf s old registries)
    (registering : (h₃.offering s p).Registering h₄)
    (noted : Host.Noted { h₄ with exporters := h₃.exporting s p accepting } h₅) :
    Host.Noted { h₄ with exporters := h₃.exporting s p accepting, backends := h.retiring old }
      ((destroyProviderOf e).after h₅) := by
  have holds : (h₅.exporters.get e).provider = some old := by
    rw [noted.registering.exporters]
    exact congrArg Exporter.provider (replaced.exporter_added known exporter _)
  have gone := destroyProviderOf_within holds
  rw [replaced.retiring registering noted] at gone
  exact Course.trans (noted.withBackends _) gone

end Superseding

namespace Superseding

-- The new provider is refused and taken out of its table.
variable {h₁ h₂ h₃ h₄ : Host} (replaced : Superseding h t e old registries p h₁ h₂ h₃)
  (unrouted : Host.Noted { h₃.opening p with tables := h₁.tablesWithout t p } h₄)

include replaced unrouted

theorem servers_unrouted : h₄.servers = h.servers :=
  unrouted.registering.servers.trans replaced.servers

theorem backends_unrouted : h₄.backends = h.backends :=
  unrouted.registering.backends.trans replaced.backends

theorem providers_unrouted : h₄.providers = h.providers :=
  unrouted.registering.providers.trans replaced.providers

theorem backendOf_unrouted (q : ProviderRef) : h₄.backendOf q = h.backendOf q :=
  (unrouted.registering.backendOf q).trans (replaced.backendOf q)

theorem tableOf_unrouted (s : ServerRef) : h₄.tableOf s = h.tableOf s :=
  (unrouted.registering.tableOf s).trans (replaced.tableOf s)

theorem pathOf_unrouted (q : ProviderRef) : h₄.pathOf q = h.pathOf q :=
  (unrouted.registering.pathOf q).trans ((pathOf_opening h₃ p q).trans (replaced.pathOf q))

theorem exporter_unrouted (known : h.exporters.Allocated e)
    (exporter : h.exporters.get e = h.exporterOf s old registries) :
    h₄.exporters.get e = withdrawn (h.exporterOf s old registries) := by
  rw [unrouted.registering.exporters]
  exact replaced.exporter_added known exporter _

theorem exporters_unrouted : h.exporters.next ≤ h₄.exporters.next := by
  rw [unrouted.registering.exporters]
  show _ ≤ (h₃.exporters.add _).next
  rw [replaced.exporters]
  exact Nat.le_succ _

end Superseding

theorem deploy_served (table : h.tableOf s = some t) (address : h.addressOf p = u)
    (differ : p ≠ old) (serves : h.Serves s (h.pathOf p) e old registries) :
    Changeover h s t e old registries p ((deployProvider s u p).ending h) := by
  subst address
  unfold deployProvider
  have routed := routeOn_within table p
  generalize leaves : (routeOn s p).after h = h₁ at routed
  have found : (h₁.servers.get s).exporters.find? (h₁.urls.get (h.addressOf p)).path = some e := by
    rw [routed.registering.servers, routed.registering.urls]
    exact serves.kept
  simp only [ending_lift_bind, ending_get_bind, value_getUrl, after_getUrl, leaves, found]
  -- the export for the old provider is taken back, or ends where a registry ends it
  rcases unexport_superseded table differ serves routed with
    ⟨h₂, h₃, replaced, run⟩ | ⟨fault, h', withdrew, stopped⟩
  · rw [run.ending_bind]
    have names₃ := replaced.namesRegistries p
    cases names : h.namesRegistries p with
    | true =>
      rcases exportOn_named h₃ s (names₃.trans names) with
        ⟨accepting, h₄, h₅, offered, exported, noted⟩ | ⟨fault, h', offered, stopped⟩
      · rw [exported.ending_bind]
        have registering := offer_registering offered.after_eq
        have retired := replaced.retired serves.known serves.exporter registering noted
        generalize gone : (destroyProviderOf e).after h₅ = h₆ at retired
        have path : (h₅.urls.get (h.addressOf p)).path = h.pathOf p := by
          rw [path_exported registering noted, replaced.urls]
          rfl
        have servers : h₆.keeping s (h.pathOf p) h₃.exporters.fresh =
            h.keeping s (h.pathOf p) h.exporters.fresh :=
          (keeping_congr s _ (retired.registering.servers.trans noted.registering.servers.symm)
            _).trans (keeping_exported replaced.servers replaced.fresh registering noted _)
        simp only [if_true, ending_lift_bind, ending_pure, value_getUrl, after_getUrl, path,
          gone, after_keepExporter, servers]
        exact .accepted replaced names offered (retired.withServers _)
      · rw [stopped.ending_bind]
        exact .stopped replaced names offered
    | false =>
      -- the new provider is refused and taken out, and the old one is put back
      obtain ⟨h₄, exported, noted⟩ := exportOn_refused s (names₃.trans names)
      rw [exported.ending_bind]
      have path : (h₄.urls.get (h.addressOf p)).path = h.pathOf p := by
        rw [path_refused noted, replaced.urls]
        rfl
      simp only [reduceCtorEq, if_false, ending_lift_bind, value_getUrl, after_getUrl, path]
      have cleared := unrouteOn_refused ((replaced.tableOf s).trans table) noted .error
        ["导出服务 ", h.pathOf p, " 失败: ", Status.registryNotFound.reason, "\n"]
      rw [replaced.tablesWithout] at cleared
      generalize (unrouteOn s p).after _ = h₅ at cleared
      have holds : (h₅.exporters.get e).provider = some old := congrArg Exporter.provider
        (replaced.exporter_unrouted cleared serves.known serves.exporter)
      rw [ending_bind_pure]
      exact .refused replaced names cleared
        (restore_cases ((replaced.tableOf_unrouted cleared s).trans table) holds)
  · rw [stopped.ending_bind]
    exact .stuck routed withdrew

/-- Exporting a service prepares a provider, where there is one, and deploys it. -/
theorem exportService_cases (s : ServerRef) (u : UrlRef) (service : Option Service)
    (terminated : h.Terminated) :
    (((h.extensions.get (h.servers.get s).extensions).backendFor u (h.urls.get u) = none ∧
      ∃ h', h.Noted h' ∧ h.Silent h' ∧ (exportService s u service).Yields h .noProvider h')) ∨
    ∃ p mid, h.Prepared (h.servers.get s).extensions u service p mid ∧ h.Silent mid ∧
      (exportService s u service).ending h = (deployProvider s u p).ending mid := by
  unfold exportService
  cases found : (h.extensions.get (h.servers.get s).extensions).backendFor u (h.urls.get u) with
  | none =>
    obtain ⟨nothing, noted⟩ := makeProvider_none found
    refine Or.inl ⟨rfl, ?_⟩
    unfold Yields
    simp only [ending_get_bind, ending_lift_bind, ending_pure, nothing]
    exact ⟨_, Course.trans noted (writeLog_within _ _ _),
      Course.trans (makeProvider_silent _ u h) (writeLog_silent _ _ _), rfl⟩
  | some b =>
    obtain ⟨p, mid, made, prepared⟩ := prepared_of_backend (h.servers.get s).configuration service
      terminated found
    have leaves : (makeProvider (h.servers.get s).extensions u).after h = mid :=
      congrArg Prod.snd made
    have silent : h.Silent mid := leaves ▸ makeProvider_silent _ u h
    refine Or.inr ⟨_, _, prepared, Course.trans silent (Course.trans (setService_silent p service _)
      (wrapProvider_silent _ _ _ _)), ?_⟩
    have gives : (makeProvider (h.servers.get s).extensions u).value h = some p :=
      congrArg Prod.fst made
    simp only [ending_get_bind, ending_lift_bind, gives, leaves]

theorem unexportService_unserved {path : String} (unserved : h.exporterAt s path = none) :
    ∃ h', h.Noted h' ∧ (unexportService s path).Yields h .serviceNotFound h' := by
  refine ⟨_, writeLog_within .warning ["服务 ", path, " 没有导出\n"] h, ?_⟩
  unfold exporterAt at unserved
  unfold Yields unexportService
  simp only [ending_get_bind, ending_lift_bind, ending_pure, unserved]

theorem Host.routeAt_of_table (table : h.tableOf s = some t) (path : String) :
    h.routeAt s path = (h.tables.get t).find? path := by
  unfold Host.routeAt
  rw [table]
  rfl

structure Retiring (h : Host) (t : TableRef) (path : String) (e : ExporterRef)
    (p : ProviderRef) (registries : List RegistryRef) (h₁ h' : Host) : Prop where
  withdrew : (unregisterAll (h.addressOf p) registries).Yields h () h₁
  removed : Host.Noted { h₁ with
    tables := h.tables.modify t fun routes => routes.erase path
    exporters := h.exporters.modify e withdrawn
    backends := h.retiring p } h'

theorem retire_cases {path : String} (table : h.tableOf s = some t)
    (holds : h.Holds s path e p registries) :
    (∃ h₁ h', Retiring h t path e p registries h₁ h' ∧ (retire e).Yields h .ok h') ∨
      ∃ fault h', (unregisterAll (h.addressOf p) registries).Fails h fault h' ∧
        (retire e).Fails h fault h' := by
  have found : (h.tables.get t).find? (h.pathOf p) = some p := by
    rw [holds.located, ← routeAt_of_table table]
    exact holds.route
  have tables : h.tablesWithout t p = h.tables.modify t fun routes => routes.erase path := by
    unfold tablesWithout
    rw [if_pos found, holds.located]
  -- the table loses the provider, as it stands at its path
  rcases unexport_ready holds.exporter table with ⟨h₁, h₂, withdrew, run, noted⟩ |
      ⟨fault, h', withdrew, stopped⟩
  · left
    have registering := unregisterAll_registering withdrew.after_eq
    have provider : (h₂.exporters.get e).provider = some p := by
      rw [noted.registering.exporters]
      show ((h.exporters.modify e withdrawn).get e).provider = some p
      rw [Store.get_modify_self, holds.exporter]
      rfl
    have retired := destroyProviderOf_within provider
    have backends : h₂.retiring p = h.retiring p :=
      retiring_congr (noted.registering.backends.trans registering.backends)
        (noted.registering.providers.trans registering.providers) p
    rw [backends] at retired
    rw [tables] at noted
    refine ⟨h₁, _, ⟨withdrew, Course.trans (noted.withBackends _) retired⟩, ?_⟩
    unfold Yields retire
    rw [run.ending_bind]
    simp only [ending_lift_bind, ending_pure]
  · right
    refine ⟨fault, h', withdrew, ?_⟩
    unfold Fails retire
    exact stopped.ending_bind _

theorem Host.Holds.withServers {path : String} (holds : h.Holds s path e p registries)
    (servers : Store .server Server)
    (endpoint : (servers.get s).endpoint = (h.servers.get s).endpoint) :
    Host.Holds { h with servers } s path e p registries := by
  refine ⟨holds.known, ?_, holds.made, holds.backed, holds.available, holds.located, ?_⟩
  · unfold exporterOf
    rw [endpoint]
    exact holds.exporter
  · unfold Host.routeAt Host.tableOf
    rw [endpoint]
    exact holds.route

theorem Host.endpoint_dropping (h : Host) (s : ServerRef) (path : String) :
    ((h.dropping s path).get s).endpoint = (h.servers.get s).endpoint := by
  rw [get_dropping]

theorem unexportService_served {path : String} (served : h.exporterAt s path = some e) :
    (unexportService s path).ending h =
      (retire e).ending { h with servers := h.dropping s path } := by
  unfold exporterAt at served
  unfold unexportService
  simp only [ending_get_bind, ending_lift_bind, served, after_dropExporter]

end RpcHost
