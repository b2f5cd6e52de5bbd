import RpcHost.Proofs.Ledger
import RpcHost.Proofs.Rollback
import RpcHost.Proofs.Resemblance
/-!
A service that stays at its path along the runs of its server. For as long as its registries
can be found as when it was exported, a refused redeployment leaves all of it as it was.
-/
namespace RpcHost

open Attempt Host

variable {h h' start : Host} {s : ServerRef} {t : TableRef} {x : ExtensionsRef}
  {c : ConfigurationRef} {u : UrlRef} {p old : ProviderRef} {e e' : ExporterRef}
  {registries registries' : List RegistryRef} {path : String} {service : Option Service}
  {status : Status} {commands : List Command} {spared : String → Prop}

theorem kept_of_offered {h₁ h₂ : Host} {accepted : List RegistryRef}
    {backends : Store .backend Backend} {servers : Store .server Server}
    (offered : (offer h₁ s p).Yields (h₁.offering s p) registries h₂)
    (leaves : Host.Noted { h₂ with
      exporters := h₁.exporting s p registries, backends, servers } h')
    (server : ∃ exporters, servers.get s = { h₁.servers.get s with exporters })
    (backend : backends.get (h₁.providers.get p).backend = h₁.backendOf p)
    (direct : h₁.Direct (h₁.servers.get s).extensions)
    (clear : h₁.Unambiguous (h₁.servers.get s).configuration)
    (names : h₁.namesRegistries p = true)
    (serves : h'.Serves s path h₁.exporters.fresh p accepted) :
    h'.Kept s path p h₁.exporters.fresh accepted := by
  obtain ⟨listable, lists⟩ := offered_direct offered direct clear names
  have registering := offer_registering offered.after_eq
  have exporter : h'.exporters.get h₁.exporters.fresh = h₁.exporterOf s p registries := by
    rw [leaves.registering.exporters]
    exact h₁.exporters.get_add_fresh _
  obtain rfl : accepted = registries :=
    congrArg Exporter.registries (serves.exporter.symm.trans exporter)
  have own : h'.backendOf p = h₁.backendOf p := by
    unfold Host.backendOf
    rw [leaves.registering.backends, leaves.registering.providers]
    show backends.get (h₂.providers.get p).backend = _
    rw [registering.providers]
    exact backend
  have address : h'.addressOf p = h₂.addressOf p :=
    (congrArg Backend.url own).trans (registering.addressOf p).symm
  have enrolling : Enrolling (h₂.servers.get s).extensions (h₂.servers.get s).configuration
      (fun _ => False) h₂ h' :=
    (Course.refl h₂ : Enrolling _ _ _ h₂ h₂).onto leaves rfl rfl rfl fun _ => .refl _
  refine ⟨listable.transfer enrolling.toAbiding ?_ address (by rw [leaves.registering.urls]),
    serves, ?_⟩
  · obtain ⟨exporters, same⟩ := server
    refine ⟨exporters, ?_⟩
    have servers : h₂.servers = h₁.servers := registering.servers
    rw [leaves.registering.servers, servers]
    exact same
  · rw [leaves.registries, address, leaves.registering.urls]
    exact lists

theorem kept_of_routed {h₁ h₂ : Host} (routed : (h.routing t p).Noted h₁)
    (names : h.namesRegistries p = true)
    (offered : (offer h₁ s p).Yields (h₁.offering s p) registries h₂)
    (leaves : Host.Noted { h₂ with
      exporters := h₁.exporting s p registries
      servers := h.keeping s (h.pathOf p) h.exporters.fresh } h')
    (table : h.tableOf s = some t) (made : h.providers.Allocated p)
    (backed : h.backends.Allocated (h.providers.get p).backend)
    (available : (h.backendOf p).available = true)
    (direct : h.Direct (h.servers.get s).extensions)
    (clear : h.Unambiguous (h.servers.get s).configuration) :
    h'.Kept s (h.pathOf p) p h.exporters.fresh registries := by
  have serves := serves_routed table routed offered.after_eq leaves made backed available
  have servers : h₁.servers = h.servers := routed.registering.servers
  have fresh := fresh_routed routed
  have begins : Enrolling (h.servers.get s).extensions (h.servers.get s).configuration
      (fun _ => False) h h₁ :=
    (Course.refl h : Enrolling _ _ _ h h).onto routed rfl rfl rfl fun _ => .refl _
  rw [← fresh] at serves leaves ⊢
  have registering := offer_registering offered.after_eq
  refine kept_of_offered offered leaves ?_ ?_ ?_ ?_ ?_ serves
  · rw [servers]
    exact ⟨_, h.get_keeping s _ _⟩
  · rw [registering.backends]
    rfl
  · rw [servers]
    exact begins.direct direct
  · rw [servers]
    exact begins.unambiguous clear
  · rw [namesRegistries_routed routed]
    exact names

theorem Opening.kept (opening : Opening h s t p (.ok .ok, h')) (table : h.tableOf s = some t)
    (made : h.providers.Allocated p) (backed : h.backends.Allocated (h.providers.get p).backend)
    (available : (h.backendOf p).available = true)
    (direct : h.Direct (h.servers.get s).extensions)
    (clear : h.Unambiguous (h.servers.get s).configuration) :
    ∃ e registries, h'.Kept s (h.pathOf p) p e registries := by
  cases opening with
  | accepted routed names offered leaves =>
    exact ⟨_, _, kept_of_routed routed names offered leaves table made backed available direct
      clear⟩

theorem Changeover.kept (changeover : Changeover h s t e old registries p (.ok .ok, h'))
    (table : h.tableOf s = some t) (made : h.providers.Allocated p)
    (backed : h.backends.Allocated (h.providers.get p).backend)
    (available : (h.backendOf p).available = true)
    (differ : (h.providers.get p).backend ≠ (h.providers.get old).backend)
    (direct : h.Direct (h.servers.get s).extensions)
    (clear : h.Unambiguous (h.servers.get s).configuration) :
    ∃ e registries, h'.Kept s (h.pathOf p) p e registries := by
  obtain ⟨⟨accepted, serves⟩, _⟩ := changeover.serves table made backed available differ
  obtain ⟨h₁, h₂, h₃, h₄, registries, replaced, names, offered, leaves⟩ :=
    changeover.accepted_cases
  have servers : h₃.servers = h.servers := replaced.servers
  have begins : Enrolling (h.servers.get s).extensions (h.servers.get s).configuration
      (fun _ => False) h h₃ := replaced.enrolling id
  rw [← replaced.fresh] at serves leaves
  have registering := offer_registering offered.after_eq
  have own := replaced.backendOf p
  refine ⟨_, accepted, kept_of_offered offered leaves ?_ ?_ ?_ ?_ ?_ serves⟩
  · rw [servers]
    exact ⟨_, h.get_keeping s _ _⟩
  · rw [own, replaced.providers]
    exact Host.get_retiring_ne _ differ
  · rw [servers]
    exact begins.direct direct
  · rw [servers]
    exact begins.unambiguous clear
  · rw [replaced.namesRegistries]
    exact names

theorem Host.Grown.listing {mid : Host} (grown : h.Grown mid)
    (direct : h.Direct (h.servers.get s).extensions)
    (clear : h.Unambiguous (h.servers.get s).configuration) :
    mid.Direct (mid.servers.get s).extensions ∧
      mid.Unambiguous (mid.servers.get s).configuration := by
  have enrolling : Enrolling (h.servers.get s).extensions (h.servers.get s).configuration
      (fun _ => False) h mid := grown.enrolling
  rw [grown.servers]
  exact ⟨enrolling.direct direct, enrolling.unambiguous clear⟩

namespace Deployed

variable {result : Except Fault Status}

theorem enrolling (deployed : Deployed h s t u service (result, h'))
    (differ : ∀ e old registries, h.Serves s (h.urls.get u).path e old registries →
      ¬spared (h.urls.get (h.addressOf old)).identity) :
    Enrolling (h.servers.get s).extensions (h.servers.get s).configuration spared h h' := by
  cases deployed with
  | unmade _ noted => exact noted.enrolling
  | first _ prepared opening =>
    refine Course.trans prepared.grown.enrolling (opening.enrolling ?_ ?_)
    · rw [prepared.grown.servers]
    · rw [prepared.grown.servers]
  | again serves prepared changeover =>
    refine Course.trans prepared.grown.enrolling (changeover.enrolling ?_ ?_ ?_)
    · rw [prepared.grown.servers]
    · rw [prepared.grown.servers]
    · rw [prepared.grown.addressOf serves.made serves.backed, prepared.grown.urls]
      exact differ _ _ _ serves

theorem kept (deployed : Deployed h s t u service (.ok .ok, h')) (table : h.tableOf s = some t)
    (direct : h.Direct (h.servers.get s).extensions)
    (clear : h.Unambiguous (h.servers.get s).configuration)
    (route : h'.routeAt s (h.urls.get u).path = some p) :
    ∃ e registries, h'.Kept s (h.urls.get u).path p e registries := by
  cases deployed with
  | @first _ _ q _ _ prepared opening =>
    obtain ⟨direct', clear'⟩ := prepared.grown.listing direct clear
    obtain ⟨e, registries, kept⟩ := opening.kept ((prepared.grown.tableOf s).trans table)
      prepared.known prepared.backed prepared.addressOf.2 direct' clear'
    rw [prepared.pathOf] at kept
    obtain rfl : q = p := Option.some.inj (kept.serves.route.symm.trans route)
    exact ⟨e, registries, kept⟩
  | @again _ _ q old e registries _ before prepared changeover =>
    obtain ⟨direct', clear'⟩ := prepared.grown.listing direct clear
    obtain ⟨e, registries, kept⟩ := changeover.kept ((prepared.grown.tableOf s).trans table)
      prepared.known prepared.backed prepared.addressOf.2
      (prepared.backend_ne before.made before.backed) direct' clear'
    rw [prepared.pathOf] at kept
    obtain rfl : q = p := Option.some.inj (kept.serves.route.symm.trans route)
    exact ⟨e, registries, kept⟩

theorem restores (deployed : Deployed h s t u service (.ok status, h'))
    (table : h.tableOf s = some t) (refused : status ≠ .ok)
    (kept : h.Kept s (h.urls.get u).path p e registries) :
    (∃ e', h'.Kept s (h.urls.get u).path p e' registries) ∧
      (∀ r, h'.registries.get r = h.registries.get r) ∧ h'.tables = h.tables ∧
      h'.backendOf p = h.backendOf p := by
  cases deployed with
  | unmade _ noted =>
    refine ⟨⟨e, kept.grown noted.grown⟩, fun r => ?_, noted.registering.tables,
      noted.registering.backendOf p⟩
    rw [noted.registries]
  | first unserved =>
    rw [kept.serves.kept] at unserved
    cases unserved
  | @again mid _ q old e₁ registries₁ _ serves prepared changeover =>
    obtain ⟨rfl, rfl, rfl⟩ := kept.serves.unique serves
    have there := kept.grown prepared.grown
    rw [← prepared.pathOf] at there ⊢
    obtain ⟨again, lists, tables, own⟩ :=
      changeover.restores refused there ((prepared.grown.tableOf s).trans table)
    refine ⟨again, fun r => ?_, ?_, ?_⟩
    · rw [lists, prepared.grown.registries]
    · rw [tables, prepared.grown.tables]
    · rw [own, prepared.grown.backendOf kept.serves.made kept.serves.backed]

end Deployed

def Host.Distinct (h : Host) (s : ServerRef) : Prop :=
  ∀ path other p q, path ≠ other → h.routeAt s path = some p → h.routeAt s other = some q →
    (h.urls.get (h.addressOf p)).identity ≠ (h.urls.get (h.addressOf q)).identity

structure Url.Steadfast (u v : Url) : Prop where
  fields : v = { u with params := v.params }
  registries : v.params.find? registryKey = u.params.find? registryKey

/-- What clients may do between operations for as long as they care for the service of `p`:
its address stays, and its names lead where they led. -/
structure Host.Guarded (s : ServerRef) (p : ProviderRef) (h h' : Host) : Prop where
  calm : h.Calm s h'
  abiding : Abiding (h.servers.get s).extensions (h.servers.get s).configuration
    (· = (h.urls.get (h.addressOf p)).identity) h h'
  own : (h.urls.get (h.addressOf p)).Steadfast (h'.urls.get (h.addressOf p))
  distinct : h'.Distinct s

/-- The books are in order, and where the path leads to the provider it is kept there. -/
structure Host.Holding (h : Host) (s : ServerRef) (path : String) (p : ProviderRef) : Prop where
  coherent : h.Coherent s
  made : h.providers.Allocated p
  kept : h.routeAt s path = some p → ∃ e registries, h.Kept s path p e registries

theorem Host.Kept.elsewhere_deployed {result : Except Fault Status}
    (kept : h.Kept s path p e registries) (distinct : h.Distinct s)
    (deployed : Deployed h s t u service (result, h')) (table : h.tableOf s = some t)
    (differ : path ≠ (h.urls.get u).path) : h'.Kept s path p e registries := by
  have enrolling : Enrolling (h.servers.get s).extensions (h.servers.get s).configuration
      (· = (h.urls.get (h.addressOf p)).identity) h h' := deployed.enrolling
    fun _ old _ serves => distinct _ _ old p (Ne.symm differ) serves.route kept.serves.route
  rcases deployed.elsewhere table with apart | ⟨e', old, _, serves, apart⟩
  · exact kept.elsewhere apart differ (by simp) (by simp) enrolling.toAbiding
  · obtain ⟨exporter, backend⟩ := serves.toHolds.spared kept.serves.toHolds differ
    exact kept.elsewhere apart differ exporter backend enrolling.toAbiding

theorem Host.Kept.elsewhere_retired {h₁ : Host} {other : String}
    (kept : h.Kept s path p e registries) (distinct : h.Distinct s)
    (serves : h.Serves s other e' old registries')
    (retiring : Retiring { h with servers := h.dropping s other } t other e' old registries' h₁ h')
    (table : h.tableOf s = some t) (differ : path ≠ other) : h'.Kept s path p e registries := by
  have begins : Enrolling (h.servers.get s).extensions (h.servers.get s).configuration
      (· = (h.urls.get (h.addressOf p)).identity) h { h with servers := h.dropping s other } :=
    .of_eq rfl rfl rfl fun _ => .refl _
  have enrolling := Course.trans begins (retiring.enrolling
    (distinct _ _ old p (Ne.symm differ) serves.route kept.serves.route))
  obtain ⟨exporter, backend⟩ := serves.toHolds.spared kept.serves.toHolds differ
  exact kept.elsewhere (retiring.apart table) differ exporter backend enrolling.toAbiding

theorem Host.Kept.asked (kept : h.Kept s path p e registries) (asked : h.Asked t h')
    (table : h.tableOf s = some t) : h'.Kept s path p e registries := by
  have quiet := congrArg Backend.url (asked.backends (h.providers.get p).backend)
  rw [Backend.url_quiet, Backend.url_quiet] at quiet
  have enrolling : Enrolling (h.servers.get s).extensions (h.servers.get s).configuration
      (fun _ => False) h h' := by
    obtain ⟨_, _, _, _, _, _, rfl⟩ := asked.rest
    exact .of_eq rfl rfl rfl fun _ => .refl _
  have address : h'.addressOf p = h.addressOf p := by
    obtain ⟨_, _, _, _, _, _, rfl⟩ := asked.rest
    exact quiet
  have serves := asked.serves table kept.serves
  obtain ⟨_, _, _, _, _, _, same⟩ := asked.rest
  refine ⟨kept.transfer enrolling.toAbiding ⟨_, by rw [same]⟩ address (by rw [same]), serves, ?_⟩
  rw [address, same]
  exact kept.lists

theorem Host.Kept.guarded (kept : h.Kept s path p e registries) (moved : h.Guarded s p h') :
    h'.Kept s path p e registries := by
  obtain ⟨_, own, _, _⟩ := moved.calm.1.provider path p kept.serves.route
  have address : h'.addressOf p = h.addressOf p := congrArg Backend.url own
  have identity : (h'.urls.get (h.addressOf p)).identity =
      (h.urls.get (h.addressOf p)).identity := by
    rw [moved.own.fields]
    rfl
  refine ⟨kept.transfer moved.abiding ⟨_, moved.calm.1.server⟩ address moved.own.registries,
    moved.calm.1.holds (fun _ _ same => same) kept.serves, fun r member => ?_⟩
  rw [address, identity]
  exact moved.abiding.lists r _ (kept.known member) rfl (kept.lists r member)

namespace Host.Holding

variable {mid : Host} (holding : h.Holding s path p)

include holding

theorem guarded (moved : h.Guarded s p h') : h'.Holding s path p where
  coherent := moved.calm.1.coherent (fun _ _ same => same) holding.coherent
  made := holding.made.mono moved.calm.1.providers
  kept route := by
    rw [moved.calm.1.routeAt] at route
    obtain ⟨e, registries, kept⟩ := holding.kept route
    exact ⟨e, registries, kept.guarded moved⟩

theorem exported (terminated : h.Terminated) (distinct : h.Distinct s)
    (ends : (exportService s u service).Yields h status h') : h'.Holding s path p := by
  obtain ⟨t, table⟩ := holding.coherent.table
  have deployed := holding.coherent.deployed terminated table ends
  have apart := deployed.steady table
  refine ⟨deployed.coherent holding.coherent table, apart.providers.allocated holding.made,
    fun route => ?_⟩
  by_cases same : path = (h.urls.get u).path
  · subst same
    by_cases accepted : status = .ok
    · subst accepted
      obtain ⟨q, mid, prepared, _, other, _⟩ := deployed.accepted table
      rw [route] at other
      cases other
      exact absurd holding.made prepared.new
    · rcases deployed.route_refused table accepted with before | none
      · obtain ⟨e, registries, kept⟩ := holding.kept (before.symm.trans route)
        obtain ⟨⟨e', again⟩, _⟩ := deployed.restores table accepted kept
        exact ⟨e', registries, again⟩
      · rw [route] at none
        cases none
  · rw [deployed.routeAt_elsewhere table same] at route
    obtain ⟨e, registries, kept⟩ := holding.kept route
    exact ⟨e, registries, kept.elsewhere_deployed distinct deployed table same⟩

theorem unexported {other : String} (distinct : h.Distinct s)
    (ends : (unexportService s other).Yields h status h') : h'.Holding s path p := by
  obtain ⟨t, table⟩ := holding.coherent.table
  have coherent := unexportService_coherent holding.coherent ends
  rcases unexportService_cases holding.coherent table ends with
    ⟨_, _, noted⟩ | ⟨e', old, registries', h₁, _, serves, retiring⟩
  · refine ⟨coherent, noted.grown.providers.allocated holding.made, fun route => ?_⟩
    rw [noted.registering.routeAt] at route
    obtain ⟨e, registries, kept⟩ := holding.kept route
    exact ⟨e, registries, kept.grown noted.grown⟩
  · have apart := retiring.apart table
    refine ⟨coherent, apart.providers.allocated holding.made, fun route => ?_⟩
    by_cases same : path = other
    · subst same
      rw [(retiring.clears table).2] at route
      cases route
    · rw [apart.routeAt same] at route
      obtain ⟨e, registries, kept⟩ := holding.kept route
      exact ⟨e, registries, kept.elsewhere_retired distinct serves retiring table same⟩

theorem handled (fit : h.Fit s) (q : Option RequestRef) :
    ((handle s q).after h).Holding s path p := by
  obtain ⟨t, table⟩ := holding.coherent.table
  have asked := handle_asked (s := s) q (fit.spares t table)
  refine ⟨asked.coherent table holding.coherent, ?_, fun route => ?_⟩
  · obtain ⟨_, _, _, _, _, _, rest⟩ := asked.rest
    rw [rest]
    exact holding.made
  · rw [asked.routeAt table] at route
    obtain ⟨e, registries, kept⟩ := holding.kept route
    exact ⟨e, registries, kept.asked asked table⟩

theorem destroyed {order : Traversal ExporterRef} (ends : (destroyServer order s).Yields h () h') :
    h'.Holding s path p := by
  obtain ⟨steady, _, _, unrouted⟩ := destroyServer_clears holding.coherent ends
  refine ⟨destroyServer_coherent holding.coherent ends, steady.providers.allocated holding.made,
    fun route => ?_⟩
  rw [unrouted] at route
  cases route

end Host.Holding

/-- Whatever is done with the server, the provider is kept for as long as it is routed. -/
theorem Run.holding (run : Run s (Host.Guarded s p) start commands h)
    (holding : start.Holding s path p) (fit : start.Fit s) (distinct : start.Distinct s) :
    h.Holding s path p ∧ h.Fit s ∧ h.Distinct s := by
  have guarded {h h' : Host} (holding : h.Holding s path p) (moved : h.Guarded s p h') :
      h'.Holding s path p ∧ h'.Fit s ∧ h'.Distinct s :=
    ⟨holding.guarded moved, moved.calm.2, moved.distinct⟩
  -- being held alone is not preserved: an operation needs that other paths have other identities
  induction run with
  | start => exact ⟨holding, fit, distinct⟩
  | idled _ moved ih => exact guarded ih.1 moved
  | exported _ ends moved ih => exact guarded (ih.1.exported ih.2.1.terminated ih.2.2 ends) moved
  | unexported _ ends moved ih => exact guarded (ih.1.unexported ih.2.2 ends) moved
  | handled _ moved ih => exact guarded (ih.1.handled ih.2.1 _) moved
  | destroyed _ ends moved ih => exact guarded (ih.1.destroyed ends) moved

/-- The service at the path is as it was, and so is all that is served elsewhere. -/
structure Host.Unshaken (s : ServerRef) (path : String) (p : ProviderRef) (h h' : Host) : Prop where
  route : h'.routeAt s path = some p
  available : (h'.backendOf p).available = true
  answers : ∀ q, (handle s q).value h' = (handle s q).value h
  exporter : ∃ e e', h.exporterAt s path = some e ∧ h'.exporterAt s path = some e' ∧
    (h'.exporters.get e').exported = true ∧ (h'.exporters.get e').provider = some p ∧
      (h'.exporters.get e').registries = (h.exporters.get e).registries
  registries : ∀ r, h'.registries.get r = h.registries.get r
  exporters : ∀ other, other ≠ path → h'.exporterAt s other = h.exporterAt s other ∧
    ∀ e, h.exporterAt s other = some e → h'.exporters.get e = h.exporters.get e
  providers : ∀ other, other ≠ path → h'.routeAt s other = h.routeAt s other ∧
    ∀ q, h.routeAt s other = some q →
      h'.providers.get q = h.providers.get q ∧ h'.backendOf q = h.backendOf q

structure Host.Removed (s : ServerRef) (path : String) (p : ProviderRef) (h h' : Host) : Prop where
  exporter : h'.exporterAt s path = none
  route : h'.routeAt s path = none
  available : (h'.backendOf p).available = false
  registries : ∀ e, h.exporterAt s path = some e → ∀ r,
    if r ∈ (h.exporters.get e).registries then
      (h'.registries.get r).lists (h.urls.get (h.addressOf p)).identity = false
    else h'.registries.get r = h.registries.get r

theorem Host.Holds.untouched {other : String} {b : Option BackendRef}
    {excepted : Option ExporterRef}
    (holds : h.Holds s other e p registries) (apart : Elsewhere s path excepted b h h')
    (exporter : excepted ≠ some e) (backend : b ≠ some (h.providers.get p).backend) :
    h'.exporters.get e = h.exporters.get e ∧ h'.providers.get p = h.providers.get p ∧
      h'.backendOf p = h.backendOf p := by
  have provider := apart.providers.get p holds.made
  refine ⟨apart.exporter e holds.known exporter, provider, ?_⟩
  unfold Host.backendOf
  rw [provider, apart.backend _ holds.backed backend]

theorem Deployed.untouched {result : Except Fault Status}
    (deployed : Deployed h s t u service (result, h')) (table : h.tableOf s = some t)
    (holds : h.Holds s path e p registries) (differ : path ≠ (h.urls.get u).path) :
    h'.exporters.get e = h.exporters.get e ∧ h'.providers.get p = h.providers.get p ∧
      h'.backendOf p = h.backendOf p := by
  rcases deployed.elsewhere table with apart | ⟨_, _, _, there, apart⟩
  · exact holds.untouched apart (by simp) (by simp)
  · obtain ⟨exporter, backend⟩ := there.toHolds.spared holds differ
    exact holds.untouched apart exporter backend

theorem exportService_refused (coherent : h.Coherent s) (terminated : h.Terminated)
    (sound : h.Sound) (kept : h.Kept s (h.urls.get u).path p e registries)
    (ends : (exportService s u service).Yields h status h') (refused : status ≠ .ok) :
    h.Unshaken s (h.urls.get u).path p h' ∧ h'.addressOf p = h.addressOf p ∧
      ∃ e', h'.Kept s (h.urls.get u).path p e' registries := by
  obtain ⟨t, table⟩ := coherent.table
  have deployed := coherent.deployed terminated table ends
  obtain ⟨⟨e', again⟩, lists, tables, own⟩ := deployed.restores table refused kept
  have apart := deployed.around table kept.serves
  refine ⟨⟨again.serves.route, again.serves.available, fun q => ?_, ?_, lists,
    fun other differ => ?_, fun other differ => ?_⟩, congrArg Backend.url own, e', again⟩
  · exact apart.handle_value sound kept.serves.made own tables q
  · refine ⟨e, e', kept.serves.kept, again.serves.kept, ?_, ?_, ?_⟩
    · rw [again.serves.exporter]
      rfl
    · rw [again.serves.exporter]
      rfl
    · rw [again.serves.exporter, kept.serves.exporter]
      rfl
  · refine ⟨apart.exporterAt other differ, fun e₁ found => ?_⟩
    obtain ⟨q, _, serves⟩ := coherent.serves other e₁ found
    obtain ⟨exporter, backend⟩ := kept.serves.toHolds.spared serves.toHolds differ
    exact (serves.toHolds.untouched apart exporter backend).1
  · refine ⟨apart.routeAt differ, fun q route => ?_⟩
    obtain ⟨_, _, serves⟩ := coherent.serves_of_route route
    obtain ⟨exporter, backend⟩ := kept.serves.toHolds.spared serves.toHolds differ
    exact (serves.toHolds.untouched apart exporter backend).2

theorem unexportService_removes (coherent : h.Coherent s)
    (kept : h.Kept s path p e registries) :
    ∃ h', (unexportService s path).Yields h .ok h' ∧ h.Removed s path p h' := by
  obtain ⟨t, table⟩ := coherent.table
  obtain ⟨status, h', ends, _⟩ := unexportService_succeeds (s := s) path kept.direct.civil
  rcases unexportService_cases coherent table ends with
    ⟨_, unserved, _⟩ | ⟨e', p', registries', h₁, rfl, serves, retiring⟩
  · rw [kept.serves.kept] at unserved
    cases unserved
  · obtain ⟨rfl, rfl, rfl⟩ := kept.serves.unique serves
    refine ⟨h', ends, ?_⟩
    obtain ⟨exporter, route⟩ := retiring.clears table
    refine ⟨exporter, route, retiring.destroyed, fun e₁ found r => ?_⟩
    rw [kept.serves.kept] at found
    cases found
    have direct :
        Host.Direct { h with servers := h.dropping s path } (h.servers.get s).extensions :=
      kept.direct.of_eq rfl rfl
    obtain ⟨mid, withdrew, relisted⟩ := unregisterAll_direct registries' direct
      (show (h.urls.get (h.addressOf p')).identity = _ from rfl)
    obtain ⟨-, rfl⟩ := withdrew.unique retiring.withdrew
    have listed : (h.exporters.get e').registries = registries' := by
      rw [kept.serves.exporter]
      rfl
    have same : h'.registries.get r = mid.registries.get r := by rw [retiring.removed.registries]
    rw [listed, same, relisted.get]
    split
    · exact Registry.lists_withdrawn
    · rfl

theorem Host.Distinct.of_routes (distinct : h.Distinct s)
    (routes : ∀ path, h'.routeAt s path = h.routeAt s path)
    (identity : ∀ path p, h.routeAt s path = some p →
      (h'.urls.get (h'.addressOf p)).identity = (h.urls.get (h.addressOf p)).identity) :
    h'.Distinct s := by
  intro path other p q differ route route'
  rw [routes] at route route'
  rw [identity path p route, identity other q route']
  exact distinct path other p q differ route route'

theorem Host.Unshaken.distinct (unshaken : h.Unshaken s path p h') (distinct : h.Distinct s)
    (route : h.routeAt s path = some p) (own : h'.addressOf p = h.addressOf p)
    (urls : ∀ u, (h'.urls.get u).Like (h.urls.get u)) : h'.Distinct s := by
  have routes (other : String) : h'.routeAt s other = h.routeAt s other := by
    by_cases same : other = path
    · rw [same, unshaken.route, route]
    · exact (unshaken.providers other same).1
  refine distinct.of_routes routes fun other q found => ?_
  have address : h'.addressOf q = h.addressOf q := by
    by_cases same : other = path
    · rw [same, route] at found
      cases found
      exact own
    · exact congrArg Backend.url ((unshaken.providers other same).2 q found).2
  rw [address, (urls _).identity]

/-- A service that was exported over direct registries is left as it was by every redeployment
that is refused, whatever was done with the server since, for as long as its names lead where
they led. Afterwards it can still be taken back. -/
theorem Run.refused_redeploy {h₁ h₂ before : Host} {v w : UrlRef} {service' : Option Service}
    {since : List Command} (server : (newServer c x v).value before = s)
    (made : (newServer c x v).after before = start) (fit : start.Fit s)
    (run : Run s (Host.Calm s) start commands h₁)
    (direct : h₁.Direct (h₁.servers.get s).extensions)
    (clear : h₁.Unambiguous (h₁.servers.get s).configuration)
    (exported : (exportService s u service).Yields h₁ .ok h₂)
    (begins : h₂.routeAt s (h₁.urls.get u).path = some p) (distinct : h₂.Distinct s)
    (guarded : Run s (Host.Guarded s p) h₂ since h)
    (route : h.routeAt s (h₁.urls.get u).path = some p) (sound : h.Sound)
    (same : (h.urls.get w).path = (h₁.urls.get u).path)
    (ends : (exportService s w service').Yields h status h') (refused : status ≠ .ok) :
    h.Unshaken s (h₁.urls.get u).path p h' ∧
      ∀ more h₃, Run s (Host.Guarded s p) h' more h₃ →
        h₃.routeAt s (h₁.urls.get u).path = some p →
        ∃ h₄, (unexportService s (h₁.urls.get u).path).Yields h₃ .ok h₄ ∧
          h₃.Removed s (h₁.urls.get u).path p h₄ := by
  obtain ⟨coherent₁, fit₁⟩ := run.coherent (.of_made server made) fit
  obtain ⟨t, table⟩ := coherent₁.table
  -- The export of the service itself: from here on it is kept.
  have deployed := exportService_deployed u service fit₁.terminated table
    (coherent₁.state (h₁.urls.get u).path)
  rw [exported] at deployed
  obtain ⟨e, registries, kept⟩ := deployed.kept table direct clear begins
  obtain ⟨_, yields, coherent₂, fit₂, _⟩ := exportService_orderly u service coherent₁ fit₁
  obtain ⟨-, rfl⟩ := yields.unique exported
  have holding : Host.Holding _ s (h₁.urls.get u).path p :=
    ⟨coherent₂, kept.serves.made, fun _ => ⟨e, registries, kept⟩⟩
  obtain ⟨holding, fit, distinct⟩ := guarded.holding holding fit₂ distinct
  obtain ⟨e, registries, kept⟩ := holding.kept route
  -- The refused redeployment.
  rw [← same] at kept route ⊢
  obtain ⟨unshaken, own, e', again⟩ :=
    exportService_refused holding.coherent fit.terminated sound kept ends refused
  obtain ⟨_, yields, coherent', fit', steady⟩ :=
    exportService_orderly w service' holding.coherent fit
  obtain ⟨-, rfl⟩ := yields.unique ends
  have distinct' := unshaken.distinct distinct route own steady.urls
  refine ⟨unshaken, fun more h₃ later routed => ?_⟩
  have holding' : Host.Holding _ s (h.urls.get w).path p :=
    ⟨coherent', again.serves.made, fun _ => ⟨e', registries, again⟩⟩
  obtain ⟨holding₃, _, _⟩ := later.holding holding' fit' distinct'
  obtain ⟨_, _, kept₃⟩ := holding₃.kept routed
  exact unexportService_removes holding₃.coherent kept₃

namespace Host

theorem route_of_cells {P : String → ProviderRef → Prop}
    (all : ∀ cell ∈ h.tables.cells, ∀ entry ∈ cell.2.entries, P entry.1 entry.2)
    (found : (h.tables.get t).find? path = some p) : P path p := by
  unfold Store.get at found
  cases there : Store.lookup t.index h.tables.cells with
  | none =>
    rw [there] at found
    cases found
  | some routes =>
    rw [there] at found
    have member := (Entries.find?_eq_some_iff routes.sorted).1 found
    exact all _ (Store.mem_of_lookup there) _ member

theorem direct_builtIn (factory : h.extensions.get x = .builtIn)
    (registries : ∀ r, (h.registries.get r).Direct) : h.Direct x := by
  refine ⟨registries, fun protocol maker found => ?_, fun identity r made => ?_⟩
  · rw [factory] at found
    exact ⟨_, Extensions.registry_builtIn found, Or.inl rfl⟩
  · rw [factory] at made
    cases made

theorem direct_sample : ((newServer ⟨0⟩ ⟨0⟩ ⟨1⟩).after sample).Direct ⟨0⟩ :=
  direct_builtIn rfl fun _ => ⟨_, rfl⟩

theorem unambiguous_of_one {name : String} {v : UrlRef}
    (registries : (h.configurations.get c).registries = .ofList [(name, v)]) :
    h.Unambiguous c := by
  have only (other : String) (u : UrlRef) (found : h.registryAddress? c other = some u) :
      u = v := by
    unfold Host.registryAddress? at found
    rw [registries] at found
    have member : (other, u) ∈ [(name, v)] :=
      (Entries.find?_eq_some_iff (Keyed.ofList [(name, v)]).sorted).1 found
    cases List.mem_singleton.1 member
    rfl
  intro name other u w first second _
  rw [only name u first, only other w second]

theorem unambiguous_sample : ((newServer ⟨0⟩ ⟨0⟩ ⟨1⟩).after sample).Unambiguous ⟨0⟩ :=
  unambiguous_of_one rfl

def serving : Host :=
  (exportService ⟨0⟩ ⟨2⟩ (some (.methods ⟨0⟩))).after ((newServer ⟨0⟩ ⟨0⟩ ⟨1⟩).after sample)

theorem routes_serving (found : (serving.tables.get t).find? path = some p) :
    path = "calculator" ∧ p = ⟨1⟩ := by
  have all : ∀ cell ∈ serving.tables.cells, ∀ entry ∈ cell.2.entries,
      entry.1 = "calculator" ∧ entry.2 = ⟨1⟩ := by
    decide +kernel
  exact route_of_cells (P := fun path p => path = "calculator" ∧ p = ⟨1⟩) all found

theorem serving_exported : (exportService ⟨0⟩ ⟨2⟩ (some (.methods ⟨0⟩))).Yields
      ((newServer ⟨0⟩ ⟨0⟩ ⟨1⟩).after sample) .ok serving ∧
    serving.Coherent ⟨0⟩ ∧ serving.Fit ⟨0⟩ := by
  have opened : ((newServer ⟨0⟩ ⟨0⟩ ⟨1⟩).after sample).Coherent ⟨0⟩ :=
    newServer_coherent ⟨0⟩ ⟨0⟩ ⟨1⟩ sample
  obtain ⟨h, accepted, coherent, fit, _⟩ :=
    exportService_orderly ⟨2⟩ (some (.methods ⟨0⟩)) opened fit_sample
  have accepts : ((newServer ⟨0⟩ ⟨0⟩ ⟨1⟩).after sample).exportStatus ⟨0⟩ ⟨2⟩ = .ok := by
    decide +kernel
  have same := accepted.after_eq
  rw [accepts] at accepted
  unfold serving
  rw [same]
  exact ⟨accepted, coherent, fit⟩

theorem distinct_serving : serving.Distinct ⟨0⟩ := by
  intro path other p q differ route route'
  obtain ⟨t, table⟩ := serving_exported.2.1.table
  rw [routeAt_of_table table] at route route'
  exact absurd ((routes_serving route).1.trans (routes_serving route').1.symm) differ

theorem sound_serving : serving.Sound := by
  intro t path p found
  obtain ⟨-, rfl⟩ := routes_serving found
  have layers : (serving.providers.get ⟨1⟩).layers = [terminal] := by decide +kernel
  have made : 1 < serving.providers.next := by decide +kernel
  have backed : (serving.providers.get ⟨1⟩).backend.index < serving.backends.next := by
    decide +kernel
  refine ⟨made, backed, fun head member => ?_⟩
  rw [layers] at member
  cases List.mem_singleton.1 member
  exact ⟨_, serving_exported.2.2.terminated.chain⟩

end Host

theorem Run.refused_redeploy_serving : ∃ h',
    (exportService ⟨0⟩ ⟨3⟩ (some (.methods ⟨0⟩))).Yields .serving .registryNotFound h' ∧
      Host.serving.Unshaken ⟨0⟩ "calculator" ⟨1⟩ h' := by
  obtain ⟨accepted, coherent, fit⟩ := Host.serving_exported
  obtain ⟨h', refused, _⟩ := exportService_orderly ⟨3⟩ (some (.methods ⟨0⟩)) coherent fit
  have refuses : Host.serving.exportStatus ⟨0⟩ ⟨3⟩ = .registryNotFound := by decide +kernel
  rw [refuses] at refused
  have path : (((newServer ⟨0⟩ ⟨0⟩ ⟨1⟩).after .sample).urls.get ⟨2⟩).path = "calculator" := by
    decide +kernel
  have same : (Host.serving.urls.get ⟨3⟩).path = "calculator" := by decide +kernel
  have routed : Host.serving.routeAt ⟨0⟩ "calculator" = some ⟨1⟩ := by decide +kernel
  rw [← path] at routed same
  have unshaken := (Run.refused_redeploy rfl rfl Host.fit_sample .start Host.direct_sample
    Host.unambiguous_sample accepted routed Host.distinct_serving .start routed Host.sound_serving
    same refused (by decide)).1
  rw [path] at unshaken
  exact ⟨h', refused, unshaken⟩

/-- A process whose context has two registry addresses that read the same as a whole, and only
one of which a registry can be made for. -/
def Host.namesakes : Host :=
  furnished .builtIn (.ofList [("a", ⟨0⟩), ("b", ⟨1⟩)])
    [⟨"direct", "h://k", 1, "", "", .empty⟩, ⟨"direct://h", "k", 1, "", "", .empty⟩,
      ⟨"local", "127.0.0.1", 8000, "", "", .empty⟩,
      ⟨"mrpc", "127.0.0.1", 1, "p", "", .ofList [(Url.registryKey, "b")]⟩,
      ⟨"mrpc", "127.0.0.1", 2, "q", "", .ofList [(Url.registryKey, "a")]⟩,
      ⟨"mrpc", "127.0.0.1", 1, "p", "", .empty⟩]

/-- The name of a service that was listed nowhere leads to a registry once another service had
it made. A refused redeployment then lists the service there. -/
theorem redeploy_listed_anew :
    let first := (exportService ⟨0⟩ ⟨3⟩ none).after ((newServer ⟨0⟩ ⟨0⟩ ⟨2⟩).after .namesakes)
    let second := (exportService ⟨0⟩ ⟨4⟩ none).after first
    let third := (exportService ⟨0⟩ ⟨5⟩ none).after second
    ((exportService ⟨0⟩ ⟨5⟩ none).outcome second).toOption = some .registryNotFound ∧
      second.routeAt ⟨0⟩ "p" = some ⟨1⟩ ∧ third.routeAt ⟨0⟩ "p" = some ⟨1⟩ ∧
      (second.exporterAt ⟨0⟩ "p").map (fun e => (second.exporters.get e).registries) = some [] ∧
      (third.exporterAt ⟨0⟩ "p").map (fun e => (third.exporters.get e).registries) = some [⟨0⟩] ∧
      (second.registries.get ⟨0⟩).lists (second.urls.get ⟨3⟩).identity = false ∧
      (third.registries.get ⟨0⟩).lists (third.urls.get ⟨3⟩).identity = true := by
  decide +kernel

end RpcHost
