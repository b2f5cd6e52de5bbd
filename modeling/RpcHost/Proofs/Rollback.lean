import RpcHost.Proofs.Listing
/-!
A refused redeployment over direct registries. What was exported before is taken back and put
back, and in the end all is listed, routed and answered as before.
-/
namespace RpcHost

open Attempt Host

variable {h h' : Host} {s : ServerRef} {t : TableRef} {x : ExtensionsRef} {c : ConfigurationRef}
  {p old : ProviderRef} {e : ExporterRef} {registries : List RegistryRef} {path : String}
  {spared : String → Prop}

namespace Host.Enrolling

variable {mid other : Host} (before : Enrolling x c spared h mid)

include before

theorem onto (noted : other.Noted h') (registries : other.registries = mid.registries)
    (extensions : other.extensions = mid.extensions)
    (configurations : other.configurations = mid.configurations)
    (urls : ∀ u, (other.urls.get u).Like (mid.urls.get u)) : Enrolling x c spared h h' :=
  Course.trans before (Course.trans (.of_eq registries extensions configurations urls)
    noted.enrolling)

theorem offered (offered : (offer mid s p).after (mid.offering s p) = h')
    (extensions : (mid.servers.get s).extensions = x)
    (configuration : (mid.servers.get s).configuration = c) : Enrolling x c spared h h' := by
  have begins : Enrolling x c spared mid (mid.offering s p) :=
    .of_eq rfl rfl rfl fun _ => Url.like_modify _ _ _
  refine Course.trans before (Course.trans begins ?_)
  rw [← offered, ← extensions, ← configuration]
  exact registerAll_enrolling _ _ _

theorem routed (routed : (mid.routing t p).Noted other)
    (offered : (offer other s p).after (other.offering s p) = h')
    (extensions : (mid.servers.get s).extensions = x)
    (configuration : (mid.servers.get s).configuration = c) : Enrolling x c spared h h' := by
  have first := before.onto routed rfl rfl rfl fun _ => .refl _
  have servers : other.servers = mid.servers := routed.registering.servers
  exact first.offered offered (by rwa [servers]) (by rwa [servers])

end Host.Enrolling

theorem Opening.enrolling {result : Except Fault Status} (opening : Opening h s t p (result, h'))
    (extensions : (h.servers.get s).extensions = x)
    (configuration : (h.servers.get s).configuration = c) : Enrolling x c spared h h' := by
  have start : Enrolling x c spared h h := Course.refl h
  cases opening with
  | accepted routed names offered kept =>
    exact (start.routed routed offered.after_eq extensions configuration).onto kept rfl rfl rfl
      fun _ => .refl _
  | stopped routed names offered =>
    exact start.routed routed (Fails.after_eq offered) extensions configuration
  | refused routed lacks unrouted =>
    have first := start.onto routed rfl rfl rfl fun _ => .refl _
    exact first.onto unrouted rfl rfl rfl fun _ => Url.like_modify _ _ _

theorem Restoration.enrolling {result : Except Fault Unit} {start : Host}
    (restoration : Restoration h s t p (result, h')) (before : Enrolling x c spared start h)
    (extensions : (h.servers.get s).extensions = x)
    (configuration : (h.servers.get s).configuration = c) : Enrolling x c spared start h' := by
  cases restoration with
  | restored routed names offered kept =>
    exact (before.routed routed offered.after_eq extensions configuration).onto kept rfl rfl rfl
      fun _ => .refl _
  | stopped routed names offered =>
    exact before.routed routed (Fails.after_eq offered) extensions configuration
  | lost routed lacks dropped =>
    have first := before.onto routed rfl rfl rfl fun _ => .refl _
    exact first.onto dropped rfl rfl rfl fun _ => Url.like_modify _ _ _

theorem Host.Enrolling.withdrew {h₁ h₂ : Host} (routed : (h.routing t p).Noted h₁)
    (withdrew : (unregisterAll (h.addressOf old) registries).after h₁ = h₂)
    (differ : ¬spared (h.urls.get (h.addressOf old)).identity) : Enrolling x c spared h h₂ := by
  have first : Enrolling x c spared h h₁ :=
    (Course.refl h : Enrolling x c spared h h).onto routed rfl rfl rfl fun _ => .refl _
  refine Course.trans first ?_
  rw [← withdrew]
  refine unregisterAll_enrolling registries ?_
  rw [routed.registering.urls]
  exact differ

theorem Superseding.enrolling {h₁ h₂ h₃ : Host}
    (replaced : Superseding h t e old registries p h₁ h₂ h₃)
    (differ : ¬spared (h.urls.get (h.addressOf old)).identity) : Enrolling x c spared h h₃ :=
  (Enrolling.withdrew replaced.routed replaced.withdrew.after_eq differ).onto
    replaced.unexported rfl rfl rfl
    fun _ => .refl _

theorem Superseding.enrolling_unrouted {h₁ h₂ h₃ h₄ : Host}
    (replaced : Superseding h t e old registries p h₁ h₂ h₃)
    (unrouted : Host.Noted { h₃.opening p with tables := h₁.tablesWithout t p } h₄)
    (differ : ¬spared (h.urls.get (h.addressOf old)).identity) : Enrolling x c spared h h₄ :=
  (replaced.enrolling differ).onto unrouted rfl rfl rfl fun _ => Url.like_modify _ _ _

theorem Changeover.enrolling {result : Except Fault Status}
    (changeover : Changeover h s t e old registries p (result, h'))
    (extensions : (h.servers.get s).extensions = x)
    (configuration : (h.servers.get s).configuration = c)
    (differ : ¬spared (h.urls.get (h.addressOf old)).identity) : Enrolling x c spared h h' := by
  cases changeover with
  | stuck routed withdrew => exact .withdrew routed (Fails.after_eq withdrew) differ
  | accepted replaced names offered kept =>
    have servers := replaced.servers
    exact ((replaced.enrolling differ).offered offered.after_eq (by rwa [servers])
      (by rwa [servers])).onto kept rfl rfl rfl fun _ => .refl _
  | stopped replaced names offered =>
    have servers := replaced.servers
    exact (replaced.enrolling differ).offered (Fails.after_eq offered) (by rwa [servers])
      (by rwa [servers])
  | @refused _ _ h₃ h₄ _ _ replaced lacks unrouted restoration =>
    have servers := replaced.servers_unrouted unrouted
    exact restoration.enrolling (replaced.enrolling_unrouted unrouted differ) (by rwa [servers])
      (by rwa [servers])

theorem Retiring.enrolling {h₁ : Host} (retiring : Retiring h t path e p registries h₁ h')
    (differ : ¬spared (h.urls.get (h.addressOf p)).identity) : Enrolling x c spared h h' := by
  have first : Enrolling x c spared h h₁ := by
    rw [← retiring.withdrew.after_eq]
    exact unregisterAll_enrolling registries differ
  exact first.onto retiring.removed rfl rfl rfl fun _ => .refl _

/-- The names of a provider lead to the registries, and will for as long as the context keeps
its addresses. -/
structure Host.Listable (h : Host) (s : ServerRef) (p : ProviderRef)
    (registries : List RegistryRef) : Prop where
  direct : h.Direct (h.servers.get s).extensions
  clear : h.Unambiguous (h.servers.get s).configuration
  names : h.namesRegistries p = true
  resolved : registries = (h.registryNames p).filterMap
    (h.resolve (h.servers.get s).extensions (h.servers.get s).configuration)
  settled : ∀ name ∈ h.registryNames p,
    h.Settled (h.servers.get s).extensions (h.servers.get s).configuration name

/-- A provider is served, and the registries that its names lead to list it. -/
structure Host.Kept (h : Host) (s : ServerRef) (path : String) (p : ProviderRef) (e : ExporterRef)
    (registries : List RegistryRef) : Prop extends h.Listable s p registries where
  serves : h.Serves s path e p registries
  lists : ∀ r ∈ registries,
    (h.registries.get r).lists (h.urls.get (h.addressOf p)).identity = true

theorem List.filterMap_congr_mem {α β : Type} {f g : α → Option β} {l : List α}
    (same : ∀ a ∈ l, f a = g a) : l.filterMap f = l.filterMap g := by
  induction l with
  | nil => rfl
  | cons a rest ih =>
    rw [List.filterMap_cons, List.filterMap_cons, same a List.mem_cons_self,
      ih fun b member => same b (List.mem_cons_of_mem _ member)]

theorem Host.Grown.enrolling (grown : h.Grown h') : Enrolling x c spared h h' := by
  refine .of_eq grown.registries grown.extensions ?_ fun u => ?_
  · obtain ⟨_, _, _, _, _, _, rfl⟩ := grown.rest
    rfl
  · rw [grown.urls]
    exact .refl _

namespace Host.Listable

variable (listable : h.Listable s p registries)

include listable

theorem transfer
    (abiding : Abiding (h.servers.get s).extensions (h.servers.get s).configuration spared h h')
    (server : ∃ exporters, h'.servers.get s = { h.servers.get s with exporters })
    (address : h'.addressOf p = h.addressOf p)
    (same : (h'.urls.get (h.addressOf p)).params.find? Url.registryKey =
      (h.urls.get (h.addressOf p)).params.find? Url.registryKey) :
    h'.Listable s p registries := by
  obtain ⟨_, server⟩ := server
  have names : h'.registryNames p = h.registryNames p := by
    unfold registryNames Url.listParam Url.param Url.paramOr
    rw [address, same]
  refine ⟨?_, ?_, ?_, ?_, fun name member => ?_⟩
  · rw [server]
    exact abiding.direct listable.direct
  · rw [server]
    exact abiding.unambiguous listable.clear
  · unfold namesRegistries Url.hasParam Keyed.contains
    rw [address, same]
    exact listable.names
  · rw [server, names]
    refine listable.resolved.trans (List.filterMap_congr_mem fun name member => ?_)
    exact (abiding.resolve listable.clear (listable.settled name member)).symm
  · rw [names] at member
    rw [server]
    exact abiding.settled listable.clear (listable.settled name member)

theorem known {r : RegistryRef} (member : r ∈ registries) : h.registries.Allocated r := by
  rw [listable.resolved] at member
  obtain ⟨name, _, found⟩ := List.mem_filterMap.1 member
  obtain ⟨v, _, made⟩ := Option.bind_eq_some_iff.1 found
  exact listable.direct.known _ r made

end Host.Listable

namespace Host.Kept

variable (kept : h.Kept s path p e registries)

include kept

theorem elsewhere {other : String} {e' : Option ExporterRef} {b : Option BackendRef}
    (apart : Elsewhere s other e' b h h') (differ : path ≠ other) (exporter : e' ≠ some e)
    (backend : b ≠ some (h.providers.get p).backend)
    (abiding : Abiding (h.servers.get s).extensions (h.servers.get s).configuration
      (· = (h.urls.get (h.addressOf p)).identity) h h') : h'.Kept s path p e registries := by
  have serves : h'.Serves s path e p registries := by
    refine ⟨kept.serves.toHolds.elsewhere apart differ exporter backend, ?_⟩
    rw [apart.exporterAt path differ]
    exact kept.serves.kept
  have address : h'.addressOf p = h.addressOf p := by
    unfold Host.addressOf Host.backendOf
    rw [apart.providers.get p kept.serves.made, apart.backend _ kept.serves.backed backend]
  have like := apart.urls (h.addressOf p)
  refine ⟨kept.transfer abiding apart.server address (like.find? (by decide)), serves,
    fun r member => ?_⟩
  rw [address, like.identity]
  exact abiding.lists r _ (kept.known member) rfl (kept.lists r member)

theorem grown (grown : h.Grown h') : h'.Kept s path p e registries := by
  have enrolling : Enrolling (h.servers.get s).extensions (h.servers.get s).configuration
      (fun _ => False) h h' := grown.enrolling
  have address := grown.addressOf kept.serves.made kept.serves.backed
  refine ⟨kept.transfer enrolling.toAbiding ⟨_, by rw [grown.servers]⟩ address (by rw [grown.urls]),
    grown.serves kept.serves, ?_⟩
  rw [grown.registries, address, grown.urls]
  exact kept.lists

end Host.Kept

theorem offered_direct {h₁ h₂ : Host}
    (offered : (offer h₁ s p).Yields (h₁.offering s p) registries h₂)
    (direct : h₁.Direct (h₁.servers.get s).extensions)
    (clear : h₁.Unambiguous (h₁.servers.get s).configuration)
    (names : h₁.namesRegistries p = true) :
    h₂.Listable s p registries ∧ ∀ r ∈ registries,
      (h₂.registries.get r).lists (h₂.urls.get (h₂.addressOf p)).identity = true := by
  have registering := offer_registering offered.after_eq
  have servers : h₂.servers = h₁.servers := registering.servers
  have address : h₂.addressOf p = h₁.addressOf p := registering.addressOf p
  have like : (h₂.urls.get (h₁.addressOf p)).Like (h₁.urls.get (h₁.addressOf p)) := by
    rw [registering.urls]
    exact Url.like_modify _ _ _
  have begins : Enrolling (h₁.servers.get s).extensions (h₁.servers.get s).configuration
      (fun _ => False) h₁ (h₁.offering s p) :=
    .of_eq rfl rfl rfl fun _ => Url.like_modify _ _ _
  have enrolling : Enrolling (h₁.servers.get s).extensions (h₁.servers.get s).configuration
      (fun _ => False) h₁ h₂ :=
    (Course.refl h₁ : Enrolling _ _ _ h₁ h₁).offered offered.after_eq rfl rfl
  have own : ((h₁.offering s p).urls.get (h₁.addressOf p)).identity =
      (h₁.urls.get (h₁.addressOf p)).identity := (begins.urls _).identity
  obtain ⟨mid, ends, settled, lists⟩ := registerAll_direct (h₁.registryNames p)
    (begins.direct direct) (begins.unambiguous clear) own
  obtain ⟨rfl, rfl⟩ := ends.unique offered
  have listed : mid.registryNames p = h₁.registryNames p := by
    unfold registryNames
    rw [address, like.listParam (by decide)]
  refine ⟨⟨?_, ?_, ?_, ?_, ?_⟩, fun r member => ?_⟩
  · rw [servers]
    exact enrolling.direct direct
  · rw [servers]
    exact enrolling.unambiguous clear
  · unfold namesRegistries
    rw [address, like.hasParam]
    exact names
  · rw [servers, listed]
  · rw [servers, listed]
    exact settled
  · obtain ⟨name, member, found⟩ := List.mem_filterMap.1 member
    rw [address, like.identity]
    exact lists name member r found

theorem Store.modify_self {family : Family} {α : Type} [Inhabited α] {store : Store family α}
    {r : Handle family} {a : α} {f : α → α} (found : Store.lookup r.index store.cells = some a)
    (same : f (store.get r) = store.get r) : store.modify r f = store := by
  unfold Store.modify
  rw [same]
  refine Store.set_of_lookup ?_
  unfold Store.get
  rw [found]
  rfl

theorem tables_restored {tables : Store .table Routes} (p : ProviderRef)
    (route : (tables.get t).find? path = some old) :
    ((tables.modify t (·.insert path p)).modify t (·.erase path)).modify t (·.insert path old) =
      tables := by
  rw [Store.modify_modify, Store.modify_modify]
  cases found : Store.lookup t.index tables.cells with
  | none =>
    unfold Store.get at route
    rw [found] at route
    cases route
  | some routes =>
    refine Store.modify_self found (Keyed.ext_find? fun key => ?_)
    show ((((tables.get t).insert path p).erase path).insert path old).find? key = _
    rw [Keyed.find?_insert]
    split
    · rename_i same
      rw [same, route]
    · rename_i differ
      rw [Keyed.find?_erase_ne _ differ, Keyed.find?_insert_ne _ differ]

theorem Superseding.relisted {h₁ h₂ h₃ : Host}
    (replaced : Superseding h t e old registries p h₁ h₂ h₃) (direct : h.Direct x)
    (r : RegistryRef) :
    h₃.registries.get r = if r ∈ registries then
      (h.registries.get r).withdrawn (h.urls.get (h.addressOf old)).identity
      else h.registries.get r := by
  have same : h₁.registries = h.registries := replaced.routed.registries
  have still : h₁.Direct x := direct.of_eq same (by rw [replaced.routed.extensions]; rfl)
  obtain ⟨mid, withdrew, relisted⟩ := unregisterAll_direct registries still
    (show (h₁.urls.get (h.addressOf old)).identity = _ by rw [replaced.routed.registering.urls])
  obtain ⟨-, rfl⟩ := withdrew.unique replaced.withdrew
  rw [replaced.unexported.registries]
  exact (relisted.get r).trans (by rw [same]; rfl)

/-- A provider that is routed again is taken by the registries that its names lead to. -/
theorem offer_listable {h₁ : Host} (routed : (h.routing t p).Noted h₁)
    (listable : h.Listable s p registries) :
    ∃ h₂, (offer h₁ s p).Yields (h₁.offering s p) registries h₂ ∧
      Relisted (Registry.announced · (h.urls.get (h.addressOf p)).identity) registries
        (h₁.offering s p) h₂ := by
  have server : h₁.servers = h.servers := routed.registering.servers
  have same : (h₁.offering s p).extensions = h.extensions := routed.extensions
  have contexts : (h₁.offering s p).configurations = h.configurations :=
    routed.registering.configurations
  have address : h₁.addressOf p = h.addressOf p := routed.registering.addressOf p
  have like (u : UrlRef) : ((h₁.offering s p).urls.get u).Like (h.urls.get u) := by
    have own : h₁.urls = h.urls := routed.registering.urls
    rw [← own]
    exact Url.like_modify _ _ _
  have listed : h₁.registryNames p = h.registryNames p := by
    unfold registryNames
    rw [address, routed.registering.urls]
    rfl
  have offers : offer h₁ s p = registerAll (h.servers.get s).extensions
      (h.servers.get s).configuration (h.addressOf p) (h.registryNames p) := by
    unfold offer
    rw [server, address, listed]
  have settled : ∀ name ∈ h.registryNames p, (h₁.offering s p).Settled
      (h.servers.get s).extensions (h.servers.get s).configuration name :=
    fun name member => settled_congr contexts same like (listable.settled name member)
  have direct : (h₁.offering s p).Direct (h.servers.get s).extensions :=
    listable.direct.of_eq routed.registries (by rw [same])
  obtain ⟨h₂, ends, relisted⟩ :=
    registerAll_settled direct settled (like (h.addressOf p)).identity
  rw [resolve_congr contexts same like, ← listable.resolved] at ends relisted
  rw [offers]
  exact ⟨h₂, ends, relisted⟩

theorem Restoration.again (restoration : Restoration h s t p (.ok (), h'))
    (table : h.tableOf s = some t) (listable : h.Listable s p registries)
    (made : h.providers.Allocated p) (backed : h.backends.Allocated (h.providers.get p).backend)
    (available : (h.backendOf p).available = true) :
    h'.Serves s (h.pathOf p) h.exporters.fresh p registries ∧
      (∀ r, h'.registries.get r = if r ∈ registries then
        (h.registries.get r).announced (h.urls.get (h.addressOf p)).identity
        else h.registries.get r) ∧
      h'.tables = h.tables.modify t (·.insert (h.pathOf p) p) ∧ h'.backends = h.backends ∧
      h'.providers = h.providers := by
  cases restoration with
  | lost _ lacks _ =>
    rw [listable.names] at lacks
    cases lacks
  | @restored h₁ h₂ _ accepting routed _ offered restored =>
    have registering := offer_registering offered.after_eq
    have kept : h₁.registries = h.registries := routed.registries
    obtain ⟨mid, ends, relisted⟩ := offer_listable routed listable
    obtain ⟨rfl, rfl⟩ := ends.unique offered
    refine ⟨?_, fun r => ?_, ?_, ?_, ?_⟩
    · exact serves_routed table routed offered.after_eq restored made backed available
    · rw [restored.registries]
      exact (relisted.get r).trans (by rw [← kept]; rfl)
    · rw [restored.registering.tables]
      exact registering.tables.trans routed.registering.tables
    · rw [restored.registering.backends]
      exact registering.backends.trans routed.registering.backends
    · rw [restored.registering.providers]
      exact registering.providers.trans routed.registering.providers

theorem tablesWithout_routing {h₁ : Host} (routed : (h.routing t p).Noted h₁) :
    h₁.tablesWithout t p = (h.tables.modify t (·.insert (h.pathOf p) p)).modify t
      (·.erase (h.pathOf p)) := by
  have path : h₁.pathOf p = h.pathOf p := routed.registering.pathOf p
  have tables : h₁.tables = h.tables.modify t (·.insert (h.pathOf p) p) :=
    routed.registering.tables
  unfold tablesWithout
  rw [path, tables, Store.get_modify_self, Keyed.find?_insert_self, if_pos rfl]

/-- The old provider is put back as it was: its route, its registries and what they list. -/
theorem Changeover.restores {status : Status}
    (changeover : Changeover h s t e old registries p (.ok status, h')) (refused : status ≠ .ok)
    (kept : h.Kept s (h.pathOf p) old e registries) (table : h.tableOf s = some t) :
    (∃ e', h'.Kept s (h.pathOf p) old e' registries) ∧
      (∀ r, h'.registries.get r = h.registries.get r) ∧ h'.tables = h.tables ∧
      h'.backendOf old = h.backendOf old := by
  have enrolling : Enrolling (h.servers.get s).extensions (h.servers.get s).configuration
      (fun _ => False) h h' := changeover.enrolling rfl rfl id
  have steady := (changeover.elsewhere (.refl h) table rfl kept.serves.located rfl).steady
  obtain ⟨-, h₁, h₂, h₃, h₄, replaced, lacks, unrouted, restoration⟩ :=
    changeover.refused_cases refused
  have begins : Enrolling (h.servers.get s).extensions (h.servers.get s).configuration
      (fun _ => False) h h₄ := replaced.enrolling_unrouted unrouted id
  have servers := replaced.servers_unrouted unrouted
  have backends := replaced.backends_unrouted unrouted
  have providers := replaced.providers_unrouted unrouted
  have own := replaced.backendOf_unrouted unrouted old
  have address : h₄.addressOf old = h.addressOf old := congrArg Backend.url own
  have path := (replaced.pathOf_unrouted unrouted old).trans kept.serves.located
  have route : (h.tables.get t).find? (h.pathOf p) = some old := by
    rw [← routeAt_of_table table]
    exact kept.serves.route
  -- in the state that the old provider is put back in, its names lead where they led
  have listable := kept.transfer begins.toAbiding ⟨_, by rw [servers]⟩ address
    ((begins.urls _).find? (by decide))
  have table' := (replaced.tableOf_unrouted unrouted s).trans table
  obtain ⟨serves, relisted, tables, backends', providers'⟩ := restoration.again table' listable
    (by rw [providers]; exact kept.serves.made)
    (by rw [providers, backends]; exact kept.serves.backed)
    (by rw [own]; exact kept.serves.available)
  -- each of its registries loses the identity and is told it again
  have registry (r : RegistryRef) : h'.registries.get r = h.registries.get r := by
    rw [relisted, address, (begins.urls _).identity, unrouted.registries]
    show (if _ then (h₃.registries.get r).announced _ else h₃.registries.get r) = _
    rw [replaced.relisted kept.direct]
    split
    · rename_i member
      exact Registry.announced_withdrawn (kept.lists r member)
    · rfl
  have own' : h'.backendOf old = h.backendOf old := by
    unfold Host.backendOf
    rw [backends', providers', backends, providers]
  have address' : h'.addressOf old = h.addressOf old := congrArg Backend.url own'
  rw [path] at serves
  refine ⟨⟨_, kept.transfer enrolling.toAbiding steady.server address'
    ((steady.urls _).find? (by decide)), serves, fun r member => ?_⟩, registry, ?_, own'⟩
  · rw [registry, address', (enrolling.urls _).identity]
    exact kept.lists r member
  · rw [tables, path, unrouted.registering.tables]
    show (h₁.tablesWithout t p).modify t _ = _
    rw [tablesWithout_routing replaced.routed]
    exact tables_restored p route

end RpcHost
