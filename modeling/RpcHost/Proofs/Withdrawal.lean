import RpcHost.Proofs.FanOut
/-!
What taking an export back undoes. The exporter asks the registries that took its address to give
it up, and takes its provider out of the routes. The address and the provider are those that it has
by then. If it has others than when it exported, or the address has changed, the old ones stay.
-/
namespace RpcHost

open Attempt Host

variable {h : Host} {x : ExtensionsRef} {e : ExporterRef} {u : UrlRef}

theorem unregisterService_replies (r : RegistryRef) (u : UrlRef) :
    let demand := Demand.unregister (h.urls.get u).identity
    ∃ h', (unregisterService r u).ending h =
        (((h.registries.get r).refusal? demand).elim (.ok ()) .error, h') ∧
      (h.demanding r demand).Matches x h' ∧
      Consulted [.unregister r (h.urls.get u).identity] h h' := by
  obtain ⟨_, _, h', ends, consults, logged⟩ := unregisterService_consults h r u
  obtain ⟨rfl, matching, asked⟩ := consults.replies (x := x) logged
    (fun _ => .unregister r (h.urls.get u).identity) fun _ _ => rfl
  exact ⟨h', ends, matching, asked⟩

/-- The registries can be asked one after the other to give an identity up: where one fails, a
reason is known. -/
def Host.Releases (h : Host) (identity : String) : List RegistryRef → Prop
  | [] => True
  | r :: rest => (h.registries.get r).refusal? (.unregister identity) ≠ some .unknown ∧
    (h.demanding r (.unregister identity)).Releases identity rest

instance Host.decidableReleases (h : Host) (identity : String) (registries : List RegistryRef) :
    Decidable (h.Releases identity registries) :=
  match registries with
  | [] => isTrue trivial
  | r :: rest =>
    have := decidableReleases (h.demanding r (.unregister identity)) identity rest
    inferInstanceAs (Decidable (_ ∧ _))

theorem Host.Matches.releases {g h : Host} (same : g.Matches x h) (identity : String)
    (registries : List RegistryRef) :
    h.Releases identity registries ↔ g.Releases identity registries := by
  induction registries generalizing g h with
  | nil => rfl
  | cons r rest ih =>
    unfold Host.Releases
    rw [same.refusal?, ih (same.demanding r _)]

theorem release_asks (r : RegistryRef) (u : UrlRef) :
    let demand := Demand.unregister (h.urls.get u).identity
    ((h.registries.get r).refusal? demand ≠ some .unknown ∧ ∃ h', (release r u).Yields h () h' ∧
      (h.demanding r demand).Matches x h' ∧
      Consulted [.unregister r (h.urls.get u).identity] h h') ∨
    ((h.registries.get r).refusal? demand = some .unknown ∧
      ∃ h', (release r u).Fails h .unknown h') := by
  obtain ⟨mid, replies, matching, asked⟩ := unregisterService_replies (x := x) (h := h) r u
  dsimp only
  cases fault? : (h.registries.get r).refusal? (.unregister (h.urls.get u).identity) with
  | none =>
    rw [fault?] at replies
    exact Or.inl ⟨by simp, mid, release_given replies, matching, asked⟩
  | some fault =>
    rw [fault?] at replies
    rcases release_failed replies with ⟨untold, breaks⟩ | ⟨told, h', passes, logged⟩
    · obtain rfl := fault.reason?_eq_none_iff.1 untold
      exact Or.inr ⟨rfl, mid, breaks⟩
    · have known : fault ≠ .unknown := by
        rintro rfl
        cases told
      exact Or.inl ⟨by simpa using known, h', passes,
        Course.trans matching logged.noted.matches, asked.noted logged.noted⟩

theorem unregisterAll_asks {identity : String} (u : UrlRef)
    (own : (h.urls.get u).identity = identity) (registries : List RegistryRef) :
    (h.Releases identity registries ∧ ∃ h', (unregisterAll u registries).Yields h () h' ∧
      Consulted (registries.map (.unregister · identity)) h h') ∨
    (¬h.Releases identity registries ∧ ∃ h', (unregisterAll u registries).Fails h .unknown h') := by
  induction registries generalizing h with
  | nil => exact Or.inl ⟨trivial, h, rfl, .of_eq rfl⟩
  | cons r rest ih =>
    rcases release_asks (h := h) (x := default) r u with
      ⟨releases, mid, first, matching, asked⟩ | ⟨fails, mid, first⟩
    · rw [own] at releases matching asked
      -- the others answer by what the first leaves
      have later := matching.releases identity rest
      rcases ih (h := mid) ((matching.identity u).trans own) with
        ⟨all, h', others, more⟩ | ⟨stuck, h', others⟩
      · refine Or.inl ⟨⟨releases, later.1 all⟩, h', ?_, asked.trans more⟩
        exact yields_bind.2 ⟨(), mid, first, others⟩
      · refine Or.inr ⟨fun all => stuck (later.2 all.2), h', ?_⟩
        exact fails_bind.2 (Or.inr ⟨(), mid, first, others⟩)
    · rw [own] at fails
      exact Or.inr ⟨fun all => all.1 fails, mid, fails_bind.2 (Or.inl first)⟩

/-- Taking an export back asks the registries that the exporter keeps, and takes the provider that
it holds out of the routes. Only a registry that fails without a reason can stop it. -/
theorem unexport_asks (exported : (h.exporters.get e).exported = true)
    (url : (h.exporters.get e).url = some u) :
    (h.Releases (h.urls.get u).identity (h.exporters.get e).registries ∧ ∃ h',
      (unexport e).Yields h .ok h' ∧
      Consulted ((h.exporters.get e).registries.map (.unregister · (h.urls.get u).identity)) h h' ∧
      h'.exporters = h.exporters.modify e withdrawn ∧
      h'.tables = h.unroutedTables (h.exporters.get e).endpoint (h.exporters.get e).provider) ∨
    (¬h.Releases (h.urls.get u).identity (h.exporters.get e).registries ∧ ∃ h',
      (unexport e).Fails h .unknown h') := by
  rcases unexport_exported exported url with ⟨mid, h', withdrew, run, noted⟩ | ⟨_, mid, stops, run⟩
  · rcases unregisterAll_asks (h := h) u rfl (h.exporters.get e).registries with
      ⟨releases, mid', asks, asked⟩ | ⟨_, _, fails⟩
    · obtain ⟨-, rfl⟩ := withdrew.unique asks
      refine Or.inl ⟨releases, h', run, ?_, noted.registering.exporters, noted.registering.tables⟩
      exact asked.quiet noted.uneventful
    · cases withdrew.symm.trans fails
  · rcases unregisterAll_asks (h := h) u rfl (h.exporters.get e).registries with
      ⟨_, _, asks, _⟩ | ⟨stuck, _, fails⟩
    · cases stops.symm.trans asks
    · cases stops.symm.trans fails
      exact Or.inr ⟨stuck, mid, run⟩

namespace Host

theorem routes_tablesWithout (h : Host) (t : TableRef) (p q : ProviderRef) (path : String) :
    ((h.tablesWithout t p).get t).find? path = some q ↔
      (h.tables.get t).find? path = some q ∧ ¬(p = q ∧ path = h.pathOf q) := by
  by_cases own : path = h.pathOf p
  · subst own
    by_cases routed : (h.tables.get t).find? (h.pathOf p) = some p
    · rw [h.find?_tablesWithout_self routed, routed]
      constructor
      · intro gone
        cases gone
      · rintro ⟨found, other⟩
        cases found
        exact absurd ⟨rfl, rfl⟩ other
    · have same : h.tablesWithout t p = h.tables := if_neg routed
      rw [same, iff_self_and]
      rintro found ⟨rfl, _⟩
      exact routed found
  · rw [h.find?_tablesWithout t p own, iff_self_and]
    rintro _ ⟨rfl, here⟩
    exact own here

/-- What may happen to an exporter, its address and its provider while it exports. -/
inductive Altered (e : ExporterRef) (h : Host) : Host → Prop
  | start : Altered e h h
  | redirected {mid : Host} (before : Altered e h mid) (u : UrlRef) :
    Altered e h ((setExporterUrl e (some u)).after mid)
  | attached {mid : Host} (before : Altered e h mid) (p : ProviderRef) :
    Altered e h ((setExporterProvider e (some p)).after mid)
  | moved {mid : Host} (before : Altered e h mid) (p : ProviderRef) (u : UrlRef) :
    Altered e h ((setProviderUrl p u).after mid)
  | rewritten {mid : Host} (before : Altered e h mid) (u : UrlRef) (f : Url → Url) :
    Altered e h ((modifyUrl u f).after mid)
  | switched {mid : Host} (before : Altered e h mid) (available : Bool) :
    Altered e h ((setAvailable e available).after mid)
  | elsewhere {mid h' : Host} (before : Altered e h mid)
    (kept : h'.exporters.get e = mid.exporters.get e) : Altered e h h'

/-- The exporter exports its provider, and these registries took the address. -/
structure Exports (h : Host) (e : ExporterRef) (endpoint : Option EndpointRef)
    (registries : List RegistryRef) : Prop where
  exported : (h.exporters.get e).exported = true
  registries : (h.exporters.get e).registries = registries
  endpoint : (h.exporters.get e).endpoint = endpoint
  url : ∃ u, (h.exporters.get e).url = some u
  provider : ∃ p, (h.exporters.get e).provider = some p

variable {endpoint : Option EndpointRef} {registries : List RegistryRef} {h' : Host}

theorem Exports.becomes {exporter : Exporter} (exports : h.Exports e endpoint registries)
    (now : h'.exporters.get e = exporter)
    (exported : exporter.exported = (h.exporters.get e).exported)
    (listed : exporter.registries = (h.exporters.get e).registries)
    (reached : exporter.endpoint = (h.exporters.get e).endpoint)
    (url : ∃ u, exporter.url = some u) (provider : ∃ p, exporter.provider = some p) :
    h'.Exports e endpoint registries := by
  subst now
  exact ⟨exported.trans exports.exported, listed.trans exports.registries,
    reached.trans exports.endpoint, url, provider⟩

theorem Altered.exports (altered : h.Altered e h') (exports : h.Exports e endpoint registries) :
    h'.Exports e endpoint registries := by
  induction altered with
  | start => exact exports
  | redirected _ u ih =>
    exact ih.becomes (Store.get_modify_self ..) rfl rfl rfl ⟨u, rfl⟩ ih.provider
  | attached _ p ih => exact ih.becomes (Store.get_modify_self ..) rfl rfl rfl ih.url ⟨p, rfl⟩
  | moved _ p u ih => exact ih.becomes rfl rfl rfl rfl ih.url ih.provider
  | rewritten _ u f ih => exact ih.becomes rfl rfl rfl rfl ih.url ih.provider
  | switched _ available ih =>
    exact ih.becomes (Store.get_modify_self ..) rfl rfl rfl ih.url ih.provider
  | elsewhere _ kept ih => exact ih.becomes kept rfl rfl rfl ih.url ih.provider

end Host

variable {h₀ h₁ : Host} {endpoint : EndpointRef} {c : ConfigurationRef} {p : ProviderRef}

theorem exportBy_exports {endpoint : Option EndpointRef}
    (attached : (h₀.exporters.get e).provider = some p)
    (ends : (exportBy e endpoint x c).Yields h₀ .ok h₁) :
    ∃ registries calls, h₁.Exports e endpoint registries ∧ Consulted calls h₀ h₁ ∧
      calls.filter RegistryCall.took =
        registries.map (.register · (h₀.announcedAs p) true) := by
  have announcement := exportBy_announcement h₀ e endpoint x c
  rw [ends] at announcement
  cases announcement with
  | accepted _ attached' _ _ announced asked =>
    obtain rfl := Option.some.inj (attached.symm.trans attached')
    have exporter := congrArg (Store.get · e) announced.exporters
    simp only [Host.announced, Store.get_modify_self] at exporter
    refine ⟨_, _, ⟨?_, ?_, ?_, ?_, ?_⟩, asked, Fate.filter_took _ _⟩ <;> rw [exporter]
    · exact ⟨_, rfl⟩
    · exact ⟨p, attached⟩

/-- Taking an export back asks each registry that took the address to give up the identity that the
URL of the exporter has by then. Of the routes it takes the provider that the exporter holds by
then, at the path that it has by then. What else was registered and routed stays so. -/
theorem unexport_undoes (attached : (h₀.exporters.get e).provider = some p)
    (offered : (exportBy e (some endpoint) x c).Yields h₀ .ok h₁) (altered : h₁.Altered e h)
    (releases : ∀ u, (h.exporters.get e).url = some u →
      h.Releases (h.urls.get u).identity (h.exporters.get e).registries) :
    ∃ calls u q h', Consulted calls h₀ h₁ ∧
      calls.filter RegistryCall.took =
        (h.exporters.get e).registries.map (.register · (h₀.announcedAs p) true) ∧
      (h.exporters.get e).url = some u ∧ (h.exporters.get e).provider = some q ∧
      (unexport e).Yields h .ok h' ∧
      Consulted ((h.exporters.get e).registries.map (.unregister · (h.urls.get u).identity)) h h' ∧
      ∀ t, (h.endpoints.get endpoint).table = some t → ∀ path,
        (h'.tables.get t).find? path = some p ↔
          (h.tables.get t).find? path = some p ∧ ¬(q = p ∧ path = h.pathOf p) := by
  obtain ⟨registries, calls, exports, asked, took⟩ := exportBy_exports attached offered
  have still := altered.exports exports
  obtain ⟨u, url⟩ := still.url
  obtain ⟨q, provider⟩ := still.provider
  rw [still.registries] at releases ⊢
  rcases unexport_asks still.exported url with
    ⟨_, h', ends, gave, _, tables⟩ | ⟨stuck, _⟩
  · rw [still.registries] at gave
    refine ⟨calls, u, q, h', asked, took, url, provider, ends, gave, fun t table path => ?_⟩
    rw [tables, still.endpoint, provider, unroutedTables_of_table table]
    exact h.routes_tablesWithout t q p path
  · rw [still.registries] at stuck
    exact absurd (releases u url) stuck

namespace Host

def staged : Host :=
  { furnished .builtIn (.ofList [("main", ⟨0⟩)])
      [⟨"direct", "127.0.0.1", 9000, "", "", .empty⟩, .sample,
        { Url.sample with port := 8101 }] with
    backends := (Store.empty.add (.standardAt ⟨1⟩)).add (.standardAt ⟨2⟩)
    providers := (Store.empty.add ⟨⟨0⟩, [], none⟩).add ⟨⟨1⟩, [], none⟩
    exporters := Store.empty.add (unready ⟨0⟩)
    tables := Store.empty.add (Keyed.empty.insert "calculator" ⟨0⟩)
    endpoints := Store.empty.add ⟨⟨0⟩, some ⟨0⟩, false⟩ }

def performing : Host := (exportBy ⟨0⟩ (some ⟨0⟩) ⟨0⟩ ⟨0⟩).after staged

theorem staged_performing : (exportBy ⟨0⟩ (some ⟨0⟩) ⟨0⟩ ⟨0⟩).Yields staged .ok performing :=
  yields_of_toOption (by decide +kernel)

end Host

/-- The exporter is given another address, and still holds the provider. -/
theorem unexport_undoes_redirected : ∃ h',
    (unexport ⟨0⟩).Yields ((setExporterUrl ⟨0⟩ (some ⟨2⟩)).after Host.performing) .ok h' ∧
      (h'.tables.get ⟨0⟩).find? "calculator" ≠ some ⟨0⟩ := by
  have altered : Host.performing.Altered ⟨0⟩ _ := .redirected .start ⟨2⟩
  obtain ⟨_, _, q, h', _, _, _, provider, ends, _, routes⟩ :=
    unexport_undoes (p := ⟨0⟩) rfl Host.staged_performing altered (by decide +kernel)
  have held : (((setExporterUrl ⟨0⟩ (some ⟨2⟩)).after performing).exporters.get ⟨0⟩).provider =
      some ⟨0⟩ := by decide +kernel
  obtain rfl := Option.some.inj (held.symm.trans provider)
  refine ⟨h', ends, fun routed => ?_⟩
  obtain ⟨_, other⟩ := (routes ⟨0⟩ (by decide +kernel) "calculator").1 routed
  exact other ⟨rfl, by decide +kernel⟩

/-- The exporter is given another address and another provider. What was exported is then listed
and routed after the export is taken back. -/
theorem unexport_leaves_stale : ∃ h h', Host.performing.Altered ⟨0⟩ h ∧
    (unexport ⟨0⟩).Yields h .ok h' ∧
      (h'.registries.get ⟨0⟩).lists (Host.staged.announcedAs ⟨0⟩) = true ∧
      (h'.tables.get ⟨0⟩).find? "calculator" = some ⟨0⟩ := by
  refine ⟨_, _, .attached (.redirected .start ⟨2⟩) ⟨1⟩,
    yields_of_toOption (by decide +kernel), ?_, ?_⟩ <;> decide +kernel

end RpcHost
