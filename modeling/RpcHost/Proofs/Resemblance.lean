import RpcHost.Proofs.Conversation
/-!
States that answer alike: the routes are the same, and the providers that these lead to have the
same backends and filters. What else was made does not show.
-/
namespace RpcHost

open Host

variable {h h' : Host} {s : ServerRef} {p : ProviderRef}

/-- The provider, its backend and its filters are there, and its chains end. -/
structure Host.Whole (h : Host) (p : ProviderRef) : Prop where
  made : h.providers.Allocated p
  backed : h.backends.Allocated (h.providers.get p).backend
  chains : ∀ head ∈ (h.providers.get p).layers, ∃ kinds, h.Chain head kinds

def Host.Sound (h : Host) : Prop :=
  ∀ t path p, (h.tables.get t).find? path = some p → h.Whole p

namespace Host.Whole

variable (whole : h.Whole p)

include whole

theorem kindsOf (providers : h.providers.Extends h'.providers)
    (filters : h.filters.Extends h'.filters) : h'.kindsOf p = h.kindsOf p := by
  unfold Host.kindsOf
  rw [providers.get p whole.made]
  refine List.map_congr_left fun head member => ?_
  obtain ⟨kinds, chain⟩ := whole.chains head member
  rw [chain.kinds_chainOf, (chain.extended filters).kinds_chainOf]

theorem frame (providers : h.providers.next ≤ h'.providers.next)
    (provider : h'.providers.get p = h.providers.get p)
    (backends : h.backends.next ≤ h'.backends.next)
    (filters : h.filters.Extends h'.filters) : h'.Whole p := by
  refine ⟨whole.made.mono providers, ?_, fun head member => ?_⟩
  · rw [provider]
    exact whole.backed.mono backends
  · rw [provider] at member
    obtain ⟨kinds, chain⟩ := whole.chains head member
    exact ⟨kinds, chain.extended filters⟩

theorem steady (steady : h.Steady s h') : h'.Whole p :=
  whole.frame steady.providers.next (steady.providers.get p whole.made) steady.backends
    steady.filters

end Host.Whole

theorem Host.Prepared.whole {x : ExtensionsRef} {u : UrlRef} {service : Option Service}
    (prepared : h.Prepared x u service p h') : h'.Whole p := by
  obtain ⟨head, layers, chain⟩ := prepared.layers
  refine ⟨prepared.known, prepared.backed, fun other member => ?_⟩
  rw [layers] at member
  cases List.mem_singleton.1 member
  exact ⟨_, chain⟩

/-- The states `a` and `b` came from `h` and `h'` by answering the same requests. -/
structure Host.Resembling (h h' a b : Host) : Prop where
  requests : a.requests = b.requests
  methods : a.methods = b.methods
  tables : a.tables = b.tables
  urls : ∀ u, (a.urls.get u).Like (b.urls.get u)
  providers : a.providers = h.providers ∧ b.providers = h'.providers
  filters : a.filters = h.filters ∧ b.filters = h'.filters
  backends : ∀ x, h.backends.Allocated x → a.backends.get x = b.backends.get x
  routes : ∀ t path p, (a.tables.get t).find? path = some p → h.Whole p

namespace Host.Resembling

variable {a b a' b' : Host}

theorem noted (resembling : Resembling h h' a b) (left : a.Noted a') (right : b.Noted b') :
    Resembling h h' a' b' := by
  obtain ⟨_, _, _, rfl⟩ := left.written
  obtain ⟨_, _, _, rfl⟩ := right.written
  exact { resembling with }

theorem observing (providers : h.providers.Extends h'.providers)
    (filters : h.filters.Extends h'.filters) :
    Observing (Resembling h h') h.Whole h.backends.Allocated (fun _ => True) where
  noted := noted
  requests resembling := resembling.requests
  methods resembling := resembling.methods
  tables resembling := resembling.tables
  urls resembling := resembling.urls
  routed resembling found := resembling.routes _ _ _ found
  backing resembling whole := by
    rw [resembling.providers.1]
    exact whole.backed
  provider := by
    intro a b p resembling whole
    have left : a.kindsOf p = h.kindsOf p :=
      kindsOf_congr resembling.filters.1 (by rw [resembling.providers.1])
    have right : b.kindsOf p = h'.kindsOf p :=
      kindsOf_congr resembling.filters.2 (by rw [resembling.providers.2])
    rw [left, right, whole.kindsOf providers filters, resembling.providers.1,
      resembling.providers.2, providers.get p whole.made]
    exact ⟨rfl, rfl⟩
  backend resembling known := resembling.backends _ known
  requested resembling := { resembling with requests := rfl }
  called := by
    intro a b x _ _ _ _ _ resembling known _ calls' memory'
    refine { resembling with backends := fun y other => ?_ }
    show (a.backends.modify x _).get y = (b.backends.modify x _).get y
    rw [Store.get_modify, Store.get_modify, resembling.backends x known]
    split
    · rfl
    · exact resembling.backends y other
  withdrawing _ _ _ := trivial
  erased := by
    intro a b table resembling _ path
    refine { resembling with tables := ?_, routes := fun t other p found => ?_ }
    · rw [resembling.tables]
    · refine resembling.routes t other p ?_
      change ((a.tables.modify table fun routes => routes.erase path).get t).find? other =
        some p at found
      rw [Store.get_modify] at found
      split at found
      · rename_i same
        rw [Keyed.find?_erase] at found
        split at found
        · cases found
        · rwa [same]
      · exact found

end Host.Resembling

theorem Host.Elsewhere.handle_value {path : String} {e : Option ExporterRef}
    (apart : Elsewhere s path e (some (h.providers.get p).backend) h h') (sound : h.Sound)
    (made : h.providers.Allocated p) (own : h'.backendOf p = h.backendOf p)
    (tables : h'.tables = h.tables) (q : Option RequestRef) :
    (handle s q).value h' = (handle s q).value h := by
  obtain ⟨_, server⟩ := apart.server
  have endpoint : (h.servers.get s).endpoint = (h'.servers.get s).endpoint := by rw [server]
  have backends (x : BackendRef) (known : h.backends.Allocated x) :
      h.backends.get x = h'.backends.get x := by
    by_cases same : (h.providers.get p).backend = x
    · rw [← same]
      unfold Host.backendOf at own
      rw [apart.providers.get p made] at own
      exact own.symm
    · exact (apart.backend x known (by simpa using same)).symm
  have resembling : Resembling h h' h h' :=
    ⟨apart.requests.symm, apart.methods.symm, tables.symm, fun u => (apart.urls u).symm,
      ⟨rfl, rfl⟩, ⟨rfl, rfl⟩, backends, sound⟩
  have alike := (Resembling.observing apart.providers apart.filters).handle_alike endpoint
    (by rw [← endpoint, apart.endpoints]) q resembling
  exact alike.1.symm

end RpcHost
