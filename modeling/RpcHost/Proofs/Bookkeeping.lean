import RpcHost.Proofs.Deployed
import RpcHost.Proofs.Civility
/-!
The books of a server: the exporters it keeps and the routes of its table. They stand for the
same paths and the same providers, whatever is exported, taken back or shut.
-/
namespace RpcHost

open Attempt Host

variable {h h' : Host} {s : ServerRef} {t : TableRef} {path : String} {e : ExporterRef}
  {p : ProviderRef} {registries : List RegistryRef}

/-- Every exporter that is kept serves its path, and only paths with an exporter are routed. -/
structure Host.Coherent (h : Host) (s : ServerRef) : Prop where
  table : ∃ t, h.tableOf s = some t
  serves : ∀ path e, h.exporterAt s path = some e →
    ∃ p registries, h.Serves s path e p registries
  routes : ∀ path p, h.routeAt s path = some p → ∃ e, h.exporterAt s path = some e

namespace Host

theorem Coherent.state (coherent : h.Coherent s) (path : String) :
    h.exporterAt s path = none ∨ ∃ e p registries, h.Serves s path e p registries := by
  cases found : h.exporterAt s path with
  | none => exact Or.inl rfl
  | some e =>
    obtain ⟨p, registries, serves⟩ := coherent.serves path e found
    exact Or.inr ⟨e, p, registries, serves⟩

theorem Coherent.grown (coherent : h.Coherent s) (grown : h.Grown h') : h'.Coherent s where
  table := by
    rw [grown.tableOf]
    exact coherent.table
  serves path e kept := by
    rw [grown.exporterAt] at kept
    obtain ⟨p, registries, serves⟩ := coherent.serves path e kept
    exact ⟨p, registries, grown.serves serves⟩
  routes path p route := by
    rw [grown.routeAt] at route
    rw [grown.exporterAt]
    exact coherent.routes path p route

theorem Serves.unique {e' : ExporterRef} {p' : ProviderRef} {registries' : List RegistryRef}
    (serves : h.Serves s path e p registries)
    (other : h.Serves s path e' p' registries') :
    e' = e ∧ p' = p ∧ registries' = registries := by
  obtain rfl : e' = e := Option.some.inj (other.kept.symm.trans serves.kept)
  obtain rfl : p' = p := Option.some.inj (other.route.symm.trans serves.route)
  have same := congrArg Exporter.registries (other.exporter.symm.trans serves.exporter)
  exact ⟨rfl, rfl, same⟩

theorem Coherent.serves_of_route (coherent : h.Coherent s) (route : h.routeAt s path = some p) :
    ∃ e registries, h.Serves s path e p registries := by
  obtain ⟨e, kept⟩ := coherent.routes path p route
  obtain ⟨q, registries, serves⟩ := coherent.serves path e kept
  obtain rfl : q = p := Option.some.inj (serves.route.symm.trans route)
  exact ⟨e, registries, serves⟩

theorem Coherent.unrouted (coherent : h.Coherent s) (unserved : h.exporterAt s path = none) :
    h.routeAt s path = none := by
  cases route : h.routeAt s path with
  | none => rfl
  | some p =>
    obtain ⟨e, kept⟩ := coherent.routes path p route
    rw [unserved] at kept
    cases kept

theorem Coherent.unserved (coherent : h.Coherent s) (unrouted : h.routeAt s path = none) :
    h.exporterAt s path = none := by
  rcases coherent.state path with unserved | ⟨e, p, registries, serves⟩
  · exact unserved
  · rw [serves.route] at unrouted
    cases unrouted

section Distinct

variable {other : String} {e' : ExporterRef} {p' : ProviderRef} {registries' : List RegistryRef}
  (serves : h.Holds s path e p registries) (serves' : h.Holds s other e' p' registries')
  (differ : other ≠ path)

include serves serves' differ

theorem Holds.provider_ne : p ≠ p' := by
  rintro rfl
  exact differ (serves'.located.symm.trans serves.located)

theorem Holds.backend_ne : (h.providers.get p).backend ≠ (h.providers.get p').backend := by
  intro same
  have address : h.addressOf p = h.addressOf p' := by
    unfold Host.addressOf Host.backendOf
    rw [same]
  have path' : h.pathOf p = h.pathOf p' := by
    unfold Host.pathOf
    rw [address]
  exact differ (by rw [← serves'.located, ← path', serves.located])

theorem Holds.exporter_ne : e ≠ e' := by
  rintro rfl
  have same := congrArg Exporter.provider (serves.exporter.symm.trans serves'.exporter)
  exact Holds.provider_ne serves serves' differ (Option.some.inj same)

theorem Holds.spared : some e ≠ some e' ∧
    some (h.providers.get p).backend ≠ some (h.providers.get p').backend :=
  ⟨mt Option.some.inj (Holds.exporter_ne serves serves' differ),
    mt Option.some.inj (Holds.backend_ne serves serves' differ)⟩

end Distinct

theorem Coherent.elsewhere {excepted : Option ExporterRef} {b : Option BackendRef}
    (coherent : h.Coherent s) (apart : Elsewhere s path excepted b h h')
    (exporter : ∀ other e p registries, other ≠ path → h.Serves s other e p registries →
      excepted ≠ some e ∧ b ≠ some (h.providers.get p).backend)
    (settled : (∃ e p registries, h'.Serves s path e p registries) ∨
      (h'.exporterAt s path = none ∧ h'.routeAt s path = none)) : h'.Coherent s where
  table := by
    rw [apart.tableOf]
    exact coherent.table
  serves other e kept := by
    by_cases same : other = path
    · subst same
      rcases settled with ⟨e', p, registries, serves⟩ | ⟨unserved, _⟩
      · rw [serves.kept] at kept
        cases kept
        exact ⟨p, registries, serves⟩
      · rw [unserved] at kept
        cases kept
    · rw [apart.exporterAt other same] at kept
      obtain ⟨p, registries, serves⟩ := coherent.serves other e kept
      obtain ⟨differ, backend⟩ := exporter other e p registries same serves
      refine ⟨p, registries, serves.toHolds.elsewhere apart same differ backend, ?_⟩
      rw [apart.exporterAt other same, kept]
  routes other p route := by
    by_cases same : other = path
    · subst same
      rcases settled with ⟨e, _, _, serves⟩ | ⟨_, unrouted⟩
      · exact ⟨e, serves.kept⟩
      · rw [unrouted] at route
        cases route
    · rw [apart.routeAt same] at route
      rw [apart.exporterAt other same]
      exact coherent.routes other p route

theorem Coherent.around {b : BackendRef} (coherent : h.Coherent s)
    (serves : h.Serves s path e p registries) (backing : b = (h.providers.get p).backend)
    (apart : Elsewhere s path (some e) (some b) h h')
    (settled : (∃ e p registries, h'.Serves s path e p registries) ∨
      (h'.exporterAt s path = none ∧ h'.routeAt s path = none)) : h'.Coherent s := by
  refine coherent.elsewhere apart (fun other e' p' registries' differ serves' => ?_) settled
  rw [backing]
  exact serves.toHolds.spared serves'.toHolds differ

end Host

namespace Deployed

variable {u : UrlRef} {service : Option Service} {status : Status}

theorem held {mid : Host} {x : ExtensionsRef} {old : ProviderRef}
    (serves : h.Serves s path e old registries) (prepared : h.Prepared x u service p mid)
    (same : (h.urls.get u).path = path) :
    mid.pathOf old = mid.pathOf p ∧
      mid.backends.Allocated (mid.providers.get old).backend ∧
      (mid.backendOf old).available = true ∧ mid.providers.get old = h.providers.get old := by
  have there := prepared.grown.serves serves
  exact ⟨by rw [there.located, prepared.pathOf, same], there.backed, there.available,
    prepared.grown.providers.get old serves.made⟩

theorem elsewhere {result : Except Fault Status}
    (deployed : Deployed h s t u service (result, h')) (table : h.tableOf s = some t) :
    Elsewhere s (h.urls.get u).path none none h h' ∨
      ∃ e old registries, h.Serves s (h.urls.get u).path e old registries ∧
        Elsewhere s (h.urls.get u).path (some e) (some (h.providers.get old).backend) h h' := by
  cases deployed with
  | unmade _ noted => exact Or.inl (noted.grown.elsewhere s _ none none)
  | first unserved prepared opening =>
    have table' := (prepared.grown.tableOf s).trans table
    exact Or.inl (opening.elsewhere (prepared.grown.elsewhere s _ none none) table'
      prepared.pathOf)
  | again serves prepared changeover =>
    have table' := (prepared.grown.tableOf s).trans table
    obtain ⟨same, backed, available, provider⟩ := held serves prepared rfl
    exact Or.inr ⟨_, _, _, serves, changeover.elsewhere (prepared.grown.elsewhere s _ _ _) table'
      prepared.pathOf (same.trans prepared.pathOf) (by rw [provider])⟩

section Apart

variable {result : Except Fault Status} (deployed : Deployed h s t u service (result, h'))
  (table : h.tableOf s = some t)

include deployed table

theorem apart : ∃ e b, Elsewhere s (h.urls.get u).path e b h h' := by
  rcases deployed.elsewhere table with apart | ⟨_, _, _, _, apart⟩
  · exact ⟨_, _, apart⟩
  · exact ⟨_, _, apart⟩

theorem steady : h.Steady s h' := by
  obtain ⟨_, _, apart⟩ := deployed.apart table
  exact apart.steady

theorem routeAt_elsewhere (differ : path ≠ (h.urls.get u).path) :
    h'.routeAt s path = h.routeAt s path := by
  obtain ⟨_, _, apart⟩ := deployed.apart table
  exact apart.routeAt differ

end Apart

theorem settled (deployed : Deployed h s t u service (.ok status, h'))
    (table : h.tableOf s = some t) :
    h.Noted h' ∨ (∃ e p registries, h'.Serves s (h.urls.get u).path e p registries) ∨
      (h'.exporterAt s (h.urls.get u).path = none ∧
        h'.routeAt s (h.urls.get u).path = none) := by
  cases deployed with
  | unmade _ noted => exact Or.inl noted
  | @first mid _ p _ unserved prepared opening =>
    have table' : mid.tableOf s = some t := (prepared.grown.tableOf s).trans table
    have path := prepared.pathOf
    rw [← path]
    by_cases accepted : status = .ok
    · subst accepted
      obtain ⟨registries, serves⟩ := opening.serves table' prepared.known prepared.backed
        prepared.addressOf.2
      exact Or.inr (Or.inl ⟨_, _, registries, serves⟩)
    · have none : mid.exporterAt s (mid.pathOf p) = none := by
        rw [path, prepared.grown.exporterAt, unserved]
      exact Or.inr (Or.inr (opening.unserved accepted table' none).2)
  | @again mid _ p old e registries _ serves prepared changeover =>
    have table' : mid.tableOf s = some t := (prepared.grown.tableOf s).trans table
    obtain ⟨same, backed, available, provider⟩ := held serves prepared rfl
    rw [← prepared.pathOf]
    by_cases accepted : status = .ok
    · subst accepted
      obtain ⟨⟨accepting, there⟩, _⟩ := changeover.serves table' prepared.known prepared.backed
        prepared.addressOf.2 (prepared.backend_ne serves.made serves.backed)
      exact Or.inr (Or.inl ⟨_, _, accepting, there⟩)
    · have made := serves.made.mono prepared.grown.providers.next
      have ended := (changeover.refusal accepted table' same made backed available).2
      split at ended
      · obtain ⟨e', accepting, there⟩ := ended
        exact Or.inr (Or.inl ⟨e', old, accepting, there⟩)
      · exact Or.inr (Or.inr ⟨ended.1, ended.2.1⟩)

theorem accepted (deployed : Deployed h s t u service (.ok .ok, h'))
    (table : h.tableOf s = some t) :
    ∃ p mid, h.Prepared (h.servers.get s).extensions u service p mid ∧ mid.Steady s h' ∧
      h'.routeAt s (h.urls.get u).path = some p ∧ h'.backendOf p = mid.backendOf p := by
  have kept {mid : Host} {p : ProviderRef} {e : Option ExporterRef} {b : Option BackendRef}
      (prepared : h.Prepared (h.servers.get s).extensions u service p mid)
      (apart : Elsewhere s (h.urls.get u).path e b mid h')
      (differ : b ≠ some (mid.providers.get p).backend) : h'.backendOf p = mid.backendOf p := by
    unfold Host.backendOf
    rw [apart.providers.get p prepared.known, apart.backend _ prepared.backed differ]
  cases deployed with
  | first _ prepared opening =>
    have table' := (prepared.grown.tableOf s).trans table
    obtain ⟨_, serves⟩ :=
      opening.serves table' prepared.known prepared.backed prepared.addressOf.2
    have apart := opening.elsewhere (e := none) (b := none) (.refl _) table' prepared.pathOf
    rw [prepared.pathOf] at serves
    exact ⟨_, _, prepared, apart.steady, serves.route, kept prepared apart (by simp)⟩
  | again before prepared changeover =>
    have table' := (prepared.grown.tableOf s).trans table
    have differ := prepared.backend_ne before.made before.backed
    obtain ⟨⟨_, serves⟩, _⟩ := changeover.serves table' prepared.known prepared.backed
      prepared.addressOf.2 differ
    have same := (held before prepared rfl).1
    have apart :=
      changeover.elsewhere (.refl _) table' prepared.pathOf (same.trans prepared.pathOf) rfl
    rw [prepared.pathOf] at serves
    exact ⟨_, _, prepared, apart.steady, serves.route,
      kept prepared apart (by simpa using Ne.symm differ)⟩

theorem route_refused (deployed : Deployed h s t u service (.ok status, h'))
    (table : h.tableOf s = some t) (refused : status ≠ .ok) :
    h'.routeAt s (h.urls.get u).path = h.routeAt s (h.urls.get u).path ∨
      h'.routeAt s (h.urls.get u).path = none := by
  cases deployed with
  | unmade _ noted => exact Or.inl (noted.registering.routeAt s _)
  | first unserved prepared opening =>
    rw [← prepared.pathOf] at unserved ⊢
    refine Or.inr (opening.unserved refused ((prepared.grown.tableOf s).trans table) ?_).2.2
    rw [prepared.grown.exporterAt, unserved]
  | @again mid _ q old e registries _ serves prepared changeover =>
    obtain ⟨same, backed, available, provider⟩ := held serves prepared rfl
    have ended := (changeover.refusal refused ((prepared.grown.tableOf s).trans table) same
      (serves.made.mono prepared.grown.providers.next) backed available).2
    rw [← prepared.pathOf] at serves ⊢
    split at ended
    · obtain ⟨_, _, there⟩ := ended
      exact Or.inl (there.route.trans serves.route.symm)
    · exact Or.inr ended.2.1

theorem around {result : Except Fault Status}
    (deployed : Deployed h s t u service (result, h')) (table : h.tableOf s = some t)
    (serves : h.Serves s (h.urls.get u).path e p registries) :
    Elsewhere s (h.urls.get u).path (some e) (some (h.providers.get p).backend) h h' := by
  rcases deployed.elsewhere table with apart | ⟨e', old, registries', there, apart⟩
  · exact apart.widen
  · obtain ⟨rfl, rfl, rfl⟩ := serves.unique there
    exact apart

theorem coherent (deployed : Deployed h s t u service (.ok status, h')) (coherent : h.Coherent s)
    (table : h.tableOf s = some t) : h'.Coherent s := by
  rcases deployed.settled table with noted | settled
  · exact coherent.grown noted.grown
  · rcases deployed.elsewhere table with apart | ⟨e, old, registries, serves, apart⟩
    · exact coherent.elsewhere apart (by simp) settled
    · exact coherent.around serves rfl apart settled

end Deployed

/-- However exporting a service ended, it is one of the cases of a deployment. -/
theorem Host.Coherent.deployed {u : UrlRef} {service : Option Service}
    {result : Except Fault Status} (coherent : h.Coherent s) (terminated : h.Terminated)
    (table : h.tableOf s = some t) (ends : (exportService s u service).ending h = (result, h')) :
    Deployed h s t u service (result, h') := by
  rw [← ends]
  exact exportService_deployed u service terminated table (coherent.state (h.urls.get u).path)

theorem exportService_coherent {u : UrlRef} {service : Option Service} {status : Status}
    (coherent : h.Coherent s) (terminated : h.Terminated)
    (run : (exportService s u service).Yields h status h') : h'.Coherent s := by
  obtain ⟨t, table⟩ := coherent.table
  exact (coherent.deployed terminated table run).coherent coherent table

theorem exportService_steady (u : UrlRef) (service : Option Service) (coherent : h.Coherent s)
    (terminated : h.Terminated) : h.Steady s ((exportService s u service).after h) := by
  obtain ⟨t, table⟩ := coherent.table
  exact (exportService_deployed u service terminated table
    (coherent.state (h.urls.get u).path)).steady table

theorem Host.Elsewhere.dropped (h : Host) (s : ServerRef) (path : String)
    (e : Option ExporterRef) (b : Option BackendRef) :
    Elsewhere s path e b h { h with servers := h.dropping s path } := by
  obtain ⟨server, others⟩ := (Elsewhere.refl h : Elsewhere s path e b h h).dropping
  exact (Elsewhere.refl h).withServers _ server others

theorem exporterAt_dropping (h : Host) (s : ServerRef) (path : String) :
    Host.exporterAt { h with servers := h.dropping s path } s path = none :=
  h.find?_dropping s path

theorem unexportService_cases {status : Status} (coherent : h.Coherent s)
    (table : h.tableOf s = some t) (run : (unexportService s path).Yields h status h') :
    (status = .serviceNotFound ∧ h.exporterAt s path = none ∧ h.Noted h') ∨
    ∃ e p registries h₁, status = .ok ∧ h.Serves s path e p registries ∧
      Retiring { h with servers := h.dropping s path } t path e p registries h₁ h' := by
  cases found : h.exporterAt s path with
  | none =>
    obtain ⟨h₁, noted, same⟩ := unexportService_unserved found
    obtain ⟨rfl, rfl⟩ := same.unique run
    exact Or.inl ⟨rfl, rfl, noted⟩
  | some e =>
    obtain ⟨p, registries, serves⟩ := coherent.serves path e found
    have apart := Elsewhere.dropped h s path (some e) (some (h.providers.get p).backend)
    have table' := apart.tableOf.trans table
    rw [Yields, unexportService_served found] at run
    rcases retire_cases table' (serves.toHolds.withServers _ (h.endpoint_dropping s path)) with
      ⟨h₁, h₂, retiring, goes⟩ | ⟨fault, h₂, _, stops⟩
    · obtain ⟨rfl, rfl⟩ := goes.unique run
      exact Or.inr ⟨e, p, registries, h₁, rfl, serves, retiring⟩
    · have ends := stops.symm.trans run
      simp at ends

theorem Retiring.apart {h₁ : Host}
    (retiring : Retiring { h with servers := h.dropping s path } t path e p registries h₁ h')
    (table : h.tableOf s = some t) :
    Elsewhere s path (some e) (some (h.providers.get p).backend) h h' := by
  have apart := Elsewhere.dropped h s path (some e) (some (h.providers.get p).backend)
  exact retiring.elsewhere apart (apart.tableOf.trans table) rfl

theorem Retiring.clears {h₁ : Host}
    (retiring : Retiring { h with servers := h.dropping s path } t path e p registries h₁ h')
    (table : h.tableOf s = some t) :
    h'.exporterAt s path = none ∧ h'.routeAt s path = none := by
  have apart := Elsewhere.dropped h s path (some e) (some (h.providers.get p).backend)
  refine ⟨?_, retiring.unrouted (apart.tableOf.trans table)⟩
  rw [retiring.exporterAt]
  exact exporterAt_dropping h s path

theorem unexportService_coherent {status : Status} (coherent : h.Coherent s)
    (run : (unexportService s path).Yields h status h') : h'.Coherent s := by
  obtain ⟨t, table⟩ := coherent.table
  rcases unexportService_cases coherent table run with
    ⟨_, _, noted⟩ | ⟨e, p, registries, h₁, _, serves, retiring⟩
  · exact coherent.grown noted.grown
  · exact coherent.around serves rfl (retiring.apart table) (Or.inr (retiring.clears table))

/-- Taking back one after another, each in a state that holds it. -/
inductive Retirement (s : ServerRef) (t : TableRef) :
    List (String × ExporterRef) → Host → Host → Prop
  | done (h : Host) : Retirement s t [] h h
  | next {h h₁ mid h' : Host} {path : String} {e : ExporterRef} {p : ProviderRef}
    {registries : List RegistryRef} {rest : List (String × ExporterRef)}
    (held : h.Holds s path e p registries)
    (retiring : Retiring h t path e p registries h₁ mid)
    (others : Retirement s t rest mid h') : Retirement s t ((path, e) :: rest) h h'

theorem retireAll_cases {entries : List (String × ExporterRef)}
    (table : h.tableOf s = some t) (apart : entries.Pairwise fun a b => a.1 ≠ b.1)
    (holds : ∀ entry ∈ entries, ∃ p registries, h.Holds s entry.1 entry.2 p registries)
    (run : (retireAll entries).Yields h () h') : Retirement s t entries h h' := by
  induction entries generalizing h with
  | nil =>
    obtain ⟨-, rfl⟩ := yields_pure.1 run
    exact .done h
  | cons entry rest ih =>
    obtain ⟨path, e⟩ := entry
    obtain ⟨differ, later⟩ := List.pairwise_cons.1 apart
    obtain ⟨p, registries, held⟩ := holds _ (List.mem_cons_self)
    obtain ⟨status, mid, first, second⟩ := yields_bind.1 run
    rcases retire_cases table held with ⟨h₁, h₂, retiring, goes⟩ | ⟨fault, h₂, _, stops⟩
    · obtain ⟨-, rfl⟩ : Status.ok = status ∧ h₂ = mid := by
        simpa [Prod.ext_iff] using goes.symm.trans first
      -- the entries that are left are still held, since their paths are others
      have apart : Elsewhere s path (some e) (some (h.providers.get p).backend) h h₂ :=
        retiring.elsewhere (.refl h) table rfl
      refine .next held retiring (ih (apart.tableOf.trans table) later
        (fun entry member => ?_) second)
      obtain ⟨p', registries', other⟩ := holds entry (List.mem_cons_of_mem _ member)
      have differ : entry.1 ≠ path := (differ entry member).symm
      obtain ⟨exporter, backend⟩ := held.spared other differ
      exact ⟨p', registries', other.elsewhere apart differ exporter backend⟩
    · have ends := stops.symm.trans first
      simp at ends

theorem Retirement.clears {entries : List (String × ExporterRef)}
    (retirement : Retirement s t entries h h') (table : h.tableOf s = some t)
    (routes : ∀ path p, h.routeAt s path = some p → ∃ e, (path, e) ∈ entries) :
    h.Steady s h' ∧ h'.endpoints = h.endpoints ∧
      (∀ path, h'.exporterAt s path = h.exporterAt s path) ∧ ∀ path, h'.routeAt s path = none := by
  induction retirement with
  | done h =>
    refine ⟨Course.refl h, rfl, fun _ => rfl, fun path => ?_⟩
    cases route : h.routeAt s path with
    | none => rfl
    | some p =>
      obtain ⟨e, member⟩ := routes path p route
      cases member
  | @next h h₁ mid h' path e p registries rest held retiring others ih =>
    have apart : Elsewhere s path (some e) (some (h.providers.get p).backend) h mid :=
      retiring.elsewhere (.refl h) table rfl
    -- what is still routed belongs to the entries that are left
    obtain ⟨steady, endpoints, exporterAt, unrouted⟩ := ih (apart.tableOf.trans table)
      fun other q route => by
        have differ : other ≠ path := by
          rintro rfl
          rw [retiring.unrouted table] at route
          cases route
        rw [apart.routeAt differ] at route
        obtain ⟨e', member⟩ := routes other q route
        rcases List.mem_cons.1 member with same | member
        · cases same
          exact absurd rfl differ
        · exact ⟨e', member⟩
    refine ⟨Course.trans apart.steady steady, endpoints.trans apart.endpoints, fun other => ?_,
      unrouted⟩
    rw [exporterAt, retiring.exporterAt]

def Host.cleared (h : Host) (s : ServerRef) : Store .server Server :=
  h.servers.modify s fun server => { server with exporters := .empty }

theorem Host.get_cleared (h : Host) (s : ServerRef) :
    (h.cleared s).get s = { h.servers.get s with exporters := .empty } :=
  Store.get_modify_self _ _ _

def Host.shutting (h : Host) (endpoint : EndpointRef) : Store .endpoint Endpoint :=
  h.endpoints.modify endpoint fun endpoint => { endpoint with destroyed := true }

theorem Host.tableOf_shutting (h : Host) (endpoint : EndpointRef) (s : ServerRef) :
    Host.tableOf { h with endpoints := h.shutting endpoint } s = h.tableOf s := by
  unfold Host.tableOf shutting
  rw [Store.get_modify]
  split
  · rename_i here
    rw [here]
  · rfl

theorem Host.routeAt_shutting (h : Host) (endpoint : EndpointRef) (s : ServerRef)
    (path : String) :
    Host.routeAt { h with endpoints := h.shutting endpoint } s path = h.routeAt s path := by
  unfold Host.routeAt
  rw [h.tableOf_shutting]

theorem tableOf_cleared (table : h.tableOf s = some t) :
    Host.tableOf { h with servers := h.cleared s } s = some t := by
  unfold Host.tableOf at table ⊢
  rw [Host.get_cleared]
  exact table

variable {order : Traversal ExporterRef}

theorem destroyServer_cases (coherent : h.Coherent s) (table : h.tableOf s = some t)
    (run : (destroyServer order s).Yields h () h') :
    ∃ mid, Retirement s t (order.walk (h.servers.get s).exporters)
        { h with servers := h.cleared s } mid ∧
      h' = { mid with endpoints := mid.shutting (h.servers.get s).endpoint } := by
  unfold Yields destroyServer at run
  simp only [ending_get_bind, ending_lift_bind, after_modifyServer] at run
  obtain ⟨_, mid, first, second⟩ := yields_bind.1 run
  obtain ⟨-, rfl⟩ := yields_lift.1 second
  refine ⟨mid, retireAll_cases (tableOf_cleared table) (order.walk_apart _)
    (fun entry member => ?_) first, rfl⟩
  have found : h.exporterAt s entry.1 = some entry.2 := order.mem_walk_iff.1 member
  obtain ⟨p, registries, serves⟩ := coherent.serves _ _ found
  exact ⟨p, registries, serves.toHolds.withServers _ (by rw [h.get_cleared])⟩

theorem destroyServer_clears (coherent : h.Coherent s)
    (run : (destroyServer order s).Yields h () h') :
    h.Steady s h' ∧ h'.endpoints = h.shutting (h.servers.get s).endpoint ∧
      (∀ path, h'.exporterAt s path = none) ∧ ∀ path, h'.routeAt s path = none := by
  obtain ⟨t, table⟩ := coherent.table
  have table' := tableOf_cleared table
  have begins : Host.Steady s h { h with servers := h.cleared s } :=
    { (Course.refl h : h.Steady s h) with server := ⟨_, h.get_cleared s⟩ }
  have routes : ∀ path p, Host.routeAt { h with servers := h.cleared s } s path = some p →
      ∃ e, (path, e) ∈ order.walk (h.servers.get s).exporters := by
    intro path p route
    have same : h.routeAt s path = some p := by
      rw [routeAt_of_table table, ← route, routeAt_of_table table']
    obtain ⟨e, found⟩ := coherent.routes path p same
    exact ⟨e, order.mem_walk_iff.2 found⟩
  obtain ⟨mid, retirement, rfl⟩ := destroyServer_cases coherent table run
  obtain ⟨steady, endpoints, kept, unrouted⟩ := retirement.clears table' routes
  have ends : Host.Steady s mid { mid with
      endpoints := mid.shutting (h.servers.get s).endpoint } :=
    { (Course.refl mid : mid.Steady s mid) with }
  refine ⟨Course.trans (Course.trans begins steady) ends, ?_, fun path => ?_, fun path => ?_⟩
  · unfold shutting
    rw [endpoints]
  · refine (kept path).trans ?_
    unfold Host.exporterAt
    rw [Host.get_cleared]
    rfl
  · exact (mid.routeAt_shutting _ s path).trans (unrouted path)

theorem destroyServer_coherent (coherent : h.Coherent s)
    (run : (destroyServer order s).Yields h () h') : h'.Coherent s := by
  obtain ⟨steady, endpoints, kept, unrouted⟩ := destroyServer_clears coherent run
  obtain ⟨t, table⟩ := coherent.table
  obtain ⟨_, server⟩ := steady.server
  refine ⟨⟨t, ?_⟩, fun path e found => ?_, fun path p route => ?_⟩
  · unfold Host.tableOf at table ⊢
    unfold shutting at endpoints
    rw [server, endpoints, Store.get_modify_self]
    exact table
  · rw [kept] at found
    cases found
  · rw [unrouted] at route
    cases route

theorem makeEndpoint_spec (x : ExtensionsRef) (u : UrlRef) (h : Host) :
    ((makeEndpoint x u).value h = some h.endpoints.fresh ∧ (makeEndpoint x u).after h =
      { h with endpoints := h.endpoints.add ⟨u, none, false⟩ }) ∨
    ((makeEndpoint x u).value h = none ∧ h.Noted ((makeEndpoint x u).after h)) := by
  unfold makeEndpoint
  simp only [Step.value_bind, Step.after_bind, Step.value_get, Step.after_get, value_getUrl,
    after_getUrl]
  split
  · exact Or.inr ⟨rfl, writeLog_within _ _ h⟩
  · exact Or.inr ⟨rfl, Course.refl h⟩
  · exact Or.inl ⟨rfl, rfl⟩

theorem serverEndpoint_spec (x : ExtensionsRef) (u : UrlRef) (h : Host) :
    (serverEndpoint x u).value h = h.endpoints.fresh ∧
      Host.Written { h with endpoints := h.endpoints.add ⟨u, none, false⟩ }
        ((serverEndpoint x u).after h) := by
  unfold serverEndpoint
  simp only [Step.value_bind, Step.after_bind]
  rcases makeEndpoint_spec x u h with ⟨made, leaves⟩ | ⟨none, noted⟩
  · rw [made, leaves]
    exact ⟨rfl, Course.refl _⟩
  · rw [none]
    generalize (makeEndpoint x u).after h = h₁ at noted
    obtain ⟨_, _, _, written⟩ := (Course.trans noted (writeLog_within .warning
      ["服务器扩展 ", (h₁.urls.get u).protocol, " 不存在，使用进程内服务器\n"] h₁)).written
    simp only [Step.value_bind, Step.after_bind, value_getUrl, after_getUrl]
    rw [written]
    exact ⟨rfl, _, _, _, rfl⟩

theorem makeTable_spec (x : ExtensionsRef) (name : String) (h : Host) :
    ((makeTable x name).value h = some h.tables.fresh ∧ (makeTable x name).after h =
      { h with tables := h.tables.add .empty }) ∨
    ((makeTable x name).value h = none ∧ h.Noted ((makeTable x name).after h)) := by
  unfold makeTable
  simp only [Step.value_bind, Step.after_bind, Step.value_get, Step.after_get]
  split
  · exact Or.inr ⟨rfl, writeLog_within _ _ h⟩
  · exact Or.inr ⟨rfl, Course.refl h⟩
  · exact Or.inl ⟨rfl, rfl⟩

theorem newServer_spec (c : ConfigurationRef) (x : ExtensionsRef) (u : UrlRef) (h : Host) :
    (newServer c x u).value h = h.servers.fresh ∧
      Host.Written { h with
        endpoints := h.endpoints.add ⟨u, some h.tables.fresh, false⟩
        tables := h.tables.add .empty
        servers := h.servers.add ⟨c, x, h.endpoints.fresh, .empty⟩ }
        ((newServer c x u).after h) := by
  obtain ⟨endpoint, screen, files, journal, leaves⟩ := serverEndpoint_spec x u h
  have modified (table : Option TableRef) :
      (h.endpoints.add ⟨u, none, false⟩).modify h.endpoints.fresh (fun endpoint =>
        { endpoint with table }) = h.endpoints.add ⟨u, table, false⟩ :=
    Store.modify_add_fresh _ _ _
  unfold newServer
  simp only [Step.value_bind, Step.after_bind, endpoint, leaves]
  rcases makeTable_spec x Extensions.defaultName { h with
      endpoints := h.endpoints.add ⟨u, none, false⟩, screen, files, journal } with
    ⟨made, built⟩ | ⟨none, noted⟩
  · rw [made, built]
    refine ⟨rfl, screen, files, journal, ?_⟩
    rw [← modified (some h.tables.fresh)]
    rfl
  · obtain ⟨screen', files', journal', written⟩ := noted.written
    rw [none, written]
    refine ⟨rfl, screen', files', journal', ?_⟩
    rw [← modified (some h.tables.fresh)]
    rfl

theorem newServer_unserved (c : ConfigurationRef) (x : ExtensionsRef) (u : UrlRef) (h : Host) :
    (∃ t, ((newServer c x u).after h).tableOf ((newServer c x u).value h) = some t) ∧
      ∀ path, ((newServer c x u).after h).exporterAt ((newServer c x u).value h) path = none ∧
        ((newServer c x u).after h).routeAt ((newServer c x u).value h) path = none := by
  obtain ⟨server, noted⟩ := newServer_spec c x u h
  rw [server]
  generalize (newServer c x u).after h = h' at noted
  have record : h'.servers.get h.servers.fresh = ⟨c, x, h.endpoints.fresh, .empty⟩ := by
    rw [noted.registering.servers]
    exact h.servers.get_add_fresh _
  have table : h'.tableOf h.servers.fresh = some h.tables.fresh := by
    unfold Host.tableOf
    rw [record, noted.registering.endpoints]
    exact congrArg Endpoint.table (h.endpoints.get_add_fresh _)
  refine ⟨⟨_, table⟩, fun path => ⟨?_, ?_⟩⟩
  · unfold Host.exporterAt
    rw [record]
    rfl
  · rw [routeAt_of_table table, noted.registering.tables]
    exact congrArg (Keyed.find? · path) (h.tables.get_add_fresh _)

theorem newServer_coherent (c : ConfigurationRef) (x : ExtensionsRef) (u : UrlRef) (h : Host) :
    ((newServer c x u).after h).Coherent ((newServer c x u).value h) := by
  obtain ⟨table, bare⟩ := newServer_unserved c x u h
  refine ⟨table, fun path e found => ?_, fun path p route => ?_⟩
  · rw [(bare path).1] at found
    cases found
  · rw [(bare path).2] at route
    cases route

theorem Host.Coherent.of_made {before : Host} {c : ConfigurationRef} {x : ExtensionsRef}
    {u : UrlRef} (server : (newServer c x u).value before = s)
    (made : (newServer c x u).after before = h) : h.Coherent s := by
  rw [← server, ← made]
  exact newServer_coherent c x u before

end RpcHost
