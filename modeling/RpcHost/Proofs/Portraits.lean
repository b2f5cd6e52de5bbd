import RpcHost.Proofs.Drain
import RpcHost.Proofs.Layers
import RpcHost.Proofs.Refinement
/-!
What callers get to see of the services of a server, and what a deployment makes of it. At its own
path that is told beforehand from the address, the business object, the factory and what is served
there. At other paths it stays.
-/
namespace RpcHost

open Attempt Host

variable {h mid h' : Host} {s : ServerRef} {t : TableRef} {x : ExtensionsRef} {u : UrlRef}
  {p p' old : ProviderRef} {e : ExporterRef} {path : String} {registries : List RegistryRef}
  {service : Option Service} {status : Status}

/-- What a provider does its work with. The address is as an export marks it. -/
structure Portrait where
  backend : Backend
  kinds : List (List FilterKind)
  url : Url

namespace Host

def portrait (h : Host) (p : ProviderRef) : Portrait :=
  ⟨h.backendOf p, h.kindsOf p, (h.urls.get (h.addressOf p)).asService⟩

def portraitAt (h : Host) (s : ServerRef) (path : String) : Option Portrait :=
  (h.routeAt s path).map h.portrait

theorem portraitAt_of_route (route : h.routeAt s path = some p) :
    h.portraitAt s path = some (h.portrait p) := by
  rw [portraitAt, route, Option.map_some]

/-- What deploying a service at the address leaves at its path. Where the address names no
registries, a service that does so is put back, and any other is lost. -/
def fateOf (h : Host) (s : ServerRef) (u : UrlRef) (service : Option Service) : Option Portrait :=
  match (h.extensions.get (h.servers.get s).extensions).backendFor u (h.urls.get u) with
  | none => h.portraitAt s (h.urls.get u).path
  | some b =>
    if (h.urls.get u).hasParam Url.registryKey then
      some ⟨b.serving service,
        [FilterKind.stack (h.kindsFor (h.servers.get s).extensions u) [.terminal]],
        (h.urls.get u).asService⟩
    else (h.portraitAt s (h.urls.get u).path).filter (·.url.hasParam Url.registryKey)

theorem fateOf_unmade (found : (h.extensions.get (h.servers.get s).extensions).backendFor u
    (h.urls.get u) = none) : h.fateOf s u service = h.portraitAt s (h.urls.get u).path := by
  unfold fateOf
  rw [found]

theorem exportStatus_unmade (found : (h.extensions.get (h.servers.get s).extensions).backendFor u
    (h.urls.get u) = none) : h.exportStatus s u = .noProvider := by
  unfold exportStatus
  rw [found]
  rfl

theorem exportStatus_of_backend {b : Backend}
    (found : (h.extensions.get (h.servers.get s).extensions).backendFor u (h.urls.get u) =
      some b) :
    h.exportStatus s u =
      if (h.urls.get u).hasParam Url.registryKey then .ok else .registryNotFound := by
  unfold exportStatus
  rw [found]
  rfl

section Made

variable {b : Backend}
  (found : (h.extensions.get (h.servers.get s).extensions).backendFor u (h.urls.get u) = some b)

include found

theorem fateOf_accepted (names : (h.urls.get u).hasParam Url.registryKey = true) :
    h.fateOf s u service = some ⟨b.serving service,
      [FilterKind.stack (h.kindsFor (h.servers.get s).extensions u) [.terminal]],
      (h.urls.get u).asService⟩ := by
  unfold fateOf
  rw [found, names]
  rfl

theorem fateOf_refused (lacks : (h.urls.get u).hasParam Url.registryKey = false) :
    h.fateOf s u service =
      (h.portraitAt s (h.urls.get u).path).filter (·.url.hasParam Url.registryKey) := by
  unfold fateOf
  rw [found, lacks]
  rfl

end Made

theorem fateOf_cases {portrait : Portrait} (fate : h.fateOf s u service = some portrait) :
    (∃ b, (h.extensions.get (h.servers.get s).extensions).backendFor u (h.urls.get u) = some b ∧
      portrait = ⟨b.serving service,
        [FilterKind.stack (h.kindsFor (h.servers.get s).extensions u) [.terminal]],
        (h.urls.get u).asService⟩) ∨
      h.portraitAt s (h.urls.get u).path = some portrait := by
  unfold fateOf at fate
  split at fate
  · exact Or.inr fate
  · rename_i b found
    split at fate
    · exact Or.inl ⟨b, found, (Option.some.inj fate).symm⟩
    · exact Or.inr (Option.filter_eq_some_iff.1 fate).1

theorem listParam_portrait (h : Host) (p : ProviderRef) :
    (h.portrait p).url.listParam Url.registryKey = h.registryNames p :=
  (Url.Like.asService _).listParam (by decide)

/-- All that the server routes is whole. -/
def Solid (h : Host) (s : ServerRef) : Prop := ∀ path p, h.routeAt s path = some p → h.Whole p

section Answers

variable (same : h'.portrait p' = h.portrait p)

include same

theorem hintAt_of_portrait : h'.hintAt p' = h.hintAt p := by
  have like : (h'.urls.get (h'.addressOf p')).Like (h.urls.get (h.addressOf p)) :=
    congrArg Portrait.url same
  unfold hintAt Url.intValue
  rw [like.intParam (by decide)]

theorem replyOf_of_portrait (methods : h'.methods = h.methods) (r : Request) :
    h'.replyOf p' r = h.replyOf p r := by
  have like : (h'.urls.get (h'.addressOf p')).Like (h.urls.get (h.addressOf p)) :=
    congrArg Portrait.url same
  have backend : h'.backendOf p' = h.backendOf p := congrArg Portrait.backend same
  have kinds : h'.kindsOf p' = h.kindsOf p := congrArg Portrait.kinds same
  have located : h'.pathOf p' = h.pathOf p := like.path
  unfold replyOf bareReply
  rw [kinds, methods, located, backend]

theorem answerOf_of_portrait (methods : h'.methods = h.methods) (r : Request) :
    h'.answerOf p' r = h.answerOf p r := by
  unfold answerOf
  rw [hintAt_of_portrait same, replyOf_of_portrait same methods]

end Answers

theorem reached_eq_routeAt {name : String}
    (serving : (h.endpoints.get (h.servers.get s).endpoint).servingTable = some t) :
    h.reached s name = h.routeAt s name := by
  have table : h.tableOf s = some t := by
    unfold Endpoint.servingTable at serving
    split at serving
    · cases serving
    · exact serving
  rw [routeAt_of_table table, reached, serving]
  rfl

def Standard (h : Host) (s : ServerRef) : Prop :=
  ∀ path p, h.routeAt s path = some p → (h.backendOf p).Standard

end Host

theorem handle_standard (standard : h.Standard s) (q : RequestRef) :
    (handle s (some q)).value h =
      match (h.endpoints.get (h.servers.get s).endpoint).servingTable with
      | none => .ofFailure (h.requests.get q).rid (.unavailable "server is destroyed")
      | some _ =>
        match h.routeAt s (h.requests.get q).service.value with
        | none => .ofFailure (h.requests.get q).rid
            ⟨500, "not found provider for " ++ (h.requests.get q).service.value, .service⟩
        | some p => h.answerOf p (h.requests.get q) := by
  cases serving : (h.endpoints.get (h.servers.get s).endpoint).servingTable with
  | none =>
    have unreached (name : String) : h.reached s name = none := by
      rw [reached, serving]
      rfl
    rw [handle_replies, serving]
    intro p found
    rw [unreached] at found
    cases found
  | some t =>
    have there (name : String) : h.reached s name = h.routeAt s name := reached_eq_routeAt serving
    have reached : ∀ p, h.reached s (h.requests.get q).service.value = some p →
        (h.backendOf p).Standard := by
      intro p found
      rw [there] at found
      exact standard _ p found
    have replies := handle_replies reached
    rw [serving, there] at replies
    exact replies

/-- Servers that show the same services answer alike. -/
theorem handle_of_portraits
    (endpoint : h'.endpoints.get (h'.servers.get s).endpoint =
      h.endpoints.get (h.servers.get s).endpoint)
    (methods : h'.methods = h.methods) (requests : h'.requests = h.requests)
    (portraits : ∀ path, h'.portraitAt s path = h.portraitAt s path) (standard : h.Standard s)
    (q : Option RequestRef) : (handle s q).value h' = (handle s q).value h := by
  have standard' : h'.Standard s := by
    intro path p' route'
    have same := portraits path
    rw [portraitAt_of_route route'] at same
    obtain ⟨p, route, alike⟩ := Option.map_eq_some_iff.1 same.symm
    rw [← show h.backendOf p = h'.backendOf p' from congrArg Portrait.backend alike]
    exact standard path p route
  cases q with
  | none => rw [handle_null, handle_null, endpoint]
  | some q =>
    rw [handle_standard standard', handle_standard standard, endpoint, requests]
    cases (h.endpoints.get (h.servers.get s).endpoint).servingTable with
    | none => rfl
    | some t =>
      have same := portraits (h.requests.get q).service.value
      unfold portraitAt at same
      cases route : h.routeAt s (h.requests.get q).service.value with
      | none =>
        rw [route, Option.map_none, Option.map_eq_none_iff] at same
        rw [same]
      | some p =>
        rw [route, Option.map_some] at same
        obtain ⟨p', route', alike⟩ := Option.map_eq_some_iff.1 same
        rw [route']
        exact answerOf_of_portrait alike methods _

namespace Host

theorem portrait_steady (whole : h.Whole p) (steady : h.Steady s h')
    (own : h'.backendOf p = h.backendOf p) : h'.portrait p = h.portrait p := by
  have address : h'.addressOf p = h.addressOf p := congrArg Backend.url own
  unfold portrait
  rw [own, address, whole.kindsOf steady.providers steady.filters]
  exact congrArg (Portrait.mk _ _) (steady.urls _)

theorem portrait_congr (backends : h'.backends = h.backends)
    (providers : h'.providers = h.providers) (filters : h'.filters = h.filters)
    (urls : h'.urls = h.urls) : h'.portrait = h.portrait := by
  funext p
  have own : h'.backendOf p = h.backendOf p := by
    unfold backendOf
    rw [backends, providers]
  have address : h'.addressOf p = h.addressOf p := congrArg Backend.url own
  unfold portrait
  rw [own, address, urls, kindsOf_congr filters (by rw [providers])]

theorem portraitAt_noted (noted : h.Noted h') (path : String) :
    h'.portraitAt s path = h.portraitAt s path := by
  unfold portraitAt
  rw [noted.registering.routeAt, portrait_congr noted.registering.backends
    noted.registering.providers noted.registering.filters noted.registering.urls]

theorem portraitAt_withRequests (requests : Store .request Request) (path : String) :
    Host.portraitAt { h with requests } s path = h.portraitAt s path := by
  unfold portraitAt
  rw [show Host.portrait { h with requests } = h.portrait from portrait_congr rfl rfl rfl rfl]
  rfl

namespace Prepared

variable (prepared : h.Prepared x u service p mid)

include prepared

theorem portrait {b : Backend} (found : (h.extensions.get x).backendFor u (h.urls.get u) = some b) :
    mid.portrait p = ⟨b.serving service, [FilterKind.stack (h.kindsFor x u) [.terminal]],
      (h.urls.get u).asService⟩ := by
  obtain ⟨other, found', serves⟩ := prepared.backend
  obtain rfl : other = b := Option.some.inj (found'.symm.trans found)
  obtain ⟨head, layers, chain⟩ := prepared.layers
  have kinds : mid.kindsOf p = [FilterKind.stack (h.kindsFor x u) [.terminal]] := by
    unfold kindsOf
    rw [layers]
    exact congrArg (fun kinds => [kinds]) chain.kinds_chainOf
  unfold Host.portrait
  rw [serves, kinds, prepared.addressOf.1, prepared.grown.urls]

end Prepared

end Host

namespace Deployed

theorem noted (deployed : Deployed h s t u service (.ok status, h'))
    (none : (h.extensions.get (h.servers.get s).extensions).backendFor u (h.urls.get u) = none) :
    h.Noted h' := by
  cases deployed with
  | unmade _ noted => exact noted
  | first _ prepared | again _ prepared =>
    obtain ⟨b, made, _⟩ := prepared.backend
    rw [none] at made
    cases made

variable (coherent : h.Coherent s) (table : h.tableOf s = some t) (solid : h.Solid s)

include coherent table solid

theorem portraitAt_elsewhere (deployed : Deployed h s t u service (.ok status, h'))
    (differ : path ≠ (h.urls.get u).path) :
    h'.portraitAt s path = h.portraitAt s path := by
  have steady := deployed.steady table
  unfold Host.portraitAt
  rw [deployed.routeAt_elsewhere table differ]
  cases routed : h.routeAt s path with
  | none => rfl
  | some p =>
    obtain ⟨e, registries, serves⟩ := coherent.serves_of_route routed
    have own := (deployed.untouched table serves.toHolds differ).2.2
    exact congrArg some (portrait_steady (solid path p routed) steady own)

theorem portraitAt_refused
    (deployed : Deployed h s t u service (.ok .registryNotFound, h')) :
    h'.portraitAt s (h.urls.get u).path =
      (h.portraitAt s (h.urls.get u).path).filter (·.url.hasParam Url.registryKey) := by
  unfold Host.portraitAt
  cases routed : h.routeAt s (h.urls.get u).path with
  | none =>
    have unrouted : h'.routeAt s (h.urls.get u).path = none := by
      rcases deployed.route_refused table (by decide) with same | none
      · rw [same, routed]
      · exact none
    rw [unrouted]
    rfl
  | some old =>
    obtain ⟨e, registries, serves⟩ := coherent.serves_of_route routed
    have named : (h.portrait old).url.hasParam Url.registryKey = h.namesRegistries old :=
      Url.hasParam_asService _
    cases names : h.namesRegistries old with
    | true =>
      have route := deployed.route_named coherent table (by decide) routed names
      have own := (deployed.backendOf_refused table (by decide) route).2
      rw [route, Option.map_some, Option.map_some, Option.filter_some, named, names, if_pos rfl,
        portrait_steady (solid _ old routed) (deployed.steady table) own]
    | false =>
      have unkept : h'.exporterAt s (h.urls.get u).path = none := by
        have iff := deployed.kept_iff table serves
        simpa [names] using iff
      have unrouted := (deployed.coherent coherent table).unrouted unkept
      rw [unrouted, Option.map_some, Option.filter_some, named, names, if_neg (by decide)]
      rfl

/-- The path of the deployment comes to look as could be told before. -/
theorem portraitAt (deployed : Deployed h s t u service (.ok status, h'))
    (civil : h.Civil (h.servers.get s).extensions) :
    h'.portraitAt s (h.urls.get u).path = h.fateOf s u service := by
  have steady := deployed.steady table
  have ends : status = h.exportStatus s u := Except.ok.inj (deployed.civil civil).1
  cases found : (h.extensions.get (h.servers.get s).extensions).backendFor u (h.urls.get u) with
  | none =>
    rw [fateOf_unmade found]
    exact portraitAt_noted (deployed.noted found) _
  | some b =>
    rw [exportStatus_of_backend found] at ends
    cases names : (h.urls.get u).hasParam Url.registryKey with
    | true =>
      rw [names, if_pos rfl] at ends
      subst ends
      obtain ⟨p, mid, prepared, onward, route, own⟩ := deployed.accepted table
      rw [fateOf_accepted found names, portraitAt_of_route route,
        portrait_steady prepared.whole onward own, prepared.portrait found]
    | false =>
      rw [names, if_neg (by decide)] at ends
      subst ends
      rw [fateOf_refused found names]
      exact deployed.portraitAt_refused coherent table solid

end Deployed

theorem Deployed.solid (deployed : Deployed h s t u service (.ok status, h'))
    (table : h.tableOf s = some t) (solid : h.Solid s) : h'.Solid s := by
  have steady := deployed.steady table
  intro path p route
  by_cases here : path = (h.urls.get u).path
  · subst here
    by_cases accepted : status = .ok
    · subst accepted
      obtain ⟨q, mid, prepared, onward, routed, _⟩ := deployed.accepted table
      obtain rfl : q = p := Option.some.inj (routed.symm.trans route)
      exact prepared.whole.steady onward
    · obtain ⟨before, _⟩ := deployed.backendOf_refused table accepted route
      exact (solid _ p before).steady steady
  · rw [deployed.routeAt_elsewhere table here] at route
    exact (solid path p route).steady steady

end RpcHost
