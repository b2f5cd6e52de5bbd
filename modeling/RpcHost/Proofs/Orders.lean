import Mathlib.Data.List.Pairwise
import RpcHost.Proofs.Concord
/-!
Exporting all configured services does not depend on the order that they come in. Whatever the
order, each export ends as it does on its own, callers see the same services, and the registries
list the same.
-/
namespace RpcHost

open Attempt Host

variable {h h' g g' start before : Host} {s : ServerRef} {t : TableRef} {x : ExtensionsRef}
  {c : ConfigurationRef} {u v : UrlRef} {p : ProviderRef} {path name : String} {status : Status}
  {commands : List Command} {may may' : Host → Host → Prop} {service : Option Service}
  {done : List (UrlRef × Option Service)} {impls : Keyed (Option Service)}
  {entries one other : List (String × UrlRef)}

theorem Run.mono (run : Run s may start commands h) (more : ∀ h h', may h h' → may' h h') :
    Run s may' start commands h := by
  induction run with
  | start => exact .start
  | idled _ moved ih => exact .idled ih (more _ _ moved)
  | exported _ ends moved ih => exact .exported ih ends (more _ _ moved)
  | unexported _ ends moved ih => exact .unexported ih ends (more _ _ moved)
  | handled _ moved ih => exact .handled ih (more _ _ moved)
  | destroyed _ ends moved ih => exact .destroyed ih ends (more _ _ moved)

namespace Host

/-- What clients may do between operations: addresses in use keep their paths, and filters that
were made stay as they were. -/
structure Careful (s : ServerRef) (h h' : Host) : Prop where
  calm : h.Calm s h'
  filters : h.filters.Extends h'.filters

namespace Solid

variable (solid : h.Solid s)

include solid

theorem of_routes (steady : h.Steady s h')
    (routes : ∀ path p, h'.routeAt s path = some p → h.routeAt s path = some p) : h'.Solid s :=
  fun path p route => (solid path p (routes path p route)).steady steady

theorem careful (moved : h.Careful s h') : h'.Solid s := by
  intro path p route
  rw [moved.calm.1.routeAt] at route
  obtain ⟨provider, _⟩ := moved.calm.1.provider path p route
  exact (solid path p route).frame moved.calm.1.providers provider moved.calm.1.backends
    moved.filters

theorem unexported (coherent : h.Coherent s)
    (ends : (unexportService s path).Yields h status h') : h'.Solid s := by
  obtain ⟨t, table⟩ := coherent.table
  rcases unexportService_cases coherent table ends with
    ⟨_, _, noted⟩ | ⟨e, p, registries, h₁, _, serves, retiring⟩
  · refine solid.of_routes noted.steady fun other q route => ?_
    rwa [noted.registering.routeAt] at route
  · refine solid.of_routes (retiring.apart table).steady fun other q route => ?_
    by_cases here : other = path
    · rw [here, (retiring.clears table).2] at route
      cases route
    · rwa [(retiring.apart table).routeAt here] at route

theorem handled (coherent : h.Coherent s) (fit : h.Fit s) (q : Option RequestRef) :
    ((handle s q).after h).Solid s := by
  obtain ⟨t, table⟩ := coherent.table
  have asked := handle_asked (s := s) q (fit.spares t table)
  intro path p route
  rw [asked.routeAt table] at route
  have next := asked.next
  obtain ⟨_, _, _, _, _, _, rest⟩ := asked.rest
  have providers : ((handle s q).after h).providers = h.providers := by rw [rest]
  refine (solid path p route).frame (Nat.le_of_eq (congrArg Store.next providers.symm)) ?_
    (Nat.le_of_eq next.symm) ?_
  · rw [providers]
  · rw [rest]
    exact .refl _

end Solid

end Host

/-- All that a server routes is whole, whatever is done with the server. -/
theorem Run.solid (run : Run s (Host.Careful s) start commands h) (coherent : start.Coherent s)
    (fit : start.Fit s) (solid : start.Solid s) : h.Solid s := by
  have books {commands : List Command} {h : Host} (run : Run s (Host.Careful s) start commands h) :
      h.Coherent s ∧ h.Fit s := (run.mono fun _ _ moved => moved.calm).coherent coherent fit
  -- the books are in order at each point, which deployments need to leave routes whole
  induction run with
  | start => exact solid
  | idled _ moved ih => exact ih.careful moved
  | exported earlier ends moved ih =>
    obtain ⟨coherent, fit⟩ := books earlier
    obtain ⟨t, table⟩ := coherent.table
    have deployed := coherent.deployed fit.terminated table ends
    exact (deployed.solid table ih).careful moved
  | unexported earlier ends moved ih =>
    exact (ih.unexported (books earlier).1 ends).careful moved
  | handled earlier moved ih =>
    obtain ⟨coherent, fit⟩ := books earlier
    exact (ih.handled coherent fit _).careful moved
  | destroyed earlier ends moved ih =>
    obtain ⟨steady, _, _, unrouted⟩ := destroyServer_clears (books earlier).1 ends
    refine (ih.of_routes steady fun path p route => ?_).careful moved
    rw [unrouted] at route
    cases route

theorem newServer_solid (c : ConfigurationRef) (x : ExtensionsRef) (u : UrlRef) (h : Host) :
    ((newServer c x u).after h).Solid ((newServer c x u).value h) := by
  intro path p route
  rw [((newServer_unserved c x u h).2 path).2] at route
  cases route

namespace Host

def MakesStandard (h : Host) (x : ExtensionsRef) : Prop :=
  ∀ name maker, Extensions.usable (h.extensions.get x).providers name = some maker →
    ∀ u url b, maker.make u url = some b → b.Standard

theorem MakesStandard.backend {b : Backend} (makers : h.MakesStandard x)
    (found : (h.extensions.get x).backendFor u (h.urls.get u) = some b)
    (service : Option Service) : (b.serving service).Standard := by
  obtain ⟨maker, there, makes⟩ := Option.bind_eq_some_iff.1 found
  obtain ⟨methods, engine⟩ := makers _ maker there u _ b makes
  unfold Backend.serving
  rw [engine]
  split
  · exact ⟨_, rfl⟩
  · exact ⟨methods, engine⟩
  · rename_i scripted
    cases scripted

theorem Standard.portraitAt {portrait : Portrait} (standard : h.Standard s)
    (shows : h.portraitAt s path = some portrait) : portrait.backend.Standard := by
  obtain ⟨p, route, rfl⟩ := Option.map_eq_some_iff.1 shows
  exact standard path p route

theorem Retouched.standard (retouched : h.Retouched s done g)
    (makers : h.MakesStandard (h.servers.get s).extensions) (standard : h.Standard s) :
    g.Standard s := by
  intro path p route
  have shows := portraitAt_of_route route
  rcases retouched.portraitAt_cases path with ⟨d, member, rfl, looks⟩ | ⟨_, looks⟩
  · rw [looks] at shows
    rcases fateOf_cases shows with ⟨b, found, same⟩ | before
    · have own : g.backendOf p = b.serving d.2 := congrArg Portrait.backend same
      rw [own]
      exact makers.backend found d.2
    · exact standard.portraitAt before
  · rw [looks] at shows
    exact standard.portraitAt shows

/-- The entries are at paths of their own, and paths have identities of their own. -/
structure Configurable (h : Host) (s : ServerRef) (entries : List (String × UrlRef)) : Prop where
  paths : entries.Pairwise fun entry other =>
    (h.urls.get entry.2).path ≠ (h.urls.get other.2).path
  apart : ∀ path other identity, h.Owns s (entries.map Prod.snd) path identity →
    h.Owns s (entries.map Prod.snd) other identity → path = other

end Host

theorem mem_attempts {d : UrlRef × Option Service} : d ∈ attempts impls entries ↔
    ∃ name, (name, d.1) ∈ entries ∧ impls.find? name = some d.2 := by
  unfold attempts
  rw [List.mem_filterMap]
  constructor
  · rintro ⟨⟨name, u⟩, member, made⟩
    obtain ⟨service, found, rfl⟩ := Option.map_eq_some_iff.1 made
    exact ⟨name, member, found⟩
  · rintro ⟨name, member, found⟩
    exact ⟨(name, d.1), member, by rw [found]; rfl⟩

namespace Host.Configurable

theorem owns (own : h.Owns s ((attempts impls entries).map Prod.fst) path identity) :
    h.Owns s (entries.map Prod.snd) path identity :=
  own.mono fun u member => by
    obtain ⟨d, tried, rfl⟩ := List.mem_map.1 member
    obtain ⟨name, entry, _⟩ := mem_attempts.1 tried
    exact List.mem_map_of_mem (f := Prod.snd) entry

variable (configurable : h.Configurable s entries)

include configurable

theorem perm (perm : one.Perm entries) : h.Configurable s one where
  paths := (perm.pairwise_iff fun differ => Ne.symm differ).2 configurable.paths
  apart path other identity own own' := configurable.apart path other identity
    (own.mono fun _ => (perm.map Prod.snd).mem_iff.1)
    (own'.mono fun _ => (perm.map Prod.snd).mem_iff.1)

theorem plannable (terminated : h.Terminated) (direct : h.Direct (h.servers.get s).extensions)
    (clear : h.Unambiguous (h.servers.get s).configuration) (impls : Keyed (Option Service)) :
    h.Plannable s (attempts impls entries) where
  terminated := terminated
  direct := direct
  clear := clear
  paths := configurable.paths.filterMap _ fun entry other differ d made d' made' => by
    obtain ⟨_, _, rfl⟩ := Option.map_eq_some_iff.1 made
    obtain ⟨_, _, rfl⟩ := Option.map_eq_some_iff.1 made'
    exact differ
  apart path other identity own own' := configurable.apart path other identity
    (owns own) (owns own')

end Host.Configurable

namespace Host

/-- Nothing that concerns the path was done. -/
structure LeftAlone (s : ServerRef) (path : String) (h h' : Host) : Prop where
  route : h'.routeAt s path = h.routeAt s path
  portrait : h'.portraitAt s path = h.portraitAt s path
  exporter : h'.exporterAt s path = h.exporterAt s path ∧
    ∀ e, h.exporterAt s path = some e → h'.exporters.get e = h.exporters.get e

/-- What the export of all entries in their order comes to. -/
structure Exported (s : ServerRef) (impls : Keyed (Option Service))
    (entries : List (String × UrlRef)) (status : Status) (h h' : Host) : Prop where
  swept : Sweep s (attempts impls entries)
    ((attempts impls entries).map fun d => h.exportStatus s d.1) h h'
  ok_iff : status = .ok ↔ ∀ d ∈ attempts impls entries, h.exportStatus s d.1 = .ok
  served : ∀ name u service alone, (name, u) ∈ entries → impls.find? name = some service →
    (exportService s u service).Yields h .ok alone →
      ∃ p e registries, h'.Kept s (h.urls.get u).path p e registries ∧ h'.addressOf p = u ∧
        h'.portraitAt s (h.urls.get u).path = alone.portraitAt s (h.urls.get u).path
  skipped : ∀ name u, (name, u) ∈ entries → impls.find? name = none →
    h.LeftAlone s (h.urls.get u).path h' ∧
      ∀ r identity, h.Owns s [u] (h.urls.get u).path identity →
        h'.listsAt r identity = h.listsAt r identity
  reached : ∀ r, h'.registries.Allocated r → h.registries.Allocated r ∨
    ∃ key, (h'.stock (h.servers.get s).extensions).find? key = some r

/-- Neither callers nor registries tell the states apart, which both came from `h`. -/
structure Concordant (s : ServerRef) (h g g' : Host) : Prop where
  exported : ∀ path, (g.exporterAt s path).isSome = (g'.exporterAt s path).isSome
  answers : ∀ requests q, (handle s q).value { g with requests } =
    (handle s q).value { g' with requests }
  known : ∀ r, h.registries.Allocated r → (g.registries.get r).state = (g'.registries.get r).state
  contents : ∀ key, g.contentAt (h.servers.get s).extensions key =
    g'.contentAt (h.servers.get s).extensions key

/-- The same services leave the same, whatever the order. -/
theorem Retouched.concordant {done' : List (UrlRef × Option Service)}
    (first : h.Retouched s done g) (second : h.Retouched s done' g')
    (same : ∀ d, d ∈ done ↔ d ∈ done') (makers : h.MakesStandard (h.servers.get s).extensions)
    (standard : h.Standard s) (direct : h.Direct (h.servers.get s).extensions)
    (clear : h.Unambiguous (h.servers.get s).configuration) : h.Concordant s g g' := by
  have portraits := first.portraitAt_eq second same
  constructor
  case exported =>
    intro path
    rw [first.coherent.isSome_exporterAt, second.coherent.isSome_exporterAt, portraits]
  case answers =>
    intro requests q
    obtain ⟨_, server⟩ := first.steady.server
    obtain ⟨_, server'⟩ := second.steady.server
    refine handle_of_portraits ?_ ?_ ?_ ?_ ?_ q
    · show g.endpoints.get (g.servers.get s).endpoint = g'.endpoints.get (g'.servers.get s).endpoint
      rw [first.endpoints, second.endpoints, server, server']
    · exact first.steady.methods.trans second.steady.methods.symm
    · rfl
    · exact fun path => (portraitAt_withRequests _ _).trans
        ((portraits path).trans (portraitAt_withRequests _ _).symm)
    · exact second.standard makers standard
  case known =>
    intro r known
    refine ((first.abiding.direct direct).registries r).state_eq
      ((second.abiding.direct direct).registries r) fun identity => ?_
    rw [← listsAt_of_allocated (known.mono first.stocks.next),
      ← listsAt_of_allocated (known.mono second.stocks.next)]
    exact first.listsAt_known second same known identity
  case contents => exact first.contentAt_eq second same direct clear

/-- A service that is accepted on its own is served with all the others. -/
theorem Retouched.serves {d : UrlRef × Option Service} {alone : Host}
    (retouched : h.Retouched s done g) (coherent : h.Coherent s) (solid : h.Solid s)
    (terminated : h.Terminated) (civil : h.Civil (h.servers.get s).extensions)
    (member : d ∈ done) (accepted : (exportService s d.1 d.2).Yields h .ok alone) :
    ∃ p e registries, g.Kept s (h.urls.get d.1).path p e registries ∧ g.addressOf p = d.1 ∧
      g.portraitAt s (h.urls.get d.1).path = alone.portraitAt s (h.urls.get d.1).path := by
  obtain ⟨t, table⟩ := coherent.table
  have deployed := coherent.deployed terminated table accepted
  have ends : Status.ok = h.exportStatus s d.1 := Except.ok.inj (deployed.civil civil).1
  have makes : h.Makes s d.1 := by
    unfold Makes
    rw [← ends]
    decide
  obtain ⟨q, mid, prepared, _, route, own⟩ := deployed.accepted table
  have same : g.portraitAt s (h.urls.get d.1).path = alone.portraitAt s (h.urls.get d.1).path := by
    rw [retouched.shown d member, deployed.portraitAt coherent table solid civil]
  have shows := same
  rw [portraitAt_of_route route] at shows
  obtain ⟨p, routed, alike⟩ := Option.map_eq_some_iff.1 shows
  obtain ⟨e, registries, kept⟩ := retouched.kept d member makes p routed
  refine ⟨p, e, registries, kept, ?_, same⟩
  have backend : g.backendOf p = alone.backendOf q := congrArg Portrait.backend alike
  exact (congrArg Backend.url (backend.trans own)).trans prepared.addressOf.1

theorem Retouched.untouched (retouched : h.Retouched s (attempts impls entries) g)
    (coherent : h.Coherent s) (solid : h.Solid s) (configurable : h.Configurable s entries)
    (member : (name, u) ∈ entries) (lacks : impls.find? name = none) :
    h.LeftAlone s (h.urls.get u).path g ∧
      ∀ r identity, h.Owns s [u] (h.urls.get u).path identity →
        g.listsAt r identity = h.listsAt r identity := by
  have away : ∀ d ∈ attempts impls entries, (h.urls.get d.1).path ≠ (h.urls.get u).path := by
    intro d tried
    obtain ⟨other, there, found⟩ := mem_attempts.1 tried
    have differ : (other, d.1) ≠ (name, u) := by
      intro same
      cases same
      rw [lacks] at found
      cases found
    have symmetric : Std.Symm fun entry other : String × UrlRef =>
        (h.urls.get entry.2).path ≠ (h.urls.get other.2).path := ⟨fun _ _ => Ne.symm⟩
    exact configurable.paths.forall there member differ
  obtain ⟨portrait, route, exporter⟩ := retouched.spared _ away
  refine ⟨⟨route, portrait, exporter⟩, fun r identity own => ?_⟩
  have own : h.Owns s (entries.map Prod.snd) (h.urls.get u).path identity :=
    own.mono fun v there => by
      cases List.mem_singleton.1 there
      exact List.mem_map_of_mem (f := Prod.snd) member
  have stands : ¬h.Stands g s (attempts impls entries) r identity := by
    rintro ⟨d, tried, _, stands⟩
    exact away d tried (configurable.apart _ _ identity
      (Configurable.owns (retouched.owns_standing stands)) own)
  have stood : ¬h.Stands h s (attempts impls entries) r identity := by
    rintro ⟨d, tried, _, stood⟩
    have begins := (Retouched.start coherent solid).owns_standing stood
    exact away d tried (configurable.apart _ _ identity
      (begins.mono fun _ none => by cases none) own)
  rw [Bool.eq_iff_iff, retouched.lists]
  simp [stands, stood]

end Host

/-- In whichever orders the configured services are exported, the same paths are exported, all
requests are answered alike and the registries list the same. -/
theorem Run.exports_in_any_order (server : (newServer c x v).value before = s)
    (made : (newServer c x v).after before = start) (fit : start.Fit s)
    (run : Run s (Host.Careful s) start commands h) (standard : h.Standard s)
    (makers : h.MakesStandard (h.servers.get s).extensions)
    (direct : h.Direct (h.servers.get s).extensions)
    (clear : h.Unambiguous (h.servers.get s).configuration)
    (configured : (h.configurations.get (h.servers.get s).configuration).services.entries = entries)
    (configurable : h.Configurable s entries) (impls : Keyed (Option Service))
    (order : one.Perm entries) (order' : other.Perm entries) :
    (∀ walk : Traversal UrlRef, (exportAll walk s impls).ending h =
        (exportEntries s impls (walk.order entries) .ok).ending h) ∧
      ∃ status g status' g', (exportEntries s impls one .ok).Yields h status g ∧
        (exportEntries s impls other .ok).Yields h status' g' ∧
        h.Exported s impls one status g ∧ h.Exported s impls other status' g' ∧
        (status = .ok ↔ status' = .ok) ∧ h.Concordant s g g' := by
  have begins : start.Coherent s := .of_made server made
  obtain ⟨coherent, fits⟩ := (run.mono fun _ _ moved => moved.calm).coherent begins fit
  have solid : h.Solid s := run.solid begins fit <| by
    rw [← server, ← made]
    exact newServer_solid c x v before
  -- each order is a sweep, and what it leaves is told from the state that all start in
  have each {list : List (String × UrlRef)} (perm : list.Perm entries) :
      ∃ status g, (exportEntries s impls list .ok).Yields h status g ∧
        h.Exported s impls list status g ∧ h.Retouched s (attempts impls list) g := by
    have own := configurable.perm perm
    obtain ⟨codes, g, sweep, ends⟩ :=
      exportEntries_sweeps coherent fits.terminated fits.civil impls list .ok
    obtain ⟨rfl, retouched⟩ := sweep.retouched (.start coherent solid)
      (own.plannable fits.terminated direct clear impls)
    rw [List.nil_append] at retouched
    refine ⟨_, g, ends, ⟨sweep, ?_, ?_, ?_, ?_⟩, retouched⟩
    · rw [verdict_eq_ok_iff, List.forall_mem_map]
      exact and_iff_right rfl
    · intro name u service alone member found accepted
      exact retouched.serves (d := (u, service)) coherent solid fits.terminated fits.civil
        (mem_attempts.2 ⟨name, member, found⟩) accepted
    · exact fun name u member lacks => retouched.untouched coherent solid own member lacks
    · exact retouched.stocks.reached
  obtain ⟨status, g, ends, exported, retouched⟩ := each order
  obtain ⟨status', g', ends', exported', retouched'⟩ := each order'
  -- the orders deploy the same services
  have same (d : UrlRef × Option Service) :
      d ∈ attempts impls one ↔ d ∈ attempts impls other :=
    ((order.trans order'.symm).filterMap _).mem_iff
  refine ⟨?_, status, g, status', g', ends, ends', exported, exported', ?_,
    retouched.concordant retouched' same makers standard direct clear⟩
  · intro walk
    unfold exportAll Traversal.walk
    simp only [ending_get_bind, configured]
  · rw [exported.ok_iff, exported'.ok_iff]
    simp only [same]

def Host.outfitted : Host :=
  { furnished .builtIn (.ofList [("main", ⟨0⟩)])
      [⟨"direct", "127.0.0.1", 9000, "", "", .empty⟩, ⟨"local", "127.0.0.1", 8000, "", "", .empty⟩,
        .sample, ⟨"mrpc", "127.0.0.1", 8100, "bare", "", .empty⟩,
        ⟨"mrpc", "127.0.0.1", 8100, "idle", "", .ofList [(Url.registryKey, "main")]⟩] with
    configurations := Store.empty.add { Configuration.empty with
      registries := .ofList [("main", ⟨0⟩)]
      services := .ofList [("bare", ⟨3⟩), ("calculator", ⟨2⟩), ("idle", ⟨4⟩)] } }

theorem Host.Configurable.of_new
    (paths : entries.Pairwise fun entry other =>
      (((newServer c x v).after h).urls.get entry.2).path ≠
        (((newServer c x v).after h).urls.get other.2).path)
    (apart : ∀ u ∈ entries.map Prod.snd, ∀ w ∈ entries.map Prod.snd,
      (((newServer c x v).after h).urls.get u).identity =
        (((newServer c x v).after h).urls.get w).identity →
      (((newServer c x v).after h).urls.get u).path =
        (((newServer c x v).after h).urls.get w).path) :
    ((newServer c x v).after h).Configurable ((newServer c x v).value h) entries := by
  refine ⟨paths, ?_⟩
  have unserved {path : String} {p : ProviderRef} : ((newServer c x v).after h).routeAt
      ((newServer c x v).value h) path ≠ some p := by
    rw [((newServer_unserved c x v h).2 path).2]
    simp
  rintro path other identity (⟨u, member, rfl, own⟩ | ⟨p, route, _⟩)
    (⟨w, member', rfl, own'⟩ | ⟨p', route', _⟩)
  · exact apart u member w member' (own.trans own'.symm)
  · exact absurd route' unserved
  · exact absurd route unserved
  · exact absurd route unserved

theorem newServer_standard (c : ConfigurationRef) (x : ExtensionsRef) (u : UrlRef) (h : Host) :
    ((newServer c x u).after h).Standard ((newServer c x u).value h) := by
  intro path p route
  rw [((newServer_unserved c x u h).2 path).2] at route
  cases route

theorem Host.makesStandard_builtIn (factory : h.extensions.get x = .builtIn) :
    h.MakesStandard x := by
  intro name maker found
  rw [factory] at found
  rw [Extensions.provider_builtIn found]
  rintro u url b ⟨⟩
  exact ⟨_, rfl⟩

/-- Of the services of the sample one is refused, one is accepted and one is left out. -/
theorem Run.exports_in_any_order_outfitted :
    let impls := Keyed.ofList [("bare", none), ("calculator", some (Service.methods ⟨0⟩))]
    let entries : List (String × UrlRef) := [("bare", ⟨3⟩), ("calculator", ⟨2⟩), ("idle", ⟨4⟩)]
    let start := (newServer ⟨0⟩ ⟨0⟩ ⟨1⟩).after .outfitted
    ∃ status g status' g', (exportEntries ⟨0⟩ impls entries .ok).Yields start status g ∧
      (exportEntries ⟨0⟩ impls entries.reverse .ok).Yields start status' g' ∧
      start.Concordant ⟨0⟩ g g' ∧ status ≠ .ok ∧ status' ≠ .ok ∧
      (g.exporterAt ⟨0⟩ "calculator").isSome = true ∧
      (g'.exporterAt ⟨0⟩ "idle").isSome = false := by
  intro impls entries start
  have fit : start.Fit ⟨0⟩ :=
    Host.fit_builtIn rfl ⟨Nat.zero_lt_one, rfl⟩ (fun _ => trivial) fun _ _ => id
  have coherent : start.Coherent ⟨0⟩ := newServer_coherent ⟨0⟩ ⟨0⟩ ⟨1⟩ .outfitted
  have direct : start.Direct ⟨0⟩ := Host.direct_builtIn rfl fun _ => ⟨_, rfl⟩
  have clear : start.Unambiguous ⟨0⟩ := Host.unambiguous_of_one rfl
  have configurable : start.Configurable ⟨0⟩ entries :=
    Host.Configurable.of_new (by decide +kernel) (by decide +kernel)
  obtain ⟨-, status, g, status', g', ends, ends', exported, exported', ok_iff, concordant⟩ :=
    Run.exports_in_any_order (s := ⟨0⟩) (v := ⟨1⟩) (c := ⟨0⟩) (x := ⟨0⟩) rfl rfl fit .start
      (newServer_standard ⟨0⟩ ⟨0⟩ ⟨1⟩ .outfitted) (Host.makesStandard_builtIn rfl) direct clear rfl
      configurable impls (.refl entries) (List.reverse_perm entries)
  have refuses : start.exportStatus ⟨0⟩ ⟨3⟩ = .registryNotFound := by decide +kernel
  have accepts : start.exportStatus ⟨0⟩ ⟨2⟩ = .ok := by decide +kernel
  have path : (start.urls.get ⟨2⟩).path = "calculator" ∧ (start.urls.get ⟨4⟩).path = "idle" := by
    decide +kernel
  have refused : status ≠ .ok := fun ok => by
    have alone := exported.ok_iff.1 ok (⟨3⟩, none)
      (mem_attempts.2 ⟨"bare", by simp [entries], by decide +kernel⟩)
    rw [refuses] at alone
    cases alone
  refine ⟨status, g, status', g', ends, ends', concordant, refused, fun ok => refused (ok_iff.2 ok),
    ?_, ?_⟩
  · obtain ⟨alone, accepted, _⟩ :=
      exportService_orderly ⟨2⟩ (some (.methods ⟨0⟩)) coherent fit
    rw [accepts] at accepted
    obtain ⟨p, e, registries, kept, _⟩ := exported.served "calculator" ⟨2⟩
      (some (.methods ⟨0⟩)) alone (by simp [entries]) (by decide +kernel) accepted
    rw [← path.1, kept.serves.kept]
    rfl
  · obtain ⟨untouched, _⟩ := exported'.skipped "idle" ⟨4⟩ (by simp [entries]) (by decide +kernel)
    have unserved : start.exporterAt ⟨0⟩ (start.urls.get ⟨4⟩).path = none :=
      ((newServer_unserved ⟨0⟩ ⟨0⟩ ⟨1⟩ .outfitted).2 _).1
    have kept := untouched.exporter.1.trans unserved
    rw [path.2] at kept
    rw [kept]
    rfl

def Host.rivals : Host :=
  { namesakes with
    configurations := Store.empty.add { Configuration.empty with
      registries := .ofList [("a", ⟨0⟩), ("b", ⟨1⟩)]
      services := .ofList [("first", ⟨3⟩), ("second", ⟨4⟩)] } }

/-- Where two registry addresses read the same as a whole, a service is listed at the registry of
the other one if that was made before. So the order shows. -/
theorem exports_out_of_order :
    let entries : List (String × UrlRef) := [("first", ⟨3⟩), ("second", ⟨4⟩)]
    let impls := Keyed.ofList (entries.map fun entry => (entry.1, (none : Option Service)))
    let start := (newServer ⟨0⟩ ⟨0⟩ ⟨2⟩).after .rivals
    (start.configurations.get ⟨0⟩).services.entries = entries ∧ start.Fit ⟨0⟩ ∧
      start.Standard ⟨0⟩ ∧ start.MakesStandard ⟨0⟩ ∧ start.Direct ⟨0⟩ ∧
      start.Configurable ⟨0⟩ entries ∧
      ∃ g g', (exportEntries ⟨0⟩ impls entries .ok).Yields start .ok g ∧
        (exportEntries ⟨0⟩ impls entries.reverse .ok).Yields start .ok g' ∧
        ¬start.Concordant ⟨0⟩ g g' := by
  intro entries impls start
  have ends : ((exportEntries ⟨0⟩ impls entries .ok).outcome start).toOption = some .ok := by
    decide +kernel
  have ends' : ((exportEntries ⟨0⟩ impls entries.reverse .ok).outcome start).toOption =
      some .ok := by
    decide +kernel
  refine ⟨rfl, Host.fit_builtIn rfl ⟨Nat.zero_lt_one, rfl⟩ (fun _ => trivial) fun _ _ => id,
    newServer_standard ⟨0⟩ ⟨0⟩ ⟨2⟩ .rivals, Host.makesStandard_builtIn rfl,
    Host.direct_builtIn rfl fun _ => ⟨_, rfl⟩,
    Host.Configurable.of_new (by decide +kernel) (by decide +kernel),
    _, _, yields_of_toOption ends, yields_of_toOption ends', fun concordant => ?_⟩
  have same := congrArg (Option.map fun state =>
    (Registry.mk "" ⟨0⟩ state).lists (start.urls.get ⟨3⟩).identity)
    (concordant.contents (start.urls.get ⟨0⟩).identity)
  revert same
  decide +kernel

end RpcHost
