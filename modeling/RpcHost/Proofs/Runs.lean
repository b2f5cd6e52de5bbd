import RpcHost.Proofs.Asking
/-!
Runs of a server: its operations in any order, and between them what clients do to the rest of
the process.
-/
namespace RpcHost

open Attempt Host

/-- Clients leave alone what a server keeps and routes, and the providers that it serves.
The addresses of these differ at most as `keeps` says. -/
structure Host.Undisturbed (s : ServerRef) (keeps : Url → Url → Prop) (h h' : Host) : Prop where
  server : h'.servers.get s = h.servers.get s
  endpoint : h'.endpoints.get (h.servers.get s).endpoint =
    h.endpoints.get (h.servers.get s).endpoint
  routes : ∀ t, h.tableOf s = some t → h'.tables.get t = h.tables.get t
  exporters : h.exporters.next ≤ h'.exporters.next
  exporter : ∀ path e, h.exporterAt s path = some e → h'.exporters.get e = h.exporters.get e
  providers : h.providers.next ≤ h'.providers.next
  backends : h.backends.next ≤ h'.backends.next
  provider : ∀ path p, h.routeAt s path = some p →
    h'.providers.get p = h.providers.get p ∧ h'.backendOf p = h.backendOf p ∧
      h'.kindsOf p = h.kindsOf p ∧
      keeps (h.urls.get (h.addressOf p)) (h'.urls.get (h.addressOf p))

/-- What an operation asks for, and the code it ends with where that matters. -/
inductive Command where
  | deploy (url : Url) (service : Option Service) (status : Status)
  | retire (path : String)
  | close

/-- Operations of the server from `start` on. Each is followed by what clients may do. -/
inductive Run (s : ServerRef) (may : Host → Host → Prop) (start : Host) :
    List Command → Host → Prop
  | start : Run s may start [] start
  | idled {commands : List Command} {h h' : Host} (before : Run s may start commands h)
    (moved : may h h') : Run s may start commands h'
  | exported {commands : List Command} {h mid h' : Host} {u : UrlRef} {service : Option Service}
    {status : Status} (before : Run s may start commands h)
    (ends : (exportService s u service).Yields h status mid) (moved : may mid h') :
    Run s may start (commands ++ [.deploy (h.urls.get u) service status]) h'
  | unexported {commands : List Command} {h mid h' : Host} {path : String} {status : Status}
    (before : Run s may start commands h)
    (ends : (unexportService s path).Yields h status mid) (moved : may mid h') :
    Run s may start (commands ++ [.retire path]) h'
  | handled {commands : List Command} {h h' : Host} {q : Option RequestRef}
    (before : Run s may start commands h) (moved : may ((handle s q).after h) h') :
    Run s may start commands h'
  | destroyed {commands : List Command} {h mid h' : Host} {order : Traversal ExporterRef}
    (before : Run s may start commands h) (ends : (destroyServer order s).Yields h () mid)
    (moved : may mid h') :
    Run s may start (commands ++ [.close]) h'

def Host.furnished (x : Extensions) (registries : Keyed UrlRef) (urls : List Url) : Host :=
  { Host.start (.workingIn []) (fun _ _ => 0) fun _ _ => 0 with
    urls := urls.foldl Store.add .empty
    extensions := Store.empty.add x
    configurations := Store.empty.add { Configuration.empty with registries }
    methods := Store.empty.add .empty }

variable {h h' start : Host} {s : ServerRef} {t : TableRef} {path : String} {e : ExporterRef}
  {p : ProviderRef} {registries : List RegistryRef} {keeps : Url → Url → Prop}
  {may : Host → Host → Prop} {commands : List Command}

theorem Host.Noted.undisturbed (noted : h.Noted h') (same : ∀ u, keeps u u) :
    h.Undisturbed s keeps h' := by
  refine ⟨by rw [noted.registering.servers], by rw [noted.registering.endpoints], fun t _ => ?_,
    ?_, fun path e _ => ?_, ?_, ?_, fun path p _ => ⟨?_, noted.registering.backendOf p, ?_, ?_⟩⟩
  · rw [noted.registering.tables]
  · exact Nat.le_of_eq (by rw [noted.registering.exporters])
  · rw [noted.registering.exporters]
  · exact Nat.le_of_eq (by rw [noted.registering.providers])
  · exact Nat.le_of_eq (by rw [noted.registering.backends])
  · rw [noted.registering.providers]
  · exact kindsOf_congr noted.registering.filters (by rw [noted.registering.providers])
  · rw [noted.registering.urls]
    exact same _

namespace Host.Undisturbed

variable (quiet : h.Undisturbed s keeps h')

include quiet

theorem tableOf : h'.tableOf s = h.tableOf s := by
  unfold Host.tableOf
  rw [quiet.server, quiet.endpoint]

theorem exporterAt (path : String) : h'.exporterAt s path = h.exporterAt s path := by
  unfold Host.exporterAt
  rw [quiet.server]

theorem routeAt (path : String) : h'.routeAt s path = h.routeAt s path := by
  unfold Host.routeAt
  rw [quiet.tableOf]
  cases table : h.tableOf s with
  | none => rfl
  | some t =>
    show (h'.tables.get t).find? path = _
    rw [quiet.routes t table]
    rfl

theorem holds (sound : ∀ u v, keeps u v → v.path = u.path)
    (serves : h.Serves s path e p registries) : h'.Serves s path e p registries := by
  obtain ⟨provider, own, _, address⟩ := quiet.provider path p serves.route
  refine ⟨serves.toHolds.frame quiet.exporters (quiet.exporter path e serves.kept) ?_
    quiet.providers provider quiet.backends ?_ ?_ ?_ (quiet.routeAt path), ?_⟩
  · rw [quiet.server]
  · rw [own]
  · rw [own]
  · exact sound _ _ address
  · rw [quiet.exporterAt]
    exact serves.kept

theorem coherent (sound : ∀ u v, keeps u v → v.path = u.path) (coherent : h.Coherent s) :
    h'.Coherent s where
  table := by
    rw [quiet.tableOf]
    exact coherent.table
  serves path e kept := by
    rw [quiet.exporterAt] at kept
    obtain ⟨p, registries, serves⟩ := coherent.serves path e kept
    exact ⟨p, registries, quiet.holds sound serves⟩
  routes path p route := by
    rw [quiet.routeAt] at route
    rw [quiet.exporterAt]
    exact coherent.routes path p route

end Host.Undisturbed

namespace Host.Asked

variable (asked : h.Asked t h') (table : h.tableOf s = some t)

include asked

theorem exporterAt (path : String) : h'.exporterAt s path = h.exporterAt s path := by
  obtain ⟨_, _, _, _, _, _, rfl⟩ := asked.rest
  rfl

include table

theorem tableOf : h'.tableOf s = some t := by
  obtain ⟨_, _, _, _, _, _, rfl⟩ := asked.rest
  exact table

theorem routeAt (path : String) : h'.routeAt s path = h.routeAt s path := by
  rw [routeAt_of_table (asked.tableOf table), asked.table, routeAt_of_table table]

theorem serves (serves : h.Serves s path e p registries) : h'.Serves s path e p registries := by
  have backends := asked.backends (h.providers.get p).backend
  have next := asked.next
  have routed := asked.routeAt table path
  obtain ⟨_, _, _, _, _, _, rfl⟩ := asked.rest
  refine ⟨serves.toHolds.frame (Nat.le_refl _) rfl rfl (Nat.le_refl _) rfl
    (Nat.le_of_eq next.symm) ?_ ?_ rfl routed, serves.kept⟩
  · have same := congrArg Backend.url backends
    rwa [Backend.url_quiet, Backend.url_quiet] at same
  · have same := congrArg Backend.available backends
    rwa [Backend.available_quiet, Backend.available_quiet] at same

theorem coherent (coherent : h.Coherent s) : h'.Coherent s := by
  refine ⟨⟨t, asked.tableOf table⟩, fun path e kept => ?_, fun path p route => ?_⟩
  · rw [asked.exporterAt] at kept
    obtain ⟨p, registries, serves⟩ := coherent.serves path e kept
    exact ⟨p, registries, asked.serves table serves⟩
  · rw [asked.routeAt table] at route
    rw [asked.exporterAt]
    exact coherent.routes path p route

end Host.Asked

def Command.deployed? : Command → Option (Url × Option Service)
  | deploy url service _ => some (url.asService, service)
  | _ => none

/-- What exporting all configured services deploys, in the order in which they come. -/
def Host.planned (h : Host) (order : Traversal UrlRef) (s : ServerRef)
    (impls : Keyed (Option Service)) : List (Url × Option Service) :=
  let services := (h.configurations.get (h.servers.get s).configuration).services
  (order.walk services).filterMap fun entry =>
    (impls.find? entry.1).map fun service => ((h.urls.get entry.2).asService, service)

theorem exportAll_reaches (Reach : List Command → Host → Prop) (reach : Reach commands h)
    (notes : ∀ commands h h', Reach commands h → h.Noted h' → h'.journal = h.journal →
      Reach commands h')
    (exports : ∀ commands h u service, Reach commands h → ∃ status h',
      (exportService s u service).Yields h status h' ∧ h.Steady s h' ∧
        Reach (commands ++ [.deploy (h.urls.get u) service status]) h')
    (order : Traversal UrlRef) (impls : Keyed (Option Service)) :
    ∃ status h' more, (exportAll order s impls).Yields h status h' ∧ Reach (commands ++ more) h' ∧
      more.map Command.deployed? = (h.planned order s impls).map some := by
  unfold exportAll Yields Host.planned
  simp only [ending_get_bind]
  generalize order.walk (h.configurations.get (h.servers.get s).configuration).services = entries
  -- the entries and their addresses are those of the start, while the state and the status go on
  generalize ended : Status.ok = status
  generalize marked : (fun u => (h.urls.get u).asService) = urls
  have same (u : UrlRef) : (h.urls.get u).asService = urls u := by rw [← marked]
  simp only [same]
  clear ended marked
  -- on the entries: `Reach` holds of what was deployed so far
  induction entries generalizing h commands status with
  | nil =>
    refine ⟨status, h, [], rfl, ?_, rfl⟩
    rw [List.append_nil]
    exact reach
  | cons entry rest ih =>
    obtain ⟨name, u⟩ := entry
    unfold exportEntries
    cases found : impls.find? name with
    | none =>
      have noted := writeLog_within .warning ["服务 ", name, " 没有对应的业务对象，跳过\n"] h
      obtain ⟨status', h', more, ends, reached, deploys⟩ := ih
        (notes _ _ _ reach noted (journal_writeLog _ _ h)) status (by rwa [noted.registering.urls])
      refine ⟨status', h', more, ?_, reached, ?_⟩
      · simp only [ending_lift_bind]
        exact ends
      · simpa [found] using deploys
    | some service =>
      obtain ⟨outcome, mid, exported, steady, reach'⟩ := exports _ h u service reach
      obtain ⟨status', h', more, ends, reached, deploys⟩ := ih reach'
        (if outcome = .ok then status else outcome) fun u => Eq.trans (steady.urls u) (same u)
      refine ⟨status', h', .deploy (h.urls.get u) service outcome :: more, ?_, ?_, ?_⟩
      · exact (exported.ending_bind _).trans ends
      · rwa [List.append_assoc, List.singleton_append] at reached
      · simp [found, deploys, Command.deployed?, same]

/-- Exporting all configured services is a run of exports, where each export that is tried
ends. `Good` is what makes it end. -/
theorem Run.exportedAll (Good : Host → Prop) (run : Run s may start commands h) (good : Good h)
    (notes : ∀ h h', Good h → h.Noted h' → Good h' ∧ may h h')
    (exports : ∀ h u service, Good h → ∃ status h',
      (exportService s u service).Yields h status h' ∧ Good h' ∧ h.Steady s h')
    (order : Traversal UrlRef) (impls : Keyed (Option Service)) :
    ∃ status h' more, (exportAll order s impls).Yields h status h' ∧ Good h' ∧
      Run s may start (commands ++ more) h' ∧
      more.map Command.deployed? = (h.planned order s impls).map some := by
  obtain ⟨status, h', more, ends, ⟨good, run⟩, deploys⟩ := exportAll_reaches
    (fun commands h => Good h ∧ Run s may start commands h) ⟨good, run⟩
    (fun commands h h' reach noted _ => by
      obtain ⟨good, moved⟩ := notes h h' reach.1 noted
      exact ⟨good, .idled reach.2 moved⟩)
    (fun commands h u service reach => by
      obtain ⟨status, h', ends, good, steady⟩ := exports h u service reach.1
      exact ⟨status, h', ends, steady, good,
        .exported reach.2 ends (notes h' h' good (Course.refl h')).2⟩) order impls
  exact ⟨status, h', more, ends, good, run, deploys⟩

end RpcHost
