import RpcHost.Proofs.Booking
import RpcHost.Proofs.Ledger
/-!
The account of a server's registrations. Whatever is done with the server, each registration that
a registry took stands for a service that is still served, or it was tried to be withdrawn, once.
-/
namespace RpcHost

open Attempt Host

namespace Host

def since (h h' : Host) : List Event := h'.journal.drop h.journal.length

/-- The factory and the registries of the server behave, and the registries that the factory
keeps are there. -/
structure Orderly (h : Host) (s : ServerRef) : Prop where
  terminated : h.Terminated
  civil : h.Civil (h.servers.get s).extensions
  stocked : h.Stocked (h.servers.get s).extensions

/-- Clients do not use the registry. One that is made lists nothing. -/
structure Untouched (r : RegistryRef) (h h' : Host) : Prop where
  kept : h.registries.Allocated r →
    h'.registries.Allocated r ∧ h'.registries.get r = h.registries.get r
  bare : ¬h.registries.Allocated r → ∀ identity, h'.listsAt r identity = false

/-- What clients may do between operations: addresses that are in use keep their identity and
their path, and registries that are the server's own are not used. -/
structure Loyal (s : ServerRef) (own : RegistryRef → Prop) (h h' : Host) : Prop where
  undisturbed : h.Undisturbed s (fun u v => v.identity = u.identity ∧ v.path = u.path) h'
  orderly : h'.Orderly s
  untouched : ∀ r, own r → h.Untouched r h'

end Host

/-- Operations of the server from `start` on that register and withdraw, and all that happened in
them. Each is followed by what clients may do. -/
inductive Account (s : ServerRef) (may : Host → Host → Prop) (start : Host) :
    List Command → List Event → Host → Prop
  | start : Account s may start [] [] start
  | idled {commands : List Command} {events : List Event} {h h' : Host}
    (before : Account s may start commands events h) (moved : may h h') :
    Account s may start commands events h'
  | exported {commands : List Command} {events : List Event} {h mid h' : Host} {u : UrlRef}
    {service : Option Service} {status : Status}
    (before : Account s may start commands events h)
    (ends : (exportService s u service).Yields h status mid) (moved : may mid h') :
    Account s may start (commands ++ [.deploy (h.urls.get u) service status])
      (events ++ h.since mid) h'
  | unexported {commands : List Command} {events : List Event} {h mid h' : Host} {path : String}
    {status : Status} (before : Account s may start commands events h)
    (ends : (unexportService s path).Yields h status mid) (moved : may mid h') :
    Account s may start (commands ++ [.retire path]) (events ++ h.since mid) h'
  | destroyed {commands : List Command} {events : List Event} {h mid h' : Host}
    {order : Traversal ExporterRef} (before : Account s may start commands events h)
    (ends : (destroyServer order s).Yields h () mid) (moved : may mid h') :
    Account s may start (commands ++ [.close]) (events ++ h.since mid) h'

/-- Services that are accepted at different paths have different identities. -/
def Apart (commands : List Command) : Prop :=
  ∀ url service other service', .deploy url service .ok ∈ commands →
    .deploy other service' .ok ∈ commands → url.identity = other.identity → url.path = other.path

variable {h h' mid start process : Host} {s : ServerRef} {t : TableRef} {x : ExtensionsRef}
  {u : UrlRef} {p : ProviderRef} {e : ExporterRef} {path : String} {service : Option Service}
  {status : Status} {registries : List RegistryRef} {commands : List Command}
  {events : List Event} {own : RegistryRef → Prop} {left : RegistryRef → String → List Bool}

theorem Host.Untouched.of_eq {r : RegistryRef} (registries : h'.registries = h.registries) :
    h.Untouched r h' := by
  constructor
  · intro known
    rw [registries]
    exact ⟨known, rfl⟩
  · intro unknown identity
    rw [listsAt_congr registries, listsAt_of_not_allocated unknown]

theorem Host.Untouched.listsAt {r : RegistryRef} (untouched : h.Untouched r h')
    (direct : h'.DirectAt r) (identity : String) :
    h.DirectAt r ∧ h'.listsAt r identity = h.listsAt r identity := by
  by_cases known : h.registries.Allocated r
  · obtain ⟨known', same⟩ := untouched.kept known
    refine ⟨fun _ => same ▸ direct known', ?_⟩
    rw [listsAt_of_allocated known', same, ← listsAt_of_allocated known]
  · refine ⟨fun there => absurd there known, ?_⟩
    rw [untouched.bare known, listsAt_of_not_allocated known]

theorem Host.since_trans (first : h.journal <+: mid.journal)
    (second : mid.journal <+: h'.journal) : h.since h' = h.since mid ++ mid.since h' := by
  obtain ⟨_, grows⟩ := first
  obtain ⟨_, grows'⟩ := second
  unfold since
  rw [← grows', ← grows, List.append_assoc, List.drop_left, List.drop_left,
    ← List.append_assoc, List.drop_left]

theorem Host.Recorded.marks_since (recorded : Recorded x left h h') (r : RegistryRef)
    (identity : String) : marks r identity (h.since h') = left r identity := by
  obtain ⟨events, journal, marked⟩ := recorded.journal
  unfold since
  rw [journal, List.drop_left, marked]

theorem Host.Noted.marks_since (noted : h.Noted h') (r : RegistryRef) (identity : String) :
    marks r identity (h.since h') = [] := by
  obtain ⟨events, others, journal⟩ := noted.uneventful
  unfold since
  rw [journal, List.drop_left, marks_uneventful others]

theorem taken_append (r : RegistryRef) (identity : String) (before after : List Event) :
    taken r identity (before ++ after) = taken r identity before + taken r identity after := by
  unfold taken
  rw [marks_append, List.count_append]

theorem tried_append (r : RegistryRef) (identity : String) (before after : List Event) :
    tried r identity (before ++ after) = tried r identity before + tried r identity after := by
  unfold tried
  rw [marks_append, List.count_append]

/-- Each registration that was taken stands for a service of the server, or was withdrawn. -/
def Host.Balanced (h : Host) (s : ServerRef) (events : List Event) : Prop :=
  ∀ r identity, taken r identity events =
    tried r identity events + (h.registrations s identity).count r

def Host.Placed (h : Host) (s : ServerRef) (commands : List Command) : Prop :=
  ∀ path p, h.routeAt s path = some p → ∃ url service, .deploy url service .ok ∈ commands ∧
    url.path = path ∧ url.identity = h.announcedAs p

def Host.Listed (h : Host) (s : ServerRef) (r : RegistryRef) : Prop :=
  h.DirectAt r → ∀ identity,
    h.listsAt r identity = true ↔ r ∈ h.registrations s identity

theorem Standing.getLastD_turned (standing standing' : Standing) (r : RegistryRef)
    (identity : String) (lists : Bool) :
    (standing.turned standing' r identity).getLastD lists = true ↔
      0 < (standing' identity).count r ∨ ((standing identity).count r = 0 ∧ lists = true) := by
  unfold turned stamps
  cases (standing' identity).count r with
  | zero =>
    cases (standing identity).count r <;>
      simp [List.getLastD_eq_getLast?, List.getLast?_replicate]
  | succ n => simp [List.getLastD_eq_getLast?, List.getLast?_append, List.getLast?_replicate]

theorem Host.count_registrations (h : Host) (s : ServerRef) (path : String) (r : RegistryRef)
    (identity : String) : (h.registrations s identity).count r =
      (h.standingAt s path identity).count r + (h.registrationsBut s path identity).count r := by
  rw [(h.registrations_perm s path identity).count_eq, List.count_append]

namespace Host.Booked

theorem balanced (booked : h.Booked s path h') (balanced : h.Balanced s events) :
    h'.Balanced s (events ++ h.since h') := by
  intro r identity
  have marked := booked.recorded.marks_since r identity
  have took : taken r identity (h.since h') = (h'.standingAt s path identity).count r := by
    unfold taken
    rw [marked]
    simp [Standing.turned, Standing.stamps, List.count_replicate]
  have gave : tried r identity (h.since h') = (h.standingAt s path identity).count r := by
    unfold tried
    rw [marked]
    simp [Standing.turned, Standing.stamps, List.count_replicate]
  have was := balanced r identity
  rw [taken_append, tried_append, took, gave, was, h.count_registrations s path,
    h'.count_registrations s path, booked.others]
  omega

theorem listed {r : RegistryRef} (booked : h.Booked s path h')
    (alone : ∀ identity, h.standingAt s path identity ≠ [] →
      h.registrationsBut s path identity = []) (listed : h.Listed s r) : h'.Listed s r := by
  intro direct identity
  obtain ⟨before, lists⟩ := booked.recorded.listed r direct
  have was := listed before identity
  rw [← List.count_pos_iff, h.count_registrations s path] at was
  rw [lists, Standing.getLastD_turned, was, ← List.count_pos_iff, h'.count_registrations s path,
    booked.others]
  by_cases none : h.standingAt s path identity = []
  · rw [none, List.count_nil]
    omega
  · rw [alone identity none, List.count_nil]
    omega

end Host.Booked

theorem Host.Placed.alone (placed : h.Placed s commands) (apart : Apart commands)
    (coherent : h.Coherent s) (path identity : String)
    (stands : h.standingAt s path identity ≠ []) : h.registrationsBut s path identity = [] := by
  have named {other : String} {e : ExporterRef} (kept : h.exporterAt s other = some e)
      (some : h.standingOf e identity ≠ []) : ∃ url service,
        .deploy url service .ok ∈ commands ∧ url.path = other ∧ url.identity = identity := by
    obtain ⟨p, registries, serves⟩ := coherent.serves other e kept
    obtain ⟨url, service, member, located, announced⟩ := placed other p serves.route
    refine ⟨url, service, member, located, announced.trans ?_⟩
    rw [serves.toHolds.standingOf] at some
    unfold Standing.one at some
    exact Decidable.byContradiction fun differ => some (if_neg differ)
  obtain ⟨e, kept⟩ : ∃ e, h.exporterAt s path = .some e := by
    refine Option.ne_none_iff_exists'.1 fun none => stands (standingAt_unserved none identity)
  rw [standingAt_of_kept kept] at stands
  obtain ⟨url, service, member, located, announced⟩ := named kept stands
  refine List.flatMap_eq_nil_iff.2 fun entry listed => Decidable.byContradiction fun other => ?_
  have found := (Entries.find?_eq_some_iff
    ((h.servers.get s).exporters.erase path).sorted).2 listed
  have erased : ((h.servers.get s).exporters.erase path).find? entry.1 = some entry.2 := found
  rw [Keyed.find?_erase] at erased
  split at erased
  · cases erased
  · rename_i differ
    obtain ⟨url', service', member', located', announced'⟩ := named erased other
    have same := apart url service url' service' member member' (announced.trans announced'.symm)
    exact differ (by rw [← located', ← same, located])

theorem Host.registrations_congr
    (exporters : (h'.servers.get s).exporters = (h.servers.get s).exporters)
    (standing : ∀ path e, h.exporterAt s path = some e → h'.standingOf e = h.standingOf e) :
    h'.registrations s = h.registrations s := by
  unfold registrations standingOfAll
  rw [exporters]
  funext identity
  rw [List.flatMap_def, List.flatMap_def, List.map_congr_left fun entry member =>
    congrFun (standing entry.1 entry.2 ((Entries.find?_eq_some_iff
      (h.servers.get s).exporters.sorted).2 member)) identity]

theorem Host.Noted.registrations (noted : h.Noted h') (s : ServerRef) :
    h'.registrations s = h.registrations s :=
  registrations_congr (by rw [noted.registering.servers]) fun path e _ =>
    standingOf_congr (by rw [noted.registering.exporters]) (by rw [noted.registering.exporters])
      fun u _ => by rw [noted.registering.urls]

theorem Host.Loyal.registrations (moved : h.Loyal s own h') (coherent : h.Coherent s) :
    h'.registrations s = h.registrations s := by
  have quiet := moved.undisturbed
  refine registrations_congr (by rw [quiet.server]) fun path e kept => ?_
  obtain ⟨p, registries, serves⟩ := coherent.serves path e kept
  have exporter := quiet.exporter path e kept
  refine standingOf_congr (by rw [exporter]) (by rw [exporter]) fun u url => ?_
  have address : (h.exporters.get e).url = some (h.addressOf p) := by
    rw [serves.exporter]
    rfl
  rw [address] at url
  cases url
  exact (quiet.provider path p serves.route).2.2.2.1

theorem Host.announcedAs_kept (steady : h.Steady s h') (address : h'.addressOf p = h.addressOf p) :
    h'.announcedAs p = h.announcedAs p := by
  unfold announcedAs
  rw [address]
  exact (steady.urls _).identity

theorem Host.Orderly.steady (orderly : h.Orderly s) (steady : h.Steady s h')
    (civil : h'.Civil (h.servers.get s).extensions)
    (stocked : h'.Stocked (h.servers.get s).extensions) : h'.Orderly s := by
  obtain ⟨_, server⟩ := steady.server
  refine ⟨steady.terminated orderly.terminated, ?_, ?_⟩
  · rw [server]
    exact civil
  · rw [server]
    exact stocked

theorem Host.Noted.orderly (noted : h.Noted h') (orderly : h.Orderly s) : h'.Orderly s :=
  orderly.steady (noted.grown.elsewhere s "" none none).steady (noted.civil orderly.civil)
    (Recorded.quiet orderly.stocked noted.uneventful noted.registries noted.extensions).stocked

/-- The books of the server are in order, and so is the account of its registrations. -/
structure Host.Audited (h : Host) (s : ServerRef) (own : RegistryRef → Prop)
    (commands : List Command) (events : List Event) : Prop where
  coherent : h.Coherent s
  orderly : h.Orderly s
  balanced : h.Balanced s events
  placed : h.Placed s commands
  listed : Apart commands → ∀ r, own r → h.Listed s r

theorem Apart.earlier {more : List Command} (apart : Apart (commands ++ more)) : Apart commands :=
  fun url service other service' first second => apart url service other service'
    (List.mem_append_left _ first) (List.mem_append_left _ second)

theorem Host.Placed.later (placed : h.Placed s commands) (more : List Command) :
    h.Placed s (commands ++ more) := by
  intro path p route
  obtain ⟨url, service, member, same⟩ := placed path p route
  exact ⟨url, service, List.mem_append_left _ member, same⟩

theorem Host.Placed.kept (placed : h.Placed s commands) {path : String} {p : ProviderRef}
    (route : h.routeAt s path = some p) (announced : h'.announcedAs p = h.announcedAs p) :
    ∃ url service, .deploy url service .ok ∈ commands ∧ url.path = path ∧
      url.identity = h'.announcedAs p := by
  rw [announced]
  exact placed path p route

namespace Host.Audited

variable (audited : h.Audited s own commands events)

include audited

theorem noted (noted : h.Noted h') : h'.Audited s own commands (events ++ h.since h') := by
  have registrations : h'.registrations s = h.registrations s := noted.registrations s
  refine ⟨audited.coherent.grown noted.grown, noted.orderly audited.orderly,
    fun r identity => ?_, fun path p route => ?_, fun apart r mine direct identity => ?_⟩
  · have marked := noted.marks_since r identity
    have was := audited.balanced r identity
    rw [registrations, taken_append, tried_append, was]
    unfold taken tried
    rw [marked]
    simp
  · rw [noted.registering.routeAt] at route
    refine audited.placed.kept route ?_
    unfold announcedAs
    rw [noted.registering.addressOf, noted.registering.urls]
  · unfold DirectAt at direct
    rw [noted.registries] at direct
    rw [registrations, listsAt_congr noted.registries]
    exact audited.listed apart r mine direct identity

theorem placed_deployed {status : Status}
    (deployed : Deployed h s t u service (.ok status, h')) (table : h.tableOf s = some t) :
    h'.Placed s (commands ++ [.deploy (h.urls.get u) service status]) := by
  have steady := deployed.steady table
  have stays {path : String} {p : ProviderRef} (route : h.routeAt s path = some p) :
      ∃ url service', .deploy url service' .ok ∈
          commands ++ [.deploy (h.urls.get u) service status] ∧
        url.path = path ∧ url.identity = h'.announcedAs p := by
    obtain ⟨e, registries, serves⟩ := audited.coherent.serves_of_route route
    exact (audited.placed.later _).kept route
      (announcedAs_kept steady (deployed.addressOf table serves))
  intro path p route
  by_cases here : path = (h.urls.get u).path
  · subst here
    -- a refused provider leaves the route that there was, with its address, or none
    by_cases accepted : status = .ok
    · subst accepted
      refine ⟨h.urls.get u, service, List.mem_append_right _ (List.mem_singleton.2 rfl), rfl, ?_⟩
      unfold announcedAs
      rw [deployed.address table route]
      exact (steady.urls u).identity.symm
    · rcases deployed.route_refused table accepted with same | none
      · exact stays (same.symm.trans route)
      · rw [none] at route
        cases route
  · rw [deployed.routeAt_elsewhere table here] at route
    exact stays route

theorem deployed {status : Status}
    (ends : (exportService s u service).Yields h status h') :
    h'.Audited s own (commands ++ [.deploy (h.urls.get u) service status])
      (events ++ h.since h') := by
  have coherent := audited.coherent
  obtain ⟨t, table⟩ := coherent.table
  have deployed := coherent.deployed audited.orderly.terminated table ends
  -- without a provider nothing is done; else at most one path changes
  rcases deployed.booked coherent table audited.orderly.stocked with ⟨_, noted⟩ | booked
  · have after := audited.noted noted
    exact ⟨after.coherent, after.orderly, after.balanced, after.placed.later _,
      fun apart => after.listed apart.earlier⟩
  · have placed := audited.placed_deployed deployed table
    exact ⟨deployed.coherent coherent table, audited.orderly.steady (deployed.steady table)
      (deployed.civil audited.orderly.civil).2 booked.recorded.stocked,
      booked.balanced audited.balanced, placed, fun apart r mine =>
        booked.listed (audited.placed.alone apart.earlier coherent _)
          (audited.listed apart.earlier r mine)⟩

theorem withdrew {status : Status}
    (ends : (unexportService s path).Yields h status h') :
    h'.Audited s own (commands ++ [.retire path]) (events ++ h.since h') := by
  have coherent := audited.coherent
  have civil := (unexportService_succeeds path audited.orderly.civil).holds ends
  rcases unexportService_booked coherent audited.orderly.stocked ends with noted | booked
  · have after := audited.noted noted
    exact ⟨after.coherent, after.orderly, after.balanced, after.placed.later _,
      fun apart => after.listed apart.earlier⟩
  · obtain ⟨t, table⟩ := coherent.table
    have placed : h'.Placed s (commands ++ [.retire path]) ∧ h.Steady s h' := by
      rcases unexportService_cases coherent table ends with
        ⟨_, _, noted⟩ | ⟨e, old, registries, h₁, _, serves, retiring⟩
      · exact ⟨(audited.noted noted).placed.later _,
          (noted.grown.elsewhere s "" none none).steady⟩
      · have apart := retiring.apart table
        refine ⟨fun other p route => ?_, apart.steady⟩
        by_cases here : other = path
        · rw [here, (retiring.clears table).2] at route
          cases route
        · rw [apart.routeAt here] at route
          refine (audited.placed.later _).kept route (announcedAs_kept apart.steady ?_)
          obtain ⟨_, _, serves'⟩ := coherent.serves_of_route route
          exact addressOf_kept apart.providers
            (Or.inr retiring.removed.registering.backends) serves'.made
    exact ⟨unexportService_coherent coherent ends,
      audited.orderly.steady placed.2 civil booked.recorded.stocked,
      booked.balanced audited.balanced, placed.1, fun apart r mine =>
        booked.listed (audited.placed.alone apart.earlier coherent _)
          (audited.listed apart.earlier r mine)⟩

theorem closed {order : Traversal ExporterRef} (ends : (destroyServer order s).Yields h () h') :
    h'.Audited s own (commands ++ [.close]) (events ++ h.since h') ∧
      ∀ identity, h'.registrations s identity = [] := by
  have coherent := audited.coherent
  have civil := (destroyServer_succeeds order audited.orderly.civil).holds ends
  have recorded := destroyServer_recorded coherent audited.orderly.stocked ends
  obtain ⟨steady, _, unserved, unrouted⟩ := destroyServer_clears coherent ends
  have none := registrations_unserved unserved
  refine ⟨⟨destroyServer_coherent coherent ends, audited.orderly.steady steady civil
    recorded.stocked, fun r identity => ?_, fun path p route => ?_,
    fun apart r mine direct identity => ?_⟩, none⟩
  · have marked := recorded.marks_since r identity
    have was := audited.balanced r identity
    rw [none, taken_append, tried_append, was]
    unfold taken tried
    rw [marked]
    simp [Standing.stamps, List.count_replicate]
  · rw [unrouted] at route
    cases route
  · obtain ⟨before, lists⟩ := recorded.listed r direct
    have was := audited.listed apart.earlier r mine before identity
    rw [none, lists]
    unfold Standing.stamps
    -- what was listed has just been withdrawn
    cases number : (h.registrations s identity).count r with
    | zero =>
      show h.listsAt r identity = true ↔ r ∈ []
      rw [was, iff_false_right (List.not_mem_nil)]
      exact List.count_eq_zero.1 number
    | succ n => simp [List.getLastD_eq_getLast?, List.getLast?_replicate]

theorem loyal (moved : h.Loyal s own h') : h'.Audited s own commands events := by
  have quiet := moved.undisturbed
  have coherent := audited.coherent
  have registrations := moved.registrations coherent
  refine ⟨quiet.coherent (fun _ _ same => same.2) coherent, moved.orderly, fun r identity => ?_,
    fun path p route => ?_, fun apart r mine direct identity => ?_⟩
  · rw [registrations]
    exact audited.balanced r identity
  · rw [quiet.routeAt] at route
    obtain ⟨_, backend, _, same, _⟩ := quiet.provider path p route
    refine audited.placed.kept route ?_
    unfold announcedAs
    have address : h'.addressOf p = h.addressOf p := congrArg Backend.url backend
    rw [address, same]
  · obtain ⟨before, same⟩ := (moved.untouched r mine).listsAt direct identity
    rw [registrations, same]
    exact audited.listed apart r mine before identity

end Host.Audited

theorem Host.Noted.loyal (noted : h.Noted h') (orderly : h.Orderly s) : h.Loyal s own h' where
  undisturbed := noted.undisturbed fun _ => ⟨rfl, rfl⟩
  orderly := noted.orderly orderly
  untouched _ _ := .of_eq noted.registries

theorem exportService_journal (coherent : h.Coherent s) (orderly : h.Orderly s)
    (ends : (exportService s u service).Yields h status h') : h.journal <+: h'.journal := by
  rcases exportService_booked coherent orderly.terminated orderly.stocked ends with noted | booked
  · obtain ⟨events, _, grows⟩ := noted.uneventful
    exact ⟨events, grows.symm⟩
  · obtain ⟨events, grows, _⟩ := booked.recorded.journal
    exact ⟨events, grows.symm⟩

theorem Host.mem_registrations_iff {r : RegistryRef} {identity : String} :
    r ∈ h.registrations s identity ↔ ∃ path e u, h.exporterAt s path = some e ∧
      (h.exporters.get e).url = some u ∧ (h.urls.get u).identity = identity ∧
        r ∈ (h.exporters.get e).registries := by
  unfold registrations standingOfAll
  rw [List.mem_flatMap]
  constructor
  · rintro ⟨⟨path, e⟩, listed, stands⟩
    have kept : h.exporterAt s path = some e :=
      (Entries.find?_eq_some_iff (h.servers.get s).exporters.sorted).2 listed
    cases url : (h.exporters.get e).url with
    | none =>
      unfold standingOf at stands
      rw [url] at stands
      cases stands
    | some u =>
      rw [standingOf_of_url url] at stands
      unfold Standing.one at stands
      split at stands
      · rename_i same
        exact ⟨path, e, u, kept, url, same, stands⟩
      · cases stands
  · rintro ⟨path, e, u, kept, url, same, stands⟩
    refine ⟨(path, e),
      (Entries.find?_eq_some_iff (h.servers.get s).exporters.sorted).1 kept, ?_⟩
    rw [standingOf_of_url url]
    unfold Standing.one
    rw [if_pos same]
    exact stands

theorem Account.audited (account : Account s (Host.Loyal s own) start commands events h)
    (fresh : start.Audited s own [] []) : h.Audited s own commands events := by
  induction account with
  | start => exact fresh
  | idled _ moved ih => exact ih.loyal moved
  | exported _ ends moved ih => exact (ih.deployed ends).loyal moved
  | unexported _ ends moved ih => exact (ih.withdrew ends).loyal moved
  | destroyed _ ends moved ih => exact (ih.closed ends).1.loyal moved

theorem Host.Audited.opening (coherent : start.Coherent s) (orderly : start.Orderly s)
    (unserved : ∀ path, start.exporterAt s path = none ∧ start.routeAt s path = none)
    (bare : ∀ r, own r → ∀ identity, start.listsAt r identity = false) :
    start.Audited s own [] [] := by
  have none := registrations_unserved (h := start) (s := s) fun path => (unserved path).1
  refine ⟨coherent, orderly, fun r identity => ?_, fun path p route => ?_,
    fun _ r mine _ identity => ?_⟩
  · rw [none]
    rfl
  · rw [(unserved path).2] at route
    cases route
  · rw [none, bare r mine]
    simp

theorem Host.Audited.of_made {c : ConfigurationRef}
    (server : (newServer c x u).value process = s)
    (made : (newServer c x u).after process = start) (orderly : start.Orderly s)
    (bare : ∀ r, own r → ∀ identity, start.listsAt r identity = false) :
    start.Audited s own [] [] := by
  refine .opening (.of_made server made) orderly ?_ bare
  rw [← server, ← made]
  exact (newServer_unserved c x u process).2

theorem Account.exportedAll (account : Account s (Host.Loyal s own) start commands events h)
    (audited : h.Audited s own commands events) (order : Traversal UrlRef)
    (impls : Keyed (Option Service)) :
    ∃ status h' more, (exportAll order s impls).Yields h status h' ∧
      Account s (Host.Loyal s own) start (commands ++ more) (events ++ h.since h') h' ∧
      h'.Audited s own (commands ++ more) (events ++ h.since h') := by
  have same (h : Host) : h.since h = [] := List.drop_length
  obtain ⟨status, h', more, ends, ⟨_, account', audited'⟩, _⟩ := exportAll_reaches
    (fun commands' h' => h.journal <+: h'.journal ∧
      Account s (Host.Loyal s own) start commands' (events ++ h.since h') h' ∧
      h'.Audited s own commands' (events ++ h.since h'))
    (by rw [same, List.append_nil]; exact ⟨List.prefix_rfl, account, audited⟩)
    (fun commands' mid h' reach noted journal => by
      obtain ⟨grows, account, audited⟩ := reach
      have loyal : mid.Loyal s own h' := noted.loyal audited.orderly
      have since : h.since h' = h.since mid := congrArg (List.drop _) journal
      rw [since]
      refine ⟨?_, .idled account loyal, audited.loyal loyal⟩
      rw [journal]
      exact grows)
    (fun commands' mid u service reach => by
      obtain ⟨grows, account, audited⟩ := reach
      obtain ⟨h', ends, _, _, steady⟩ := exportService_completes u service audited.coherent
        audited.orderly.terminated audited.orderly.civil
      have after := audited.deployed ends
      have on := exportService_journal audited.coherent audited.orderly ends
      refine ⟨_, h', ends, steady, grows.trans on, ?_⟩
      rw [since_trans grows on, ← List.append_assoc]
      exact ⟨.exported account ends ((Course.refl h' : h'.Noted h').loyal after.orderly), after⟩)
    order impls
  exact ⟨status, h', more, ends, account', audited'⟩

/-- From the making of a server on, and whatever is exported, taken back or shut, the
registrations that a registry took and that were not tried to be withdrawn are those that the
services stand for that are served. Once the server is shut, there are none. A direct registry
that only the server uses lists the services that are registered there, where services at
different paths have different identities. -/
theorem Account.balances {c : ConfigurationRef}
    (server : (newServer c x u).value process = s)
    (made : (newServer c x u).after process = start) (orderly : start.Orderly s)
    (bare : ∀ r, own r → ∀ identity, start.listsAt r identity = false)
    (account : Account s (Host.Loyal s own) start commands events h) :
    h.Balanced s events ∧
      (∀ u service, ∃ h', (exportService s u service).Yields h (h.exportStatus s u) h' ∧
        h'.Balanced s (events ++ h.since h')) ∧
      (∀ order impls, ∃ status h' more, (exportAll order s impls).Yields h status h' ∧
        h'.Balanced s (events ++ h.since h') ∧
        Account s (Host.Loyal s own) start (commands ++ more) (events ++ h.since h') h') ∧
      (∀ path, ∃ status h', (unexportService s path).Yields h status h' ∧
        h'.Balanced s (events ++ h.since h')) ∧
      (∀ order, ∃ h', (destroyServer order s).Yields h () h' ∧ ∀ r identity,
        taken r identity (events ++ h.since h') = tried r identity (events ++ h.since h')) ∧
      (Apart commands → ∀ r, own r → h.registries.Allocated r → (h.registries.get r).Direct →
        ∀ identity, (h.registries.get r).lists identity = true ↔
          ∃ path e u, h.exporterAt s path = some e ∧ (h.exporters.get e).url = some u ∧
            (h.urls.get u).identity = identity ∧ r ∈ (h.exporters.get e).registries) := by
  have audited := account.audited (.of_made server made orderly bare)
  refine ⟨audited.balanced, fun u service => ?_, fun order impls => ?_, fun path => ?_,
    fun order => ?_, fun apart r mine known direct identity => ?_⟩
  · obtain ⟨h', ends, _⟩ := exportService_completes u service audited.coherent
      audited.orderly.terminated audited.orderly.civil
    exact ⟨h', ends, (audited.deployed ends).balanced⟩
  · obtain ⟨status, h', more, ends, account', audited'⟩ := account.exportedAll audited order impls
    exact ⟨status, h', more, ends, audited'.balanced, account'⟩
  · obtain ⟨status, h', ends, _⟩ :=
      unexportService_succeeds (s := s) path audited.orderly.civil
    exact ⟨status, h', ends, (audited.withdrew ends).balanced⟩
  · obtain ⟨_, h', ends, _⟩ := destroyServer_succeeds (s := s) order audited.orderly.civil
    obtain ⟨after, none⟩ := audited.closed ends
    refine ⟨h', ends, fun r identity => ?_⟩
    have balanced := after.balanced r identity
    rwa [none, List.count_nil, Nat.add_zero] at balanced
  · have lists := audited.listed apart r mine (fun _ => direct) identity
    rwa [listsAt_of_allocated known, mem_registrations_iff] at lists

theorem Host.orderly_sample : ((newServer ⟨0⟩ ⟨0⟩ ⟨1⟩).after .sample).Orderly ⟨0⟩ :=
  ⟨fit_sample.terminated, fit_sample.civil, fun _ _ found => by cases found⟩

theorem Host.bare_sample (r : RegistryRef) (identity : String) :
    ((newServer ⟨0⟩ ⟨0⟩ ⟨1⟩).after .sample).listsAt r identity = false := by
  have none : ¬((newServer ⟨0⟩ ⟨0⟩ ⟨1⟩).after .sample).registries.Allocated r :=
    Nat.not_lt_zero r.index
  exact listsAt_of_not_allocated none identity

theorem Host.audited_sample :
    ((newServer ⟨0⟩ ⟨0⟩ ⟨1⟩).after .sample).Audited ⟨0⟩ (fun _ => True) [] [] :=
  .of_made rfl rfl orderly_sample fun r _ => bare_sample r

theorem Account.exported_sample : ∃ h,
    (exportService ⟨0⟩ ⟨2⟩ (some (.methods ⟨0⟩))).after
        ((newServer ⟨0⟩ ⟨0⟩ ⟨1⟩).after .sample) = h ∧
      Account ⟨0⟩ (Host.Loyal ⟨0⟩ fun _ => True) ((newServer ⟨0⟩ ⟨0⟩ ⟨1⟩).after .sample)
        [.deploy .sample (some (.methods ⟨0⟩)) .ok]
        (((newServer ⟨0⟩ ⟨0⟩ ⟨1⟩).after .sample).since h) h := by
  have status : ((newServer ⟨0⟩ ⟨0⟩ ⟨1⟩).after .sample).exportStatus ⟨0⟩ ⟨2⟩ = .ok := by
    decide +kernel
  obtain ⟨h, ends, _⟩ := exportService_completes ⟨2⟩ (some (.methods ⟨0⟩))
    audited_sample.coherent orderly_sample.terminated orderly_sample.civil
  rw [status] at ends
  have loyal : h.Loyal ⟨0⟩ (fun _ => True) h :=
    (Course.refl h : h.Noted h).loyal (audited_sample.deployed ends).orderly
  exact ⟨h, ends.after_eq, Account.exported .start ends loyal⟩

theorem Account.balances_sample : ∃ h events,
    Account ⟨0⟩ (Host.Loyal ⟨0⟩ fun _ => True) ((newServer ⟨0⟩ ⟨0⟩ ⟨1⟩).after .sample)
      [.deploy .sample (some (.methods ⟨0⟩)) .ok] events h ∧ h.Balanced ⟨0⟩ events ∧
        taken ⟨0⟩ Url.sample.identity events = 1 ∧
        (h.registries.get ⟨0⟩).lists Url.sample.identity = true := by
  obtain ⟨h, reached, account⟩ := Account.exported_sample
  obtain ⟨balanced, _, _, _, _, lists⟩ :=
    Account.balances rfl rfl orderly_sample (fun r _ => bare_sample r) account
  have apart : Apart [.deploy .sample (some (.methods ⟨0⟩)) .ok] := by
    intro url service other service' first second _
    cases List.mem_singleton.1 first
    cases List.mem_singleton.1 second
    rfl
  have known : 0 < h.registries.next := by
    rw [← reached]
    decide +kernel
  have direct : (h.registries.get ⟨0⟩).Direct := by
    rw [← reached]
    decide +kernel
  have listed := (lists apart ⟨0⟩ trivial known direct Url.sample.identity).2
    ⟨"calculator", ⟨0⟩, ⟨2⟩, by rw [← reached]; decide +kernel⟩
  refine ⟨h, _, account, balanced, ?_, listed⟩
  rw [← reached]
  decide +kernel

def Host.homonyms : Host :=
  furnished .builtIn (.ofList [("main", ⟨0⟩)])
    [⟨"direct", "h", 1, "", "", .empty⟩, ⟨"local", "0.0.0.0", 80, "", "", .empty⟩,
      ⟨"mrpc", "h", 1, "a", "", .ofList [(Url.registryKey, "main")]⟩,
      ⟨"mrpc", "h", 1, "a?group=b", "", .ofList [(Url.registryKey, "main")]⟩,
      ⟨"mrpc", "h", 1, "a?group=b", "", .empty⟩]

def Host.moved (h : Host) (u : UrlRef) : Host :=
  { h with urls := h.urls.modify u fun url => { url with path := "a", group := "b?group=" } }

/-- A service whose address moves to the path of another one, under the same identity, takes its
place when it is put back. The registration of the other is never withdrawn. -/
theorem destroyServer_leaves_registration :
    let first := (exportService ⟨0⟩ ⟨2⟩ none).after ((newServer ⟨0⟩ ⟨0⟩ ⟨1⟩).after .homonyms)
    let second := (exportService ⟨0⟩ ⟨3⟩ none).after first
    let third := (exportService ⟨0⟩ ⟨4⟩ none).after (second.moved ⟨3⟩)
    let last := (destroyServer .byKey ⟨0⟩).after third
    ((exportService ⟨0⟩ ⟨4⟩ none).outcome (second.moved ⟨3⟩)).toOption = some .registryNotFound ∧
      ((second.moved ⟨3⟩).urls.get ⟨3⟩).identity = (second.urls.get ⟨3⟩).identity ∧
      last.registrations ⟨0⟩ (last.urls.get ⟨2⟩).identity = [] ∧
      taken ⟨0⟩ (last.urls.get ⟨2⟩).identity last.journal = 1 ∧
      tried ⟨0⟩ (last.urls.get ⟨2⟩).identity last.journal = 0 ∧
      (last.registries.get ⟨0⟩).lists (last.urls.get ⟨2⟩).identity = true := by
  decide +kernel

end RpcHost
