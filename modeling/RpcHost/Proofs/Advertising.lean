import RpcHost.Proofs.Account
import RpcHost.Proofs.Containment
/-!
What a registry advertises. Where the last that a registry was told of an identity is a
registration that it took, a service stands for it, and requests for its path are put to its
provider. Only services that were accepted after the server was shut are advertised in vain.
-/
namespace RpcHost

open Attempt Host

/-- Whether the last that the registry was told of the identity is a registration that it took. -/
def advertised (r : RegistryRef) (identity : String) (events : List Event) : Bool :=
  (marks r identity events).getLastD false

/-- A service was accepted at the path and under the identity after the server was shut. -/
def Belated (commands : List Command) (path identity : String) : Prop :=
  ∃ earlier later url service, commands = earlier ++ later ∧ .close ∈ earlier ∧
    .deploy url service .ok ∈ later ∧ url.path = path ∧ url.identity = identity

namespace Host

def Shut (h : Host) (s : ServerRef) : Prop :=
  (h.endpoints.get (h.servers.get s).endpoint).destroyed = true

def Reaches (h : Host) (s : ServerRef) (path : String) (p : ProviderRef) : Prop :=
  ∀ q, (h.requests.get q).service.value = path →
    let called := (callProvider p (some q)).after (h.located q)
    (handle s (some q)).value h = settled (called.requests.get q).rid (called.hintAt p)
        ((callProvider p (some q)).outcome (h.located q)) ∧
      called.Glanced ((handle s (some q)).after h)

def TurnsAway (h : Host) (s : ServerRef) : Prop :=
  ∀ q, (handle s (some q)).value h =
    .ofFailure (h.requests.get q).rid (.unavailable "server is destroyed")

/-- What registries were last told is that the services are registered. Those of the server alone
list what they were told. -/
structure Told (h : Host) (s : ServerRef) (own : RegistryRef → Prop) (events : List Event) :
    Prop where
  stands : ∀ r identity, advertised r identity events = true → r ∈ h.registrations s identity
  lists : ∀ r, own r → h.DirectAt r → ∀ identity,
    h.listsAt r identity = advertised r identity events

end Host

variable {h h' start process : Host} {s : ServerRef} {x : ExtensionsRef} {u : UrlRef}
  {p : ProviderRef} {path identity : String} {service : Option Service} {status : Status}
  {r : RegistryRef} {commands : List Command} {events : List Event} {own : RegistryRef → Prop}
  {left : RegistryRef → String → List Bool}

theorem run_handle (h : Host) (s : ServerRef) (q : Option RequestRef) :
    StateT.run (handle s q) h =
      match (h.endpoints.get (h.servers.get s).endpoint).servingTable with
      | none => StateT.run (answerDestroyed q) h
      | some t => StateT.run (dispatchWith (callAtDepth (h.routeCount + 1)) t q) h := by
  unfold handle handleAt
  rw [Step.run_get_bind, Step.run_get_bind]
  cases (h.endpoints.get (h.servers.get s).endpoint).servingTable with
  | none => rfl
  | some t =>
    dsimp only
    unfold dispatch
    rw [Step.run_get_bind]

theorem Host.Shut.turnsAway (shut : h.Shut s) : h.TurnsAway s := by
  intro q
  have closed : (h.endpoints.get (h.servers.get s).endpoint).servingTable = none := if_pos shut
  have gives := (Reading.refl h q).informed_gives .warning
    (fun info => ["服务器不可用. req:", info, "\n"])
    fun rid => .ofFailure rid (.unavailable "server is destroyed")
  have run := run_handle h s (some q)
  rw [closed] at run
  exact (congrArg Prod.fst run).trans gives.1

theorem ending_callProvider (h : Host) (p : ProviderRef) (q : Option RequestRef) :
    (callProvider p q).ending h = (callAtDepth (h.routeCount + 1) p q).ending h := by
  unfold callProvider
  rw [ending_get_bind]

theorem Host.routeCount_located (h : Host) (q : RequestRef) :
    (h.located q).routeCount = h.routeCount := by
  obtain ⟨⟨_, _, _, _, leaves⟩, _, _⟩ := h.glanced_located q
  rw [leaves]
  rfl

theorem Host.reaches_of_route (opened : ¬h.Shut s) (route : h.routeAt s path = some p) :
    h.Reaches s path p := by
  intro q asks
  obtain ⟨t, table, found⟩ := Option.bind_eq_some_iff.1 route
  have serving : (h.endpoints.get (h.servers.get s).endpoint).servingTable = some t :=
    (if_neg opened).trans table
  have routed : h.routeFor t q = some p := by
    unfold Host.routeFor
    rw [asks]
    exact found
  have run := run_handle h s (some q)
  rw [serving] at run
  have answers := dispatchWith_routed (callAtDepth (h.routeCount + 1)) routed
  unfold Step.value Step.after Attempt.outcome Attempt.after at answers ⊢
  rw [ending_callProvider, h.routeCount_located, run]
  exact answers

theorem advertised_append (before after : List Event) :
    advertised r identity (before ++ after) =
      (marks r identity after).getLastD (advertised r identity before) := by
  unfold advertised
  rw [marks_append, List.getLastD_eq_getLast?, List.getLastD_eq_getLast?,
    List.getLastD_eq_getLast?, List.getLast?_append]
  cases (marks r identity after).getLast? <;> rfl

namespace Host.Told

variable (told : h.Told s own events)

include told

theorem lists_recorded (recorded : Recorded x left h h') (mine : own r)
    (direct : h'.DirectAt r) (identity : String) :
    h'.listsAt r identity = advertised r identity (events ++ h.since h') := by
  obtain ⟨before, lists⟩ := recorded.listed r direct
  rw [lists, told.lists r mine before, advertised_append, recorded.marks_since]

theorem noted (stocked : h.Stocked x) (noted : h.Noted h') :
    h'.Told s own (events ++ h.since h') := by
  have recorded : Recorded x unmarked h h' :=
    .quiet stocked noted.uneventful noted.registries noted.extensions
  refine ⟨fun r identity last => ?_, fun r mine => told.lists_recorded recorded mine⟩
  rw [advertised_append, recorded.marks_since] at last
  rw [noted.registrations]
  exact told.stands r identity last

theorem booked (booked : h.Booked s path h') : h'.Told s own (events ++ h.since h') := by
  refine ⟨fun r identity last => ?_, fun r mine => told.lists_recorded booked.recorded mine⟩
  rw [advertised_append, booked.recorded.marks_since, Standing.getLastD_turned] at last
  rw [← List.count_pos_iff, h'.count_registrations s path, booked.others]
  rcases last with stands | ⟨untouched, last⟩
  · omega
  · have stood := told.stands r identity last
    rw [← List.count_pos_iff, h.count_registrations s path] at stood
    omega

theorem deployed (coherent : h.Coherent s) (orderly : h.Orderly s)
    (ends : (exportService s u service).Yields h status h') :
    h'.Told s own (events ++ h.since h') := by
  rcases exportService_booked coherent orderly.terminated orderly.stocked ends with noted | booked
  · exact told.noted orderly.stocked noted
  · exact told.booked booked

theorem withdrew (coherent : h.Coherent s) (orderly : h.Orderly s)
    (ends : (unexportService s path).Yields h status h') :
    h'.Told s own (events ++ h.since h') := by
  rcases unexportService_booked coherent orderly.stocked ends with noted | booked
  · exact told.noted orderly.stocked noted
  · exact told.booked booked

theorem closed (coherent : h.Coherent s) (orderly : h.Orderly s)
    (ends : (destroyServer order s).Yields h () h') : h'.Told s own (events ++ h.since h') := by
  have recorded := destroyServer_recorded coherent orderly.stocked ends
  refine ⟨fun r identity last => ?_, fun r mine => told.lists_recorded recorded mine⟩
  rw [advertised_append, recorded.marks_since] at last
  unfold Standing.stamps at last
  cases number : (h.registrations s identity).count r with
  | zero =>
    rw [number] at last
    exact absurd (told.stands r identity last) (List.count_eq_zero.1 number)
  | succ n => simp [number, List.getLastD_eq_getLast?, List.getLast?_replicate] at last

theorem loyal (coherent : h.Coherent s) (moved : h.Loyal s own h') : h'.Told s own events := by
  refine ⟨fun r identity last => ?_, fun r mine direct identity => ?_⟩
  · rw [moved.registrations coherent]
    exact told.stands r identity last
  · obtain ⟨before, same⟩ := (moved.untouched r mine).listsAt direct identity
    rw [same]
    exact told.lists r mine before identity

end Host.Told

theorem Account.told (account : Account s (Host.Loyal s own) start commands events h)
    (fresh : start.Audited s own [] [])
    (bare : ∀ r, own r → ∀ identity, start.listsAt r identity = false) :
    h.Told s own events := by
  -- the account is audited at each point, which each operation needs to be told
  induction account with
  | start => exact ⟨fun _ _ last => Bool.noConfusion last, fun r mine _ => bare r mine⟩
  | idled before moved ih => exact ih.loyal (before.audited fresh).coherent moved
  | exported before ends moved ih =>
    have audited := before.audited fresh
    exact (ih.deployed audited.coherent audited.orderly ends).loyal
      (audited.deployed ends).coherent moved
  | unexported before ends moved ih =>
    have audited := before.audited fresh
    exact (ih.withdrew audited.coherent audited.orderly ends).loyal
      (audited.withdrew ends).coherent moved
  | destroyed before ends moved ih =>
    have audited := before.audited fresh
    exact (ih.closed audited.coherent audited.orderly ends).loyal
      (audited.closed ends).1.coherent moved

theorem Host.Elsewhere.shut {excepted : Option ExporterRef} {b : Option BackendRef}
    (apart : Elsewhere s path excepted b h h') : h'.Shut s ↔ h.Shut s := by
  obtain ⟨_, server⟩ := apart.server
  unfold Host.Shut
  rw [server, apart.endpoints]

theorem Host.Undisturbed.shut {keeps : Url → Url → Prop} (quiet : h.Undisturbed s keeps h') :
    h'.Shut s ↔ h.Shut s := by
  unfold Host.Shut
  rw [quiet.server, quiet.endpoint]

theorem exportService_shut (coherent : h.Coherent s) (orderly : h.Orderly s)
    (ends : (exportService s u service).Yields h status h') : h'.Shut s ↔ h.Shut s := by
  obtain ⟨t, table⟩ := coherent.table
  have deployed := coherent.deployed orderly.terminated table ends
  obtain ⟨_, _, apart⟩ := deployed.apart table
  exact apart.shut

theorem unexportService_shut (coherent : h.Coherent s)
    (ends : (unexportService s path).Yields h status h') : h'.Shut s ↔ h.Shut s := by
  obtain ⟨t, table⟩ := coherent.table
  rcases unexportService_cases coherent table ends with ⟨_, _, noted⟩ | ⟨_, _, _, _, _, _, retiring⟩
  · exact (noted.grown.elsewhere s "" none none).shut
  · exact (retiring.apart table).shut

theorem destroyServer_shut (coherent : h.Coherent s)
    (ends : (destroyServer order s).Yields h () h') : h'.Shut s := by
  obtain ⟨steady, endpoints, _⟩ := destroyServer_clears coherent ends
  obtain ⟨_, server⟩ := steady.server
  unfold Host.Shut
  rw [server, endpoints, Host.shutting, Store.get_modify_self]

theorem Host.Loyal.sharing (moved : h.Loyal s own h') : h.Loyal s (fun _ => False) h' :=
  ⟨moved.undisturbed, moved.orderly, fun _ mine => mine.elim⟩

/-- The server was shut, and what was done since then is an account of its own, from a state in
which nothing is served. -/
structure Reopened (s : ServerRef) (commands : List Command) (h : Host) : Prop where
  shut : h.Shut s
  since : ∃ earlier later mid events, commands = earlier ++ .close :: later ∧
    mid.Audited s (fun _ => False) [] [] ∧
    Account s (Host.Loyal s fun _ => False) mid later events h

theorem Host.Audited.reopened (audited : h.Audited s own commands events)
    (ends : (destroyServer order s).Yields h () h') : Reopened s (commands ++ [.close]) h' := by
  have after := (audited.closed ends).1
  obtain ⟨_, _, unserved, unrouted⟩ := destroyServer_clears audited.coherent ends
  refine ⟨destroyServer_shut audited.coherent ends, commands, [], h', [], rfl, ?_, .start⟩
  exact .opening after.coherent after.orderly (fun path => ⟨unserved path, unrouted path⟩)
    fun _ mine => mine.elim

namespace Reopened

variable (reopened : Reopened s commands h)

include reopened

theorem idled (moved : h.Loyal s own h') : Reopened s commands h' := by
  obtain ⟨earlier, later, mid, events, split, audited, account⟩ := reopened.since
  exact ⟨moved.undisturbed.shut.2 reopened.shut, earlier, later, mid, events, split, audited,
    account.idled moved.sharing⟩

theorem exported (coherent : h.Coherent s) (orderly : h.Orderly s) {mid : Host}
    (ends : (exportService s u service).Yields h status mid) (moved : mid.Loyal s own h') :
    Reopened s (commands ++ [.deploy (h.urls.get u) service status]) h' := by
  obtain ⟨earlier, later, start, events, rfl, audited, account⟩ := reopened.since
  refine ⟨moved.undisturbed.shut.2 ((exportService_shut coherent orderly ends).2 reopened.shut),
    earlier, _, start, _, ?_, audited, account.exported ends moved.sharing⟩
  rw [List.append_assoc, List.cons_append]

theorem unexported (coherent : h.Coherent s) {mid : Host}
    (ends : (unexportService s path).Yields h status mid) (moved : mid.Loyal s own h') :
    Reopened s (commands ++ [.retire path]) h' := by
  obtain ⟨earlier, later, start, events, rfl, audited, account⟩ := reopened.since
  refine ⟨moved.undisturbed.shut.2 ((unexportService_shut coherent ends).2 reopened.shut),
    earlier, _, start, _, ?_, audited, account.unexported ends moved.sharing⟩
  rw [List.append_assoc, List.cons_append]

theorem belated (route : h.routeAt s path = some p) :
    .close ∈ commands ∧ Belated commands path (h.announcedAs p) := by
  obtain ⟨earlier, later, mid, events, rfl, audited, account⟩ := reopened.since
  obtain ⟨url, service, accepted, located, announced⟩ :=
    (account.audited audited).placed path p route
  refine ⟨by simp, earlier ++ [.close], later, url, service, by simp, by simp, accepted, located,
    announced⟩

end Reopened

theorem Account.open_or_reopened (account : Account s (Host.Loyal s own) start commands events h)
    (fresh : start.Audited s own [] []) (opened : ¬start.Shut s) :
    (¬h.Shut s ∧ .close ∉ commands) ∨ Reopened s commands h := by
  induction account with
  | start => exact Or.inl ⟨opened, List.not_mem_nil⟩
  | idled before moved ih =>
    rcases ih with ⟨still, never⟩ | reopened
    · exact Or.inl ⟨mt moved.undisturbed.shut.1 still, never⟩
    · exact Or.inr (reopened.idled moved)
  | exported before ends moved ih =>
    have audited := before.audited fresh
    rcases ih with ⟨still, never⟩ | reopened
    · refine Or.inl ⟨mt (fun shut => ?_) still, by simpa using never⟩
      exact (exportService_shut audited.coherent audited.orderly ends).1
        (moved.undisturbed.shut.1 shut)
    · exact Or.inr (reopened.exported audited.coherent audited.orderly ends moved)
  | unexported before ends moved ih =>
    have audited := before.audited fresh
    rcases ih with ⟨still, never⟩ | reopened
    · refine Or.inl ⟨mt (fun shut => ?_) still, by simpa using never⟩
      exact (unexportService_shut audited.coherent ends).1 (moved.undisturbed.shut.1 shut)
    · exact Or.inr (reopened.unexported audited.coherent ends moved)
  -- shutting is what the server goes on after, whatever was before
  | destroyed before ends moved _ =>
    exact Or.inr (((before.audited fresh).reopened ends).idled moved)

theorem newServer_open (c : ConfigurationRef) (x : ExtensionsRef) (u : UrlRef) (h : Host) :
    ¬((newServer c x u).after h).Shut ((newServer c x u).value h) := by
  obtain ⟨made, noted⟩ := newServer_spec c x u h
  unfold Host.Shut
  rw [noted.registering.servers, noted.registering.endpoints, made]
  simp

/-- From the making of a server on, and whatever is exported, taken back or shut: what a registry
was last told is the registration of a service that is served. Requests for its path are put to
its provider, unless the server was shut. Then the service was accepted after that, and each
request is answered that the server is shut. A direct registry that only the server uses lists
what it was last told. -/
theorem Account.advertises {c : ConfigurationRef}
    (server : (newServer c x u).value process = s)
    (made : (newServer c x u).after process = start) (orderly : start.Orderly s)
    (bare : ∀ r, own r → ∀ identity, start.listsAt r identity = false)
    (account : Account s (Host.Loyal s own) start commands events h) :
    (∀ r identity, advertised r identity events = true → ∃ path e p registries,
      h.Serves s path e p registries ∧ h.announcedAs p = identity ∧ r ∈ registries ∧
        (.close ∉ commands → h.Reaches s path p) ∧
        (.close ∈ commands → Belated commands path identity ∧ h.TurnsAway s)) ∧
      (∀ r, own r → h.registries.Allocated r → (h.registries.get r).Direct → ∀ identity,
        (h.registries.get r).lists identity = advertised r identity events) ∧
      ∀ order impls, ∃ status h' more, (exportAll order s impls).Yields h status h' ∧
        Account s (Host.Loyal s own) start (commands ++ more) (events ++ h.since h') h' := by
  have opens : start.Audited s own [] [] := .of_made server made orderly bare
  have opened : ¬start.Shut s := by
    rw [← server, ← made]
    exact newServer_open c x u process
  -- what registries were last told, and what the server serves, are told of one account
  have audited := account.audited opens
  have told := account.told opens bare
  refine ⟨fun r identity last => ?_, fun r mine known direct identity => ?_, fun order impls => ?_⟩
  · obtain ⟨path, e, v, kept, url, same, stands⟩ := mem_registrations_iff.1
      (told.stands r identity last)
    obtain ⟨p, registries, serves⟩ := audited.coherent.serves path e kept
    rw [serves.exporter] at url stands
    cases url
    refine ⟨path, e, p, registries, serves, same, stands, fun never => ?_, fun shut => ?_⟩
    · rcases account.open_or_reopened opens opened with ⟨still, _⟩ | reopened
      · exact Host.reaches_of_route still serves.route
      · exact absurd (reopened.belated serves.route).1 never
    · rcases account.open_or_reopened opens opened with ⟨_, never⟩ | reopened
      · exact absurd shut never
      · exact ⟨same ▸ (reopened.belated serves.route).2, reopened.shut.turnsAway⟩
  · rw [← listsAt_of_allocated known]
    exact told.lists r mine (fun _ => direct) identity
  · obtain ⟨status, h', more, ends, account', _⟩ := account.exportedAll audited order impls
    exact ⟨status, h', more, ends, account'⟩

theorem Account.advertises_sample : ∃ h events,
    Account ⟨0⟩ (Host.Loyal ⟨0⟩ fun _ => True) ((newServer ⟨0⟩ ⟨0⟩ ⟨1⟩).after .sample)
      [.deploy .sample (some (.methods ⟨0⟩)) .ok] events h ∧
        (h.registries.get ⟨0⟩).lists Url.sample.identity = true ∧
        ∃ p, h.routeAt ⟨0⟩ "calculator" = some p ∧ h.Reaches ⟨0⟩ "calculator" p := by
  obtain ⟨h, reached, account⟩ := Account.exported_sample
  obtain ⟨serves, lists, _⟩ :=
    Account.advertises rfl rfl orderly_sample (fun r _ => bare_sample r) account
  have known : 0 < h.registries.next := by
    rw [← reached]
    decide +kernel
  have direct : (h.registries.get ⟨0⟩).Direct := by
    rw [← reached]
    decide +kernel
  have listed : (h.registries.get ⟨0⟩).lists Url.sample.identity = true := by
    rw [← reached]
    decide +kernel
  have told := (lists ⟨0⟩ trivial known direct Url.sample.identity).symm.trans listed
  obtain ⟨path, e, p, registries, serves, _, _, reaches, _⟩ := serves _ _ told
  obtain ⟨url, service, accepted, located, _⟩ :=
    (account.audited audited_sample).placed path p serves.route
  cases List.mem_singleton.1 accepted
  cases located
  exact ⟨h, _, account, listed, p, serves.route, reaches (by simp)⟩

def Host.inquiring : Host :=
  { Host.sample with
    requests := Store.empty.add { Request.empty with rid := "1", service := .text "calculator" } }

/-- A shut server accepts a service and registers it, and answers that it is shut. -/
theorem exportService_unserved :
    let shut := (destroyServer .byKey ⟨0⟩).after ((newServer ⟨0⟩ ⟨0⟩ ⟨1⟩).after .inquiring)
    let last := (exportService ⟨0⟩ ⟨2⟩ (some (.methods ⟨0⟩))).after shut
    ((exportService ⟨0⟩ ⟨2⟩ (some (.methods ⟨0⟩))).outcome shut).toOption = some .ok ∧
      (last.registries.get ⟨0⟩).Direct ∧
      (last.registries.get ⟨0⟩).lists (last.urls.get ⟨2⟩).identity = true ∧
      advertised ⟨0⟩ (last.urls.get ⟨2⟩).identity last.journal = true ∧
      (last.requests.get ⟨0⟩).service.value = (last.urls.get ⟨2⟩).path ∧
      (handle ⟨0⟩ (some ⟨0⟩)).value last =
        .ofFailure "1" (.unavailable "server is destroyed") := by
  intro shut last
  have closed : last.Shut ⟨0⟩ := by
    show (last.endpoints.get (last.servers.get ⟨0⟩).endpoint).destroyed = true
    decide +kernel
  refine ⟨by decide +kernel, by decide +kernel, by decide +kernel, by decide +kernel,
    by decide +kernel, (closed.turnsAway ⟨0⟩).trans ?_⟩
  have rid : (last.requests.get ⟨0⟩).rid = "1" := by decide +kernel
  rw [rid]

end RpcHost
