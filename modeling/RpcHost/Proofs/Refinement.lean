import RpcHost.Proofs.Answering
import RpcHost.Proofs.Ledger
import RpcHost.Proofs.Resemblance
/-!
A server stands for its directory all along its runs, where providers are standard ones behind
access logs: what it answers to any request is what the directory answers.
-/
namespace RpcHost

open Attempt Host

variable {h h' start before : Host} {s : ServerRef} {t : TableRef} {u : UrlRef} {x : Extensions}
  {d : Directory} {p old : ProviderRef} {e : ExporterRef} {path : String} {url : Url}
  {registries : List RegistryRef} {service : Option Service} {status : Status}
  {commands : List Command}

/-- Constructors that make no providers but standard ones, and no filters but access logs. -/
structure Extensions.Plain (x : Extensions) : Prop where
  filters : ∀ name kind, x.filterNamed name = some kind → kind = .accessLog
  providers : ∀ name maker, usable x.providers name = some maker →
    ∀ u url b, maker.make u url = some b → b = .standardAt u

theorem Extensions.Plain.only (plain : x.Plain) (url : Url) :
    ∀ kind ∈ x.kindsOf url, kind = .accessLog := by
  intro kind member
  obtain ⟨name, _, found⟩ := List.mem_filterMap.1 member
  exact plain.filters name kind found

theorem Extensions.Plain.backendFor (plain : x.Plain) {b : Backend}
    (found : x.backendFor u url = some b) : b = .standardAt u := by
  obtain ⟨maker, usable, makes⟩ := Option.bind_eq_some_iff.1 found
  exact plain.providers _ maker usable u url b makes

structure Host.Plain (h : Host) (s : ServerRef) (x : Extensions) : Prop where
  terminated : h.Terminated
  civil : h.Civil (h.servers.get s).extensions
  makers : ∃ instances, h.extensions.get (h.servers.get s).extensions = { x with instances }

/-- A provider that answers for the business object, and whose address names registries. -/
structure Host.Hosts (h : Host) (x : Extensions) (p : ProviderRef) (url : Url)
    (service : Option Service) : Prop extends h.Renders x p url service, h.Whole p where
  names : url.hasParam Url.registryKey = true

theorem Host.Plain.steady (plain : h.Plain s x) (steady : h.Steady s h')
    (civil : h'.Civil (h.servers.get s).extensions) : h'.Plain s x := by
  obtain ⟨_, server⟩ := steady.server
  refine ⟨steady.terminated plain.terminated, ?_, ?_⟩
  · rw [server]
    exact civil
  · rw [server]
    obtain ⟨_, makers⟩ := plain.makers
    obtain ⟨instances, same⟩ := steady.makers (h.servers.get s).extensions
    exact ⟨instances, by rw [same, makers]⟩

theorem Host.Hosts.steady (hosts : h.Hosts x p url service) (steady : h.Steady s h')
    (own : h'.backendOf p = h.backendOf p) : h'.Hosts x p url service := by
  have address : h'.addressOf p = h.addressOf p := congrArg Backend.url own
  have kinds := hosts.toWhole.kindsOf steady.providers steady.filters
  refine ⟨⟨?_, ?_, ?_, kinds.trans hosts.kinds⟩, hosts.toWhole.steady steady, hosts.names⟩
  · rw [address]
    exact (steady.urls _).trans hosts.address
  · rw [own]
    exact hosts.available
  · rw [own]
    exact hosts.engine

theorem Host.Hosts.elsewhere {excepted : Option ExporterRef} {b : Option BackendRef}
    (hosts : h.Hosts x p url service) (apart : Elsewhere s path excepted b h h')
    (differ : b ≠ some (h.providers.get p).backend) : h'.Hosts x p url service := by
  refine hosts.steady apart.steady ?_
  unfold Host.backendOf
  rw [apart.providers.get p hosts.made, apart.backend _ hosts.backed differ]

theorem Host.Prepared.hosts {f : ExtensionsRef} {mid : Host}
    (prepared : h.Prepared f u service p mid) (plain : x.Plain)
    (makers : ∃ instances, h.extensions.get f = { x with instances })
    (names : (h.urls.get u).hasParam Url.registryKey = true) :
    mid.Hosts x p (h.urls.get u) service := by
  obtain ⟨instances, makers⟩ := makers
  obtain ⟨b, found, serves⟩ := prepared.backend
  obtain ⟨head, layers, chain⟩ := prepared.layers
  obtain ⟨address, available⟩ := prepared.addressOf
  have standard : b = .standardAt u := by
    rw [makers] at found
    exact plain.backendFor found
  have kinds : h.kindsFor f u = x.kindsOf (h.urls.get u) := by
    unfold Host.kindsFor
    rw [makers]
    rfl
  refine ⟨⟨?_, available, ?_, ?_⟩, prepared.whole, names⟩
  · rw [address, prepared.grown.urls]
    exact .refl _
  · rw [serves, standard]
    unfold Backend.serving Service.methods?
    cases service with
    | none => rfl
    | some service => cases service <;> rfl
  · unfold Host.kindsOf
    rw [layers, ← kinds]
    exact congrArg (fun kinds => [kinds]) chain.kinds_chainOf

/-- The server stands for the directory. -/
structure Host.Mirrors (h : Host) (s : ServerRef) (x : Extensions) (d : Directory) : Prop where
  coherent : h.Coherent s
  plain : h.Plain s x
  closed : (h.endpoints.get (h.servers.get s).endpoint).destroyed = d.closed
  served : ∀ path p, h.routeAt s path = some p → ∃ url service,
    d.services.find? path = some (url, service) ∧ h.Hosts x p url service
  unserved : ∀ path, h.routeAt s path = none → d.services.find? path = none

theorem Host.Mirrors.shows (mirrors : h.Mirrors s x d) : h.Shows s x d where
  table := mirrors.coherent.table
  closed := mirrors.closed
  served path p route := by
    obtain ⟨url, service, found, hosts⟩ := mirrors.served path p route
    exact ⟨url, service, found, hosts.toRenders⟩
  unserved := mirrors.unserved

theorem Deployed.hosts (deployed : Deployed h s t u service (.ok .ok, h'))
    (table : h.tableOf s = some t) (only : x.Plain) (plain : h.Plain s x) :
    ∃ p, h'.routeAt s (h.urls.get u).path = some p ∧ h'.Hosts x p (h.urls.get u) service := by
  have names : (h.urls.get u).hasParam Url.registryKey = true := by
    have ends := Except.ok.inj (deployed.civil plain.civil).1
    unfold Host.exportStatus at ends
    cases named : (h.urls.get u).hasParam Url.registryKey with
    | true => rfl
    | false =>
      simp only [named, Bool.false_eq_true, if_false] at ends
      split at ends
      · cases ends
      · cases ends
  obtain ⟨p, mid, prepared, onward, route, own⟩ := deployed.accepted table
  exact ⟨p, route, (prepared.hosts only plain.makers names).steady onward own⟩

theorem Deployed.backendOf_refused (deployed : Deployed h s t u service (.ok status, h'))
    (table : h.tableOf s = some t) (refused : status ≠ .ok)
    (route : h'.routeAt s (h.urls.get u).path = some p) :
    h.routeAt s (h.urls.get u).path = some p ∧ h'.backendOf p = h.backendOf p := by
  have before : h.routeAt s (h.urls.get u).path = some p := by
    rcases deployed.route_refused table refused with same | none
    · rw [← same, route]
    · rw [none] at route
      cases route
  refine ⟨before, ?_⟩
  cases deployed with
  | unmade _ noted => exact noted.registering.backendOf p
  | first unserved prepared opening =>
    have path := prepared.pathOf
    have none := (opening.unserved refused ((prepared.grown.tableOf s).trans table)
      (by rw [path, prepared.grown.exporterAt, unserved])).2.2
    rw [path, route] at none
    cases none
  | @again mid _ q old e registries _ serves prepared changeover =>
    obtain rfl : old = p := Option.some.inj (serves.route.symm.trans before)
    have table' := (prepared.grown.tableOf s).trans table
    have path := prepared.pathOf
    obtain ⟨same, backed, available, _⟩ := held serves prepared rfl
    have apart := changeover.elsewhere (.refl mid) table' path (same.trans path) rfl
    have made := serves.made.mono prepared.grown.providers.next
    have ended := (changeover.refusal refused table' same made backed available).2
    have provider := apart.providers.get old made
    rw [← prepared.grown.backendOf serves.made serves.backed]
    unfold Host.backendOf
    rw [provider]
    -- had the old backend been destroyed, its provider would not be served
    rcases changeover.backends with kept | retired
    · rw [kept]
    · have gone : (h'.backendOf old).available = false := by
        unfold Host.backendOf
        rw [provider, retired]
        exact available_retiring mid old
      split at ended
      · obtain ⟨_, _, there⟩ := ended
        rw [there.available] at gone
        cases gone
      · rw [path, route] at ended
        cases ended.2.1

theorem Deployed.route_named (deployed : Deployed h s t u service (.ok status, h'))
    (coherent : h.Coherent s) (table : h.tableOf s = some t) (refused : status ≠ .ok)
    (route : h.routeAt s (h.urls.get u).path = some p) (names : h.namesRegistries p = true) :
    h'.routeAt s (h.urls.get u).path = some p := by
  cases deployed with
  | unmade _ noted => rw [noted.registering.routeAt, route]
  | first unserved =>
    rw [coherent.unrouted unserved] at route
    cases route
  | @again mid _ q old e registries _ serves prepared changeover =>
    obtain rfl : old = p := Option.some.inj (serves.route.symm.trans route)
    obtain ⟨same, backed, available, _⟩ := held serves prepared rfl
    have ended := (changeover.refusal refused ((prepared.grown.tableOf s).trans table) same
      (serves.made.mono prepared.grown.providers.next) backed available).2
    have still : mid.namesRegistries old = true := by
      unfold Host.namesRegistries at names ⊢
      rw [prepared.grown.addressOf serves.made serves.backed, prepared.grown.urls, names]
    rw [if_pos still] at ended
    obtain ⟨_, _, there⟩ := ended
    rw [← prepared.pathOf]
    exact there.route

namespace Host.Mirrors

theorem around (mirrors : h.Mirrors s x d) {b : Option BackendRef} {excepted : Option ExporterRef}
    {services : Keyed (Url × Option Service)} (coherent : h'.Coherent s) (plain : h'.Plain s x)
    (apart : Elsewhere s path excepted b h h')
    (backing : ∀ other p, other ≠ path → h.routeAt s other = some p →
      b ≠ some (h.providers.get p).backend)
    (others : ∀ other, other ≠ path → services.find? other = d.services.find? other)
    (served : ∀ p, h'.routeAt s path = some p → ∃ url service,
      services.find? path = some (url, service) ∧ h'.Hosts x p url service)
    (unserved : h'.routeAt s path = none → services.find? path = none) :
    h'.Mirrors s x { d with services } := by
  refine ⟨coherent, plain, ?_, fun other p route => ?_, fun other route => ?_⟩
  · obtain ⟨_, server⟩ := apart.server
    rw [server, apart.endpoints]
    exact mirrors.closed
  · by_cases same : other = path
    · rw [same] at route ⊢
      exact served p route
    · rw [apart.routeAt same] at route
      obtain ⟨url, service, found, hosts⟩ := mirrors.served other p route
      exact ⟨url, service, (others other same).trans found,
        hosts.elsewhere apart (backing other p same route)⟩
  · by_cases same : other = path
    · rw [same] at route ⊢
      exact unserved route
    · rw [apart.routeAt same] at route
      rw [others other same]
      exact mirrors.unserved other route

variable (mirrors : h.Mirrors s x d)

include mirrors

theorem backing (serves : h.Serves s path e old registries) (other : String) (p : ProviderRef)
    (differ : other ≠ path) (route : h.routeAt s other = some p) :
    some (h.providers.get old).backend ≠ some (h.providers.get p).backend := by
  obtain ⟨_, _, there⟩ := mirrors.coherent.serves_of_route route
  exact (serves.toHolds.spared there.toHolds differ).2

theorem exported (only : x.Plain) (ends : (exportService s u service).Yields h status h') :
    h'.Mirrors s x (d.follow (.deploy (h.urls.get u) service status)) := by
  obtain ⟨t, table⟩ := mirrors.coherent.table
  obtain ⟨h₁, yields, coherent, civil, steady⟩ := exportService_completes u service
    mirrors.coherent mirrors.plain.terminated mirrors.plain.civil
  obtain ⟨-, rfl⟩ := ends.unique yields
  have plain := mirrors.plain.steady steady civil
  have deployed := mirrors.coherent.deployed mirrors.plain.terminated table ends
  -- only the path of the deployment is to be compared
  have around {services : Keyed (Url × Option Service)}
      (others : ∀ other, other ≠ (h.urls.get u).path →
        services.find? other = d.services.find? other)
      (served : ∀ p, h'.routeAt s (h.urls.get u).path = some p → ∃ url service,
        services.find? (h.urls.get u).path = some (url, service) ∧ h'.Hosts x p url service)
      (unserved : h'.routeAt s (h.urls.get u).path = none →
        services.find? (h.urls.get u).path = none) : h'.Mirrors s x { d with services } := by
    rcases deployed.elsewhere table with apart | ⟨e, old, registries, serves, apart⟩
    · exact mirrors.around coherent plain apart (by simp) others served unserved
    · exact mirrors.around coherent plain apart (mirrors.backing serves) others served unserved
  by_cases accepted : status = .ok
  · subst accepted
    obtain ⟨p, route, hosts⟩ := deployed.hosts table only mirrors.plain
    rw [Directory.follow_accepted]
    refine around (fun other differ => Keyed.find?_insert_ne _ differ _) (fun q found => ?_)
      fun none => ?_
    · rw [route] at found
      cases found
      exact ⟨_, _, Keyed.find?_insert_self _ _ _, hosts⟩
    · rw [route] at none
      cases none
  · rw [Directory.follow_refused _ _ _ accepted]
    refine around (fun _ _ => rfl) (fun p found => ?_) fun unserved => ?_
    · obtain ⟨before, own⟩ := deployed.backendOf_refused table accepted found
      obtain ⟨url, service, there, hosts⟩ := mirrors.served _ p before
      exact ⟨url, service, there, hosts.steady steady own⟩
    · cases before : h.routeAt s (h.urls.get u).path with
      | none => exact mirrors.unserved _ before
      | some p =>
        obtain ⟨url, service, _, hosts⟩ := mirrors.served _ p before
        have names : h.namesRegistries p = true := hosts.address.hasParam.trans hosts.names
        have kept := deployed.route_named mirrors.coherent table accepted before names
        rw [unserved] at kept
        cases kept

theorem unexported (ends : (unexportService s path).Yields h status h') :
    h'.Mirrors s x (d.follow (.retire path)) := by
  obtain ⟨t, table⟩ := mirrors.coherent.table
  have coherent := unexportService_coherent mirrors.coherent ends
  have civil := (unexportService_succeeds path mirrors.plain.civil).holds ends
  have others (other : String) (differ : other ≠ path) :
      (d.services.erase path).find? other = d.services.find? other :=
    d.services.find?_erase_ne differ
  rcases unexportService_cases mirrors.coherent table ends with
    ⟨-, unkept, noted⟩ | ⟨e, p, registries, mid, -, serves, retiring⟩
  · have apart : Elsewhere s path none none h h' := noted.grown.elsewhere s path none none
    refine mirrors.around coherent (mirrors.plain.steady apart.steady civil) apart (by simp) others
      (fun p route => ?_) fun _ => Keyed.find?_erase_self _ _
    rw [noted.registering.routeAt, mirrors.coherent.unrouted unkept] at route
    cases route
  · have apart := retiring.apart table
    refine mirrors.around coherent (mirrors.plain.steady apart.steady civil) apart
      (mirrors.backing serves) others (fun p route => ?_) fun _ => Keyed.find?_erase_self _ _
    rw [(retiring.clears table).2] at route
    cases route

theorem destroyed {order : Traversal ExporterRef} (ends : (destroyServer order s).Yields h () h') :
    h'.Mirrors s x (d.follow .close) := by
  obtain ⟨steady, endpoints, _, unrouted⟩ := destroyServer_clears mirrors.coherent ends
  have civil := (destroyServer_succeeds order mirrors.plain.civil).holds ends
  refine ⟨destroyServer_coherent mirrors.coherent ends, mirrors.plain.steady steady civil, ?_,
    fun path p route => ?_, fun path _ => rfl⟩
  · obtain ⟨_, server⟩ := steady.server
    rw [server, endpoints, Host.shutting, Store.get_modify_self]
    rfl
  · rw [unrouted] at route
    cases route

end Host.Mirrors

/-- What clients may do between operations: the addresses in use stay but for the mark of an
export, filters stay linked as they are, and the constructors stay those of `x`. -/
structure Host.Faithful (s : ServerRef) (x : Extensions) (h h' : Host) : Prop where
  quiet : h.Undisturbed s (fun u v => v.Like u) h'
  filters : h.filters.Extends h'.filters
  plain : h'.Plain s x

theorem Host.Mirrors.faithful (mirrors : h.Mirrors s x d) (moved : h.Faithful s x h') :
    h'.Mirrors s x d := by
  obtain ⟨quiet, filters, plain⟩ := moved
  refine ⟨quiet.coherent (fun _ _ like => like.path) mirrors.coherent, plain, ?_,
    fun path p route => ?_, fun path route => ?_⟩
  · rw [quiet.server, quiet.endpoint]
    exact mirrors.closed
  · rw [quiet.routeAt] at route
    obtain ⟨url, service, found, hosts⟩ := mirrors.served path p route
    obtain ⟨provider, own, kinds, like⟩ := quiet.provider path p route
    refine ⟨url, service, found, ⟨⟨?_, ?_, ?_, kinds.trans hosts.kinds⟩,
      ⟨hosts.made.mono quiet.providers, ?_, ?_⟩, hosts.names⟩⟩
    · unfold Host.addressOf
      rw [own]
      exact like.trans hosts.address
    · rw [own]
      exact hosts.available
    · rw [own]
      exact hosts.engine
    · rw [provider]
      exact hosts.backed.mono quiet.backends
    · rw [provider]
      intro head member
      obtain ⟨kinds, chain⟩ := hosts.chains head member
      exact ⟨kinds, chain.extended filters⟩
  · rw [quiet.routeAt] at route
    exact mirrors.unserved path route

theorem Host.Mirrors.frame (mirrors : h.Mirrors s x d) (methods : Store .methods MethodTable)
    (requests : Store .request Request) (sequence : UInt64) (screen : List Record)
    (files : FileTree) (journal : List Event) :
    { h with methods, requests, sequence, screen, files, journal }.Mirrors s x d := by
  have quiet : h.Undisturbed s (fun u v => v.Like u)
      { h with methods, requests, sequence, screen, files, journal } :=
    ⟨rfl, rfl, fun _ _ => rfl, Nat.le_refl _, fun _ _ _ => rfl, Nat.le_refl _, Nat.le_refl _,
      fun _ _ _ => ⟨rfl, rfl, kindsOf_congr rfl rfl, .refl _⟩⟩
  exact mirrors.faithful ⟨quiet, .refl _, mirrors.plain.terminated.extended (.refl _),
    mirrors.plain.civil.of_eq rfl rfl, mirrors.plain.makers⟩

theorem Host.Mirrors.handled (mirrors : h.Mirrors s x d) (only : x.Plain)
    (q : Option RequestRef) : ((handle s q).after h).Mirrors s x d := by
  have gives := mirrors.shows.handle_gives only.only q
  obtain ⟨requests, screen, files, journal, same⟩ := gives.2
  rw [same]
  exact mirrors.frame h.methods requests h.sequence screen files journal

theorem newServer_mirrors (c : ConfigurationRef) (f : ExtensionsRef) (u : UrlRef)
    (plain : ((newServer c f u).after before).Plain ((newServer c f u).value before) x) :
    ((newServer c f u).after before).Mirrors ((newServer c f u).value before) x .empty := by
  have coherent := newServer_coherent c f u before
  obtain ⟨made, noted⟩ := newServer_spec c f u before
  have unrouted (path : String) : ((newServer c f u).after before).routeAt
      ((newServer c f u).value before) path = none := by
    rw [noted.registering.routeAt, made]
    simp [Host.routeAt, Host.tableOf]
  refine ⟨coherent, plain, ?_, fun path p route => ?_, fun _ _ => rfl⟩
  · rw [noted.registering.servers, noted.registering.endpoints, made]
    simp [Directory.empty]
  · rw [unrouted] at route
    cases route

/-- Whatever is done with a server, it stands for what its directory has become. -/
theorem Run.mirrors (run : Run s (Host.Faithful s x) start commands h) (only : x.Plain)
    (mirrors : start.Mirrors s x .empty) : h.Mirrors s x (.after commands) := by
  -- only operations on the server are followed by the directory; clients and requests are not
  induction run with
  | start => exact mirrors
  | idled _ moved ih => exact ih.faithful moved
  | exported _ ends moved ih =>
    rw [Directory.after_append]
    exact (ih.exported only ends).faithful moved
  | unexported _ ends moved ih =>
    rw [Directory.after_append]
    exact (ih.unexported ends).faithful moved
  | handled _ moved ih => exact (ih.handled only _).faithful moved
  | destroyed _ ends moved ih =>
    rw [Directory.after_append]
    exact (ih.destroyed ends).faithful moved

/-- From its making on, and whatever is done with it, a server answers every request as its
directory does; each further operation ends, and leads on to a run. -/
theorem Run.answers {c : ConfigurationRef} {f : ExtensionsRef}
    (server : (newServer c f u).value before = s) (made : (newServer c f u).after before = start)
    (only : x.Plain) (plain : start.Plain s x)
    (run : Run s (Host.Faithful s x) start commands h) :
    (∀ q, (handle s q).value h =
      (Directory.after commands).answer x h.methods (q.map h.requests.get)) ∧
      (∀ u service, ∃ h', (exportService s u service).Yields h (h.exportStatus s u) h' ∧
        Run s (Host.Faithful s x) start
          (commands ++ [.deploy (h.urls.get u) service (h.exportStatus s u)]) h') ∧
      (∀ order impls, ∃ status h' more, (exportAll order s impls).Yields h status h' ∧
        Run s (Host.Faithful s x) start (commands ++ more) h' ∧
        more.map Command.deployed? = (h.planned order s impls).map some) ∧
      (∀ path, ∃ status h', (unexportService s path).Yields h status h' ∧
        Run s (Host.Faithful s x) start (commands ++ [.retire path]) h') ∧
      ∀ order, ∃ h', (destroyServer order s).Yields h () h' ∧
        Run s (Host.Faithful s x) start (commands ++ [.close]) h' := by
  have begins : start.Mirrors s x .empty := by
    subst server made
    exact newServer_mirrors c f u plain
  have mirrors := run.mirrors only begins
  have stays {h : Host} (plain : h.Plain s x) : h.Faithful s x h :=
    ⟨(Course.refl h : h.Noted h).undisturbed fun _ => .refl _, .refl _, plain⟩
  refine ⟨fun q => (mirrors.shows.handle_gives only.only q).1, fun u service => ?_,
    fun order impls => ?_, fun path => ?_, fun order => ?_⟩
  · obtain ⟨h', ends, _⟩ := exportService_completes u service mirrors.coherent
      mirrors.plain.terminated mirrors.plain.civil
    exact ⟨h', ends, .exported run ends (stays (mirrors.exported only ends).plain)⟩
  · obtain ⟨status, h', more, ends, _, run, deploys⟩ := run.exportedAll
      (fun h => h.Coherent s ∧ h.Plain s x) ⟨mirrors.coherent, mirrors.plain⟩
      (fun h h' good noted => by
        have plain : h'.Plain s x :=
          good.2.steady (noted.grown.elsewhere s "" none none).steady (noted.civil good.2.civil)
        exact ⟨⟨good.1.grown noted.grown, plain⟩,
          noted.undisturbed fun _ => .refl _, noted.grown.filters, plain⟩)
      (fun h u service good => by
        obtain ⟨h', ends, coherent, civil, steady⟩ :=
          exportService_completes u service good.1 good.2.terminated good.2.civil
        exact ⟨_, h', ends, ⟨coherent, good.2.steady steady civil⟩, steady⟩) order impls
    exact ⟨status, h', more, ends, run, deploys⟩
  · obtain ⟨status, h', ends, _⟩ := unexportService_succeeds (s := s) path mirrors.plain.civil
    exact ⟨status, h', ends, .unexported run ends (stays (mirrors.unexported ends).plain)⟩
  · obtain ⟨_, h', ends, _⟩ := destroyServer_succeeds (s := s) order mirrors.plain.civil
    exact ⟨h', ends, .destroyed run ends (stays (mirrors.destroyed ends).plain)⟩

theorem Extensions.plain_builtIn : builtIn.Plain where
  filters _ _ found := filter_builtIn found
  providers _ _ found u url b makes := by
    rw [provider_builtIn found] at makes
    exact (Option.some.inj makes).symm

theorem Run.answers_sample : ∃ h,
    Run ⟨0⟩ (Host.Faithful ⟨0⟩ .builtIn) ((newServer ⟨0⟩ ⟨0⟩ ⟨1⟩).after .sample)
      [.deploy .sample (some (.methods ⟨0⟩)) .ok] h ∧
      (∀ q, (handle ⟨0⟩ q).value h =
        (Directory.after [.deploy .sample (some (.methods ⟨0⟩)) .ok]).answer .builtIn h.methods
          (q.map h.requests.get)) ∧
      (handle ⟨0⟩ none).value h = .ofFailure "" (.serviceError "empty request") := by
  have plain : ((newServer ⟨0⟩ ⟨0⟩ ⟨1⟩).after .sample).Plain ⟨0⟩ .builtIn :=
    ⟨Host.fit_sample.terminated, Host.fit_sample.civil, _, rfl⟩
  have mirrors : ((newServer ⟨0⟩ ⟨0⟩ ⟨1⟩).after .sample).Mirrors ⟨0⟩ .builtIn .empty :=
    newServer_mirrors ⟨0⟩ ⟨0⟩ ⟨1⟩ plain
  have status : ((newServer ⟨0⟩ ⟨0⟩ ⟨1⟩).after .sample).exportStatus ⟨0⟩ ⟨2⟩ = .ok := by
    decide +kernel
  obtain ⟨h, ends, _⟩ := exportService_completes ⟨2⟩ (some (.methods ⟨0⟩)) mirrors.coherent
    plain.terminated plain.civil
  rw [status] at ends
  have stays : h.Faithful ⟨0⟩ .builtIn h :=
    ⟨(Course.refl h : h.Noted h).undisturbed fun _ => .refl _, .refl _,
      (mirrors.exported Extensions.plain_builtIn ends).plain⟩
  have run := Run.exported .start ends stays
  have answers := (Run.answers rfl rfl Extensions.plain_builtIn plain run).1
  exact ⟨h, run, answers, answers none⟩

end RpcHost
