import RpcHost.Proofs.Runs
/-!
The books of a server along its runs. Between operations there is an exporter for a path where
there is a route and nowhere else, and both are of the same provider.
-/
namespace RpcHost

open Attempt Host

variable {h h' start before : Host} {s : ServerRef} {commands : List Command}

/-- The factory and the registries of the server behave, and no backend takes providers out of
its table. -/
structure Host.Fit (h : Host) (s : ServerRef) : Prop where
  terminated : h.Terminated
  civil : h.Civil (h.servers.get s).extensions
  spares : ∀ t, h.tableOf s = some t → h.Spares (h.servers.get s).extensions t

theorem Host.Noted.fit (noted : h.Noted h') (fit : h.Fit s) : h'.Fit s := by
  refine ⟨fit.terminated.extended noted.grown.filters, ?_, fun t table => ?_⟩
  · rw [noted.registering.servers]
    exact noted.civil fit.civil
  · rw [noted.registering.servers]
    rw [noted.registering.tableOf] at table
    refine (fit.spares t table).of_makers (fun b => ?_) (noted.registering.makers _)
    rw [noted.registering.backends]
    exact (fit.spares t table).backends b

theorem exportService_orderly (u : UrlRef) (service : Option Service) (coherent : h.Coherent s)
    (fit : h.Fit s) : ∃ h', (exportService s u service).Yields h (h.exportStatus s u) h' ∧
      h'.Coherent s ∧ h'.Fit s ∧ h.Steady s h' := by
  obtain ⟨t, table⟩ := coherent.table
  obtain ⟨h', ends, ordered, civil, steady⟩ :=
    exportService_completes u service coherent fit.terminated fit.civil
  have deployed := coherent.deployed fit.terminated table ends
  obtain ⟨_, server⟩ := steady.server
  have same : h'.tableOf s = h.tableOf s := by
    obtain ⟨_, _, apart⟩ := deployed.apart table
    exact apart.tableOf
  refine ⟨h', ends, ordered, ⟨steady.terminated fit.terminated, ?_, fun t' table' => ?_⟩, steady⟩
  · rw [server]
    exact civil
  · rw [server]
    rw [same, table] at table'
    cases table'
    exact deployed.spares table (fit.spares t table)

theorem handle_coherent (q : Option RequestRef) (coherent : h.Coherent s) (fit : h.Fit s) :
    ((handle s q).after h).Coherent s := by
  obtain ⟨t, table⟩ := coherent.table
  exact (handle_asked q (fit.spares t table)).coherent table coherent

/-- What clients may do between operations: addresses that are in use keep their paths. -/
def Host.Calm (s : ServerRef) (h h' : Host) : Prop :=
  h.Undisturbed s (fun u v => v.path = u.path) h' ∧ h'.Fit s

theorem Run.coherent (run : Run s (Host.Calm s) start commands h) (coherent : start.Coherent s)
    (fit : start.Fit s) : h.Coherent s ∧ h.Fit s := by
  have calm {h h' : Host} (coherent : h.Coherent s) (moved : h.Calm s h') :
      h'.Coherent s ∧ h'.Fit s :=
    ⟨moved.1.coherent (fun _ _ same => same) coherent, moved.2⟩
  -- an operation keeps the books in order, and so do clients who leave them alone
  induction run with
  | start => exact ⟨coherent, fit⟩
  | idled _ moved ih => exact calm ih.1 moved
  | exported _ ends moved ih =>
    exact calm (exportService_coherent ih.1 ih.2.terminated ends) moved
  | unexported _ ends moved ih => exact calm (unexportService_coherent ih.1 ends) moved
  | handled _ moved ih => exact calm (handle_coherent _ ih.1 ih.2) moved
  | destroyed _ ends moved ih => exact calm (destroyServer_coherent ih.1 ends) moved

/-- The exporters of a server and its routes agree. -/
structure Host.Agreeing (h : Host) (s : ServerRef) : Prop where
  paths : ∀ path, (h.exporterAt s path).isSome ↔ (h.routeAt s path).isSome
  provider : ∀ path e, h.exporterAt s path = some e → ∃ p, h.routeAt s path = some p ∧
    (h.exporters.get e).provider = some p ∧ (h.exporters.get e).exported = true ∧
      (h.backendOf p).available = true
  distinct : ∀ path other e e', path ≠ other → h.exporterAt s path = some e →
    h.exporterAt s other = some e' →
      (h.exporters.get e).provider ≠ (h.exporters.get e').provider

theorem Host.Coherent.agreeing (coherent : h.Coherent s) : h.Agreeing s where
  paths path := by
    constructor
    · intro kept
      obtain ⟨e, found⟩ := Option.isSome_iff_exists.1 kept
      obtain ⟨p, registries, serves⟩ := coherent.serves path e found
      rw [serves.route]
      rfl
    · intro routed
      obtain ⟨p, route⟩ := Option.isSome_iff_exists.1 routed
      obtain ⟨e, found⟩ := coherent.routes path p route
      rw [found]
      rfl
  provider path e found := by
    obtain ⟨p, registries, serves⟩ := coherent.serves path e found
    refine ⟨p, serves.route, ?_, ?_, serves.available⟩
    · rw [serves.exporter]
      rfl
    · rw [serves.exporter]
      rfl
  distinct path other e e' differ found found' := by
    obtain ⟨p, registries, serves⟩ := coherent.serves path e found
    obtain ⟨p', registries', serves'⟩ := coherent.serves other e' found'
    rw [serves.exporter, serves'.exporter]
    intro same
    exact serves.toHolds.provider_ne serves'.toHolds (Ne.symm differ) (Option.some.inj same)

/-- From its making on, and whatever is done with it, the exporters and the routes of a server
agree; each further operation ends, and they still agree. -/
theorem Run.books_agree {c : ConfigurationRef} {x : ExtensionsRef} {u : UrlRef}
    (server : (newServer c x u).value before = s) (made : (newServer c x u).after before = start)
    (fit : start.Fit s) (run : Run s (Host.Calm s) start commands h) :
    h.Agreeing s ∧
      (∀ u service, ∃ h', (exportService s u service).Yields h (h.exportStatus s u) h' ∧
        h'.Agreeing s) ∧
      (∀ order impls, ∃ status h' more, (exportAll order s impls).Yields h status h' ∧
        h'.Agreeing s ∧ Run s (Host.Calm s) start (commands ++ more) h') ∧
      (∀ path, ∃ status h', (unexportService s path).Yields h status h' ∧ h'.Agreeing s) ∧
      (∀ q, ((handle s q).after h).Agreeing s) ∧
      ∀ order, ∃ h', (destroyServer order s).Yields h () h' ∧ h'.Agreeing s := by
  obtain ⟨coherent, fit⟩ := run.coherent (.of_made server made) fit
  refine ⟨coherent.agreeing, fun u service => ?_, fun order impls => ?_, fun path => ?_,
    fun q => ?_, fun order => ?_⟩
  · obtain ⟨h', ends, ordered, _, _⟩ := exportService_orderly u service coherent fit
    exact ⟨h', ends, ordered.agreeing⟩
  · obtain ⟨status, h', more, ends, good, run, _⟩ := run.exportedAll
      (fun h => h.Coherent s ∧ h.Fit s) ⟨coherent, fit⟩
      (fun h h' good noted => ⟨⟨good.1.grown noted.grown, noted.fit good.2⟩,
        noted.undisturbed fun _ => rfl, noted.fit good.2⟩)
      (fun h u service good => by
        obtain ⟨h', ends, ordered, fit, steady⟩ := exportService_orderly u service good.1 good.2
        exact ⟨_, h', ends, ⟨ordered, fit⟩, steady⟩) order impls
    exact ⟨status, h', more, ends, good.1.agreeing, run⟩
  · obtain ⟨status, h', ends, _⟩ := unexportService_succeeds (s := s) path fit.civil
    exact ⟨status, h', ends, (unexportService_coherent coherent ends).agreeing⟩
  · exact (handle_coherent q coherent fit).agreeing
  · obtain ⟨_, h', ends, _⟩ := destroyServer_succeeds (s := s) order fit.civil
    exact ⟨h', ends, (destroyServer_coherent coherent ends).agreeing⟩

def Url.sample : Url :=
  ⟨"mrpc", "127.0.0.1", 8100, "calculator", "", .ofList [(registryKey, "main")]⟩

def Host.sample : Host :=
  furnished .builtIn (.ofList [("main", ⟨0⟩)])
    [⟨"direct", "127.0.0.1", 9000, "", "", .empty⟩, ⟨"local", "127.0.0.1", 8000, "", "", .empty⟩,
      .sample, Url.sample.removeParam Url.registryKey]

theorem Host.fit_builtIn (factory : h.extensions.get (h.servers.get s).extensions = .builtIn)
    (terminated : h.Terminated) (registries : ∀ r, (h.registries.get r).Civil)
    (backends : ∀ t b, ¬(h.backends.get b).engine.Withdraws t) : h.Fit s := by
  refine ⟨terminated, ⟨registries, fun protocol maker found => ?_⟩,
    fun t _ => ⟨backends t, fun name maker found => ?_⟩⟩
  · rw [factory] at found
    exact ⟨_, Extensions.registry_builtIn found, trivial⟩
  · rw [factory] at found
    obtain rfl := Extensions.provider_builtIn found
    rintro u url b ⟨⟩
    exact id

theorem Host.fit_sample : ((newServer ⟨0⟩ ⟨0⟩ ⟨1⟩).after sample).Fit ⟨0⟩ :=
  fit_builtIn rfl ⟨Nat.zero_lt_one, rfl⟩ (fun _ => trivial) fun _ _ => id

theorem Run.books_agree_sample :
    ∃ h, Run ⟨0⟩ (Host.Calm ⟨0⟩) ((newServer ⟨0⟩ ⟨0⟩ ⟨1⟩).after .sample)
      [.deploy .sample (some (.methods ⟨0⟩)) .ok] h ∧ h.Agreeing ⟨0⟩ ∧
      (h.exporterAt ⟨0⟩ "calculator").isSome = true := by
  have coherent : ((newServer ⟨0⟩ ⟨0⟩ ⟨1⟩).after .sample).Coherent ⟨0⟩ :=
    newServer_coherent ⟨0⟩ ⟨0⟩ ⟨1⟩ .sample
  have status : ((newServer ⟨0⟩ ⟨0⟩ ⟨1⟩).after .sample).exportStatus ⟨0⟩ ⟨2⟩ = .ok := by
    decide +kernel
  obtain ⟨h, ends, _, fit, _⟩ :=
    exportService_orderly ⟨2⟩ (some (.methods ⟨0⟩)) coherent Host.fit_sample
  rw [status] at ends
  have calm : h.Calm ⟨0⟩ h := ⟨(Course.refl h : h.Noted h).undisturbed fun _ => rfl, fit⟩
  have run := Run.exported .start ends calm
  refine ⟨h, run, (Run.books_agree rfl rfl Host.fit_sample run).1, ?_⟩
  rw [← Yields.after_eq ends]
  decide +kernel

end RpcHost
