import RpcHost.Proofs.Blindness
import RpcHost.Proofs.Continuity
/-!
Traffic that clients shut off, and what deployments make of it. A deployment for which no
provider can be made leaves the exporter of the path. Every other one that leaves the path served
leaves it under a new exporter, which lets traffic through.
-/
namespace RpcHost

open Attempt Host

variable {h g h' start before : Host} {s : ServerRef} {t : TableRef} {p old : ProviderRef}
  {e : ExporterRef} {u : UrlRef} {path : String} {registries : List RegistryRef} {n : Nat}
  {service : Option Service} {status : Status} {commands : List Command}
  {keeps : Url → Url → Prop}

namespace Store

def admitted (exporters : Store .exporter Exporter) : Store .exporter Exporter where
  next := exporters.next
  cells := exporters.cells.map fun cell =>
    if cell.1 < exporters.next then (cell.1, cell.2.admitted) else cell

variable (exporters : Store .exporter Exporter)

theorem get_admitted (e : ExporterRef) :
    exporters.admitted.get e =
      if e.index < exporters.next ∧ (lookup e.index exporters.cells).isSome then
        (exporters.get e).admitted
      else exporters.get e := by
  unfold admitted get
  generalize exporters.next = next
  -- on the cells, for any number of handles that were given out
  induction exporters.cells with
  | nil => simp [lookup]
  | cons cell rest ih =>
    obtain ⟨i, exporter⟩ := cell
    by_cases here : i = e.index
    · by_cases known : e.index < next <;> simp [lookup, here, known]
    · by_cases known : i < next <;> simpa [lookup, here, known] using ih

theorem akin_admitted : exporters.Akin exporters.next exporters.admitted := by
  refine ⟨rfl, fun e => ?_, fun e late => ?_⟩
  · rw [get_admitted]
    split <;> rfl
  · rw [get_admitted, if_neg fun known => Nat.not_lt.2 late known.1]

theorem get_admitted_exported (known : exporters.Allocated e)
    (exported : (exporters.get e).exported = true) :
    exporters.admitted.get e = (exporters.get e).admitted := by
  have there : (lookup e.index exporters.cells).isSome = true := by
    unfold get at exported
    cases found : lookup e.index exporters.cells with
    | some _ => rfl
    | none =>
      rw [found] at exported
      cases exported
  rw [get_admitted, if_pos ⟨known, there⟩]

end Store

namespace Host

def admitting (h : Host) : Host := { h with exporters := h.exporters.admitted }

theorem akin_admitting (h : Host) : h.Akin h.exporters.next h.admitting :=
  ⟨_, rfl, h.exporters.akin_admitted⟩

theorem Akin.mono {m : Nat} (akin : h.Akin n g) (later : n ≤ m) : h.Akin m g := by
  obtain ⟨exporters, rfl, akin⟩ := akin
  exact ⟨exporters, rfl, akin.next, akin.admitted,
    fun e late => akin.recent e (Nat.le_trans later late)⟩

theorem Akin.fit (akin : h.Akin n g) (fit : h.Fit s) : g.Fit s := by
  obtain ⟨_, rfl, _⟩ := akin
  exact ⟨⟨fit.terminated.known, fit.terminated.node⟩, ⟨fit.civil.registries, fit.civil.makers⟩,
    fun t table => ⟨(fit.spares t table).backends, (fit.spares t table).makers⟩⟩

theorem akin_setAvailable (h : Host) (e : ExporterRef) (available : Bool) :
    h.Akin (e.index + 1) ((setAvailable e available).after h) := by
  refine ⟨_, rfl, rfl, fun other => ?_, fun other late => ?_⟩
  · show ((h.exporters.modify e _).get other).admitted = _
    rw [Store.get_modify]
    split
    · rename_i same
      rw [same]
      rfl
    · rfl
  · refine Store.get_modify_ne _ (fun same => ?_) _
    rw [same] at late
    exact Nat.not_succ_le_self _ late

theorem Coherent.admitting (coherent : h.Coherent s) (akin : h.Akin n g) :
    g.admitting.Coherent s := by
  obtain ⟨exporters, rfl, akin⟩ := akin
  have quiet : h.Undisturbed s (fun u v => v.path = u.path)
      (Host.admitting { h with exporters }) := by
    refine ⟨rfl, rfl, fun _ _ => rfl, Nat.le_of_eq akin.next.symm, fun path e kept => ?_,
      Nat.le_refl _, Nat.le_refl _, fun _ _ _ => ⟨rfl, rfl, ?_, rfl⟩⟩
    · obtain ⟨p, registries, serves⟩ := coherent.serves path e kept
      have admitted : (exporters.get e).admitted = h.exporters.get e := by
        rw [akin.admitted, serves.exporter]
        rfl
      have exported : (exporters.get e).exported = true := by
        have same := congrArg Exporter.exported admitted
        rw [serves.exporter] at same
        exact same
      exact (exporters.get_admitted_exported (serves.known.mono (Nat.le_of_eq akin.next.symm))
        exported).trans admitted
    · exact kindsOf_congr rfl rfl
  exact quiet.coherent (fun _ _ same => same) coherent

theorem Undisturbed.admitting (quiet : h.Undisturbed s keeps h')
    (coherent : h.admitting.Coherent s) : h.admitting.Undisturbed s keeps h'.admitting := by
  refine ⟨quiet.server, quiet.endpoint, quiet.routes, quiet.exporters, fun path e kept => ?_,
    quiet.providers, quiet.backends, fun path p route => ?_⟩
  · obtain ⟨p, registries, serves⟩ := coherent.serves path e kept
    have same : h'.exporters.get e = h.exporters.get e := quiet.exporter path e kept
    have exported : (h.exporters.get e).exported = true := by
      rw [← h.akin_admitting.exported, serves.exporter]
      rfl
    have known : h.exporters.Allocated e := serves.known
    show h'.exporters.admitted.get e = h.exporters.admitted.get e
    rw [Store.get_admitted_exported _ (known.mono quiet.exporters) (by rw [same, exported]),
      Store.get_admitted_exported _ known exported, same]
  · obtain ⟨provider, own, kinds, url⟩ := quiet.provider path p route
    refine ⟨provider, own, ?_, url⟩
    rw [kindsOf_congr (a := h) (b := h.admitting) rfl rfl,
      kindsOf_congr (a := h') (b := h'.admitting) rfl rfl, kinds]

/-- What clients may do between operations: also shut traffic off, or let it through again. -/
def Tended (s : ServerRef) (h h' : Host) : Prop :=
  ∃ mid, h.Calm s mid ∧
    (h' = mid ∨ ∃ e available, h' = (setAvailable e available).after mid)

theorem Coherent.tended (coherent : h.admitting.Coherent s) (moved : h.Tended s h') :
    h'.admitting.Coherent s ∧ h'.Fit s := by
  obtain ⟨mid, ⟨quiet, fit⟩, ends⟩ := moved
  have still := (quiet.admitting coherent).coherent (fun _ _ same => same) coherent
  rcases ends with rfl | ⟨e, available, rfl⟩
  · exact ⟨still, fit⟩
  · have there := mid.akin_setAvailable e available
    have back := mid.akin_admitting.symm
    refine ⟨still.admitting ((back.mono (Nat.le_max_left _ (e.index + 1))).trans
      (there.mono (Nat.le_max_right _ _))), there.fit fit⟩

end Host

theorem Attempt.Blind.coherent {α : Type} {m : Attempt α} {a : α} (blind : ∀ n, m.Blind n)
    (ends : m.Yields h a h') (orderly : ∀ g, m.Yields h.admitting a g → g.Coherent s) :
    h'.admitting.Coherent s := by
  have alike := blind _ _ _ h.akin_admitting.symm
  obtain ⟨gives, leaves⟩ := yields_iff.1 ends
  have run : m.Yields h.admitting a (m.after h.admitting) :=
    yields_iff.2 ⟨alike.1.trans gives, rfl⟩
  rw [← leaves]
  exact (orderly _ run).admitting alike.2

theorem handle_admitting (q : Option RequestRef) (coherent : h.admitting.Coherent s)
    (fit : h.Fit s) : ((handle s q).after h).admitting.Coherent s := by
  obtain ⟨t, table⟩ := coherent.table
  have asked := handle_asked (s := s) q (fit.spares t table)
  have admitting : h.admitting.Asked t ((handle s q).after h).admitting := by
    have next := asked.next
    have backends := asked.backends
    have routes := asked.table
    obtain ⟨_, _, _, _, _, _, rest⟩ := asked.rest
    rw [rest] at next backends routes ⊢
    exact ⟨⟨_, _, _, _, _, _, rfl⟩, next, backends, routes⟩
  exact admitting.coherent table coherent

theorem Run.tended (run : Run s (Host.Tended s) start commands h) (coherent : start.Coherent s)
    (fit : start.Fit s) : h.admitting.Coherent s ∧ h.Fit s := by
  induction run with
  | start => exact ⟨coherent.admitting (Akin.refl 0 _), fit⟩
  | idled _ moved ih => exact ih.1.tended moved
  -- the operation is the same with the traffic let through, and there the books are in order
  | exported _ ends moved ih =>
    exact (Attempt.Blind.coherent (fun _ => exportService_blind s _ _) ends fun _ run =>
      exportService_coherent ih.1 (Host.akin_admitting _ |>.fit ih.2).terminated run).tended moved
  | unexported _ ends moved ih =>
    exact (Attempt.Blind.coherent (fun _ => unexportService_blind s _) ends fun _ run =>
      unexportService_coherent ih.1 run).tended moved
  | handled _ moved ih => exact (handle_admitting _ ih.1 ih.2).tended moved
  | destroyed _ ends moved ih =>
    exact (Attempt.Blind.coherent (fun _ => destroyServer_blind s _) ends fun _ run =>
      destroyServer_coherent ih.1 run).tended moved

theorem Restoration.renewed (restoration : Restoration h s t p (.ok (), h')) {e' : ExporterRef}
    (kept : h'.exporterAt s (h.pathOf p) = some e') : e' = h.exporters.fresh := by
  cases restoration with
  | restored routed names offered keeping =>
    rw [keeping.registering.exporterAt] at kept
    exact (Option.some.inj ((h.find?_keeping s _ _).symm.trans kept)).symm
  | lost routed lacks dropped =>
    rw [dropped.registering.exporterAt] at kept
    have gone := (exporterAt_dropping h s (h.pathOf p)).symm.trans kept
    cases gone

theorem Changeover.renewed (changeover : Changeover h s t e old registries p (.ok status, h'))
    (same : h.pathOf old = h.pathOf p) {e' : ExporterRef}
    (kept : h'.exporterAt s (h.pathOf p) = some e') : ¬h.exporters.Allocated e' := by
  by_cases accepted : status = .ok
  · subst accepted
    obtain ⟨_, _, _, _, _, _, _, _, keeping⟩ := changeover.accepted_cases
    rw [keeping.registering.exporterAt] at kept
    obtain rfl := Option.some.inj ((h.find?_keeping s _ _).symm.trans kept)
    exact h.exporters.not_allocated_fresh
  · obtain ⟨-, h₁, h₂, h₃, h₄, replaced, lacks, unrouted, restoration⟩ :=
      changeover.refused_cases accepted
    rw [← same, ← replaced.pathOf_unrouted unrouted old] at kept
    obtain rfl := restoration.renewed kept
    exact Nat.not_lt.2 (replaced.exporters_unrouted unrouted)

namespace Deployed

theorem renewed (deployed : Deployed h s t u service (.ok status, h'))
    (serves : h.Serves s (h.urls.get u).path e old registries) (made : status ≠ .noProvider)
    {e' : ExporterRef} (kept : h'.exporterAt s (h.urls.get u).path = some e') :
    ¬h.exporters.Allocated e' := by
  cases deployed with
  | unmade =>
    exact absurd rfl made
  | first unserved =>
    rw [serves.kept] at unserved
    cases unserved
  | again serves' prepared changeover =>
    obtain ⟨rfl, rfl, rfl⟩ := serves'.unique serves
    rw [← prepared.pathOf] at kept
    rw [← prepared.grown.exporters]
    exact changeover.renewed (held serves prepared rfl).1 kept

theorem kept_iff (deployed : Deployed h s t u service (.ok status, h'))
    (table : h.tableOf s = some t) (serves : h.Serves s (h.urls.get u).path e old registries) :
    (h'.exporterAt s (h.urls.get u).path).isSome ↔
      status ≠ .registryNotFound ∨ h.namesRegistries old = true := by
  cases deployed with
  | unmade none noted =>
    simp [(noted.grown.serves serves).kept]
  | first unserved =>
    rw [serves.kept] at unserved
    cases unserved
  | @again mid _ p _ _ _ _ serves' prepared changeover =>
    obtain ⟨rfl, rfl, rfl⟩ := serves'.unique serves
    have table' : mid.tableOf s = some t := (prepared.grown.tableOf s).trans table
    obtain ⟨same, backed, available, provider⟩ := held serves prepared rfl
    have names : mid.namesRegistries old = h.namesRegistries old := by
      unfold Host.namesRegistries
      rw [prepared.grown.urls, prepared.grown.addressOf serves.made serves.backed]
    rw [← prepared.pathOf, ← names]
    by_cases accepted : status = .ok
    · subst accepted
      obtain ⟨accepting, there⟩ := (changeover.serves table' prepared.known prepared.backed
        prepared.addressOf.2 (prepared.backend_ne serves.made serves.backed)).1
      simp [there.kept]
    · obtain ⟨rfl, ended⟩ := changeover.refusal accepted table' same
        (serves.made.mono prepared.grown.providers.next) backed available
      split at ended
      · rename_i named
        obtain ⟨_, _, again⟩ := ended
        simp [again.kept, named]
      · rename_i lacks
        simp [ended.1, lacks]

end Deployed

theorem exportService_renews (service : Option Service) (coherent : h.Coherent s) (fit : h.Fit s)
    (serves : h.Serves s (h.urls.get u).path e old registries) :
    ∃ h', (exportService s u service).Yields h (h.exportStatus s u) h' ∧
      (h.exportStatus s u ≠ .noProvider → ∀ e', h'.exporterAt s (h.urls.get u).path = some e' →
        ¬h.exporters.Allocated e' ∧ (h'.exporters.get e').available = true) ∧
      ((h'.exporterAt s (h.urls.get u).path).isSome ↔
        h.exportStatus s u ≠ .registryNotFound ∨ h.namesRegistries old = true) := by
  obtain ⟨t, table⟩ := coherent.table
  obtain ⟨h', ends, ordered, _, _⟩ := exportService_orderly u service coherent fit
  have deployed := coherent.deployed fit.terminated table ends
  refine ⟨h', ends, fun made e' kept => ⟨deployed.renewed serves made kept, ?_⟩,
    deployed.kept_iff table serves⟩
  obtain ⟨_, _, there⟩ := ordered.serves _ e' kept
  rw [there.exporter]
  rfl

theorem exportService_unmade (service : Option Service) (terminated : h.Terminated)
    (unmade : h.exportStatus s u = .noProvider) :
    ∃ h', h.Noted h' ∧ (exportService s u service).Yields h .noProvider h' := by
  rcases exportService_cases s u service terminated with
    ⟨_, h', noted, _, run⟩ | ⟨p, mid, prepared, _⟩
  · exact ⟨h', noted, run⟩
  · have status := prepared.offerStatus
    rw [unmade] at status
    unfold Host.offerStatus at status
    split at status <;> cases status

/-- A deployment leaves the exporter of a path and its traffic alone if no provider could be made.
Whatever exporter the path has after any other deployment is new and lets traffic through, even if
clients had shut the traffic off. There is one unless both providers were refused. -/
theorem Run.readmits {c : ConfigurationRef} {x : ExtensionsRef} {v : UrlRef}
    (server : (newServer c x v).value before = s) (made : (newServer c x v).after before = start)
    (fit : start.Fit s) (run : Run s (Host.Tended s) start commands h)
    (kept : h.exporterAt s (h.urls.get u).path = some e) (service : Option Service) :
    ∃ h', (exportService s u service).Yields h (h.exportStatus s u) h' ∧
      (h.exportStatus s u = .noProvider →
        h'.exporterAt s (h.urls.get u).path = some e ∧ h'.exporters = h.exporters) ∧
      (h.exportStatus s u ≠ .noProvider → ∀ e', h'.exporterAt s (h.urls.get u).path = some e' →
        e' ≠ e ∧ (h'.exporters.get e').available = true) ∧
      ((h'.exporterAt s (h.urls.get u).path).isSome ↔ h.exportStatus s u ≠ .registryNotFound ∨
        ∃ old, (h.exporters.get e).provider = some old ∧ h.namesRegistries old = true) := by
  obtain ⟨coherent, fit⟩ := run.tended (.of_made server made) fit
  obtain ⟨old, registries, serves⟩ := coherent.serves _ e kept
  -- with the traffic let through, the deployment is one on a server that is in order
  obtain ⟨g, ends, new, served⟩ :=
    exportService_renews service coherent (h.akin_admitting.fit fit) serves
  -- without it the deployment does the same, but for the traffic
  obtain ⟨same, akin⟩ := exportService_blind s u service _ _ h.akin_admitting.symm
  obtain ⟨gives, leaves⟩ := yields_iff.1 ends
  rw [leaves] at akin
  have run : (exportService s u service).Yields h (h.exportStatus s u)
      ((exportService s u service).after h) := yields_iff.2 ⟨same.symm.trans gives, rfl⟩
  generalize (exportService s u service).after h = h' at run akin
  have exporterAt : h'.exporterAt s (h.urls.get u).path = g.exporterAt s (h.urls.get u).path := by
    obtain ⟨_, rfl, _⟩ := akin
    rfl
  refine ⟨h', run, fun unmade => ?_, fun deployed e' kept' => ?_, ?_⟩
  · obtain ⟨mid, noted, yields⟩ := exportService_unmade service fit.terminated unmade
    obtain ⟨-, rfl⟩ := run.unique yields
    exact ⟨(noted.registering.exporterAt s _).trans kept, noted.registering.exporters⟩
  · obtain ⟨fresh, available⟩ := new deployed e' (exporterAt ▸ kept')
    refine ⟨fun old => fresh (old ▸ serves.known), ?_⟩
    rw [akin.exporters.recent e' (Nat.le_of_not_lt fresh)]
    exact available
  · have provider : (h.exporters.get e).provider = some old := by
      rw [← h.akin_admitting.provider, serves.exporter]
      rfl
    rw [exporterAt, provider]
    refine served.trans (or_congr Iff.rfl ⟨fun names => ⟨old, rfl, names⟩, ?_⟩)
    rintro ⟨_, same, names⟩
    cases same
    exact names

def Host.drained : Host := (setAvailable ⟨0⟩ false).after serving

/-- The sample service is replaced in vain while its traffic is shut off, and gets it back. -/
theorem Run.readmits_drained : ∃ e' h',
    (exportService ⟨0⟩ ⟨3⟩ none).Yields .drained .registryNotFound h' ∧
      (Host.drained.exporters.get ⟨0⟩).available = false ∧
      h'.exporterAt ⟨0⟩ "calculator" = some e' ∧ e' ≠ ⟨0⟩ ∧
      (h'.exporters.get e').available = true := by
  obtain ⟨accepted, _, fit⟩ := Host.serving_exported
  have path : (Host.drained.urls.get ⟨3⟩).path = "calculator" := by decide +kernel
  have kept : Host.drained.exporterAt ⟨0⟩ (Host.drained.urls.get ⟨3⟩).path = some ⟨0⟩ := by
    decide +kernel
  have refuses : Host.drained.exportStatus ⟨0⟩ ⟨3⟩ = .registryNotFound := by decide +kernel
  have drains : Host.serving.Tended ⟨0⟩ .drained :=
    ⟨_, ⟨(Course.refl Host.serving : Host.serving.Noted _).undisturbed fun _ => rfl, fit⟩,
      Or.inr ⟨⟨0⟩, false, rfl⟩⟩
  obtain ⟨h', ends, _, readmits, served⟩ := Run.readmits (s := ⟨0⟩) rfl rfl Host.fit_sample
    (.exported .start accepted drains) kept none
  have names : ∃ old, (Host.drained.exporters.get ⟨0⟩).provider = some old ∧
      Host.drained.namesRegistries old = true := ⟨⟨1⟩, by decide +kernel⟩
  obtain ⟨e', there⟩ := Option.isSome_iff_exists.1 (served.2 (Or.inr names))
  have admits := readmits (by rw [refuses]; decide) e' there
  rw [refuses] at ends
  rw [path] at there
  exact ⟨e', h', ends, by decide +kernel, there, admits⟩

/-- A refused deployment puts a service back into the traffic that clients had shut off. -/
theorem redeploy_readmits :
    let served := (exportService ⟨0⟩ ⟨2⟩ none).after ((newServer ⟨0⟩ ⟨0⟩ ⟨1⟩).after .sample)
    let drained := (setAvailable ⟨0⟩ false).after served
    let last := (exportService ⟨0⟩ ⟨3⟩ none).after drained
    (drained.exporterAt ⟨0⟩ "calculator").map (fun e => (drained.exporters.get e).available) =
        some false ∧
      ((exportService ⟨0⟩ ⟨3⟩ none).outcome drained).toOption = some .registryNotFound ∧
      (last.exporterAt ⟨0⟩ "calculator").map (fun e => (last.exporters.get e).available) =
        some true := by
  decide +kernel

end RpcHost
