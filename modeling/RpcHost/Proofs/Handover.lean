import RpcHost.Proofs.Chronicle
import RpcHost.Proofs.Continuity
/-!
How a path that is served changes over to a new provider. Whenever a registry is made or called,
the path leads to a provider that was not destroyed. The old one is destroyed last, and only if
the new one was accepted or the old one could not be put back.
-/
namespace RpcHost

open Attempt Host

variable {h g h' start before : Host} {s : ServerRef} {t : TableRef} {p old : ProviderRef}
  {e : ExporterRef} {b : BackendRef} {u : UrlRef} {path : String} {registries : List RegistryRef}
  {service : Option Service} {status : Status} {moments : List Moment} {commands : List Command}

/-- The first event belongs to no later stage than the second one. -/
def Moment.Ordered (first second : Moment) : Prop :=
  ∀ i ∈ first.event.stage?, ∀ j ∈ second.event.stage?, i ≤ j

theorem Event.callsOut_of_stage {event : Event} (none : event.stage? = none) :
    event.callsOut = false := by
  cases event <;> first | rfl | cases none

namespace Chronicle

theorem lives (chronicle : Chronicle h moments h') (known : h.backends.Allocated b)
    (available : (h.backends.get b).available = true)
    (spared : ∀ moment ∈ moments, moment.event ≠ .retired b) :
    (h'.backends.get b).available = true := by
  -- an event destroys at most its own backend
  induction chronicle with
  | still still => rwa [still.backends.get b known]
  | @next h g h' event moments still _ ih =>
    have now : (g.backends.get b).available = true := by rwa [still.backends.get b known]
    refine ih (allocated_having (still.backends.allocated known) event) ?_
      fun moment member => spared moment (List.mem_cons_of_mem _ member)
    have differ : event ≠ .retired b := spared _ List.mem_cons_self
    cases event with
    | retired other =>
      show ((g.backends.modify other Backend.destroyed).get b).available = true
      rwa [Store.get_modify_ne _ fun same => differ (by rw [same])]
    | _ => exact now

theorem gone_iff (chronicle : Chronicle h moments h') (known : h.backends.Allocated b)
    (available : (h.backends.get b).available = true) :
    (h'.backends.get b).available = false ↔ ∃ moment ∈ moments, moment.event = .retired b := by
  constructor
  · intro gone
    refine Classical.byContradiction fun spared => ?_
    have lives := chronicle.lives known available fun moment member retired =>
      spared ⟨moment, member, retired⟩
    rw [gone] at lives
    cases lives
  · rintro ⟨moment, member, retired⟩
    exact chronicle.gone_of_retired known member retired

end Chronicle

namespace Host

/-- What happens belongs to these stages and comes in their order, and whenever something outside
is called, the path is attended. -/
def Staged (s : ServerRef) (path : String) (first last : Nat) (h h' : Host) : Prop :=
  first ≤ last ∧ ∃ moments, Chronicle h moments h' ∧ moments.Pairwise Moment.Ordered ∧
    ∀ moment ∈ moments, (moment.event.callsOut = true → moment.host.Attended s path) ∧
      ∀ i ∈ moment.event.stage?, first ≤ i ∧ i ≤ last

variable {i j k l stage : Nat}

namespace Staged

theorem widen (staged : h.Staged s path j k h') (low : i ≤ j) (high : k ≤ l) :
    h.Staged s path i l h' := by
  obtain ⟨proper, moments, chronicle, ordered, each⟩ := staged
  refine ⟨by omega, moments, chronicle, ordered, fun moment member => ?_⟩
  obtain ⟨attended, within⟩ := each moment member
  refine ⟨attended, fun n own => ?_⟩
  have bounds := within n own
  omega

theorem trans (first : h.Staged s path i j g) (later : j ≤ k)
    (second : g.Staged s path k l h') : h.Staged s path i l h' := by
  obtain ⟨low, moments, chronicle, ordered, each⟩ := first
  obtain ⟨high, since, chronicle', ordered', each'⟩ := second
  refine ⟨by omega, moments ++ since, chronicle.trans chronicle', ?_, fun moment member => ?_⟩
  · refine List.pairwise_append.2 ⟨ordered, ordered', fun one member other member' => ?_⟩
    intro m own n own'
    have early := (each one member).2 m own
    have late := (each' other member').2 n own'
    omega
  · rcases List.mem_append.1 member with member | member
    · obtain ⟨attended, within⟩ := each moment member
      refine ⟨attended, fun n own => ?_⟩
      have bounds := within n own
      omega
    · obtain ⟨attended, within⟩ := each' moment member
      refine ⟨attended, fun n own => ?_⟩
      have bounds := within n own
      omega

end Staged

theorem Calling.staged (calling : h.Calling stage h') (attended : h.Attended s path) :
    h.Staged s path stage stage h' := by
  obtain ⟨moments, chronicle, calm⟩ := calling
  have manned := chronicle.attended attended fun moment member => (calm moment member).1
  refine ⟨Nat.le_refl _, moments, chronicle, ?_, fun moment member => ⟨fun _ => ?_, ?_⟩⟩
  · refine List.pairwise_iff_forall_sublist.2 fun {one other} both i own j own' => ?_
    obtain ⟨first, second⟩ : one ∈ moments ∧ other ∈ moments := by
      simpa using both.subset
    exact Nat.le_of_eq (((calm one first).2 i own).trans ((calm other second).2 j own').symm)
  · exact manned.1 moment member
  · intro i own
    rw [(calm moment member).2 i own]
    exact ⟨Nat.le_refl _, Nat.le_refl _⟩

theorem Rerouting.staged (rerouting : h.Rerouting h') (s : ServerRef) (path : String)
    (stage : Nat) : h.Staged s path stage stage h' := by
  obtain ⟨moments, chronicle, none⟩ := rerouting
  refine ⟨Nat.le_refl _, moments, chronicle, ?_, fun moment member => ⟨fun calls => ?_, ?_⟩⟩
  · refine List.pairwise_iff_forall_sublist.2 fun {one other} both i own => ?_
    have member : one ∈ moments := both.subset List.mem_cons_self
    rw [none one member] at own
    cases own
  · rw [Event.callsOut_of_stage (none moment member)] at calls
    cases calls
  · intro i own
    rw [none moment member] at own
    cases own

theorem Still.staged (still : h.Still h') (s : ServerRef) (path : String) (stage : Nat) :
    h.Staged s path stage stage h' := still.rerouting.staged s path stage

end Host

theorem destroyProvider_staged (p : ProviderRef) (h : Host) (s : ServerRef) (path : String) :
    h.Staged s path 2 2 ((destroyProvider p).after h) := by
  refine ⟨Nat.le_refl _, [⟨h, .retired (h.providers.get p).backend⟩], .one h _, ?_, ?_⟩
  · exact List.pairwise_singleton _ _
  · intro moment member
    rw [List.mem_singleton] at member
    subst member
    refine ⟨(nomatch ·), fun i own => ?_⟩
    obtain rfl : 2 = i := by simpa [Event.stage?] using own
    exact ⟨Nat.le_refl _, Nat.le_refl _⟩

namespace Attempt

variable {α β : Type} {m : Attempt α} {k : α → Attempt β} {i j l n : Nat}

theorem staged_bind (first : h.Staged s path i j (m.after h)) (later : j ≤ l)
    (proper : l ≤ n) (rest : ∀ a, m.Yields h a (m.after h) →
      (m.after h).Staged s path l n ((k a).after (m.after h))) :
    h.Staged s path i n ((m >>= k).after h) := by
  rw [after_bind]
  cases gives : m.outcome h with
  | ok a => exact first.trans later (rest a (yields_iff.2 ⟨gives, rfl⟩))
  | error fault => exact first.widen (Nat.le_refl _) (Nat.le_trans later proper)

theorem staged_lift_bind {m : Step α} (first : h.Staged s path i j (m.after h)) (later : j ≤ l)
    (rest : (m.after h).Staged s path l n ((k (m.value h)).after (m.after h))) :
    h.Staged s path i n (((liftM m : Attempt α) >>= k).after h) := by
  rw [after_lift_bind]
  exact first.trans later rest

end Attempt

theorem unexport_staged (e : ExporterRef) (attended : h.Attended s path) :
    h.Staged s path 0 0 ((unexport e).after h) := by
  unfold unexport
  rw [after_get_bind]
  dsimp only
  split
  · have ends (exporter : Exporter) : Attempt.Within Rerouting (do
        unroute exporter.endpoint exporter.provider
        modifyExporter e fun exporter => { exporter with exported := false }
        writeLog .info ["unexport url ", ← identityOf exporter.url, " success.\n"]
        return Status.ok) := by
      refine within_bind (within_lift (unroute_rerouting _ _)) fun _ => ?_
      refine within_bind (within_lift fun h => (modifyExporter_still e _ h).rerouting) fun _ => ?_
      refine within_bind (within_lift fun h => (identityOf_still _ h).rerouting) fun _ => ?_
      refine within_bind (within_lift fun h => (writeLog_still _ _ h).rerouting) fun _ => ?_
      exact within_pure _
    split
    · exact staged_bind ((unregisterAll_calling _ _ h).staged attended) (Nat.le_refl 0)
        (Nat.le_refl 0) fun _ _ => (ends _ _).staged s path 0
    · exact (ends _ h).staged s path 0
  · exact (Course.refl h : h.Still h).staged s path 0

theorem attended_routed {h₁ : Host} (table : h.tableOf s = some t) (made : h.providers.Allocated p)
    (backed : h.backends.Allocated (h.providers.get p).backend)
    (available : (h.backendOf p).available = true) (routed : (h.routing t p).Noted h₁) :
    h₁.Attended s (h.pathOf p) := by
  have attended : (h.routing t p).Attended s (h.pathOf p) :=
    ⟨p, routeAt_routing table p, made, backed, available⟩
  exact attended.elsewhere (routed.registering.routeAt s _) routed.registering.providers
    routed.registering.backends

theorem restore_staged (table : h.tableOf s = some t)
    (holds : (h.exporters.get e).provider = some p) (made : h.providers.Allocated p)
    (backed : h.backends.Allocated (h.providers.get p).backend)
    (available : (h.backendOf p).available = true) :
    h.Staged s (h.pathOf p) 1 2 ((restore s e).after h) := by
  unfold restore
  simp only [after_get_bind, holds]
  have attended := attended_routed table made backed available (routeOn_within table p)
  refine staged_lift_bind ((routeOn_rerouting s p h).staged s _ 1) (Nat.le_refl 1) ?_
  generalize (routeOn s p).after h = h₁ at attended
  refine staged_bind ((exportOn_calling s p h₁).staged attended) (Nat.le_refl 1) (Nat.le_succ 1)
    fun exported _ => ?_
  generalize (exportOn s p).after h₁ = h₂
  rw [after_get_bind]
  split
  · refine staged_lift_bind ((writeLog_still _ _ h₂).staged s _ 1) (Nat.le_succ 1) ?_
    exact (keepExporter_still s _ _ _).staged s _ 2
  · refine staged_lift_bind ((writeLog_still _ _ h₂).staged s _ 1) (Nat.le_refl 1) ?_
    refine staged_lift_bind ((unrouteOn_rerouting s p _).staged s _ 1) (Nat.le_succ 1) ?_
    refine staged_lift_bind (destroyProvider_staged p _ s _) (Nat.le_refl 2) ?_
    exact (dropExporter_still s _ _).staged s _ 2

theorem destroyProviderOf_staged (e : ExporterRef) (h : Host) (s : ServerRef) (path : String) :
    h.Staged s path 2 2 ((destroyProviderOf e).after h) := by
  unfold destroyProviderOf
  rw [Step.after_bind, Step.value_get, Step.after_get]
  split
  · exact destroyProvider_staged _ h s path
  · exact (Course.refl h : h.Still h).staged s path 2

theorem Superseding.attended {h₁ h₂ h₃ : Host}
    (replaced : Superseding h t e old registries p h₁ h₂ h₃) (attended : h₁.Attended s path) :
    h₃.Attended s path := by
  have routed := replaced.routed.registering
  refine attended.elsewhere ?_ (replaced.providers.trans routed.providers.symm)
    (replaced.backends.trans routed.backends.symm)
  unfold Host.routeAt
  rw [replaced.tableOf, routed.tableOf, replaced.tables]
  rfl

/-- An export that is refused without a fault was not offered to registries. -/
theorem opening_of_refused {exported : ExporterRef × Status}
    (run : (exportOn s p).Yields h exported h') (refused : exported.2 ≠ .ok) :
    (h.opening p).Noted h' := by
  cases names : h.namesRegistries p with
  | true =>
    rcases exportOn_named h s names with ⟨_, _, _, _, accepted, _⟩ | ⟨_, _, _, stopped⟩
    · obtain ⟨rfl, -⟩ := accepted.unique run
      exact absurd rfl refused
    · have ends := stopped.symm.trans run
      simp at ends
  | false =>
    obtain ⟨h₁, ends, noted⟩ := exportOn_refused s names
    obtain ⟨-, rfl⟩ := ends.unique run
    exact noted

theorem deploy_staged (table : h.tableOf s = some t) (address : h.addressOf p = u)
    (differ : p ≠ old) (serves : h.Serves s (h.pathOf p) e old registries)
    (made : h.providers.Allocated p) (backed : h.backends.Allocated (h.providers.get p).backend)
    (available : (h.backendOf p).available = true) :
    h.Staged s (h.pathOf p) 0 2 ((deployProvider s u p).after h) := by
  subst address
  have routed := routeOn_within table p
  have attended := attended_routed table made backed available routed
  unfold deployProvider
  refine staged_lift_bind ((routeOn_rerouting s p h).staged s _ 0) (Nat.le_refl 0) ?_
  generalize (routeOn s p).after h = h₁ at routed attended
  have found : (h₁.servers.get s).exporters.find? (h₁.urls.get (h.addressOf p)).path = some e := by
    rw [routed.registering.servers, routed.registering.urls]
    exact serves.kept
  have withdrawn := unexport_staged e attended
  simp only [after_lift_bind, after_get_bind, value_getUrl, after_getUrl, found]
  refine staged_bind withdrawn (Nat.zero_le 1) (Nat.le_succ 1) fun _ run => ?_
  obtain ⟨h₂, h₃, replaced, goes⟩ :=
    (unexport_superseded table differ serves routed).resolve_right fun ⟨_, _, _, stopped⟩ => by
      have ends := stopped.symm.trans run
      simp at ends
  rw [goes.after_eq]
  refine staged_bind ((exportOn_calling s p h₃).staged (replaced.attended attended))
    (Nat.le_refl 1) (Nat.le_succ 1) fun exported offered => ?_
  generalize (exportOn s p).after h₃ = h₄ at offered
  simp only [after_lift_bind, value_getUrl, after_getUrl]
  split
  · -- The new provider was accepted.
    refine staged_lift_bind ((destroyProviderOf_staged e h₄ s _).widen (Nat.le_succ 1)
      (Nat.le_refl 2)) (Nat.le_refl 2) ?_
    exact (keepExporter_still s _ _ _).staged s _ 2
  · -- It was refused, and the old one is put back.
    rename_i refused
    have cleared := unrouteOn_refused ((replaced.tableOf s).trans table)
      (opening_of_refused offered refused) .error
      ["导出服务 ", (h₄.urls.get (h.addressOf p)).path, " 失败: ", exported.2.reason, "\n"]
    rw [replaced.tablesWithout] at cleared
    refine staged_lift_bind ((writeLog_still _ _ h₄).staged s _ 1) (Nat.le_refl 1) ?_
    refine staged_lift_bind ((unrouteOn_rerouting s p _).staged s _ 1) (Nat.le_refl 1) ?_
    generalize (unrouteOn s p).after _ = h₅ at cleared
    have holds : (h₅.exporters.get e).provider = some old := congrArg Exporter.provider
      (replaced.exporter_unrouted cleared serves.known serves.exporter)
    have own := replaced.backendOf_unrouted cleared old
    have providers := replaced.providers_unrouted cleared
    have backends := replaced.backends_unrouted cleared
    have restored := restore_staged ((replaced.tableOf_unrouted cleared s).trans table) holds
      (by rw [providers]; exact serves.made) (by rw [providers, backends]; exact serves.backed)
      (by rw [own]; exact serves.available)
    rw [replaced.pathOf_unrouted cleared old, serves.located] at restored
    refine staged_bind restored (Nat.le_refl 2) (Nat.le_refl 2) fun _ _ => ?_
    exact (Course.refl _ : Host.Still _ _).staged s _ 2

theorem Host.Grown.still (grown : h.Grown g) (silent : h.Silent g) : h.Still g :=
  ⟨silent, grown.tables, grown.tableOf, grown.providers, grown.backends⟩

theorem exportService_staged (service : Option Service) (terminated : h.Terminated)
    (table : h.tableOf s = some t) (serves : h.Serves s (h.urls.get u).path e old registries) :
    h.Staged s (h.urls.get u).path 0 2 ((exportService s u service).after h) := by
  rcases exportService_cases s u service terminated with
    ⟨none, h', noted, silent, run⟩ | ⟨p, mid, prepared, silent, goes⟩
  · rw [run.after_eq]
    exact ((noted.grown.still silent).staged s _ 0).widen (Nat.le_refl 0) (Nat.zero_le 2)
  · have leaves : (exportService s u service).after h = (deployProvider s u p).after mid :=
      congrArg Prod.snd goes
    have there := prepared.grown.serves serves
    rw [leaves]
    rw [← prepared.pathOf] at there ⊢
    refine ((prepared.grown.still silent).staged s _ 0).trans (Nat.le_refl 0) ?_
    exact deploy_staged ((prepared.grown.tableOf s).trans table) prepared.addressOf.1
      (prepared.ne_made serves.made) there prepared.known prepared.backed prepared.addressOf.2

theorem Deployed.gone (deployed : Deployed h s t u service (.ok status, h'))
    (table : h.tableOf s = some t) (serves : h.Serves s (h.urls.get u).path e old registries) :
    (h'.backends.get (h.providers.get old).backend).available = false ↔
      status = .ok ∨ h'.exporterAt s (h.urls.get u).path = none := by
  have steady := deployed.steady table
  have provider := steady.providers.get old serves.made
  have own : h'.backends.get (h.providers.get old).backend = h'.backendOf old := by
    unfold Host.backendOf
    rw [provider]
  rw [own]
  cases deployed with
  | unmade none noted =>
    have there := noted.grown.serves serves
    simp [there.available, there.kept]
  | first unserved =>
    rw [serves.kept] at unserved
    cases unserved
  | @again mid _ p old' e' registries' _ serves' prepared changeover =>
    obtain ⟨rfl, rfl, rfl⟩ := serves'.unique serves
    have table' : mid.tableOf s = some t := (prepared.grown.tableOf s).trans table
    obtain ⟨same, backed, available, provider⟩ := Deployed.held serves prepared rfl
    rw [← prepared.pathOf]
    by_cases accepted : status = .ok
    · subst accepted
      have gone := (changeover.serves table' prepared.known prepared.backed prepared.addressOf.2
        (prepared.backend_ne serves.made serves.backed)).2
      simp [gone]
    · have ended := (changeover.refusal accepted table' same
        (serves.made.mono prepared.grown.providers.next) backed available).2
      split at ended
      · obtain ⟨_, _, again⟩ := ended
        simp [again.available, again.kept, accepted]
      · simp [ended]

/-- Whenever something outside is called in the course of a redeployment, the path leads to a
provider that was not destroyed. All withdrawals come first, then all offers. The old backend is
destroyed after them, exactly if the new provider was accepted or nothing is served any more. -/
theorem Run.hands_over {c : ConfigurationRef} {x : ExtensionsRef} {v : UrlRef}
    (server : (newServer c x v).value before = s) (made : (newServer c x v).after before = start)
    (fit : start.Fit s) (run : Run s (Host.Calm s) start commands h)
    (served : (h.exporterAt s (h.urls.get u).path).isSome) (service : Option Service) :
    ∃ old status moments h', h.routeAt s (h.urls.get u).path = some old ∧
      (exportService s u service).Yields h status h' ∧ Chronicle h moments h' ∧
      (∀ moment ∈ moments, moment.event.callsOut = true →
        moment.host.Attended s (h.urls.get u).path) ∧
      moments.Pairwise Moment.Ordered ∧
      ((∃ moment ∈ moments, moment.event = .retired (h.providers.get old).backend) ↔
        status = .ok ∨ h'.exporterAt s (h.urls.get u).path = none) := by
  obtain ⟨coherent, fit⟩ := run.coherent (.of_made server made) fit
  obtain ⟨t, table⟩ := coherent.table
  obtain ⟨e, kept⟩ := Option.isSome_iff_exists.1 served
  obtain ⟨old, registries, serves⟩ := coherent.serves _ e kept
  obtain ⟨h', ends, _, _, _⟩ := exportService_orderly u service coherent fit
  obtain ⟨_, moments, chronicle, ordered, each⟩ :=
    exportService_staged service fit.terminated table serves
  rw [ends.after_eq] at chronicle
  have deployed := coherent.deployed fit.terminated table ends
  refine ⟨old, _, moments, h', serves.route, ends, chronicle,
    fun moment member => (each moment member).1, ordered, ?_⟩
  rw [← deployed.gone table serves]
  exact (chronicle.gone_iff serves.backed serves.available).symm

/-- The sample service is replaced in vain: registries are called meanwhile, and it stays. -/
theorem Run.hands_over_serving :
    ∃ moments h', (exportService ⟨0⟩ ⟨3⟩ none).Yields .serving .registryNotFound h' ∧
      Chronicle .serving moments h' ∧
      (moments.map Moment.event).any Event.callsOut = true ∧
      (∀ moment ∈ moments, moment.event.callsOut = true →
        moment.host.Attended ⟨0⟩ "calculator") ∧
      moments.Pairwise Moment.Ordered ∧
      ¬∃ moment ∈ moments, moment.event = .retired (Host.serving.providers.get ⟨1⟩).backend := by
  obtain ⟨accepted, coherent, fit⟩ := Host.serving_exported
  have path : (Host.serving.urls.get ⟨3⟩).path = "calculator" := by decide +kernel
  have served : (Host.serving.exporterAt ⟨0⟩ (Host.serving.urls.get ⟨3⟩).path).isSome := by
    decide +kernel
  have calm : Host.serving.Calm ⟨0⟩ .serving :=
    ⟨(Course.refl Host.serving : Host.serving.Noted _).undisturbed fun _ => rfl, fit⟩
  obtain ⟨old, status, moments, h', route, ends, chronicle, attended, ordered, gone⟩ :=
    Run.hands_over (s := ⟨0⟩) rfl rfl Host.fit_sample (.exported .start accepted calm) served none
  have refuses : ((exportService ⟨0⟩ ⟨3⟩ none).outcome Host.serving).toOption =
      some .registryNotFound := by decide +kernel
  obtain ⟨rfl, -⟩ := (yields_of_toOption refuses).unique ends
  have routed : Host.serving.routeAt ⟨0⟩ "calculator" = some ⟨1⟩ := by decide +kernel
  rw [path] at route attended gone
  rw [routed] at route
  cases route
  have leaves := ends.after_eq
  refine ⟨moments, h', ends, chronicle, ?_, attended, ordered, fun retired => ?_⟩
  · have calls : (((exportService ⟨0⟩ ⟨3⟩ none).after Host.serving).journal.drop
        Host.serving.journal.length).any Event.callsOut = true := by decide +kernel
    rwa [leaves, chronicle.journal, List.drop_left] at calls
  · rcases gone.1 retired with accepted | unserved
    · cases accepted
    · have kept : (((exportService ⟨0⟩ ⟨3⟩ none).after Host.serving).exporterAt ⟨0⟩
          "calculator").isSome = true := by decide +kernel
      rw [leaves, unserved] at kept
      cases kept

/-- The old provider of a refused redeployment is destroyed too, once its own address names no
registries any more. -/
theorem redeploy_loses_both :
    let served := (exportService ⟨0⟩ ⟨2⟩ none).after ((newServer ⟨0⟩ ⟨0⟩ ⟨1⟩).after .sample)
    let bared := (modifyUrl ⟨2⟩ fun url => url.removeParam Url.registryKey).after served
    let last := (exportService ⟨0⟩ ⟨3⟩ none).after bared
    (bared.urls.get ⟨2⟩).path = (served.urls.get ⟨2⟩).path ∧
      (bared.urls.get ⟨3⟩).path = (served.urls.get ⟨2⟩).path ∧
      bared.routeAt ⟨0⟩ "calculator" = some ⟨1⟩ ∧
      (bared.exporterAt ⟨0⟩ "calculator").isSome = true ∧
      (bared.backendOf ⟨1⟩).available = true ∧
      ((exportService ⟨0⟩ ⟨3⟩ none).outcome bared).toOption = some .registryNotFound ∧
      (last.backendOf ⟨1⟩).available = false := by
  decide +kernel

end RpcHost
