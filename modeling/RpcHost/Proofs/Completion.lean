import RpcHost.Proofs.Bookkeeping
/-!
Over factories and registries that behave, every operation of a server comes to an end, and
they still behave afterwards.
-/
namespace RpcHost

open Attempt Host

variable {h h' : Host} {s : ServerRef} {t : TableRef} {x : ExtensionsRef} {p old : ProviderRef}
  {e : ExporterRef} {registries : List RegistryRef}

namespace Attempt

variable {α : Type} {P : Host → Prop} {m : Attempt α} {a : α} {fault : Fault}

theorem Succeeds.holds (succeeds : Succeeds P m h) (run : m.Yields h a h') : P h' := by
  obtain ⟨b, mid, other, holds⟩ := succeeds
  rw [← Yields.after_eq run, Yields.after_eq other]
  exact holds

theorem Succeeds.not_fails (succeeds : Succeeds P m h) : ¬m.Fails h fault h' := by
  obtain ⟨b, mid, run, _⟩ := succeeds
  intro fails
  have both := run.symm.trans fails
  simp at both

end Attempt

theorem Host.Civil.of_eq (civil : h.Civil x) (registries : h'.registries = h.registries)
    (extensions : h'.extensions = h.extensions) : h'.Civil x := by
  refine ⟨?_, ?_⟩
  · rw [registries]
    exact civil.registries
  · rw [extensions]
    exact civil.makers

theorem Host.Grown.civil (grown : h.Grown h') (civil : h.Civil x) : h'.Civil x :=
  civil.of_eq grown.registries grown.extensions

def Host.offerStatus (h : Host) (p : ProviderRef) : Status :=
  if h.namesRegistries p then .ok else .registryNotFound

theorem offer_succeeds {h₁ : Host} (servers : h₁.servers = h.servers)
    (civil : h₁.Civil (h.servers.get s).extensions) :
    Succeeds (Civil · (h.servers.get s).extensions) (offer h₁ s p) (h₁.offering s p) := by
  rw [← servers] at civil ⊢
  exact registerAll_succeeds _ _ _ (civil.of_eq rfl rfl)

theorem offer_routed_succeeds {h₁ : Host} (routed : (h.routing t p).Noted h₁)
    (civil : h.Civil (h.servers.get s).extensions) :
    Succeeds (Civil · (h.servers.get s).extensions) (offer h₁ s p) (h₁.offering s p) :=
  offer_succeeds routed.registering.servers (routed.civil (civil.of_eq rfl rfl))

theorem Opening.civil {result : Except Fault Status} (opening : Opening h s t p (result, h'))
    (civil : h.Civil (h.servers.get s).extensions) :
    result = .ok (h.offerStatus p) ∧ h'.Civil (h.servers.get s).extensions := by
  unfold Host.offerStatus
  cases opening with
  | accepted routed names offered kept =>
    rw [names, if_pos rfl]
    exact ⟨rfl, kept.civil (((offer_routed_succeeds routed civil).holds offered).of_eq rfl rfl)⟩
  | stopped routed names offered =>
    exact absurd offered (offer_routed_succeeds routed civil).not_fails
  | @refused h₁ _ routed lacks unrouted =>
    rw [lacks, if_neg (by decide)]
    have still : h₁.Civil (h.servers.get s).extensions := routed.civil (civil.of_eq rfl rfl)
    exact ⟨rfl, unrouted.civil (still.of_eq rfl rfl)⟩

theorem Restoration.civil {result : Except Fault Unit}
    (restoration : Restoration h s t p (result, h'))
    (civil : h.Civil (h.servers.get s).extensions) :
    result = .ok () ∧ h'.Civil (h.servers.get s).extensions := by
  cases restoration with
  | restored routed names offered kept =>
    exact ⟨rfl, kept.civil (((offer_routed_succeeds routed civil).holds offered).of_eq rfl rfl)⟩
  | stopped routed names offered =>
    exact absurd offered (offer_routed_succeeds routed civil).not_fails
  | @lost h₁ _ routed lacks dropped =>
    have still : h₁.Civil (h.servers.get s).extensions := routed.civil (civil.of_eq rfl rfl)
    exact ⟨rfl, dropped.civil (still.of_eq rfl rfl)⟩

theorem Superseding.civil {h₁ h₂ h₃ : Host} (replaced : Superseding h t e old registries p h₁ h₂ h₃)
    (civil : h.Civil x) : h₃.Civil x := by
  have succeeds := unregisterAll_succeeds (h.addressOf old) registries
    (replaced.routed.civil (civil.of_eq rfl rfl))
  exact replaced.unexported.civil ((succeeds.holds replaced.withdrew).of_eq rfl rfl)

theorem Changeover.civil {result : Except Fault Status}
    (changeover : Changeover h s t e old registries p (result, h'))
    (civil : h.Civil (h.servers.get s).extensions) :
    result = .ok (h.offerStatus p) ∧ h'.Civil (h.servers.get s).extensions := by
  unfold Host.offerStatus
  cases changeover with
  | stuck routed withdrew =>
    have succeeds := unregisterAll_succeeds (h.addressOf old) registries
      (routed.civil (civil.of_eq rfl rfl))
    exact absurd withdrew succeeds.not_fails
  | accepted replaced names offered kept =>
    have succeeds := offer_succeeds (p := p) replaced.servers (replaced.civil civil)
    rw [names, if_pos rfl]
    exact ⟨rfl, kept.civil ((succeeds.holds offered).of_eq rfl rfl)⟩
  | stopped replaced names offered =>
    have succeeds := offer_succeeds (p := p) replaced.servers (replaced.civil civil)
    exact absurd offered succeeds.not_fails
  | @refused _ _ h₃ h₄ _ result replaced lacks unrouted restoration =>
    have servers := replaced.servers_unrouted unrouted
    have still : h₄.Civil (h.servers.get s).extensions :=
      unrouted.civil ((replaced.civil civil).of_eq rfl rfl)
    rw [← servers] at still
    obtain ⟨rfl, ends⟩ := restoration.civil still
    rw [servers] at ends
    rw [lacks, if_neg (by decide)]
    exact ⟨rfl, ends⟩

def Host.exportStatus (h : Host) (s : ServerRef) (u : UrlRef) : Status :=
  let made := (h.extensions.get (h.servers.get s).extensions).backendFor u (h.urls.get u)
  if made.isNone then .noProvider
  else if (h.urls.get u).hasParam Url.registryKey then .ok
  else .registryNotFound

namespace Host.Prepared

variable {u : UrlRef} {service : Option Service} {mid : Host}

theorem offerStatus (prepared : h.Prepared (h.servers.get s).extensions u service p mid) :
    mid.offerStatus p = h.exportStatus s u := by
  obtain ⟨b, found, _⟩ := prepared.backend
  unfold Host.offerStatus Host.exportStatus Host.namesRegistries
  rw [found, prepared.addressOf.1, prepared.grown.urls]
  rfl

end Host.Prepared

theorem Deployed.civil {u : UrlRef} {service : Option Service} {result : Except Fault Status}
    (deployed : Deployed h s t u service (result, h'))
    (civil : h.Civil (h.servers.get s).extensions) :
    result = .ok (h.exportStatus s u) ∧ h'.Civil (h.servers.get s).extensions := by
  cases deployed with
  | unmade none noted =>
    unfold Host.exportStatus
    rw [none]
    exact ⟨rfl, noted.civil civil⟩
  | first unserved prepared opening =>
    have still := prepared.grown.civil civil
    rw [← prepared.grown.servers] at still
    rw [← prepared.offerStatus, ← prepared.grown.servers]
    exact opening.civil still
  | again serves prepared changeover =>
    have still := prepared.grown.civil civil
    rw [← prepared.grown.servers] at still
    rw [← prepared.offerStatus, ← prepared.grown.servers]
    exact changeover.civil still

theorem Host.Steady.terminated (steady : h.Steady s h') (terminated : h.Terminated) :
    h'.Terminated :=
  terminated.extended steady.filters

theorem exportService_completes (u : UrlRef) (service : Option Service) (coherent : h.Coherent s)
    (terminated : h.Terminated) (civil : h.Civil (h.servers.get s).extensions) :
    ∃ h', (exportService s u service).Yields h (h.exportStatus s u) h' ∧ h'.Coherent s ∧
      h'.Civil (h.servers.get s).extensions ∧ h.Steady s h' := by
  obtain ⟨t, table⟩ := coherent.table
  have deployed := exportService_deployed u service terminated table
    (coherent.state (h.urls.get u).path)
  cases ends : (exportService s u service).ending h with
  | mk result h' =>
    rw [ends] at deployed
    obtain ⟨rfl, still⟩ := deployed.civil civil
    exact ⟨h', ends, deployed.coherent coherent table, still, deployed.steady table⟩

theorem unroute_civil (endpoint : Option EndpointRef) (provider : Option ProviderRef)
    (civil : h.Civil x) : ((unroute endpoint provider).after h).Civil x := by
  unfold unroute
  split
  · rw [Step.after_bind, Step.value_get, Step.after_get]
    split
    · exact (removeProvider_within _ _ h).civil (civil.of_eq rfl rfl)
    · exact civil
  · exact civil

theorem unexport_succeeds (e : ExporterRef) (civil : h.Civil x) :
    Succeeds (Civil · x) (unexport e) h := by
  refine succeeds_get_bind ?_
  dsimp only
  split
  · have ends (h : Host) (civil : h.Civil x) (exporter : Exporter) :
        Succeeds (Civil · x) (do
          unroute exporter.endpoint exporter.provider
          modifyExporter e fun exporter => { exporter with exported := false }
          writeLog .info ["unexport url ", ← identityOf exporter.url, " success.\n"]
          return Status.ok) h := by
      refine succeeds_bind (succeeds_lift (unroute_civil _ _ civil)) fun _ h civil => ?_
      refine succeeds_bind (succeeds_lift (civil.of_eq rfl rfl)) fun _ h civil => ?_
      refine succeeds_bind (succeeds_lift ?_) fun _ h civil => ?_
      · cases exporter.url <;> exact civil
      refine succeeds_bind (succeeds_lift ((writeLog_within _ _ h).civil civil)) ?_
      exact fun _ h civil => succeeds_pure _ civil
    split
    · refine succeeds_bind (unregisterAll_succeeds _ _ civil) ?_
      exact fun _ h civil => ends h civil _
    · exact ends h civil _
  · exact succeeds_pure _ civil

theorem retire_succeeds (e : ExporterRef) (civil : h.Civil x) :
    Succeeds (Civil · x) (retire e) h := by
  refine succeeds_bind (unexport_succeeds e civil) fun status h civil => ?_
  refine succeeds_bind (succeeds_lift ?_) fun _ h civil => succeeds_pure _ civil
  unfold destroyProviderOf
  rw [Step.after_bind, Step.value_get, Step.after_get]
  split
  · exact (destroyProvider_within _ h).civil (civil.of_eq rfl rfl)
  · exact civil

theorem unexportService_succeeds (path : String) (civil : h.Civil x) :
    Succeeds (Civil · x) (unexportService s path) h := by
  refine succeeds_get_bind ?_
  split
  · refine succeeds_bind (succeeds_lift ((writeLog_within _ _ h).civil civil)) ?_
    exact fun _ h civil => succeeds_pure _ civil
  · refine succeeds_bind (succeeds_lift (civil.of_eq rfl rfl)) ?_
    exact fun _ h civil => retire_succeeds _ civil

theorem retireAll_succeeds (entries : List (String × ExporterRef)) (civil : h.Civil x) :
    Succeeds (Civil · x) (retireAll entries) h := by
  induction entries generalizing h with
  | nil => exact succeeds_pure _ civil
  | cons entry rest ih =>
    exact succeeds_bind (retire_succeeds entry.2 civil) fun _ h civil => ih civil

theorem destroyServer_succeeds (order : Traversal ExporterRef) (civil : h.Civil x) :
    Succeeds (Civil · x) (destroyServer order s) h := by
  refine succeeds_get_bind ?_
  refine succeeds_bind (succeeds_lift (civil.of_eq rfl rfl)) fun _ h civil => ?_
  refine succeeds_bind (retireAll_succeeds _ civil) fun _ h civil => ?_
  exact succeeds_lift (civil.of_eq rfl rfl)

end RpcHost
