import RpcHost.Proofs.Registration
/-!
What looking a registry up and asking it come to. The look-up leads to the registry that is kept
for the address, to a new one that is kept from then on, to none, or to the fault of a constructor.
A registry that is asked to take an address or to give one up does so, or ends with its fault.
Whoever asks goes on past a fault that tells a reason.
-/
namespace RpcHost

open Attempt Host

/-- What the constructor of the protocol makes for an address. -/
def Extensions.registryFor (x : Extensions) (v : UrlRef) (protocol : String) :
    Except Fault (Option Registry) :=
  match x.registries.find? protocol with
  | none => .ok none
  | some none => .error .emptyConstructor
  | some (some constructor) => constructor.maker.make v

theorem Extensions.registryFor_some {x : Extensions} {v : UrlRef} {protocol : String}
    {registry : Registry} (makes : x.registryFor v protocol = .ok (some registry)) :
    ∃ constructor, x.registries.find? protocol = some (some constructor) ∧
      constructor.maker.make v = .ok (some registry) := by
  unfold registryFor at makes
  split at makes
  · cases makes
  · cases makes
  · rename_i constructor known
    exact ⟨constructor, known, makes⟩

namespace Host

def making (h : Host) (x : ExtensionsRef) (identity : String) (r : Registry) : Host :=
  { h with
    registries := h.registries.add r
    extensions := h.extensions.modify x fun extensions => { extensions with
      instances := extensions.instances.insert identity h.registries.fresh } }

theorem extensions_making (h : Host) (x : ExtensionsRef) (identity : String) (r : Registry) :
    (h.making x identity r).extensions.get x = { h.extensions.get x with
      instances := (h.extensions.get x).instances.insert identity h.registries.fresh } :=
  Store.get_modify_self _ _ _

theorem Noted.making {h h' : Host} (noted : h.Noted h') (x : ExtensionsRef) (identity : String)
    (registry : Registry) :
    (h.making x identity registry).Noted (h'.making x identity registry) := by
  obtain ⟨⟨screen, files, journal, rfl⟩, uneventful⟩ := noted
  exact ⟨⟨screen, files, journal, rfl⟩, uneventful⟩

/-- Where the look-up of an address leads, and what it leaves but for the log and the journal. -/
inductive LooksUp (h : Host) (x : ExtensionsRef) (v : UrlRef) :
    Except Fault (Option RegistryRef) → Host → Prop
  | kept {r : RegistryRef}
    (found : (h.extensions.get x).instances.find? (h.urls.get v).identity = some r) :
    LooksUp h x v (.ok (some r)) h
  | absent (missing : (h.extensions.get x).instances.find? (h.urls.get v).identity = none)
    (nothing : (h.extensions.get x).registryFor v (h.urls.get v).protocol = .ok none) :
    LooksUp h x v (.ok none) h
  | made {registry : Registry}
    (missing : (h.extensions.get x).instances.find? (h.urls.get v).identity = none)
    (makes : (h.extensions.get x).registryFor v (h.urls.get v).protocol = .ok (some registry)) :
    LooksUp h x v (.ok (some h.registries.fresh)) (h.making x (h.urls.get v).identity registry)
  | failing {fault : Fault}
    (missing : (h.extensions.get x).instances.find? (h.urls.get v).identity = none)
    (fails : (h.extensions.get x).registryFor v (h.urls.get v).protocol = .error fault) :
    LooksUp h x v (.error fault) h

end Host

theorem findRegistry_ends (h : Host) (x : ExtensionsRef) (v : UrlRef) :
    ∃ result mid h', (findRegistry x v).ending h = (result, h') ∧ h.LooksUp x v result mid ∧
      mid.Noted h' := by
  have sought := emit_within (.sought (h.urls.get v).identity) rfl h
  unfold findRegistry
  simp only [ending_lift_bind, ending_get_bind, value_getUrl, after_getUrl, sought.extensions]
  cases found : (h.extensions.get x).instances.find? (h.urls.get v).identity with
  | some r => exact ⟨_, _, _, rfl, .kept found, sought⟩
  | none =>
    cases known : (h.extensions.get x).registries.find? (h.urls.get v).protocol with
    | none =>
      have nothing : (h.extensions.get x).registryFor v (h.urls.get v).protocol = .ok none := by
        simp [Extensions.registryFor, known]
      exact ⟨_, _, _, rfl, .absent found nothing, Course.trans sought (writeLog_within _ _ _)⟩
    | some maker =>
      cases maker with
      | none =>
        have fails : (h.extensions.get x).registryFor v (h.urls.get v).protocol =
            .error .emptyConstructor := by simp [Extensions.registryFor, known]
        exact ⟨_, _, _, rfl, .failing found fails, sought⟩
      | some constructor =>
        have same : (h.extensions.get x).registryFor v (h.urls.get v).protocol =
            constructor.maker.make v := by simp [Extensions.registryFor, known]
        have marked := Course.trans sought
          (emit_within (.constructed constructor.label (h.urls.get v).identity) rfl _)
        simp only [ending_lift_bind]
        cases makes : constructor.maker.make v with
        | error fault => exact ⟨_, _, _, rfl, .failing found (same.trans makes), marked⟩
        | ok made =>
          cases made with
          | none => exact ⟨_, _, _, rfl, .absent found (same.trans makes), marked⟩
          | some registry =>
            exact ⟨_, _, _, rfl, .made found (same.trans makes), marked.making x _ registry⟩

/-- How a registry answers, and what it leaves but for the log. -/
inductive Host.Consults (h : Host) (r : RegistryRef) (errand : Errand) :
    Except Fault Unit → Host → Prop
  | listed {listed : Keyed Unit} (state : (h.registries.get r).state = .direct listed) :
    Consults h r errand (.ok ()) { h with
      registries := h.registries.modify r fun registry =>
        { registry with state := .direct (errand.relist listed) }
      journal := h.journal ++ [errand.event none true] }
  | granted {script : RegistryScript} {asked : List Demand} (host : Option String)
    (state : (h.registries.get r).state = .scripted script asked)
    (willing : script asked errand.demand = none) :
    Consults h r errand (.ok ()) { h with
      registries := h.registries.modify r fun registry =>
        { registry with state := .scripted script (errand.demand :: asked) }
      journal := h.journal ++ [errand.event host true] }
  | failed {script : RegistryScript} {asked : List Demand} {fault : Fault} (host : Option String)
    (state : (h.registries.get r).state = .scripted script asked)
    (fails : script asked errand.demand = some fault) :
    Consults h r errand (.error fault) { h with
      registries := h.registries.modify r fun registry =>
        { registry with state := .scripted script (errand.demand :: asked) }
      journal := h.journal ++ [errand.event host false] }

theorem Errand.run_consults (errandFor : String → Errand) (h : Host) (r : RegistryRef)
    (u : UrlRef) :
    ∃ result mid h', (run errandFor r u).ending h = (result, h') ∧
      h.Consults r (errandFor (h.urls.get u).identity) result mid ∧ mid.Logged h' := by
  unfold run
  simp only [ending_lift_bind, ending_get_bind, value_getUrl, after_getUrl]
  cases state : (h.registries.get r).state with
  | direct listed => exact ⟨_, _, _, rfl, .listed state, writeLog_logged _ _ _⟩
  | scripted script asked =>
    cases fault? : script asked (errandFor (h.urls.get u).identity).demand with
    | none =>
      simp only [ending_lift_bind, fault?]
      exact ⟨_, _, _, rfl, .granted _ state fault?, Course.refl _⟩
    | some fault =>
      simp only [ending_lift_bind, fault?]
      exact ⟨_, _, _, rfl, .failed _ state fault?, Course.refl _⟩

theorem registerService_consults (h : Host) (r : RegistryRef) (u : UrlRef) :
    ∃ result mid h', (registerService r u).ending h = (result, h') ∧
      h.Consults r (.register r (h.urls.get u).identity) result mid ∧ mid.Logged h' :=
  Errand.run_consults (.register r) h r u

theorem unregisterService_consults (h : Host) (r : RegistryRef) (u : UrlRef) :
    ∃ result mid h', (unregisterService r u).ending h = (result, h') ∧
      h.Consults r (.unregister r (h.urls.get u).identity) result mid ∧ mid.Logged h' :=
  Errand.run_consults (.unregister r) h r u

section Offer

variable {h mid h' : Host} {x : ExtensionsRef} {c : ConfigurationRef} {u v : UrlRef}
  {r : RegistryRef} {name : String} {fault : Fault}

def offerTo (r : RegistryRef) (u : UrlRef) (name : String) : Attempt (Option RegistryRef) :=
  tryCatch (do registerService r u; return some r) fun fault => do
    match fault.reason? with
    | none => throw fault
    | some reason =>
      writeLog .error ["register to ", name, " failed: ", reason, "\n"]
      return none

theorem offerTo_taken (took : (registerService r u).Yields h () h') :
    (offerTo r u name).Yields h (some r) h' :=
  yields_tryCatch.2 (Or.inl (yields_bind.2 ⟨(), h', took, yields_pure.2 ⟨rfl, rfl⟩⟩))

theorem offerTo_failed (name : String) (fails : (registerService r u).Fails h fault mid) :
    (fault.reason? = none ∧ (offerTo r u name).Fails h fault mid) ∨
    (fault.reason?.isSome ∧ ∃ h', (offerTo r u name).Yields h none h' ∧ mid.Logged h') := by
  have refused : (do registerService r u; return some r : Attempt _).Fails h fault mid :=
    fails_bind.2 (Or.inl fails)
  obtain ⟨gives, leaves⟩ := fails_iff.1 refused
  unfold Fails Yields offerTo
  rw [ending_tryCatch, gives, leaves]
  cases told : fault.reason? with
  | none =>
    simp only [told]
    exact Or.inl ⟨trivial, rfl⟩
  | some reason =>
    simp only [told]
    exact Or.inr ⟨rfl, _, rfl, writeLog_logged _ _ _⟩

def release (r : RegistryRef) (u : UrlRef) : Attempt Unit :=
  tryCatch (unregisterService r u) fun fault => do
    match fault.reason? with
    | none => throw fault
    | some reason =>
      let name := ((← get).registries.get r).name
      writeLog .error ["unregister from ", name, " failed: ", reason, "\n"]

theorem release_given (gave : (unregisterService r u).Yields h () h') :
    (release r u).Yields h () h' :=
  yields_tryCatch.2 (Or.inl gave)

theorem release_failed (fails : (unregisterService r u).Fails h fault mid) :
    (fault.reason? = none ∧ (release r u).Fails h fault mid) ∨
    (fault.reason?.isSome ∧ ∃ h', (release r u).Yields h () h' ∧ mid.Logged h') := by
  obtain ⟨gives, leaves⟩ := fails_iff.1 fails
  unfold Fails Yields release
  rw [ending_tryCatch, gives, leaves]
  cases told : fault.reason? with
  | none =>
    simp only [told]
    exact Or.inl ⟨trivial, rfl⟩
  | some reason =>
    simp only [told, ending_get_bind]
    exact Or.inr ⟨rfl, _, rfl, writeLog_logged _ _ _⟩

theorem registerAt_unknown (u : UrlRef)
    (missing : (h.configurations.get c).registries.find? name = none) :
    ∃ h', (registerAt x c u name).Yields h none h' ∧ h.Logged h' := by
  unfold Yields registerAt
  simp only [ending_get_bind, missing]
  exact ⟨_, rfl, writeLog_logged _ _ _⟩

variable (address : (h.configurations.get c).registries.find? name = some v)

include address

theorem registerAt_unfound (u : UrlRef) (looked : (findRegistry x v).Yields h none mid) :
    ∃ h', (registerAt x c u name).Yields h none h' ∧ mid.Logged h' := by
  unfold Yields registerAt
  simp only [ending_get_bind, address, looked.ending_bind]
  exact ⟨_, rfl, writeLog_logged _ _ _⟩

theorem registerAt_found (u : UrlRef) (looked : (findRegistry x v).Yields h (some r) mid) :
    (registerAt x c u name).ending h = (offerTo r u name).ending mid := by
  unfold registerAt
  simp only [ending_get_bind, address, looked.ending_bind]
  rfl

theorem registerAt_lost (u : UrlRef) (fails : (findRegistry x v).Fails h fault mid) :
    (registerAt x c u name).Fails h fault mid := by
  unfold Fails registerAt
  simp only [ending_get_bind, address, fails.ending_bind]

end Offer

end RpcHost
