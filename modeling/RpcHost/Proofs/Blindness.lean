import RpcHost.Proofs.Conversation
/-!
Whether exporters let traffic through is nothing that the operations of a server look at: in
states that differ in this alone they do the same. What they export lets traffic through.
-/
namespace RpcHost

open Attempt Host

def Exporter.admitted (e : Exporter) : Exporter := { e with available := true }

/-- The exporters differ at most in whether they let traffic through, and from `n` on in nothing. -/
structure Store.Akin (n : Nat) (a b : Store .exporter Exporter) : Prop where
  next : b.next = a.next
  admitted : ∀ e, (b.get e).admitted = (a.get e).admitted
  recent : ∀ e, n ≤ e.index → b.get e = a.get e

namespace Store.Akin

variable {n : Nat} {a b c : Store .exporter Exporter}

theorem refl (n : Nat) (a : Store .exporter Exporter) : a.Akin n a :=
  ⟨rfl, fun _ => rfl, fun _ _ => rfl⟩

theorem trans (first : a.Akin n b) (second : b.Akin n c) : a.Akin n c :=
  ⟨second.next.trans first.next, fun e => (second.admitted e).trans (first.admitted e),
    fun e late => (second.recent e late).trans (first.recent e late)⟩

theorem symm (akin : a.Akin n b) : b.Akin n a :=
  ⟨akin.next.symm, fun e => (akin.admitted e).symm, fun e late => (akin.recent e late).symm⟩

theorem fresh (akin : a.Akin n b) : b.fresh = a.fresh := congrArg Handle.mk akin.next

theorem modify (akin : a.Akin n b) (e : ExporterRef) {f : Exporter → Exporter}
    (same : ∀ exporter : Exporter, (f exporter.admitted).admitted = (f exporter).admitted) :
    (a.modify e f).Akin n (b.modify e f) := by
  refine ⟨akin.next, fun other => ?_, fun other late => ?_⟩
  · rw [Store.get_modify, Store.get_modify]
    split
    · rw [← same, akin.admitted e, same]
    · exact akin.admitted other
  · rw [Store.get_modify, Store.get_modify]
    split
    · rename_i here
      rw [akin.recent e (here ▸ late)]
    · exact akin.recent other late

theorem add (akin : a.Akin n b) (e : Exporter) : (a.add e).Akin n (b.add e) := by
  refine ⟨congrArg (· + 1) akin.next, fun other => ?_, fun other late => ?_⟩
  · rw [Store.get_add, Store.get_add, akin.fresh]
    split
    · rfl
    · exact akin.admitted other
  · rw [Store.get_add, Store.get_add, akin.fresh]
    split
    · rfl
    · exact akin.recent other late

end Store.Akin

def Host.Akin (n : Nat) (h g : Host) : Prop :=
  ∃ exporters, g = { h with exporters } ∧ h.exporters.Akin n exporters

namespace Host.Akin

variable {n : Nat} {a b c : Host}

theorem refl (n : Nat) (h : Host) : h.Akin n h := ⟨h.exporters, rfl, .refl n _⟩

theorem exporters (akin : a.Akin n b) : a.exporters.Akin n b.exporters := by
  obtain ⟨_, rfl, akin⟩ := akin
  exact akin

theorem trans (first : a.Akin n b) (second : b.Akin n c) : a.Akin n c := by
  obtain ⟨_, rfl, first⟩ := first
  obtain ⟨exporters, rfl, second⟩ := second
  exact ⟨exporters, rfl, first.trans second⟩

theorem symm (akin : a.Akin n b) : b.Akin n a := by
  obtain ⟨_, rfl, akin⟩ := akin
  exact ⟨a.exporters, rfl, akin.symm⟩

variable (akin : a.Akin n b) (e : ExporterRef)

include akin

theorem url : (b.exporters.get e).url = (a.exporters.get e).url := by
  have same := congrArg Exporter.url (akin.exporters.admitted e)
  exact same

theorem registries : (b.exporters.get e).registries = (a.exporters.get e).registries := by
  have same := congrArg Exporter.registries (akin.exporters.admitted e)
  exact same

theorem endpoint : (b.exporters.get e).endpoint = (a.exporters.get e).endpoint := by
  have same := congrArg Exporter.endpoint (akin.exporters.admitted e)
  exact same

theorem provider : (b.exporters.get e).provider = (a.exporters.get e).provider := by
  have same := congrArg Exporter.provider (akin.exporters.admitted e)
  exact same

theorem exported : (b.exporters.get e).exported = (a.exporters.get e).exported := by
  have same := congrArg Exporter.exported (akin.exporters.admitted e)
  exact same

end Host.Akin

variable {α β : Type} {n : Nat}

namespace Step

/-- The step does the same whatever traffic there is. -/
def Blind (n : Nat) (m : Step α) : Prop := ∀ a b : Host, a.Akin n b → Alike (Akin n) m a m b

theorem blind_pure (v : α) : Blind n (pure v) := fun _ _ akin => alike_pure v akin

theorem blind_bind {m : Step α} {k : α → Step β} (first : Blind n m)
    (rest : ∀ v, Blind n (k v)) : Blind n (m >>= k) :=
  fun _ _ akin => alike_bind (first _ _ akin) fun v _ _ akin => rest v _ _ akin

theorem blind_look_bind {k : Host → Step β} (same : ∀ a b, a.Akin n b → k b = k a)
    (rest : ∀ h, Blind n (k h)) : Blind n (get >>= k) := fun a b akin => by
  refine alike_get_bind ?_
  rw [same a b akin]
  exact rest a a b akin

theorem blind_get_bind {k : Host → Step β}
    (same : ∀ h exporters, k { h with exporters } = k h) (rest : ∀ h, Blind n (k h)) :
    Blind n (get >>= k) := by
  refine blind_look_bind ?_ rest
  rintro a _ ⟨exporters, rfl, _⟩
  exact same a exporters

theorem blind_of_apart {m : Step α}
    (value : ∀ h exporters, m.value { h with exporters } = m.value h)
    (after : ∀ h exporters, m.after { h with exporters } = { m.after h with exporters })
    (exporters : ∀ h, (m.after h).exporters = h.exporters) : Blind n m := by
  rintro a _ ⟨other, rfl, akin⟩
  exact ⟨(value a other).symm, other, after a other, by rw [exporters]; exact akin⟩

end Step

namespace Attempt

def Blind (n : Nat) (m : Attempt α) : Prop := ∀ a b : Host, a.Akin n b → Alike (Akin n) m a m b

theorem blind_pure (v : α) : Blind n (pure v) := fun _ _ akin => alike_pure v akin

theorem blind_throw (fault : Fault) : Blind n (throw fault : Attempt α) :=
  fun _ _ akin => alike_throw fault akin

theorem blind_lift {m : Step α} (step : Step.Blind n m) : Blind n (liftM m) :=
  fun _ _ akin => alike_lift (step _ _ akin)

theorem blind_bind {m : Attempt α} {k : α → Attempt β} (first : Blind n m)
    (rest : ∀ v, Blind n (k v)) : Blind n (m >>= k) :=
  fun _ _ akin => alike_bind (first _ _ akin) fun v _ _ akin => rest v _ _ akin

theorem blind_lift_bind {m : Step α} {k : α → Attempt β} (first : Step.Blind n m)
    (rest : ∀ v, Blind n (k v)) : Blind n (liftM m >>= k) :=
  blind_bind (blind_lift first) rest

theorem blind_look_bind {k : Host → Attempt β} (same : ∀ a b, a.Akin n b → k b = k a)
    (rest : ∀ h, Blind n (k h)) : Blind n (get >>= k) := fun a b akin => by
  refine alike_get_bind ?_
  rw [same a b akin]
  exact rest a a b akin

theorem blind_get_bind {k : Host → Attempt β}
    (same : ∀ h exporters, k { h with exporters } = k h) (rest : ∀ h, Blind n (k h)) :
    Blind n (get >>= k) := by
  refine blind_look_bind ?_ rest
  rintro a _ ⟨exporters, rfl, _⟩
  exact same a exporters

theorem blind_tryCatch {m : Attempt α} {handler : Fault → Attempt α} (first : Blind n m)
    (rest : ∀ fault, Blind n (handler fault)) : Blind n (tryCatch m handler) := by
  intro a b akin
  obtain ⟨same, related⟩ := first a b akin
  unfold Alike outcome Attempt.after
  rw [ending_tryCatch, ending_tryCatch, same]
  cases m.outcome b with
  | ok v => exact ⟨rfl, related⟩
  | error fault => exact rest fault _ _ related

end Attempt

section Registries

theorem writeLog_blind (level : Level) (pieces : List String) :
    (writeLog level pieces).Blind n := by
  have apart (h : Host) (exporters : Store .exporter Exporter) (r : Record) :
      Host.record { h with exporters } r = { h.record r with exporters } := by
    dsimp only [Host.record]
    cases h.log.destination? r.level with
    | none => rfl
    | some destination => cases destination <;> rfl
  refine Step.blind_of_apart (fun _ _ => rfl) (fun h exporters => apart h exporters _) fun h => ?_
  show (h.record _).exporters = _
  unfold Host.record
  split <;> rfl

theorem emit_blind (event : Event) : (emit event).Blind n :=
  Step.blind_of_apart (fun _ _ => rfl) (fun _ _ => rfl) fun _ => rfl

theorem getUrl_blind (u : UrlRef) : (getUrl u).Blind n :=
  Step.blind_of_apart (fun _ _ => rfl) (fun _ _ => rfl) fun _ => rfl

theorem identityOf_blind (u : Option UrlRef) : (identityOf u).Blind n := by
  cases u <;> exact Step.blind_of_apart (fun _ _ => rfl) (fun _ _ => rfl) fun _ => rfl

theorem modifyRegistry_blind (r : RegistryRef) (f : Registry → Registry) :
    (modifyRegistry r f).Blind n :=
  Step.blind_of_apart (fun _ _ => rfl) (fun _ _ => rfl) fun _ => rfl

theorem registryHost_blind (r : RegistryRef) : (registryHost r).Blind n :=
  Step.blind_of_apart (fun _ _ => rfl) (fun _ _ => rfl) fun _ => rfl

theorem findRegistry_blind (x : ExtensionsRef) (u : UrlRef) : (findRegistry x u).Blind n := by
  refine blind_lift_bind (getUrl_blind u) fun url => ?_
  refine blind_lift_bind (emit_blind _) fun _ => ?_
  refine blind_get_bind (fun _ _ => rfl) fun now => ?_
  dsimp only
  split
  · exact blind_pure _
  · split
    · exact blind_lift_bind (writeLog_blind _ _) fun _ => blind_pure _
    · exact blind_throw _
    · refine blind_lift_bind (emit_blind _) fun _ => ?_
      split
      · exact blind_throw _
      · exact blind_pure _
      · refine blind_lift_bind (Step.blind_of_apart (fun _ _ => rfl) (fun _ _ => rfl)
          fun _ => rfl) fun r => ?_
        exact blind_lift_bind (Step.blind_of_apart (fun _ _ => rfl) (fun _ _ => rfl)
          fun _ => rfl) fun _ => blind_pure _

theorem Errand.run_blind (errandFor : String → Errand) (r : RegistryRef) (u : UrlRef) :
    (run errandFor r u).Blind n := by
  refine blind_lift_bind (getUrl_blind u) fun url => ?_
  refine blind_get_bind (fun _ _ => rfl) fun now => ?_
  split
  · refine blind_lift_bind (modifyRegistry_blind r _) fun _ => ?_
    exact blind_lift_bind (emit_blind _) fun _ => blind_lift (writeLog_blind _ _)
  · refine blind_lift_bind (registryHost_blind r) fun host => ?_
    refine blind_lift_bind (modifyRegistry_blind r _) fun _ => ?_
    refine blind_lift_bind (emit_blind _) fun _ => ?_
    split
    · exact blind_throw _
    · exact blind_pure _

theorem registerAt_blind (x : ExtensionsRef) (c : ConfigurationRef) (u : UrlRef) (name : String) :
    (registerAt x c u name).Blind n := by
  refine blind_get_bind (fun _ _ => rfl) fun now => ?_
  split
  · exact blind_lift_bind (writeLog_blind _ _) fun _ => blind_pure _
  · refine blind_bind (findRegistry_blind x _) fun found => ?_
    split
    · exact blind_lift_bind (writeLog_blind _ _) fun _ => blind_pure _
    · refine blind_tryCatch ?_ fun fault => ?_
      · exact blind_bind (Errand.run_blind (.register _) _ u) fun _ => blind_pure _
      · split
        · exact blind_throw _
        · exact blind_lift_bind (writeLog_blind _ _) fun _ => blind_pure _

theorem registerAll_blind (x : ExtensionsRef) (c : ConfigurationRef) (u : UrlRef)
    (names : List String) : (registerAll x c u names).Blind n := by
  induction names with
  | nil => exact blind_pure _
  | cons name rest ih =>
    refine blind_bind (registerAt_blind x c u name) fun accepted => ?_
    exact blind_bind ih fun others => blind_pure _

theorem unregisterAll_blind (u : UrlRef) (registries : List RegistryRef) :
    (unregisterAll u registries).Blind n := by
  induction registries with
  | nil => exact blind_pure _
  | cons r rest ih =>
    have asked := Errand.run_blind (n := n) (.unregister r) r u
    refine blind_bind (blind_tryCatch asked fun fault => ?_) fun _ => ih
    split
    · exact blind_throw _
    · exact blind_get_bind (fun _ _ => rfl) fun now => blind_lift (writeLog_blind _ _)

end Registries

section Providers

theorem makeProvider_blind (x : ExtensionsRef) (u : UrlRef) : (makeProvider x u).Blind n := by
  refine Step.blind_bind (getUrl_blind u) fun url => ?_
  refine Step.blind_get_bind (fun _ _ => rfl) fun now => ?_
  split
  · exact Step.blind_bind (writeLog_blind _ _) fun _ => Step.blind_pure _
  · split
    · exact Step.blind_pure _
    · refine Step.blind_bind ?_ fun _ => Step.blind_pure _
      exact Step.blind_of_apart (fun _ _ => rfl) (fun _ _ => rfl) fun _ => rfl

theorem modifyBackend_blind (b : BackendRef) (f : Backend → Backend) :
    (modifyBackend b f).Blind n :=
  Step.blind_of_apart (fun _ _ => rfl) (fun _ _ => rfl) fun _ => rfl

theorem setService_blind (p : ProviderRef) (service : Option Service) :
    (setService p service).Blind n := by
  refine Step.blind_get_bind (fun _ _ => rfl) fun now => ?_
  dsimp only
  split
  · split
    · exact modifyBackend_blind _ _
    · exact writeLog_blind _ _
  · exact modifyBackend_blind _ _

theorem findFilters_blind (x : ExtensionsRef) (names : List String) :
    (findFilters x names).Blind n := by
  induction names with
  | nil => exact Step.blind_pure _
  | cons name rest ih =>
    refine Step.blind_bind ?_ fun found => Step.blind_bind ih fun _ => Step.blind_pure _
    refine Step.blind_get_bind (fun _ _ => rfl) fun now => ?_
    split
    · exact Step.blind_bind (writeLog_blind _ _) fun _ => Step.blind_pure _
    · exact Step.blind_pure _

theorem bindFilter_blind (kind : FilterKind) (u : UrlRef) : (bindFilter kind u).Blind n := by
  cases kind <;> exact Step.blind_of_apart (fun _ _ => rfl) (fun _ _ => rfl) fun _ => rfl

theorem giveContext_blind (f : FilterRef) (c : ConfigurationRef) : (giveContext f c).Blind n := by
  rintro a _ ⟨exporters, rfl, akin⟩
  refine Step.alike_get_bind ?_
  dsimp only
  by_cases keeps : (a.filters.get f).kind.keepsContext = true
  · rw [if_pos keeps, if_pos keeps]
    exact ⟨rfl, exporters, rfl, akin⟩
  · rw [if_neg keeps, if_neg keeps]
    exact ⟨rfl, exporters, rfl, akin⟩

theorem setNext_blind (f : FilterRef) (next : Option FilterRef) : (setNext f next).Blind n := by
  rintro a _ ⟨exporters, rfl, akin⟩
  refine Step.alike_get_bind ?_
  dsimp only
  split
  · exact writeLog_blind _ _ _ _ ⟨exporters, rfl, akin⟩
  · exact ⟨rfl, exporters, rfl, akin⟩

theorem composeChain_blind (c : ConfigurationRef) (u : UrlRef) (kinds : List FilterKind)
    (head : FilterRef) : (composeChain c u kinds head).Blind n := by
  induction kinds generalizing head with
  | nil => exact Step.blind_pure _
  | cons kind rest ih =>
    refine Step.blind_bind (bindFilter_blind kind u) fun bound => ?_
    split
    · exact ih head
    · split
      · refine Step.blind_bind (giveContext_blind _ c) fun _ => ?_
        exact Step.blind_bind (setNext_blind _ _) fun _ => ih _
      · exact ih head

theorem wrapProvider_blind (p : ProviderRef) (x : ExtensionsRef) (c : ConfigurationRef) :
    (wrapProvider p x c).Blind n := by
  refine Step.blind_get_bind (fun _ _ => rfl) fun now => ?_
  refine Step.blind_bind ?_ fun kinds => ?_
  · exact Step.blind_bind (getUrl_blind _) fun url => findFilters_blind x _
  · refine Step.blind_bind (composeChain_blind c _ kinds _) fun head => ?_
    rintro a _ ⟨exporters, rfl, akin⟩
    have info : Host.chainInfo { a with exporters } head = a.chainInfo head := by
      unfold Host.chainInfo Host.chainOf
      rw [chainFrom_congr (a := a) (b := { a with exporters }) rfl]
    refine Step.alike_get_bind ?_
    dsimp only
    rw [info]
    refine Step.alike_bind (R := Host.Akin n) ⟨rfl, exporters, rfl, akin⟩ fun _ a b akin => ?_
    exact Step.alike_bind (writeLog_blind _ _ a b akin) fun _ _ _ akin => Step.alike_pure _ akin

end Providers

section Routes

theorem addProvider_blind (t : TableRef) (p : ProviderRef) : (addProvider t p).Blind n :=
  Step.blind_of_apart (fun _ _ => rfl) (fun _ _ => rfl) fun _ => rfl

theorem removeProvider_blind (t : TableRef) (p : ProviderRef) : (removeProvider t p).Blind n := by
  rintro a _ ⟨exporters, rfl, akin⟩
  have path : Host.pathOf { a with exporters } p = a.pathOf p := rfl
  refine Step.alike_get_bind ?_
  dsimp only
  rw [path]
  split
  · refine Step.alike_bind (R := Host.Akin n) ⟨rfl, exporters, rfl, akin⟩ fun _ a b akin => ?_
    exact emit_blind _ a b akin
  · exact Step.alike_pure _ ⟨exporters, rfl, akin⟩

theorem serverTable_blind (s : ServerRef) : (serverTable s).Blind n :=
  Step.blind_of_apart (fun _ _ => rfl) (fun _ _ => rfl) fun _ => rfl

theorem routeOn_blind (s : ServerRef) (p : ProviderRef) : (routeOn s p).Blind n := by
  refine Step.blind_bind (serverTable_blind s) fun table => ?_
  split
  · exact addProvider_blind _ p
  · exact Step.blind_pure _

theorem unrouteOn_blind (s : ServerRef) (p : ProviderRef) : (unrouteOn s p).Blind n := by
  refine Step.blind_bind (serverTable_blind s) fun table => ?_
  split
  · exact removeProvider_blind _ p
  · exact Step.blind_pure _

theorem unroute_blind (endpoint : Option EndpointRef) (provider : Option ProviderRef) :
    (unroute endpoint provider).Blind n := by
  unfold unroute
  split
  · refine Step.blind_get_bind (fun _ _ => rfl) fun now => ?_
    split
    · exact removeProvider_blind _ _
    · exact Step.blind_pure _
  · exact Step.blind_pure _

theorem destroyProvider_blind (p : ProviderRef) : (destroyProvider p).Blind n := by
  refine Step.blind_get_bind (fun _ _ => rfl) fun now => ?_
  exact Step.blind_bind (modifyBackend_blind _ _) fun _ => emit_blind _

end Routes

section Exporters

theorem modifyExporter_blind (e : ExporterRef) {f : Exporter → Exporter}
    (same : ∀ exporter : Exporter, (f exporter.admitted).admitted = (f exporter).admitted) :
    (modifyExporter e f).Blind n := by
  rintro a _ ⟨exporters, rfl, akin⟩
  exact ⟨rfl, _, rfl, akin.modify e same⟩

theorem addExporter_blind (e : Exporter) : (addExporter e).Blind n := by
  rintro a _ ⟨exporters, rfl, akin⟩
  exact ⟨akin.fresh.symm, _, rfl, akin.add e⟩

theorem modifyUrl_blind (u : UrlRef) (f : Url → Url) : (modifyUrl u f).Blind n :=
  Step.blind_of_apart (fun _ _ => rfl) (fun _ _ => rfl) fun _ => rfl

theorem announce_blind (e : ExporterRef) (endpoint : Option EndpointRef) (x : ExtensionsRef)
    (c : ConfigurationRef) (u : UrlRef) : (announce e endpoint x c u).Blind n := by
  refine blind_lift_bind (modifyExporter_blind e fun _ => rfl) fun _ => ?_
  refine blind_lift_bind (getUrl_blind u) fun url => ?_
  refine blind_bind (registerAll_blind x c u _) fun registries => ?_
  refine blind_lift_bind (modifyExporter_blind e fun _ => rfl) fun _ => ?_
  refine blind_lift_bind (getUrl_blind u) fun url => ?_
  exact blind_lift_bind (writeLog_blind _ _) fun _ => blind_pure _

theorem exportBy_blind (e : ExporterRef) (endpoint : Option EndpointRef) (x : ExtensionsRef)
    (c : ConfigurationRef) : (exportBy e endpoint x c).Blind n := by
  refine blind_look_bind (fun a b akin => ?_) fun now => ?_
  · dsimp only
    rw [akin.exported, akin.provider, akin.url]
  dsimp only
  split
  · refine blind_lift_bind (identityOf_blind _) fun identity => ?_
    exact blind_lift_bind (writeLog_blind _ _) fun _ => blind_pure _
  · split
    · exact blind_lift_bind (writeLog_blind _ _) fun _ => blind_pure _
    · refine blind_get_bind (fun _ _ => rfl) fun now => ?_
      refine blind_lift_bind (modifyUrl_blind _ _) fun _ => ?_
      refine blind_lift_bind (getUrl_blind _) fun url => ?_
      split
      · exact announce_blind e endpoint x c _
      · exact blind_lift_bind (writeLog_blind _ _) fun _ => blind_pure _

theorem unexport_blind (e : ExporterRef) : (unexport e).Blind n := by
  refine blind_look_bind (fun a b akin => ?_) fun now => ?_
  · dsimp only
    rw [akin.exported, akin.provider, akin.url, akin.registries, akin.endpoint]
  dsimp only
  split
  · have ends (exporter : Exporter) : Attempt.Blind n (do
        unroute exporter.endpoint exporter.provider
        modifyExporter e fun exporter => { exporter with exported := false }
        writeLog .info ["unexport url ", ← identityOf exporter.url, " success.\n"]
        return Status.ok) := by
      refine blind_lift_bind (unroute_blind _ _) fun _ => ?_
      refine blind_lift_bind (modifyExporter_blind e fun _ => rfl) fun _ => ?_
      refine blind_lift_bind (identityOf_blind _) fun identity => ?_
      exact blind_lift_bind (writeLog_blind _ _) fun _ => blind_pure _
    split
    · exact blind_bind (unregisterAll_blind _ _) fun _ => ends _
    · exact ends _
  · exact blind_pure _

end Exporters

section Services

variable (s : ServerRef)

theorem modifyServer_blind (f : Server → Server) : (modifyServer s f).Blind n :=
  Step.blind_of_apart (fun _ _ => rfl) (fun _ _ => rfl) fun _ => rfl

theorem exportOn_blind (p : ProviderRef) : (exportOn s p).Blind n := by
  refine blind_get_bind (fun _ _ => rfl) fun now => ?_
  refine blind_lift_bind (addExporter_blind _) fun e => ?_
  exact blind_bind (exportBy_blind e _ _ _) fun status => blind_pure _

theorem restore_blind (e : ExporterRef) : (restore s e).Blind n := by
  refine blind_look_bind (fun a b akin => ?_) fun now => ?_
  · rw [akin.provider]
  split
  · exact blind_pure _
  · refine blind_lift_bind (routeOn_blind s _) fun _ => ?_
    refine blind_bind (exportOn_blind s _) fun exported => ?_
    refine blind_get_bind (fun _ _ => rfl) fun now => ?_
    split
    · refine blind_lift_bind (writeLog_blind _ _) fun _ => ?_
      exact blind_lift (modifyServer_blind s _)
    · refine blind_lift_bind (writeLog_blind _ _) fun _ => ?_
      refine blind_lift_bind (unrouteOn_blind s _) fun _ => ?_
      refine blind_lift_bind (destroyProvider_blind _) fun _ => ?_
      exact blind_lift (modifyServer_blind s _)

theorem destroyProviderOf_blind (e : ExporterRef) : (destroyProviderOf e).Blind n := by
  refine Step.blind_look_bind (fun a b akin => ?_) fun now => ?_
  · rw [akin.provider]
  split
  · exact destroyProvider_blind _
  · exact Step.blind_pure _

theorem deployProvider_blind (u : UrlRef) (p : ProviderRef) : (deployProvider s u p).Blind n := by
  refine blind_lift_bind (routeOn_blind s p) fun _ => ?_
  refine blind_lift_bind (getUrl_blind u) fun url => ?_
  refine blind_get_bind (fun _ _ => rfl) fun now => ?_
  dsimp only
  split
  · refine blind_bind (unexport_blind _) fun _ => ?_
    refine blind_bind (exportOn_blind s p) fun exported => ?_
    refine blind_lift_bind (getUrl_blind u) fun url => ?_
    split
    · refine blind_lift_bind (destroyProviderOf_blind _) fun _ => ?_
      exact blind_lift_bind (modifyServer_blind s _) fun _ => blind_pure _
    · refine blind_lift_bind (writeLog_blind _ _) fun _ => ?_
      refine blind_lift_bind (unrouteOn_blind s p) fun _ => ?_
      exact blind_bind (restore_blind s _) fun _ => blind_pure _
  · refine blind_bind (exportOn_blind s p) fun exported => ?_
    refine blind_lift_bind (getUrl_blind u) fun url => ?_
    split
    · exact blind_lift_bind (modifyServer_blind s _) fun _ => blind_pure _
    · refine blind_lift_bind (writeLog_blind _ _) fun _ => ?_
      exact blind_lift_bind (unrouteOn_blind s p) fun _ => blind_pure _

theorem exportService_blind (u : UrlRef) (service : Option Service) :
    (exportService s u service).Blind n := by
  refine blind_get_bind (fun _ _ => rfl) fun now => ?_
  refine blind_lift_bind (makeProvider_blind _ u) fun made => ?_
  split
  · refine blind_lift_bind (getUrl_blind u) fun url => ?_
    exact blind_lift_bind (writeLog_blind _ _) fun _ => blind_pure _
  · refine blind_lift_bind (setService_blind _ service) fun _ => ?_
    exact blind_lift_bind (wrapProvider_blind _ _ _) fun p => deployProvider_blind s u p

theorem retire_blind (e : ExporterRef) : (retire e).Blind n := by
  refine blind_bind (unexport_blind e) fun status => ?_
  exact blind_lift_bind (destroyProviderOf_blind e) fun _ => blind_pure _

theorem unexportService_blind (path : String) : (unexportService s path).Blind n := by
  refine blind_get_bind (fun _ _ => rfl) fun now => ?_
  split
  · exact blind_lift_bind (writeLog_blind _ _) fun _ => blind_pure _
  · exact blind_lift_bind (modifyServer_blind s _) fun _ => retire_blind _

theorem retireAll_blind (entries : List (String × ExporterRef)) : (retireAll entries).Blind n := by
  induction entries with
  | nil => exact blind_pure _
  | cons entry rest ih => exact blind_bind (retire_blind entry.2) fun _ => ih

theorem destroyServer_blind (order : Traversal ExporterRef) : (destroyServer order s).Blind n := by
  refine blind_get_bind (fun _ _ => rfl) fun now => ?_
  refine blind_lift_bind (modifyServer_blind s _) fun _ => ?_
  refine blind_bind (retireAll_blind _) fun _ => blind_lift ?_
  exact Step.blind_of_apart (fun _ _ => rfl) (fun _ _ => rfl) fun _ => rfl

end Services

end RpcHost
