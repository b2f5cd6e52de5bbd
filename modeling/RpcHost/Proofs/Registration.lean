import RpcHost.Proofs.Outcome
/-!
What looking up registries, registering and withdrawing can change: the registries, those that
the factories keep, the log and the journal. No constructor changes, and nothing else does.
-/
namespace RpcHost

def Event.isRegistration : Event → Bool
  | registered .. => true
  | unregistered .. => true
  | _ => false

namespace Host

def tableOf (h : Host) (s : ServerRef) : Option TableRef :=
  (h.endpoints.get (h.servers.get s).endpoint).table

def exporterAt (h : Host) (s : ServerRef) (path : String) : Option ExporterRef :=
  (h.servers.get s).exporters.find? path

def routeAt (h : Host) (s : ServerRef) (path : String) : Option ProviderRef :=
  (h.tableOf s).bind fun t => (h.tables.get t).find? path

def Written (h h' : Host) : Prop :=
  ∃ screen files journal, h' = { h with screen, files, journal }

instance : Course Written where
  refl h := ⟨h.screen, h.files, h.journal, rfl⟩
  trans := by
    rintro h mid h' ⟨_, _, _, rfl⟩ ⟨screen, files, journal, rfl⟩
    exact ⟨screen, files, journal, rfl⟩

/-- The journal grows, and no registration is among what happened. -/
def Uneventful (h h' : Host) : Prop :=
  ∃ events, (∀ event ∈ events, event.isRegistration = false) ∧ h'.journal = h.journal ++ events

theorem Uneventful.of_eq {h h' : Host} (same : h'.journal = h.journal) : h.Uneventful h' :=
  ⟨[], by simp, by rw [same, List.append_nil]⟩

instance : Course Uneventful where
  refl h := .of_eq rfl
  trans := by
    rintro h mid h' ⟨before, first, grows⟩ ⟨events, second, grows'⟩
    refine ⟨before ++ events, fun event member => ?_, by rw [grows', grows, List.append_assoc]⟩
    exact (List.mem_append.1 member).elim (first event) (second event)

/-- At most the log differs, and the journal grows by what is no registration. -/
structure Noted (h h' : Host) : Prop where
  written : h.Written h'
  uneventful : h.Uneventful h'

instance : Course Noted where
  refl h := ⟨Course.refl h, Course.refl h⟩
  trans first second := ⟨Course.trans first.written second.written,
    Course.trans first.uneventful second.uneventful⟩

theorem Noted.of_eq {h h' : Host} (same : h' = h) : h.Noted h' := by
  rw [same]
  exact Course.refl h

/-- At most the log differs: nothing happened. -/
def Logged (h h' : Host) : Prop := ∃ screen files, h' = { h with screen, files }

instance : Course Logged where
  refl h := ⟨h.screen, h.files, rfl⟩
  trans := by
    rintro h mid h' ⟨_, _, rfl⟩ ⟨screen, files, rfl⟩
    exact ⟨screen, files, rfl⟩

theorem Logged.noted {h h' : Host} (logged : h.Logged h') : h.Noted h' := by
  obtain ⟨screen, files, rfl⟩ := logged
  exact ⟨⟨screen, files, h.journal, rfl⟩, .of_eq rfl⟩

theorem logged_record (h : Host) (record : Record) : h.Logged (h.record record) := by
  unfold Host.record
  split
  · exact ⟨h.screen, h.files, rfl⟩
  · exact ⟨_, h.files, rfl⟩
  · exact ⟨h.screen, _, rfl⟩

theorem noted_event (h : Host) {event : Event} (other : event.isRegistration = false) :
    h.Noted { h with journal := h.journal ++ [event] } :=
  ⟨⟨_, _, _, rfl⟩, [event], by simpa using other, rfl⟩

structure Registering (h h' : Host) : Prop where
  rest : ∃ registries extensions screen files journal,
    h' = { h with registries, extensions, screen, files, journal }
  makers : ∀ x, ∃ instances, h'.extensions.get x = { h.extensions.get x with instances }

theorem Written.registering {h h' : Host} (written : h.Written h') : h.Registering h' := by
  obtain ⟨screen, files, journal, rfl⟩ := written
  exact ⟨⟨_, _, _, _, _, rfl⟩, fun x => ⟨_, rfl⟩⟩

theorem Noted.registering {h h' : Host} (noted : h.Noted h') : h.Registering h' :=
  noted.written.registering

instance : Course Registering where
  refl h := Written.registering (Course.refl h)
  trans := by
    rintro h mid h' ⟨⟨_, _, _, _, _, rfl⟩, first⟩ ⟨⟨registries, extensions, screen, files,
      journal, rfl⟩, second⟩
    refine ⟨⟨_, _, _, _, _, rfl⟩, fun x => ?_⟩
    obtain ⟨_, one⟩ := first x
    obtain ⟨instances, two⟩ := second x
    exact ⟨instances, by rw [two, one]⟩

section Fields

variable {h h' : Host}

theorem Written.registries (written : h.Written h') : h'.registries = h.registries := by
  obtain ⟨_, _, _, rfl⟩ := written
  rfl

theorem Noted.registries (noted : h.Noted h') : h'.registries = h.registries :=
  noted.written.registries

theorem Written.extensions (written : h.Written h') : h'.extensions = h.extensions := by
  obtain ⟨_, _, _, rfl⟩ := written
  rfl

theorem Noted.extensions (noted : h.Noted h') : h'.extensions = h.extensions :=
  noted.written.extensions

theorem Noted.withTables (noted : h.Noted h') (tables : Store .table Routes) :
    Noted { h with tables } { h' with tables } := by
  obtain ⟨⟨screen, files, journal, rfl⟩, uneventful⟩ := noted
  exact ⟨⟨screen, files, journal, rfl⟩, uneventful⟩

theorem Noted.withBackends (noted : h.Noted h') (backends : Store .backend Backend) :
    Noted { h with backends } { h' with backends } := by
  obtain ⟨⟨screen, files, journal, rfl⟩, uneventful⟩ := noted
  exact ⟨⟨screen, files, journal, rfl⟩, uneventful⟩

theorem Noted.withExporters (noted : h.Noted h') (exporters : Store .exporter Exporter) :
    Noted { h with exporters } { h' with exporters } := by
  obtain ⟨⟨screen, files, journal, rfl⟩, uneventful⟩ := noted
  exact ⟨⟨screen, files, journal, rfl⟩, uneventful⟩

theorem Noted.withServers (noted : h.Noted h') (servers : Store .server Server) :
    Noted { h with servers } { h' with servers } := by
  obtain ⟨⟨screen, files, journal, rfl⟩, uneventful⟩ := noted
  exact ⟨⟨screen, files, journal, rfl⟩, uneventful⟩

namespace Registering

variable (registering : h.Registering h')

include registering

theorem urls : h'.urls = h.urls := by
  obtain ⟨_, _, _, _, _, rfl⟩ := registering.rest
  rfl

theorem backends : h'.backends = h.backends := by
  obtain ⟨_, _, _, _, _, rfl⟩ := registering.rest
  rfl

theorem providers : h'.providers = h.providers := by
  obtain ⟨_, _, _, _, _, rfl⟩ := registering.rest
  rfl

theorem filters : h'.filters = h.filters := by
  obtain ⟨_, _, _, _, _, rfl⟩ := registering.rest
  rfl

theorem methods : h'.methods = h.methods := by
  obtain ⟨_, _, _, _, _, rfl⟩ := registering.rest
  rfl

theorem tables : h'.tables = h.tables := by
  obtain ⟨_, _, _, _, _, rfl⟩ := registering.rest
  rfl

theorem endpoints : h'.endpoints = h.endpoints := by
  obtain ⟨_, _, _, _, _, rfl⟩ := registering.rest
  rfl

theorem exporters : h'.exporters = h.exporters := by
  obtain ⟨_, _, _, _, _, rfl⟩ := registering.rest
  rfl

theorem configurations : h'.configurations = h.configurations := by
  obtain ⟨_, _, _, _, _, rfl⟩ := registering.rest
  rfl

theorem servers : h'.servers = h.servers := by
  obtain ⟨_, _, _, _, _, rfl⟩ := registering.rest
  rfl

theorem requests : h'.requests = h.requests := by
  obtain ⟨_, _, _, _, _, rfl⟩ := registering.rest
  rfl

theorem backendOf (p : ProviderRef) : h'.backendOf p = h.backendOf p := by
  unfold Host.backendOf
  rw [registering.backends, registering.providers]

theorem addressOf (p : ProviderRef) : h'.addressOf p = h.addressOf p := by
  unfold Host.addressOf
  rw [registering.backendOf]

theorem pathOf (p : ProviderRef) : h'.pathOf p = h.pathOf p := by
  unfold Host.pathOf
  rw [registering.urls, registering.addressOf]

theorem tableOf (s : ServerRef) : h'.tableOf s = h.tableOf s := by
  unfold Host.tableOf
  rw [registering.endpoints, registering.servers]

theorem exporterAt (s : ServerRef) (path : String) :
    h'.exporterAt s path = h.exporterAt s path := by
  unfold Host.exporterAt
  rw [registering.servers]

theorem routeAt (s : ServerRef) (path : String) : h'.routeAt s path = h.routeAt s path := by
  unfold Host.routeAt
  rw [registering.tableOf, registering.tables]

end Registering

end Fields

end Host

open Host

theorem writeLog_logged (level : Level) (pieces : List String) :
    (writeLog level pieces).Within Logged :=
  fun h => logged_record h _

theorem writeLog_within (level : Level) (pieces : List String) :
    (writeLog level pieces).Within Noted :=
  fun h => (writeLog_logged level pieces h).noted

theorem logAccess_within (info : String) (answer : Option Response) :
    (logAccess info answer).Within Noted := by
  intro h
  obtain ⟨pieces, writes⟩ := exists_logAccess h info answer
  rw [Step.after, writes]
  exact writeLog_within .info pieces h

theorem journal_writeLog (level : Level) (pieces : List String) (h : Host) :
    ((writeLog level pieces).after h).journal = h.journal := by
  show (h.record _).journal = h.journal
  unfold record
  split <;> rfl

theorem emit_written (event : Event) : (emit event).Within Written := fun _ => ⟨_, _, _, rfl⟩

theorem emit_within (event : Event) (other : event.isRegistration = false) :
    (emit event).Within Noted :=
  fun h => noted_event h other

theorem writeLog_registering (level : Level) (pieces : List String) :
    (writeLog level pieces).Within Registering :=
  fun h => (writeLog_within level pieces h).registering

theorem emit_registering (event : Event) : (emit event).Within Registering :=
  fun h => (emit_written event h).registering

theorem getUrl_within (u : UrlRef) : (getUrl u).Within Registering := fun h => Course.refl h

theorem modifyRegistry_within (r : RegistryRef) (f : Registry → Registry) :
    (modifyRegistry r f).Within Registering :=
  fun _ => ⟨⟨_, _, _, _, _, rfl⟩, fun _ => ⟨_, rfl⟩⟩

theorem addRegistry_within (r : Registry) : (addRegistry r).Within Registering :=
  fun _ => ⟨⟨_, _, _, _, _, rfl⟩, fun _ => ⟨_, rfl⟩⟩

theorem keepInstance_within (x : ExtensionsRef) (identity : String) (r : RegistryRef) :
    (modifyExtensions x fun extensions =>
      { extensions with instances := extensions.instances.insert identity r }).Within
      Registering := fun h => by
  refine ⟨⟨_, _, _, _, _, rfl⟩, fun y => ?_⟩
  show ∃ instances, (h.extensions.modify x _).get y = _
  rw [Store.get_modify]
  split
  · rename_i same
    subst same
    exact ⟨_, rfl⟩
  · exact ⟨_, rfl⟩

open Attempt in
theorem findRegistry_within (x : ExtensionsRef) (u : UrlRef) :
    (findRegistry x u).Within Registering := by
  refine within_bind (within_lift (getUrl_within u)) fun url => ?_
  refine within_bind (within_lift (emit_registering _)) fun _ => ?_
  refine within_bind within_get fun now => ?_
  dsimp only
  split
  · exact within_pure _
  · split
    · exact within_bind (within_lift (writeLog_registering _ _)) fun _ => within_pure _
    · exact within_throw _
    · refine within_bind (within_lift (emit_registering _)) fun _ => ?_
      split
      · exact within_throw _
      · exact within_pure _
      · refine within_bind (within_lift (addRegistry_within _)) fun r => ?_
        exact within_bind (within_lift (keepInstance_within x _ r)) fun _ => within_pure _

open Attempt in
theorem Errand.run_within (errandFor : String → Errand) (r : RegistryRef) (u : UrlRef) :
    (run errandFor r u).Within Registering := by
  refine within_bind (within_lift (getUrl_within u)) fun url => ?_
  refine within_bind within_get fun now => ?_
  split
  · refine within_bind (within_lift (modifyRegistry_within r _)) fun _ => ?_
    refine within_bind (within_lift (emit_registering _)) fun _ => ?_
    exact within_lift (writeLog_registering _ _)
  · refine within_bind (within_lift fun h => Course.refl h) fun host => ?_
    refine within_bind (within_lift (modifyRegistry_within r _)) fun _ => ?_
    refine within_bind (within_lift (emit_registering _)) fun _ => ?_
    split
    · exact within_throw _
    · exact within_pure _

open Attempt in
theorem registerAt_within (x : ExtensionsRef) (c : ConfigurationRef) (u : UrlRef)
    (name : String) : (registerAt x c u name).Within Registering := by
  refine within_bind within_get fun now => ?_
  split
  · exact within_bind (within_lift (writeLog_registering _ _)) fun _ => within_pure _
  · refine within_bind (findRegistry_within x _) fun found => ?_
    split
    · exact within_bind (within_lift (writeLog_registering _ _)) fun _ => within_pure _
    · refine within_tryCatch ?_ fun fault => ?_
      · exact within_bind (Errand.run_within (.register _) _ u) fun _ => within_pure _
      · split
        · exact within_throw _
        · exact within_bind (within_lift (writeLog_registering _ _)) fun _ => within_pure _

open Attempt in
theorem registerAll_within (x : ExtensionsRef) (c : ConfigurationRef) (u : UrlRef)
    (names : List String) : (registerAll x c u names).Within Registering := by
  induction names with
  | nil => exact within_pure _
  | cons name rest ih =>
    refine within_bind (registerAt_within x c u name) fun accepted => ?_
    exact within_bind ih fun others => within_pure _

open Attempt in
theorem unregisterAll_within (u : UrlRef) (registries : List RegistryRef) :
    (unregisterAll u registries).Within Registering := by
  induction registries with
  | nil => exact within_pure _
  | cons r rest ih =>
    have asked := Errand.run_within (.unregister r) r u
    refine within_bind (within_tryCatch asked fun fault => ?_) fun _ => ih
    split
    · exact within_throw _
    · refine within_bind within_get fun now => ?_
      exact within_lift (writeLog_registering _ _)

end RpcHost
