import RpcHost.Proofs.Ledger
/-!
What happens in the course of an operation, event by event, and the state in which each event takes
place. Between events no route changes and no backend is destroyed, so the journal tells what is
routed at each moment.
-/
namespace RpcHost

open Attempt Host

namespace Event

def reroute : Event → Store .table Routes → Store .table Routes
  | routed t path p, tables => tables.modify t fun routes => routes.insert path p
  | unrouted t path, tables => tables.modify t fun routes => routes.erase path
  | _, tables => tables

def wear : Event → Store .backend Backend → Store .backend Backend
  | retired b, backends => backends.modify b Backend.destroyed
  | _, backends => backends

def shifts : Event → Bool
  | routed .. => true
  | unrouted .. => true
  | retired _ => true
  | _ => false

/-- Whether something outside is called: the constructor of a registry, or a registry that is to
take an identity or to give it up. -/
def callsOut : Event → Bool
  | constructed .. => true
  | registered .. => true
  | unregistered .. => true
  | _ => false

/-- The stages of a redeployment: identities are withdrawn, then offered, then a backend goes.
Other events belong to no stage. -/
def stage? : Event → Option Nat
  | unregistered .. => some 0
  | constructed .. => some 1
  | registered .. => some 1
  | retired _ => some 2
  | _ => none

end Event

/-- An event, and the state in which it takes place. -/
structure Moment where
  host : Host
  event : Event

namespace Host

def having (h : Host) (event : Event) : Host :=
  { h with
    journal := h.journal ++ [event]
    tables := event.reroute h.tables
    backends := event.wear h.backends }

structure Still (h h' : Host) : Prop where
  journal : h'.journal = h.journal
  tables : h'.tables = h.tables
  located : ∀ s, h'.tableOf s = h.tableOf s
  providers : h.providers.Extends h'.providers
  backends : h.backends.Extends h'.backends

instance : Course Still where
  refl _ := ⟨rfl, rfl, fun _ => rfl, .refl _, .refl _⟩
  trans first second := ⟨second.journal.trans first.journal, second.tables.trans first.tables,
    fun s => (second.located s).trans (first.located s), first.providers.trans second.providers,
    first.backends.trans second.backends⟩

/-- The path is routed to a provider that is there and that was not destroyed. -/
def Attended (h : Host) (s : ServerRef) (path : String) : Prop :=
  ∃ p, h.routeAt s path = some p ∧ h.providers.Allocated p ∧
    h.backends.Allocated (h.providers.get p).backend ∧ (h.backendOf p).available = true

end Host

/-- From the first state to the last one these are the moments, in order. -/
inductive Chronicle : Host → List Moment → Host → Prop
  | still {h h' : Host} (still : h.Still h') : Chronicle h [] h'
  | next {h g h' : Host} {event : Event} {moments : List Moment} (still : h.Still g)
    (rest : Chronicle (g.having event) moments h') : Chronicle h (⟨g, event⟩ :: moments) h'

variable {h g h' : Host} {s : ServerRef} {t : TableRef} {p : ProviderRef} {b : BackendRef}
  {path : String} {event : Event} {moments later : List Moment}

namespace Host

theorem Still.attended (still : h.Still g) (attended : h.Attended s path) :
    g.Attended s path := by
  obtain ⟨p, route, made, backed, available⟩ := attended
  have provider := still.providers.get p made
  refine ⟨p, ?_, still.providers.allocated made, ?_, ?_⟩
  · rw [← route]
    unfold Host.routeAt
    rw [still.located, still.tables]
  · rw [provider]
    exact still.backends.allocated backed
  · unfold Host.backendOf at available ⊢
    rw [provider, still.backends.get _ backed]
    exact available

theorem Attended.having (attended : h.Attended s path) (calm : event.shifts = false) :
    (h.having event).Attended s path := by
  have same : (h.having event).Attended s path ↔ h.Attended s path := by
    cases event <;> first | exact Iff.rfl | cases calm
  exact same.2 attended

theorem Attended.elsewhere {h' : Host} (attended : h.Attended s path)
    (routeAt : h'.routeAt s path = h.routeAt s path) (providers : h'.providers = h.providers)
    (backends : h'.backends = h.backends) : h'.Attended s path := by
  unfold Attended Host.backendOf
  rw [routeAt, providers, backends]
  exact attended

end Host

namespace Chronicle

theorem before (still : h.Still g) (chronicle : Chronicle g moments h') :
    Chronicle h moments h' := by
  cases chronicle with
  | still other => exact .still (Course.trans still other)
  | next other rest => exact .next (Course.trans still other) rest

theorem trans (first : Chronicle h moments g) (second : Chronicle g later h') :
    Chronicle h (moments ++ later) h' := by
  induction first with
  | still still => exact second.before still
  | next still _ ih => exact .next still (ih second)

theorem one (h : Host) (event : Event) : Chronicle h [⟨h, event⟩] (h.having event) :=
  .next (Course.refl h) (.still (Course.refl _))

theorem journal (chronicle : Chronicle h moments h') :
    h'.journal = h.journal ++ moments.map Moment.event := by
  induction chronicle with
  | still still => rw [still.journal, List.map_nil, List.append_nil]
  | @next h g h' event moments still _ ih =>
    rw [ih, List.map_cons]
    show (g.journal ++ [event]) ++ _ = _
    rw [still.journal, List.append_assoc, List.singleton_append]

theorem attended (chronicle : Chronicle h moments h') (attended : h.Attended s path)
    (calm : ∀ moment ∈ moments, moment.event.shifts = false) :
    (∀ moment ∈ moments, moment.host.Attended s path) ∧ h'.Attended s path := by
  induction chronicle with
  | still still => exact ⟨by simp, still.attended attended⟩
  | @next h g h' event moments still _ ih =>
    have now := still.attended attended
    obtain ⟨others, ends⟩ := ih (now.having (calm _ List.mem_cons_self))
      fun moment member => calm moment (List.mem_cons_of_mem _ member)
    exact ⟨List.forall_mem_cons.2 ⟨now, others⟩, ends⟩

theorem available_having (gone : (h.backends.get b).available = false) (event : Event) :
    ((h.having event).backends.get b).available = false := by
  cases event with
  | retired other =>
    show ((h.backends.modify other Backend.destroyed).get b).available = false
    rw [Store.get_modify]
    split
    · unfold Backend.destroyed
      split <;> rfl
    · exact gone
  | _ => exact gone

theorem allocated_having (known : h.backends.Allocated b) (event : Event) :
    (h.having event).backends.Allocated b := by
  cases event <;> exact known

theorem gone_stays (chronicle : Chronicle h moments h') (known : h.backends.Allocated b)
    (gone : (h.backends.get b).available = false) : (h'.backends.get b).available = false := by
  induction chronicle with
  | still still => rwa [still.backends.get b known]
  | next still _ ih =>
    refine ih (allocated_having (still.backends.allocated known) _) (available_having ?_ _)
    rwa [still.backends.get b known]

theorem gone_of_retired (chronicle : Chronicle h moments h') (known : h.backends.Allocated b)
    {moment : Moment} (member : moment ∈ moments) (retired : moment.event = .retired b) :
    (h'.backends.get b).available = false := by
  induction chronicle with
  | still => cases member
  | @next h g h' event moments still rest ih =>
    -- it is gone at this moment and stays so, or it is destroyed at a later one
    have there := allocated_having (still.backends.allocated known) event
    rcases List.mem_cons.1 member with rfl | member
    · refine rest.gone_stays there ?_
      have same : event = .retired b := retired
      subst same
      show ((g.backends.modify b Backend.destroyed).get b).available = false
      rw [Store.get_modify_self]
      unfold Backend.destroyed
      split <;> rfl
    · exact ih there member

end Chronicle

namespace Host

/-- Nothing shifts, and what happens belongs to the stage or to none. -/
def Calling (stage : Nat) (h h' : Host) : Prop :=
  ∃ moments, Chronicle h moments h' ∧ ∀ moment ∈ moments,
    moment.event.shifts = false ∧ ∀ i ∈ moment.event.stage?, i = stage

instance (stage : Nat) : Course (Calling stage) where
  refl h := ⟨[], .still (Course.refl h), by simp⟩
  trans := by
    rintro h g h' ⟨moments, first, calm⟩ ⟨later, second, calm'⟩
    exact ⟨moments ++ later, first.trans second, fun moment member =>
      (List.mem_append.1 member).elim (calm moment) (calm' moment)⟩

def Rerouting (h h' : Host) : Prop :=
  ∃ moments, Chronicle h moments h' ∧ ∀ moment ∈ moments, moment.event.stage? = none

instance : Course Rerouting where
  refl h := ⟨[], .still (Course.refl h), by simp⟩
  trans := by
    rintro h g h' ⟨moments, first, none⟩ ⟨later, second, none'⟩
    exact ⟨moments ++ later, first.trans second, fun moment member =>
      (List.mem_append.1 member).elim (none moment) (none' moment)⟩

theorem Still.calling {stage : Nat} (still : h.Still h') : h.Calling stage h' :=
  ⟨[], .still still, by simp⟩

theorem Still.rerouting (still : h.Still h') : h.Rerouting h' := ⟨[], .still still, by simp⟩

end Host

section Steps

variable {stage : Nat}

theorem still_of_eq (journal : h'.journal = h.journal) (tables : h'.tables = h.tables)
    (located : ∀ s, h'.tableOf s = h.tableOf s) (providers : h'.providers = h.providers)
    (backends : h'.backends = h.backends) : h.Still h' :=
  ⟨journal, tables, located, by rw [providers]; exact .refl _, by rw [backends]; exact .refl _⟩

theorem writeLog_still (level : Level) (pieces : List String) :
    (writeLog level pieces).Within Still :=
  fun h => by
    have noted := writeLog_within level pieces h
    exact still_of_eq (journal_writeLog level pieces h) noted.registering.tables
      noted.registering.tableOf noted.registering.providers noted.registering.backends

theorem writeLog_calling (level : Level) (pieces : List String) :
    (writeLog level pieces).Within (Calling stage) :=
  fun h => (writeLog_still level pieces h).calling

theorem emit_calling (event : Event) (calm : event.shifts = false)
    (own : ∀ i ∈ event.stage?, i = stage) : (emit event).Within (Calling stage) := by
  refine fun h => ⟨[⟨h, event⟩], ?_, by simpa using ⟨calm, own⟩⟩
  have same : (emit event).after h = h.having event := by
    cases event <;> first | rfl | cases calm
  rw [same]
  exact .one h event

theorem modifyRegistry_still (r : RegistryRef) (f : Registry → Registry) :
    (modifyRegistry r f).Within Still :=
  fun _ => still_of_eq rfl rfl (fun _ => rfl) rfl rfl

theorem addRegistry_still (r : Registry) : (addRegistry r).Within Still :=
  fun _ => still_of_eq rfl rfl (fun _ => rfl) rfl rfl

theorem modifyExtensions_still (x : ExtensionsRef) (f : Extensions → Extensions) :
    (modifyExtensions x f).Within Still :=
  fun _ => still_of_eq rfl rfl (fun _ => rfl) rfl rfl

theorem modifyUrl_still (u : UrlRef) (f : Url → Url) : (modifyUrl u f).Within Still :=
  fun _ => still_of_eq rfl rfl (fun _ => rfl) rfl rfl

theorem addExporter_still (e : Exporter) : (addExporter e).Within Still :=
  fun _ => still_of_eq rfl rfl (fun _ => rfl) rfl rfl

theorem modifyServer_still (s : ServerRef) {f : Server → Server}
    (endpoint : ∀ server, (f server).endpoint = server.endpoint) :
    (modifyServer s f).Within Still := by
  refine fun h => ⟨rfl, rfl, fun other => ?_, .refl _, .refl _⟩
  unfold Host.tableOf
  show (h.endpoints.get ((h.servers.modify s f).get other).endpoint).table = _
  rw [Store.get_modify]
  split
  · rename_i same
    rw [same, endpoint]
  · rfl

theorem keepExporter_still (s : ServerRef) (path : String) (e : ExporterRef) :
    (keepExporter s path e).Within Still := modifyServer_still s fun _ => rfl

theorem dropExporter_still (s : ServerRef) (path : String) :
    (dropExporter s path).Within Still := modifyServer_still s fun _ => rfl

theorem modifyRegistry_calling (r : RegistryRef) (f : Registry → Registry) :
    (modifyRegistry r f).Within (Calling stage) :=
  fun h => (modifyRegistry_still r f h).calling

theorem modifyExporter_still (e : ExporterRef) (f : Exporter → Exporter) :
    (modifyExporter e f).Within Still :=
  fun _ => still_of_eq rfl rfl (fun _ => rfl) rfl rfl

theorem modifyExporter_calling (e : ExporterRef) (f : Exporter → Exporter) :
    (modifyExporter e f).Within (Calling stage) :=
  fun h => (modifyExporter_still e f h).calling

theorem identityOf_still (u : Option UrlRef) : (identityOf u).Within Still := by
  cases u <;> exact fun h => Course.refl h

theorem identityOf_calling (u : Option UrlRef) : (identityOf u).Within (Calling stage) :=
  fun h => (identityOf_still u h).calling

theorem findRegistry_calling (x : ExtensionsRef) (u : UrlRef) :
    (findRegistry x u).Within (Calling 1) := by
  refine within_bind (within_lift fun h => Course.refl h) fun url => ?_
  refine within_bind (within_lift (emit_calling _ rfl (by simp [Event.stage?]))) fun _ => ?_
  refine within_bind within_get fun now => ?_
  dsimp only
  split
  · exact within_pure _
  · split
    · exact within_bind (within_lift (writeLog_calling _ _)) fun _ => within_pure _
    · exact within_throw _
    · refine within_bind (within_lift (emit_calling _ rfl (by simp [Event.stage?]))) fun _ => ?_
      split
      · exact within_throw _
      · exact within_pure _
      · refine within_bind (within_lift fun h => (addRegistry_still _ h).calling) fun r => ?_
        exact within_bind (within_lift fun h => (modifyExtensions_still x _ h).calling)
          fun _ => within_pure _

theorem Errand.run_calling {errandFor : String → Errand}
    (calm : ∀ identity host done, ((errandFor identity).event host done).shifts = false)
    (own : ∀ identity host done, ∀ i ∈ ((errandFor identity).event host done).stage?, i = stage)
    (r : RegistryRef) (u : UrlRef) : (run errandFor r u).Within (Calling stage) := by
  refine within_bind (within_lift fun h => Course.refl h) fun url => ?_
  refine within_bind within_get fun now => ?_
  split
  · refine within_bind (within_lift (modifyRegistry_calling r _)) fun _ => ?_
    refine within_bind (within_lift (emit_calling _ (calm _ _ _) (own _ _ _))) fun _ => ?_
    exact within_lift (writeLog_calling _ _)
  · refine within_bind (within_lift fun h => Course.refl h) fun host => ?_
    refine within_bind (within_lift (modifyRegistry_calling r _)) fun _ => ?_
    refine within_bind (within_lift (emit_calling _ (calm _ _ _) (own _ _ _))) fun _ => ?_
    split
    · exact within_throw _
    · exact within_pure _

theorem registerService_calling (r : RegistryRef) (u : UrlRef) :
    (registerService r u).Within (Calling 1) :=
  Errand.run_calling (fun _ _ _ => rfl) (by simp [Errand.register, Event.stage?]) r u

theorem unregisterService_calling (r : RegistryRef) (u : UrlRef) :
    (unregisterService r u).Within (Calling 0) :=
  Errand.run_calling (fun _ _ _ => rfl) (by simp [Errand.unregister, Event.stage?]) r u

theorem registerAt_calling (x : ExtensionsRef) (c : ConfigurationRef) (u : UrlRef) (name : String) :
    (registerAt x c u name).Within (Calling 1) := by
  refine within_bind within_get fun now => ?_
  split
  · exact within_bind (within_lift (writeLog_calling _ _)) fun _ => within_pure _
  · refine within_bind (findRegistry_calling x _) fun found => ?_
    split
    · exact within_bind (within_lift (writeLog_calling _ _)) fun _ => within_pure _
    · refine within_tryCatch ?_ fun fault => ?_
      · exact within_bind (registerService_calling _ u) fun _ => within_pure _
      · split
        · exact within_throw _
        · exact within_bind (within_lift (writeLog_calling _ _)) fun _ => within_pure _

theorem registerAll_calling (x : ExtensionsRef) (c : ConfigurationRef) (u : UrlRef)
    (names : List String) : (registerAll x c u names).Within (Calling 1) := by
  induction names with
  | nil => exact within_pure _
  | cons name rest ih =>
    refine within_bind (registerAt_calling x c u name) fun accepted => ?_
    exact within_bind ih fun others => within_pure _

theorem unregisterAll_calling (u : UrlRef) (registries : List RegistryRef) :
    (unregisterAll u registries).Within (Calling 0) := by
  induction registries with
  | nil => exact within_pure _
  | cons r rest ih =>
    refine within_bind (within_tryCatch (unregisterService_calling r u) fun fault => ?_)
      fun _ => ih
    split
    · exact within_throw _
    · refine within_bind within_get fun now => ?_
      exact within_lift (writeLog_calling _ _)

theorem announce_calling (e : ExporterRef) (endpoint : Option EndpointRef) (x : ExtensionsRef)
    (c : ConfigurationRef) (u : UrlRef) : (announce e endpoint x c u).Within (Calling 1) := by
  refine within_bind (within_lift (modifyExporter_calling e _)) fun _ => ?_
  refine within_bind (within_lift fun h => Course.refl h) fun url => ?_
  refine within_bind (registerAll_calling x c u _) fun registries => ?_
  refine within_bind (within_lift (modifyExporter_calling e _)) fun _ => ?_
  refine within_bind (within_lift fun h => Course.refl h) fun url => ?_
  exact within_bind (within_lift (writeLog_calling _ _)) fun _ => within_pure _

theorem exportBy_calling (e : ExporterRef) (endpoint : Option EndpointRef) (x : ExtensionsRef)
    (c : ConfigurationRef) : (exportBy e endpoint x c).Within (Calling 1) := by
  refine within_bind within_get fun now => ?_
  dsimp only
  split
  · refine within_bind (within_lift (identityOf_calling _)) fun identity => ?_
    exact within_bind (within_lift (writeLog_calling _ _)) fun _ => within_pure _
  · split
    · exact within_bind (within_lift (writeLog_calling _ _)) fun _ => within_pure _
    · refine within_bind within_get fun now => ?_
      refine within_bind (within_lift fun h => (modifyUrl_still _ _ h).calling) fun _ => ?_
      refine within_bind (within_lift fun h => Course.refl h) fun url => ?_
      split
      · exact announce_calling e endpoint x c _
      · exact within_bind (within_lift (writeLog_calling _ _)) fun _ => within_pure _

theorem exportOn_calling (s : ServerRef) (p : ProviderRef) :
    (exportOn s p).Within (Calling 1) := by
  refine within_bind within_get fun now => ?_
  refine within_bind (within_lift fun h => (addExporter_still _ h).calling) fun e => ?_
  exact within_bind (exportBy_calling e _ _ _) fun status => within_pure _

theorem addProvider_rerouting (t : TableRef) (p : ProviderRef) :
    (addProvider t p).Within Rerouting :=
  fun h => ⟨[⟨h, .routed t (h.pathOf p) p⟩], .one h _, by simp [Event.stage?]⟩

theorem removeProvider_rerouting (t : TableRef) (p : ProviderRef) :
    (removeProvider t p).Within Rerouting := by
  intro h
  unfold removeProvider
  rw [Step.after_bind, Step.value_get, Step.after_get]
  dsimp only
  split
  · exact ⟨[⟨h, .unrouted t (h.pathOf p)⟩], .one h _, by simp [Event.stage?]⟩
  · exact Course.refl h

theorem routeOn_rerouting (s : ServerRef) (p : ProviderRef) : (routeOn s p).Within Rerouting := by
  refine Step.within_bind (fun h => Course.refl h) fun table => ?_
  split
  · exact addProvider_rerouting _ p
  · exact Step.within_pure _

theorem unrouteOn_rerouting (s : ServerRef) (p : ProviderRef) :
    (unrouteOn s p).Within Rerouting := by
  refine Step.within_bind (fun h => Course.refl h) fun table => ?_
  split
  · exact removeProvider_rerouting _ p
  · exact Step.within_pure _

theorem unroute_rerouting (endpoint : Option EndpointRef) (provider : Option ProviderRef) :
    (unroute endpoint provider).Within Rerouting := by
  unfold unroute
  split
  · refine Step.within_bind Step.within_get fun now => ?_
    split
    · exact removeProvider_rerouting _ _
    · exact Step.within_pure _
  · exact Step.within_pure _

end Steps

end RpcHost
