import RpcHost.Proofs.Dealings
/-!
Servers and exporters side by side. Whatever servers that share a factory do, they export and take
back through their exporters. A direct registry lists an identity exactly if an exporter of it
exports there and none was taken back from there since.
-/
namespace RpcHost

open Attempt Host

/-- If the attempt yields, it leaves a state that is related to the one it is begun in. -/
def Attempt.Leads {α : Type} (R : Host → Host → Prop) (m : Attempt α) (h : Host) : Prop :=
  ∀ a h', m.Yields h a h' → R h h'

namespace Attempt

variable {α β : Type} {R : Host → Host → Prop} {h : Host}

theorem leads_congr {m : Attempt α} {h' : Host} {k : Attempt α} (same : m.ending h = k.ending h')
    (first : R h h') [Course R] (rest : k.Leads R h') : m.Leads R h :=
  fun a _ ends => Course.trans first (rest a _ (same.symm.trans ends))

theorem leads_pure [Course R] (a : α) : Leads R (pure a : Attempt α) h := by
  intro b h' ends
  obtain ⟨-, rfl⟩ := yields_pure.1 ends
  exact Course.refl h

theorem leads_bind [Course R] {m : Attempt α} {k : α → Attempt β} (first : m.Leads R h)
    (rest : ∀ a mid, (k a).Leads R mid) : Leads R (m >>= k) h := by
  intro b h' ends
  obtain ⟨a, mid, ends₁, ends₂⟩ := yields_bind.1 ends
  exact Course.trans (first a mid ends₁) (rest a mid b h' ends₂)

theorem leads_get_bind {k : Host → Attempt β} (rest : (k h).Leads R h) :
    Leads R (get >>= k) h :=
  fun b h' ends => rest b h' ((ending_get_bind k h).symm.trans ends)

theorem leads_lift {m : Step α} (first : R h (m.after h)) : Leads R (liftM m) h := by
  intro a h' ends
  obtain ⟨-, rfl⟩ := yields_lift.1 ends
  exact first

theorem leads_lift_bind [Course R] {m : Step α} {k : α → Attempt β} (first : R h (m.after h))
    (rest : (k (m.value h)).Leads R (m.after h)) : Leads R (liftM m >>= k) h :=
  leads_congr (ending_lift_bind m k h) first rest

end Attempt

/-- The server uses the factory, and its state is one that dealings of the factory lead to. -/
structure Sharing (x : ExtensionsRef) (own : RegistryRef → Prop) (start : Host) (s : ServerRef)
    (deals : List Deal) (h : Host) : Prop where
  factory : (h.servers.get s).extensions = x
  dealings : Dealings x own start deals h

def Onward (x : ExtensionsRef) (own : RegistryRef → Prop) (start : Host) (s : ServerRef)
    (h h' : Host) : Prop :=
  ∀ deals, Sharing x own start s deals h → ∃ more, Sharing x own start s (deals ++ more) h'

instance (x : ExtensionsRef) (own : RegistryRef → Prop) (start : Host) (s : ServerRef) :
    Course (Onward x own start s) where
  refl _ deals sharing := ⟨[], (List.append_nil deals).symm ▸ sharing⟩
  trans first second deals sharing := by
    obtain ⟨more, sharing⟩ := first deals sharing
    obtain ⟨others, sharing⟩ := second _ sharing
    exact ⟨more ++ others, List.append_assoc deals more others ▸ sharing⟩

variable {h h' start : Host} {x : ExtensionsRef} {own : RegistryRef → Prop} {s : ServerRef}
  {e : ExporterRef} {p : ProviderRef} {u : UrlRef} {status : Status} {deals : List Deal}

theorem onward_aside (factory : (h'.servers.get s).extensions = (h.servers.get s).extensions)
    (aside : h.Aside x own h') : Onward x own start s h h' :=
  fun deals sharing => ⟨[], factory.trans sharing.factory, by
    rw [List.append_nil]
    exact sharing.dealings.idled aside⟩

theorem onward_noted {tables : Store .table Routes} {backends : Store .backend Backend}
    {endpoints : Store .endpoint Endpoint} {servers : Store .server Server}
    (factory : (servers.get s).extensions = (h.servers.get s).extensions)
    (noted : Host.Noted { h with tables, backends, endpoints, servers } h') :
    Onward x own start s h h' := by
  refine onward_aside ?_ (.of_eq noted.registering.exporters (fun u => ?_) noted.registries
    noted.extensions ?_)
  · rw [noted.registering.servers]
    exact factory
  · rw [noted.registering.urls]
  · rw [noted.registering.filters]
    exact .refl _

theorem onward_quiet (noted : h.Noted h') : Onward x own start s h h' :=
  onward_noted rfl noted

theorem writeLog_onward (level : Level) (pieces : List String) :
    (writeLog level pieces).Within (Onward x own start s) :=
  fun h => onward_quiet (writeLog_within level pieces h)

theorem modifyServer_onward {f : Server → Server}
    (factory : ∀ server : Server, (f server).extensions = server.extensions) :
    (modifyServer s f).Within (Onward x own start s) := by
  intro h
  have same : ((h.servers.modify s f).get s).extensions = (h.servers.get s).extensions := by
    rw [Store.get_modify_self]
    exact factory _
  exact onward_noted same (Course.refl _)

theorem keepExporter_onward (path : String) (e : ExporterRef) :
    (keepExporter s path e).Within (Onward x own start s) :=
  modifyServer_onward (f := fun server => { server with
    exporters := server.exporters.insert path e }) fun _ => rfl

theorem dropExporter_onward (path : String) :
    (dropExporter s path).Within (Onward x own start s) :=
  modifyServer_onward (f := fun server => { server with
    exporters := server.exporters.erase path }) fun _ => rfl

theorem routeOn_onward (p : ProviderRef) : (routeOn s p).Within (Onward x own start s) := by
  intro h
  unfold routeOn serverTable
  simp only [Step.after_bind, Step.value_bind, Step.value_get, Step.after_get, Step.value_pure,
    Step.after_pure]
  cases (h.endpoints.get (h.servers.get s).endpoint).table with
  | none => exact Course.refl h
  | some t => exact onward_noted rfl (addProvider_within t p h)

theorem unrouteOn_onward (p : ProviderRef) : (unrouteOn s p).Within (Onward x own start s) := by
  intro h
  unfold unrouteOn serverTable
  simp only [Step.after_bind, Step.value_bind, Step.value_get, Step.after_get, Step.value_pure,
    Step.after_pure]
  cases (h.endpoints.get (h.servers.get s).endpoint).table with
  | none => exact Course.refl h
  | some t => exact onward_noted rfl (removeProvider_within t p h)

theorem destroyProvider_onward (p : ProviderRef) :
    (destroyProvider p).Within (Onward x own start s) :=
  fun h => onward_noted rfl (destroyProvider_within p h)

theorem destroyProviderOf_onward (e : ExporterRef) :
    (destroyProviderOf e).Within (Onward x own start s) := by
  intro h
  unfold destroyProviderOf
  rw [Step.after_bind, Step.value_get, Step.after_get]
  cases (h.exporters.get e).provider with
  | none => exact Course.refl h
  | some p => exact destroyProvider_onward p h

theorem Host.Reckoned.adding (reckoned : h.Reckoned x own deals) (p : ProviderRef) :
    h.Aside x own { h with exporters := h.exporters.add (unready p) } where
  exporters := Nat.le_succ _
  idle e idle := by
    rw [Store.get_add]
    split
    · rfl
    · exact idle
  posting e posting posts := by
    have differ : e ≠ h.exporters.fresh := by
      rintro rfl
      rw [posting?_idle (reckoned.spare _ h.exporters.not_allocated_fresh)] at posts
      cases posts
    rw [← posts]
    exact posting?_congr (Store.get_add_ne _ differ _) fun _ => rfl
  untouched _ _ := .of_eq rfl
  stocked stocked := stocked
  filters := .refl _

section Fresh

variable (fresh : start.Reckoned x own [])

include fresh

theorem unexport_onward (e : ExporterRef) : (unexport e).Leads (Onward x own start s) h := by
  intro status h' ends deals sharing
  have reckoned := sharing.dealings.reckoned fresh
  refine ⟨_, ?_, sharing.dealings.unexported ends⟩
  rcases unexport_dealt reckoned.stocked (reckoned.posted e) ends with
    ⟨_, rfl⟩ | ⟨_, _, _, dealt⟩
  · exact sharing.factory
  · rw [dealt.servers]
    exact sharing.factory

theorem exportOn_onward (p : ProviderRef) : (exportOn s p).Leads (Onward x own start s) h := by
  rintro ⟨e, status⟩ h' ends deals sharing
  have reckoned := sharing.dealings.reckoned fresh
  have added := reckoned.adding p
  unfold exportOn Yields at ends
  simp only [ending_get_bind, ending_lift_bind, value_addExporter, after_addExporter] at ends
  obtain ⟨_, mid, exported, rest⟩ := yields_bind.1 ends
  obtain ⟨-, rfl⟩ := yields_pure.1 rest
  rw [sharing.factory] at exported
  refine ⟨_, ?_, (sharing.dealings.idled added).exported (h.exporters.allocated_fresh_add _)
    exported⟩
  rcases exportBy_dealt (reckoned.aside added).stocked exported with
    ⟨_, (_ : Host.Aside x own _ _), servers⟩ | ⟨_, _, _, _, dealt⟩
  · rw [servers]
    exact sharing.factory
  · rw [dealt.servers]
    exact sharing.factory

theorem restore_onward (old : ExporterRef) : (restore s old).Leads (Onward x own start s) h := by
  refine leads_get_bind ?_
  cases (h.exporters.get old).provider with
  | none => exact leads_pure ()
  | some p =>
    refine leads_lift_bind (routeOn_onward p h) (leads_bind (exportOn_onward fresh p) ?_)
    rintro ⟨e, status⟩ mid
    refine leads_get_bind ?_
    dsimp only
    split
    · exact leads_lift_bind (writeLog_onward _ _ _) (leads_lift (keepExporter_onward _ _ _))
    · refine leads_lift_bind (writeLog_onward _ _ _) (leads_lift_bind (unrouteOn_onward _ _) ?_)
      exact leads_lift_bind (destroyProvider_onward _ _) (leads_lift (dropExporter_onward _ _))

theorem deployProvider_onward (u : UrlRef) (p : ProviderRef) :
    (deployProvider s u p).Leads (Onward x own start s) h := by
  refine leads_lift_bind (routeOn_onward p h) (leads_lift_bind (Course.refl _) ?_)
  refine leads_get_bind ?_
  dsimp only
  generalize Keyed.find? _ _ = old
  cases old with
  | none =>
    refine leads_bind (exportOn_onward fresh p) ?_
    rintro ⟨e, status⟩ mid
    refine leads_lift_bind (Course.refl _) ?_
    dsimp only
    split
    · exact leads_lift_bind (keepExporter_onward _ _ _) (leads_pure _)
    · refine leads_lift_bind (writeLog_onward _ _ _) ?_
      exact leads_lift_bind (unrouteOn_onward _ _) (leads_pure _)
  | some old =>
    refine leads_bind (unexport_onward fresh old) fun _ _ => ?_
    refine leads_bind (exportOn_onward fresh p) ?_
    rintro ⟨e, status⟩ mid
    refine leads_lift_bind (Course.refl _) ?_
    dsimp only
    split
    · refine leads_lift_bind (destroyProviderOf_onward _ _) ?_
      exact leads_lift_bind (keepExporter_onward _ _ _) (leads_pure _)
    · refine leads_lift_bind (writeLog_onward _ _ _) (leads_lift_bind (unrouteOn_onward _ _) ?_)
      exact leads_bind (restore_onward fresh old) fun _ _ => leads_pure _

theorem exportService_onward (u : UrlRef) (service : Option Service) :
    (exportService s u service).Leads (Onward x own start s) h := by
  intro status h' ends deals sharing
  have terminated := (sharing.dealings.reckoned fresh).terminated
  rcases exportService_cases s u service terminated with
    ⟨_, h₁, noted, _, unmade⟩ | ⟨p, mid, prepared, _, deploys⟩
  · obtain ⟨-, rfl⟩ := ends.unique unmade
    exact onward_quiet noted deals sharing
  · have grown := prepared.grown
    have aside : h.Aside x own mid := .of_eq grown.exporters (fun u => by rw [grown.urls])
      grown.registries grown.extensions grown.filters
    have before : Onward x own start s h mid := onward_aside (by rw [grown.servers]) aside
    exact leads_congr deploys before (deployProvider_onward fresh u p) status h' ends deals sharing

theorem exportEntries_onward (impls : Keyed (Option Service)) (entries : List (String × UrlRef))
    (status : Status) :
    (exportEntries s impls entries status).Leads (Onward x own start s) h := by
  induction entries generalizing h status with
  | nil => exact leads_pure status
  | cons entry rest ih =>
    obtain ⟨name, u⟩ := entry
    unfold exportEntries
    split
    · exact leads_lift_bind (writeLog_onward _ _ _) (ih status)
    · exact leads_bind (exportService_onward fresh u _) fun outcome mid => ih _

theorem exportAll_onward (order : Traversal UrlRef) (impls : Keyed (Option Service)) :
    (exportAll order s impls).Leads (Onward x own start s) h :=
  leads_get_bind (exportEntries_onward fresh impls _ _)

theorem retire_onward (e : ExporterRef) : (retire e).Leads (Onward x own start s) h :=
  leads_bind (unexport_onward fresh e) fun _ _ =>
    leads_lift_bind (destroyProviderOf_onward e _) (leads_pure _)

theorem unexportService_onward (path : String) :
    (unexportService s path).Leads (Onward x own start s) h := by
  refine leads_get_bind ?_
  split
  · exact leads_lift_bind (writeLog_onward _ _ _) (leads_pure _)
  · exact leads_lift_bind (dropExporter_onward _ _) (retire_onward fresh _)

theorem retireAll_onward (entries : List (String × ExporterRef)) :
    (retireAll entries).Leads (Onward x own start s) h := by
  induction entries generalizing h with
  | nil => exact leads_pure ()
  | cons entry rest ih => exact leads_bind (retire_onward fresh entry.2) fun _ _ => ih

theorem destroyServer_onward (order : Traversal ExporterRef) :
    (destroyServer order s).Leads (Onward x own start s) h := by
  refine leads_get_bind (leads_lift_bind ?_ (leads_bind (retireAll_onward fresh _) ?_))
  · exact modifyServer_onward (f := fun server => { server with exporters := .empty })
      (fun _ => rfl) h
  · exact fun _ mid => leads_lift (onward_noted rfl (Course.refl _))

end Fresh

theorem Host.Reckoned.opening (terminated : start.Terminated) (stocked : start.Stocked x)
    (idle : ∀ e, (start.exporters.get e).exported = false)
    (bare : ∀ r, own r → ∀ identity, start.listsAt r identity = false) :
    start.Reckoned x own [] where
  terminated := terminated
  stocked := stocked
  spare e _ := idle e
  posted e exported := by
    rw [idle] at exported
    cases exported
  lists r mine _ identity := bare r mine identity
  stands _ _ stands := by cases stands

/-- Exporters of one factory, in servers or not, export and are taken back in any order. A direct
registry that only they use lists an identity exactly if one of them exports an address of it,
keeps the registry, and since its export no other was taken back from the registry under the
identity: the registry keeps identities, and not who registered them. -/
theorem Dealings.coexist (dealings : Dealings x own start deals h)
    (terminated : start.Terminated) (stocked : start.Stocked x)
    (idle : ∀ e, (start.exporters.get e).exported = false)
    (bare : ∀ r, own r → ∀ identity, start.listsAt r identity = false) :
    (∀ r, own r → h.registries.Allocated r → (h.registries.get r).Direct → ∀ identity,
      (h.registries.get r).lists identity = true ↔ ∃ e u before after,
        (h.exporters.get e).exported = true ∧ (h.exporters.get e).url = some u ∧
        (h.urls.get u).identity = identity ∧ r ∈ (h.exporters.get e).registries ∧
        deals = before ++ .opened e ⟨identity, (h.exporters.get e).registries⟩ :: after ∧
        ∀ other taken, .closed other taken ∈ after → ¬taken.At r identity) ∧
      ∀ s, (h.servers.get s).extensions = x → ∀ h',
        (∃ u service status, (exportService s u service).Yields h status h') ∨
        (∃ order impls status, (exportAll order s impls).Yields h status h') ∨
        (∃ path status, (unexportService s path).Yields h status h') ∨
        (∃ order, (destroyServer order s).Yields h () h') →
          ∃ more, Dealings x own start (deals ++ more) h' := by
  have fresh : start.Reckoned x own [] := .opening terminated stocked idle bare
  have reckoned := dealings.reckoned fresh
  refine ⟨fun r mine known direct identity => ?_, fun s factory h' does => ?_⟩
  · rw [← listsAt_of_allocated known, reckoned.lists r mine (fun _ => direct)]
    constructor
    · intro stands
      obtain ⟨e, posting, posts, ⟨rfl, listed⟩, before, after, split, since⟩ :=
        reckoned.stands r identity stands
      obtain ⟨exported, u, url, same, registries⟩ := posting?_eq_some_iff.1 posts
      rw [← registries] at listed
      refine ⟨e, u, before, after, exported, url, same, listed, ?_, since⟩
      rw [registries]
      exact split
    · rintro ⟨e, u, before, after, exported, url, rfl, listed, split, since⟩
      exact Deal.Unopposed.stands ⟨before, after, split, since⟩ ⟨rfl, listed⟩
  · have sharing : Sharing x own start s deals h := ⟨factory, dealings⟩
    have onward : Onward x own start s h h' := by
      rcases does with ⟨u, service, _, ends⟩ | ⟨order, impls, _, ends⟩ | ⟨path, _, ends⟩ |
        ⟨order, ends⟩
      · exact exportService_onward fresh u service _ _ ends
      · exact exportAll_onward fresh order impls _ _ ends
      · exact unexportService_onward fresh path _ _ ends
      · exact destroyServer_onward fresh order _ _ ends
    obtain ⟨more, later⟩ := onward deals sharing
    exact ⟨more, later.dealings⟩

def Host.twins : Host :=
  { furnished .builtIn (.ofList [("main", ⟨0⟩)])
      [⟨"direct", "127.0.0.1", 9000, "", "", .empty⟩, .sample] with
    backends := (Store.empty.add (.standardAt ⟨1⟩)).add (.standardAt ⟨1⟩)
    providers := (Store.empty.add ⟨⟨0⟩, [], none⟩).add ⟨⟨1⟩, [], none⟩
    exporters := (Store.empty.add (unready ⟨0⟩)).add (unready ⟨1⟩) }

def Host.twinned : Host :=
  (exportBy ⟨1⟩ none ⟨0⟩ ⟨0⟩).after ((exportBy ⟨0⟩ none ⟨0⟩ ⟨0⟩).after twins)

def Posting.sample : Posting := ⟨Url.sample.identity, [⟨0⟩]⟩

theorem Host.dealings_twinned :
    Dealings ⟨0⟩ (fun _ => True) twins [.opened ⟨0⟩ .sample, .opened ⟨1⟩ .sample] twinned := by
  have first : (exportBy ⟨0⟩ none ⟨0⟩ ⟨0⟩).Yields twins .ok _ :=
    yields_of_toOption (by decide +kernel)
  have second : (exportBy ⟨1⟩ none ⟨0⟩ ⟨0⟩).Yields
      ((exportBy ⟨0⟩ none ⟨0⟩ ⟨0⟩).after twins) .ok twinned :=
    yields_of_toOption (by decide +kernel)
  have known : twins.exporters.Allocated ⟨0⟩ := Nat.zero_lt_two
  have known' : ((exportBy ⟨0⟩ none ⟨0⟩ ⟨0⟩).after twins).exporters.Allocated ⟨1⟩ := by
    show 1 < ((exportBy ⟨0⟩ none ⟨0⟩ ⟨0⟩).after twins).exporters.next
    decide +kernel
  have opened : ((exportBy ⟨0⟩ none ⟨0⟩ ⟨0⟩).after twins).posting? ⟨0⟩ = some .sample := by
    decide +kernel
  have opened' : twinned.posting? ⟨1⟩ = some .sample := by decide +kernel
  have before : Dealings ⟨0⟩ (fun _ => True) twins _ _ := .exported .start known first
  rw [if_pos rfl, opened] at before
  have after := before.exported known' second
  rwa [if_pos rfl, opened'] at after

theorem Dealings.coexist_twinned :
    Dealings ⟨0⟩ (fun _ => True) Host.twins [.opened ⟨0⟩ .sample, .opened ⟨1⟩ .sample]
      Host.twinned ∧ (Host.twinned.registries.get ⟨0⟩).lists Url.sample.identity = true := by
  have idle : ∀ e, (Host.twins.exporters.get e).exported = false := by
    intro e
    show (((Store.empty.add (unready ⟨0⟩)).add (unready ⟨1⟩)).get e).exported = false
    rw [Store.get_add, Store.get_add]
    split
    · rfl
    · split <;> rfl
  obtain ⟨lists, _⟩ := Dealings.coexist Host.dealings_twinned ⟨Nat.zero_lt_one, rfl⟩
    (fun _ _ found => nomatch found) idle
    fun r _ => listsAt_of_not_allocated (Nat.not_lt_zero r.index)
  have known : 0 < Host.twinned.registries.next := by decide +kernel
  refine ⟨Host.dealings_twinned, (lists ⟨0⟩ trivial known (by decide +kernel) _).2 ?_⟩
  refine ⟨⟨1⟩, ⟨1⟩, [.opened ⟨0⟩ .sample], [], ?_, ?_, ?_, ?_, ?_, fun _ _ member => nomatch member⟩
  all_goals decide +kernel

/-- An exporter that is taken back ends the registration of another with the same identity. -/
theorem unexport_uproots_twin : ∃ h,
    Dealings ⟨0⟩ (fun _ => True) Host.twins
      [.opened ⟨0⟩ .sample, .opened ⟨1⟩ .sample, .closed ⟨0⟩ .sample] h ∧
      (h.exporters.get ⟨1⟩).exported = true ∧ (h.exporters.get ⟨1⟩).url = some ⟨1⟩ ∧
      ⟨0⟩ ∈ (h.exporters.get ⟨1⟩).registries ∧ (h.registries.get ⟨0⟩).Direct ∧
      (h.registries.get ⟨0⟩).lists (h.urls.get ⟨1⟩).identity = false := by
  have ends : (unexport ⟨0⟩).Yields Host.twinned .ok ((unexport ⟨0⟩).after Host.twinned) :=
    yields_of_toOption (by decide +kernel)
  have closing : Host.twinned.posting? ⟨0⟩ = some .sample := by decide +kernel
  have dealings := Host.dealings_twinned.unexported ends
  rw [closing] at dealings
  refine ⟨_, dealings, ?_⟩
  decide +kernel

end RpcHost
