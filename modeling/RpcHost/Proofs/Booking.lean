import RpcHost.Proofs.Journal
/-!
Where the services of a server are registered. What an operation finds registered for its path it
withdraws, and what is registered for the path after it was taken then.
-/
namespace RpcHost

open Attempt Host

theorem Entries.perm_erase {α : Type} {key : String} {a : α} {entries : List (String × α)}
    (sorted : Entries.Sorted entries) (found : Entries.find? key entries = some a) :
    entries.Perm ((key, a) :: Entries.erase key entries) := by
  induction entries with
  | nil => cases found
  | cons entry rest ih =>
    obtain ⟨k, b⟩ := entry
    obtain ⟨later, sorted⟩ := List.pairwise_cons.1 sorted
    by_cases same : k = key
    · subst same
      have others : Entries.erase k rest = rest := List.filter_eq_self.2 fun entry member => by
        have differ : entry.1 ≠ k := fun same => String.lt_irrefl k (same ▸ later entry member)
        simpa using differ
      have value : b = a := by simpa [Entries.find?] using found
      have dropped : Entries.erase k ((k, b) :: rest) = rest := by
        rw [← others]
        simp [Entries.erase]
      rw [dropped, value]
    · have kept : Entries.erase key ((k, b) :: rest) = (k, b) :: Entries.erase key rest := by
        simp [Entries.erase, same]
      rw [kept]
      exact ((ih sorted (by simpa [Entries.find?, same] using found)).cons (k, b)).trans
        (.swap (key, a) (k, b) _)

theorem Keyed.erase_of_absent {α : Type} {m : Keyed α} {key : String}
    (absent : m.find? key = none) : m.erase key = m := by
  refine ext_find? fun other => ?_
  rw [find?_erase]
  split
  · rename_i same
    rw [same, absent]
  · rfl

namespace Host

def announcedAs (h : Host) (p : ProviderRef) : String := (h.urls.get (h.addressOf p)).identity

/-- Where the address of an exporter is registered. -/
def standingOf (h : Host) (e : ExporterRef) : Standing := fun identity =>
  match (h.exporters.get e).url with
  | some u => Standing.one (h.urls.get u).identity (h.exporters.get e).registries identity
  | none => []

def standingAt (h : Host) (s : ServerRef) (path : String) : Standing := fun identity =>
  match h.exporterAt s path with
  | some e => h.standingOf e identity
  | none => []

def standingOfAll (h : Host) (entries : List (String × ExporterRef)) : Standing := fun identity =>
  entries.flatMap fun entry => h.standingOf entry.2 identity

/-- Where the services of a server are registered. -/
def registrations (h : Host) (s : ServerRef) : Standing :=
  h.standingOfAll (h.servers.get s).exporters.entries

def registrationsBut (h : Host) (s : ServerRef) (path : String) : Standing :=
  h.standingOfAll ((h.servers.get s).exporters.erase path).entries

end Host

variable {h h' start mid : Host} {s : ServerRef} {t : TableRef} {x : ExtensionsRef} {u : UrlRef}
  {p old : ProviderRef} {e : ExporterRef} {registries : List RegistryRef} {path : String}
  {left : RegistryRef → String → List Bool}

namespace Host

theorem standingAt_unserved (unserved : h.exporterAt s path = none) (identity : String) :
    h.standingAt s path identity = [] := by
  unfold standingAt
  rw [unserved]

theorem standingAt_of_kept (kept : h.exporterAt s path = some e) :
    h.standingAt s path = h.standingOf e := by
  funext identity
  unfold standingAt
  rw [kept]

theorem standingOf_of_url (url : (h.exporters.get e).url = some u) :
    h.standingOf e = Standing.one (h.urls.get u).identity (h.exporters.get e).registries := by
  funext identity
  unfold standingOf
  rw [url]

theorem Holds.standingOf (holds : h.Holds s path e p registries) :
    h.standingOf e = Standing.one (h.announcedAs p) registries := by
  have url : (h.exporters.get e).url = some (h.addressOf p) := by
    rw [holds.exporter]
    rfl
  rw [standingOf_of_url url, holds.exporter]
  rfl

theorem Serves.standingAt (serves : h.Serves s path e p registries) :
    h.standingAt s path = Standing.one (h.announcedAs p) registries := by
  rw [standingAt_of_kept serves.kept, serves.toHolds.standingOf]

theorem standingOfAll_perm {entries others : List (String × ExporterRef)}
    (perm : entries.Perm others) (identity : String) :
    (h.standingOfAll entries identity).Perm (h.standingOfAll others identity) :=
  perm.flatMap_right _

theorem registrations_perm (h : Host) (s : ServerRef) (path identity : String) :
    (h.registrations s identity).Perm
      (h.standingAt s path identity ++ h.registrationsBut s path identity) := by
  unfold registrations registrationsBut standingOfAll
  cases found : h.exporterAt s path with
  | none =>
    have absent : (h.servers.get s).exporters.find? path = none := found
    rw [standingAt_unserved found, Keyed.erase_of_absent absent]
    exact .refl _
  | some e =>
    have perm := Entries.perm_erase (h.servers.get s).exporters.sorted found
    rw [standingAt_of_kept found]
    exact standingOfAll_perm perm identity

theorem standingOf_congr {e : ExporterRef}
    (url : (h'.exporters.get e).url = (h.exporters.get e).url)
    (registries : (h'.exporters.get e).registries = (h.exporters.get e).registries)
    (identities : ∀ u, (h.exporters.get e).url = some u →
      (h'.urls.get u).identity = (h.urls.get u).identity) : h'.standingOf e = h.standingOf e := by
  funext identity
  unfold standingOf
  rw [url, registries]
  cases found : (h.exporters.get e).url with
  | none => rfl
  | some u => simp only [identities u found]

end Host

theorem standingAt_kept {h₁ h₂ : Host} {backends : Store .backend Backend}
    {servers : Store .server Server} (registering : (h₁.offering s p).Registering h₂)
    (leaves : Host.Noted { h₂ with
      exporters := h₁.exporting s p registries, backends, servers } h')
    (kept : (servers.get s).exporters.find? path = some h₁.exporters.fresh) :
    h'.standingAt s path = Standing.one (h₁.announcedAs p) registries := by
  have exporter : h'.exporters.get h₁.exporters.fresh = h₁.exporterOf s p registries := by
    rw [leaves.registering.exporters]
    exact h₁.exporters.get_add_fresh _
  have identity : (h'.urls.get (h₁.addressOf p)).identity = h₁.announcedAs p := by
    rw [leaves.registering.urls]
    show (h₂.urls.get _).identity = _
    rw [registering.urls]
    exact (Url.like_modify h₁.urls (h₁.addressOf p) (h₁.addressOf p)).identity
  have here : h'.exporterAt s path = some h₁.exporters.fresh := by
    unfold Host.exporterAt
    rw [leaves.registering.servers]
    exact kept
  have url : (h'.exporters.get h₁.exporters.fresh).url = some (h₁.addressOf p) := by
    rw [exporter]
    rfl
  rw [standingAt_of_kept here, standingOf_of_url url, identity, exporter]
  rfl

def Standing.turned (before after : Standing) (r : RegistryRef) (identity : String) : List Bool :=
  before.stamps false r identity ++ after.stamps true r identity

namespace Host.Recorded

theorem offered {h₁ h₂ : Host} (before : Recorded x left start h₁)
    (offered : (offer h₁ s p).Yields (h₁.offering s p) registries h₂)
    (factory : (h₁.servers.get s).extensions = x) :
    Recorded x (fun r identity =>
      left r identity ++ (Standing.one (h₁.announcedAs p) registries).stamps true r identity)
      start h₂ := by
  subst factory
  have ready := before.frame (h₁.offering s p) rfl rfl rfl
  refine ready.trans (registerAll_recorded ready.stocked ?_ offered)
  exact (Url.like_modify h₁.urls (h₁.addressOf p) (h₁.addressOf p)).identity

theorem kept {h₁ h₂ : Host} (before : Recorded (h.servers.get s).extensions left start h)
    (routed : (h.routing t p).Noted h₁)
    (offered : (offer h₁ s p).Yields (h₁.offering s p) registries h₂)
    (kept : Host.Noted { h₂ with
      exporters := h₁.exporting s p registries
      servers := h.keeping s (h.pathOf p) h.exporters.fresh } h') :
    Recorded (h.servers.get s).extensions (fun r identity =>
      left r identity ++ (h'.standingAt s (h.pathOf p)).stamps true r identity) start h' := by
  have same : (h₁.servers.get s).extensions = (h.servers.get s).extensions := by
    rw [routed.registering.servers]
    rfl
  have standing : h'.standingAt s (h.pathOf p) = Standing.one (h₁.announcedAs p) registries := by
    refine standingAt_kept (offer_registering offered.after_eq) kept ?_
    rw [fresh_routed routed]
    exact h.find?_keeping s _ _
  rw [standing]
  exact ((before.noted routed rfl rfl rfl).offered offered same).noted kept rfl rfl rfl

end Host.Recorded

theorem Opening.recorded {status : Status} (opening : Opening h s t p (.ok status, h'))
    (unserved : h.exporterAt s (h.pathOf p) = none)
    (before : Recorded (h.servers.get s).extensions left start h) :
    Recorded (h.servers.get s).extensions (fun r identity =>
      left r identity ++ (h'.standingAt s (h.pathOf p)).stamps true r identity) start h' := by
  cases opening with
  | accepted routed _ offered kept => exact before.kept routed offered kept
  | @refused h₁ _ routed lacks unrouted =>
    have none : h'.exporterAt s (h.pathOf p) = none := by
      rw [unrouted.registering.exporterAt, ← unserved]
      exact routed.registering.exporterAt s _
    refine ((before.noted routed rfl rfl rfl).noted unrouted rfl rfl rfl).congr
      fun r identity => ?_
    rw [Standing.stamps_nil _ (standingAt_unserved none identity), List.append_nil]

theorem Restoration.recorded (restoration : Restoration h s t p (.ok (), h'))
    (table : h.tableOf s = some t) (before : Recorded (h.servers.get s).extensions left start h) :
    Recorded (h.servers.get s).extensions (fun r identity =>
      left r identity ++ (h'.standingAt s (h.pathOf p)).stamps true r identity) start h' := by
  cases restoration with
  | restored routed _ offered kept => exact before.kept routed offered kept
  | lost routed lacks dropped =>
    have none := ((Restoration.lost routed lacks dropped).unserved table lacks).1
    refine ((before.noted routed rfl rfl rfl).noted dropped rfl rfl rfl).congr fun r identity => ?_
    rw [Standing.stamps_nil _ (standingAt_unserved none identity), List.append_nil]

theorem Superseding.recorded {h₁ h₂ h₃ : Host}
    (replaced : Superseding h t e old registries p h₁ h₂ h₃)
    (before : Recorded x left start h) :
    Recorded x (fun r identity =>
      left r identity ++ (Standing.one (h.announcedAs old) registries).stamps false r identity)
      start h₃ := by
  have routed := before.noted replaced.routed rfl rfl rfl
  have own : (h₁.urls.get (h.addressOf old)).identity = h.announcedAs old := by
    rw [replaced.routed.registering.urls]
    rfl
  exact (routed.trans (unregisterAll_recorded routed.stocked own replaced.withdrew)).noted
    replaced.unexported rfl rfl rfl

theorem Changeover.recorded {status : Status}
    (changeover : Changeover h s t e old registries p (.ok status, h'))
    (table : h.tableOf s = some t) (same : h.pathOf old = h.pathOf p)
    (before : Recorded (h.servers.get s).extensions left start h) :
    Recorded (h.servers.get s).extensions (fun r identity => left r identity ++
      Standing.turned (Standing.one (h.announcedAs old) registries)
        (h'.standingAt s (h.pathOf p)) r identity) start h' := by
  have factory {h₃ : Host} (servers : h₃.servers = h.servers) :
      (h₃.servers.get s).extensions = (h.servers.get s).extensions := by rw [servers]
  by_cases accepted : status = .ok
  · subst accepted
    obtain ⟨h₁, h₂, h₃, h₄, accepting, replaced, names, offered, kept⟩ :=
      changeover.accepted_cases
    have withdrawn := replaced.recorded before
    have standing : h'.standingAt s (h.pathOf p) =
        Standing.one (h₃.announcedAs p) accepting := by
      refine standingAt_kept (offer_registering offered.after_eq) kept ?_
      rw [replaced.fresh]
      exact h.find?_keeping s _ _
    rw [standing]
    exact ((withdrawn.offered offered (factory replaced.servers)).noted kept rfl rfl rfl).congr
      fun r identity => List.append_assoc _ _ _
  · obtain ⟨-, h₁, h₂, h₃, h₄, replaced, lacks, unrouted, restoration⟩ :=
      changeover.refused_cases accepted
    have cleared := (replaced.recorded before).noted unrouted rfl rfl rfl
    have table₄ := (replaced.tableOf_unrouted unrouted s).trans table
    have path := (replaced.pathOf_unrouted unrouted old).trans same
    have servers := replaced.servers_unrouted unrouted
    rw [← factory servers] at cleared ⊢
    rw [← path]
    exact (restoration.recorded table₄ cleared).congr fun r identity => List.append_assoc _ _ _

theorem Retiring.recorded {h₁ : Host} (retiring : Retiring h t path e p registries h₁ h')
    (holds : h.Holds s path e p registries) (before : Recorded x left start h) :
    Recorded x (fun r identity => left r identity ++ (h.standingOf e).stamps false r identity)
      start h' := by
  rw [holds.standingOf]
  exact (before.trans (unregisterAll_recorded before.stocked rfl retiring.withdrew)).noted
    retiring.removed rfl rfl rfl

theorem Retiring.standingOf {h₁ : Host} (retiring : Retiring h t path e p registries h₁ h')
    (other : ExporterRef) : h'.standingOf other = h.standingOf other := by
  have urls : h'.urls = h.urls :=
    retiring.removed.registering.urls.trans retiring.registering.urls
  have exporters : h'.exporters = h.exporters.modify e withdrawn :=
    retiring.removed.registering.exporters
  have same : (h'.exporters.get other).url = (h.exporters.get other).url ∧
      (h'.exporters.get other).registries = (h.exporters.get other).registries := by
    rw [exporters, Store.get_modify]
    split
    · rename_i here
      rw [here]
      exact ⟨rfl, rfl⟩
    · exact ⟨rfl, rfl⟩
  exact standingOf_congr same.1 same.2 fun u _ => by rw [urls]

theorem Retirement.recorded {entries : List (String × ExporterRef)}
    (retirement : Retirement s t entries h h') (before : Recorded x left start h) :
    Recorded x (fun r identity => left r identity ++
      (h.standingOfAll entries).stamps false r identity) start h' := by
  induction retirement generalizing left with
  | done => exact before.congr fun r identity => (List.append_nil _).symm
  | @next h _ mid _ path e _ _ rest held retiring others ih =>
    refine (ih (retiring.recorded held before)).congr fun r identity => ?_
    -- what was taken back first does not change what the others stand under
    have later : mid.standingOfAll rest = h.standingOfAll rest := by
      unfold Host.standingOfAll
      simp only [retiring.standingOf]
    have counted : (h.standingOfAll ((path, e) :: rest) identity).count r =
        (h.standingOf e identity).count r + (h.standingOfAll rest identity).count r := by
      unfold Host.standingOfAll
      rw [List.flatMap_cons, List.count_append]
    unfold Standing.stamps
    rw [List.append_assoc, later, counted, List.replicate_append_replicate]

theorem Host.Elsewhere.registrationsBut {excepted : Option ExporterRef} {b : Option BackendRef}
    (apart : Elsewhere s path excepted b h h') (coherent : h.Coherent s)
    (differ : ∀ other e, other ≠ path → h.exporterAt s other = some e → excepted ≠ some e) :
    h'.registrationsBut s path = h.registrationsBut s path := by
  have kept : (h'.servers.get s).exporters.erase path = (h.servers.get s).exporters.erase path := by
    refine Keyed.ext_find? fun other => ?_
    rw [Keyed.find?_erase, Keyed.find?_erase]
    split
    · rfl
    · rename_i differ
      exact apart.exporterAt other differ
  have same : ∀ entry ∈ ((h.servers.get s).exporters.erase path).entries,
      h'.standingOf entry.2 = h.standingOf entry.2 := by
    intro entry member
    have found := (Entries.find?_eq_some_iff
      ((h.servers.get s).exporters.erase path).sorted).2 member
    have erased : ((h.servers.get s).exporters.erase path).find? entry.1 = some entry.2 := found
    rw [Keyed.find?_erase] at erased
    split at erased
    · cases erased
    · rename_i other
      obtain ⟨p, registries, serves⟩ := coherent.serves entry.1 entry.2 erased
      have exporter := apart.exporter entry.2 serves.known (differ _ _ other erased)
      exact standingOf_congr (by rw [exporter]) (by rw [exporter]) fun u _ =>
        (apart.urls u).identity
  unfold Host.registrationsBut standingOfAll
  rw [kept]
  funext identity
  rw [List.flatMap_def, List.flatMap_def,
    List.map_congr_left fun entry member => congrFun (same entry member) identity]

/-- What stood for one path was withdrawn, and what stands for it was taken. Of the other paths
all stands as it did. -/
structure Host.Booked (s : ServerRef) (path : String) (h h' : Host) : Prop where
  recorded : Recorded (h.servers.get s).extensions
    ((h.standingAt s path).turned (h'.standingAt s path)) h h'
  others : h'.registrationsBut s path = h.registrationsBut s path

theorem Host.Elsewhere.booked {excepted : Option ExporterRef} {b : Option BackendRef}
    (apart : Elsewhere s path excepted b h h') (coherent : h.Coherent s)
    (differ : ∀ other e, other ≠ path → h.exporterAt s other = some e → excepted ≠ some e)
    (recorded : Recorded (h.servers.get s).extensions
      ((h.standingAt s path).turned (h'.standingAt s path)) h h') : h.Booked s path h' :=
  ⟨recorded, apart.registrationsBut coherent differ⟩

theorem Host.Coherent.exporter_ne (coherent : h.Coherent s)
    (serves : h.Serves s path e p registries) (other : String) (e' : ExporterRef)
    (differ : other ≠ path) (kept : h.exporterAt s other = some e') : some e ≠ some e' := by
  obtain ⟨p', registries', serves'⟩ := coherent.serves other e' kept
  exact (serves.toHolds.spared serves'.toHolds differ).1

theorem standingAt_grown (grown : h.Grown h') (s : ServerRef) (path : String) :
    h'.standingAt s path = h.standingAt s path := by
  funext identity
  unfold Host.standingAt
  rw [grown.exporterAt]
  cases h.exporterAt s path with
  | none => rfl
  | some e =>
    exact congrFun (standingOf_congr (by rw [grown.exporters]) (by rw [grown.exporters])
      fun u _ => by rw [grown.urls]) identity

theorem Deployed.recorded {service : Option Service} {status : Status}
    (deployed : Deployed h s t u service (.ok status, h')) (table : h.tableOf s = some t)
    (stocked : h.Stocked (h.servers.get s).extensions) :
    ((h.extensions.get (h.servers.get s).extensions).backendFor u (h.urls.get u) = none ∧
        h.Noted h') ∨
      Recorded (h.servers.get s).extensions ((h.standingAt s (h.urls.get u).path).turned
        (h'.standingAt s (h.urls.get u).path)) h h' := by
  -- the state that the provider is deployed in has the factory of `h`, and marks nothing yet
  have begun {mid : Host} {p : ProviderRef}
      (prepared : h.Prepared (h.servers.get s).extensions u service p mid) :
      (mid.servers.get s).extensions = (h.servers.get s).extensions ∧
        Recorded (mid.servers.get s).extensions unmarked h mid := by
    rw [prepared.grown.servers]
    exact ⟨rfl, (Recorded.refl stocked).grown prepared.grown⟩
  cases deployed with
  | unmade none noted => exact Or.inl ⟨none, noted⟩
  | @first mid _ p _ unserved prepared opening =>
    obtain ⟨factory, before⟩ := begun prepared
    have path := prepared.pathOf
    have none : mid.exporterAt s (mid.pathOf p) = none := by
      rw [path, prepared.grown.exporterAt, unserved]
    have recorded := opening.recorded none before
    rw [factory, path] at recorded
    refine Or.inr (recorded.congr fun r identity => ?_)
    -- nothing stood registered for the path, so that nothing is withdrawn
    unfold Standing.turned
    rw [Standing.stamps_nil _ (standingAt_unserved unserved identity)]
    rfl
  | @again mid _ p old e registries _ serves prepared changeover =>
    obtain ⟨factory, before⟩ := begun prepared
    have path := prepared.pathOf
    have there := prepared.grown.serves serves
    have recorded := changeover.recorded ((prepared.grown.tableOf s).trans table)
      (there.located.trans path.symm) before
    rw [factory, path] at recorded
    refine Or.inr (recorded.congr fun r identity => ?_)
    rw [← there.standingAt, standingAt_grown prepared.grown]
    rfl

theorem Deployed.booked {service : Option Service} {status : Status}
    (deployed : Deployed h s t u service (.ok status, h')) (coherent : h.Coherent s)
    (table : h.tableOf s = some t) (stocked : h.Stocked (h.servers.get s).extensions) :
    ((h.extensions.get (h.servers.get s).extensions).backendFor u (h.urls.get u) = none ∧
        h.Noted h') ∨
      h.Booked s (h.urls.get u).path h' := by
  rcases deployed.recorded table stocked with unmade | recorded
  · exact Or.inl unmade
  · right
    rcases deployed.elsewhere table with apart | ⟨e, old, registries, serves, apart⟩
    · exact apart.booked coherent (by simp) recorded
    · exact apart.booked coherent (coherent.exporter_ne serves) recorded

theorem exportService_booked {service : Option Service} {status : Status}
    (coherent : h.Coherent s) (terminated : h.Terminated)
    (stocked : h.Stocked (h.servers.get s).extensions)
    (ends : (exportService s u service).Yields h status h') :
    h.Noted h' ∨ h.Booked s (h.urls.get u).path h' := by
  obtain ⟨t, table⟩ := coherent.table
  exact ((coherent.deployed terminated table ends).booked coherent table stocked).imp_left And.right

theorem unexportService_booked {status : Status} (coherent : h.Coherent s)
    (stocked : h.Stocked (h.servers.get s).extensions)
    (run : (unexportService s path).Yields h status h') : h.Noted h' ∨ h.Booked s path h' := by
  obtain ⟨t, table⟩ := coherent.table
  rcases unexportService_cases coherent table run with
    ⟨_, _, noted⟩ | ⟨e, p, registries, h₁, _, serves, retiring⟩
  · exact Or.inl noted
  · have held := serves.toHolds.withServers _ (h.endpoint_dropping s path)
    have before := (Recorded.refl stocked).frame { h with servers := h.dropping s path } rfl rfl rfl
    have gone := (retiring.clears table).1
    refine Or.inr ((retiring.apart table).booked coherent (coherent.exporter_ne serves)
      ((retiring.recorded held before).congr fun r identity => ?_))
    unfold Standing.turned
    rw [Standing.stamps_nil _ (standingAt_unserved gone identity), List.append_nil,
      standingAt_of_kept serves.kept]
    rfl

theorem registrations_unserved (unserved : ∀ path, h.exporterAt s path = none)
    (identity : String) : h.registrations s identity = [] := by
  have empty : (h.servers.get s).exporters = .empty := Keyed.ext_find? unserved
  unfold Host.registrations
  rw [empty]
  rfl

theorem destroyServer_recorded {order : Traversal ExporterRef} (coherent : h.Coherent s)
    (stocked : h.Stocked x) (run : (destroyServer order s).Yields h () h') :
    Recorded x ((h.registrations s).stamps false) h h' := by
  obtain ⟨t, table⟩ := coherent.table
  obtain ⟨mid, retirement, rfl⟩ := destroyServer_cases coherent table run
  have before := (Recorded.refl stocked).frame { h with servers := h.cleared s } rfl rfl rfl
  refine ((retirement.recorded before).frame
    { mid with endpoints := mid.shutting (h.servers.get s).endpoint } rfl rfl rfl).congr
    fun r identity => ?_
  -- how often a registry stands for an identity does not depend on the order
  have perm := h.standingOfAll_perm (order.walk_perm (h.servers.get s).exporters) identity
  unfold Standing.stamps
  exact congrArg (List.replicate · false) (perm.count_eq r)

theorem addressOf_kept (providers : h.providers.Extends h'.providers)
    (backends : h'.backends = h.backends ∨ h'.backends = h.retiring old)
    (made : h.providers.Allocated p) : h'.addressOf p = h.addressOf p := by
  unfold Host.addressOf Host.backendOf
  rw [providers.get p made]
  rcases backends with same | retired
  · rw [same]
  · rw [retired]
    unfold Host.retiring
    rw [Store.get_modify]
    split
    · rename_i here
      rw [here]
      unfold Backend.destroyed
      split <;> rfl
    · rfl

namespace Deployed

variable {service : Option Service} {result : Except Fault Status} {mid : Host}

theorem addressOf_prepared (deployed : Deployed h s t u service (result, h'))
    (table : h.tableOf s = some t) :
    (result = .ok .noProvider ∧ h.Noted h') ∨
      ∃ q mid, h.Prepared (h.servers.get s).extensions u service q mid ∧
      (∀ p, mid.providers.Allocated p → h'.addressOf p = mid.addressOf p) ∧
      (result = .ok .ok → h'.routeAt s (h.urls.get u).path = some q) := by
  cases deployed with
  | unmade _ noted => exact Or.inl ⟨rfl, noted⟩
  | @first mid _ q _ unserved prepared opening =>
    have table' := (prepared.grown.tableOf s).trans table
    have path := prepared.pathOf
    have apart := opening.elsewhere (e := none) (b := none) (.refl mid) table' path
    have backends : h'.backends = mid.backends ∨ h'.backends = mid.retiring q :=
      Or.inl opening.backends
    refine Or.inr ⟨q, mid, prepared, fun p made =>
      addressOf_kept apart.providers backends made, ?_⟩
    rintro rfl
    obtain ⟨_, serves⟩ :=
      opening.serves table' prepared.known prepared.backed prepared.addressOf.2
    rw [← path]
    exact serves.route
  | @again mid _ q old e registries _ serves prepared changeover =>
    have table' := (prepared.grown.tableOf s).trans table
    have path := prepared.pathOf
    have same := (held serves prepared rfl).1
    have apart := changeover.elsewhere (.refl mid) table' path (same.trans path) rfl
    refine Or.inr ⟨q, mid, prepared, fun p made =>
      addressOf_kept apart.providers changeover.backends made, ?_⟩
    rintro rfl
    obtain ⟨⟨_, there⟩, _⟩ := changeover.serves table' prepared.known prepared.backed
      prepared.addressOf.2 (prepared.backend_ne serves.made serves.backed)
    rw [← path]
    exact there.route

theorem addressOf (deployed : Deployed h s t u service (result, h'))
    (table : h.tableOf s = some t) (serves : h.Serves s path e p registries) :
    h'.addressOf p = h.addressOf p := by
  rcases deployed.addressOf_prepared table with ⟨_, noted⟩ | ⟨q, mid, prepared, kept, _⟩
  · exact noted.registering.addressOf p
  · rw [kept p (serves.made.mono prepared.grown.providers.next),
      prepared.grown.addressOf serves.made serves.backed]

theorem address (deployed : Deployed h s t u service (.ok .ok, h'))
    (table : h.tableOf s = some t) (route : h'.routeAt s (h.urls.get u).path = some p) :
    h'.addressOf p = u := by
  rcases deployed.addressOf_prepared table with ⟨ends, _⟩ | ⟨q, mid, prepared, kept, routed⟩
  · cases ends
  · obtain rfl : p = q := Option.some.inj (route.symm.trans (routed rfl))
    rw [kept p prepared.known, prepared.addressOf.1]

end Deployed

end RpcHost
