import RpcHost.Proofs.Runs
/-!
What registries list, where they are direct ones. A factory hands out one registry for an
identity, so a name leads to the same registry for as long as the context keeps its address.
-/
namespace RpcHost

open Attempt Host

theorem Keyed.insert_erase {α : Type} {m : Keyed α} {key : String} {a : α}
    (found : m.find? key = some a) : (m.erase key).insert key a = m := by
  refine ext_find? fun other => ?_
  rw [find?_insert]
  split
  · rename_i same
    rw [same, found]
  · rename_i differ
    exact find?_erase_ne _ differ

namespace Registry

def announced (r : Registry) (identity : String) : Registry :=
  match r.state with
  | .direct listed => { r with state := .direct (listed.insert identity ()) }
  | .scripted .. => r

def withdrawn (r : Registry) (identity : String) : Registry :=
  match r.state with
  | .direct listed => { r with state := .direct (listed.erase identity) }
  | .scripted .. => r

def Direct (r : Registry) : Prop := ∃ listed, r.state = .direct listed

instance (r : Registry) : Decidable r.Direct :=
  match state : r.state with
  | .direct listed => isTrue ⟨listed, state⟩
  | .scripted .. => isFalse fun ⟨_, direct⟩ => by
    rw [state] at direct
    cases direct

variable {r : Registry} {identity other : String}

theorem Direct.announced (direct : r.Direct) : (r.announced identity).Direct := by
  obtain ⟨listed, state⟩ := direct
  unfold Registry.announced
  rw [state]
  exact ⟨_, rfl⟩

theorem Direct.withdrawn (direct : r.Direct) : (r.withdrawn identity).Direct := by
  obtain ⟨listed, state⟩ := direct
  unfold Registry.withdrawn
  rw [state]
  exact ⟨_, rfl⟩

theorem Direct.civil (direct : r.Direct) : r.Civil := by
  obtain ⟨listed, state⟩ := direct
  unfold Registry.Civil
  rw [state]
  trivial

theorem lists_announced (direct : r.Direct) : (r.announced identity).lists identity = true := by
  obtain ⟨listed, state⟩ := direct
  unfold announced lists
  rw [state]
  simp [Keyed.contains]

theorem lists_withdrawn : (r.withdrawn identity).lists identity = false := by
  cases r with
  | mk name url state => cases state <;> simp [withdrawn, lists, Keyed.contains]

theorem lists_announced_of_lists (lists : r.lists other = true) :
    (r.announced identity).lists other = true := by
  cases r with
  | mk name url state =>
    cases state with
    | scripted => exact lists
    | direct listed =>
      show ((listed.insert identity ()).find? other).isSome = true
      rw [Keyed.find?_insert]
      split
      · rfl
      · exact lists

theorem lists_withdrawn_of_lists (lists : r.lists other = true) (differ : other ≠ identity) :
    (r.withdrawn identity).lists other = true := by
  cases r with
  | mk name url state =>
    cases state with
    | scripted => exact lists
    | direct listed =>
      show ((listed.erase identity).find? other).isSome = true
      rw [Keyed.find?_erase_ne _ differ]
      exact lists

theorem announced_withdrawn (lists : r.lists identity = true) :
    (r.withdrawn identity).announced identity = r := by
  cases r with
  | mk name url state =>
    cases state with
    | scripted => rfl
    | direct listed =>
      obtain ⟨_, found⟩ := Option.isSome_iff_exists.1 (show (listed.find? identity).isSome = true
        from lists)
      simp [withdrawn, announced, Keyed.insert_erase found]

theorem announced_announced :
    (r.announced identity).announced identity = r.announced identity := by
  cases r with
  | mk name url state =>
    cases state with
    | scripted => rfl
    | direct listed =>
      have same : (listed.insert identity ()).insert identity () = listed.insert identity () := by
        refine Keyed.ext_find? fun key => ?_
        rw [Keyed.find?_insert]
        split
        · rename_i same
          rw [same, Keyed.find?_insert_self]
        · rfl
      simp [announced, same]

theorem withdrawn_withdrawn :
    (r.withdrawn identity).withdrawn identity = r.withdrawn identity := by
  cases r with
  | mk name url state =>
    cases state with
    | scripted => rfl
    | direct listed =>
      have same : (listed.erase identity).erase identity = listed.erase identity := by
        refine Keyed.ext_find? fun key => ?_
        rw [Keyed.find?_erase]
        split
        · rename_i same
          rw [same, Keyed.find?_erase_self]
        · rfl
      simp [withdrawn, same]

end Registry

def Extensions.Builds (x : Extensions) (protocol : String) : Prop :=
  ∃ constructor, x.registries.find? protocol = some (some constructor) ∧
    constructor.maker ≠ .nothing

namespace Host

def registryAddress? (h : Host) (c : ConfigurationRef) (name : String) : Option UrlRef :=
  (h.configurations.get c).registries.find? name

def resolve (h : Host) (x : ExtensionsRef) (c : ConfigurationRef) (name : String) :
    Option RegistryRef :=
  (h.registryAddress? c name).bind fun u =>
    (h.extensions.get x).instances.find? (h.urls.get u).identity

/-- The name leads to a registry that is made, or to none that could be. -/
def Settled (h : Host) (x : ExtensionsRef) (c : ConfigurationRef) (name : String) : Prop :=
  ∀ u, h.registryAddress? c name = some u →
    ((h.extensions.get x).instances.find? (h.urls.get u).identity).isSome = true ∨
      ¬(h.extensions.get x).Builds (h.urls.get u).protocol

/-- All registries are direct, and constructors make such or none. -/
structure Direct (h : Host) (x : ExtensionsRef) : Prop where
  registries : ∀ r, (h.registries.get r).Direct
  makers : ∀ protocol maker, (h.extensions.get x).registries.find? protocol = some maker →
    ∃ constructor, maker = some constructor ∧
      (constructor.maker = .direct ∨ constructor.maker = .nothing)
  known : ∀ identity r, (h.extensions.get x).instances.find? identity = some r →
    h.registries.Allocated r

theorem Direct.civil {h : Host} {x : ExtensionsRef} (direct : h.Direct x) : h.Civil x where
  registries r := (direct.registries r).civil
  makers protocol maker found := by
    obtain ⟨constructor, same, direct | nothing⟩ := direct.makers protocol maker found
    · exact ⟨constructor, same, by rw [direct]; trivial⟩
    · exact ⟨constructor, same, by rw [nothing]; trivial⟩

theorem Direct.of_eq {h h' : Host} {x : ExtensionsRef} (direct : h.Direct x)
    (registries : h'.registries = h.registries)
    (extensions : h'.extensions.get x = h.extensions.get x) : h'.Direct x := by
  refine ⟨?_, ?_, ?_⟩
  · rw [registries]
    exact direct.registries
  · rw [extensions]
    exact direct.makers
  · rw [registries, extensions]
    exact direct.known

/-- Registries and their lists grow, and what the factory makes registries of stays. Only
identities that are not `spared` may be taken off a list. -/
structure Abiding (x : ExtensionsRef) (c : ConfigurationRef) (spared : String → Prop)
    (h h' : Host) : Prop where
  next : h.registries.next ≤ h'.registries.next
  lists : ∀ r identity, h.registries.Allocated r → spared identity →
    (h.registries.get r).lists identity = true → (h'.registries.get r).lists identity = true
  direct : h.Direct x → h'.Direct x
  kept : ∀ identity r, (h.extensions.get x).instances.find? identity = some r →
    (h'.extensions.get x).instances.find? identity = some r
  built : ∀ identity r, (h'.extensions.get x).instances.find? identity = some r →
    (h.extensions.get x).instances.find? identity = some r ∨
      ∃ name u, h.registryAddress? c name = some u ∧ (h.urls.get u).identity = identity ∧
        (h.extensions.get x).Builds (h.urls.get u).protocol
  address : ∀ name, h'.registryAddress? c name = h.registryAddress? c name
  like : ∀ name u, h.registryAddress? c name = some u → (h'.urls.get u).Like (h.urls.get u)
  constructors : (h'.extensions.get x).registries = (h.extensions.get x).registries

structure Enrolling (x : ExtensionsRef) (c : ConfigurationRef) (spared : String → Prop)
    (h h' : Host) : Prop extends Abiding x c spared h h' where
  urls : ∀ u, (h'.urls.get u).Like (h.urls.get u)

variable {x : ExtensionsRef} {c : ConfigurationRef} {spared : String → Prop}

theorem Enrolling.of_eq {h h' : Host} (registries : h'.registries = h.registries)
    (extensions : h'.extensions = h.extensions)
    (configurations : h'.configurations = h.configurations)
    (urls : ∀ u, (h'.urls.get u).Like (h.urls.get u)) : Enrolling x c spared h h' := by
  refine ⟨⟨?_, ?_, fun direct => direct.of_eq registries (by rw [extensions]), ?_, ?_,
    fun name => ?_, fun _ u _ => urls u, by rw [extensions]⟩, urls⟩
  · exact Nat.le_of_eq (by rw [registries])
  · rw [registries]
    exact fun _ _ _ _ lists => lists
  · rw [extensions]
    exact fun _ _ found => found
  · rw [extensions]
    exact fun _ _ found => Or.inl found
  · unfold registryAddress?
    rw [configurations]

theorem Written.enrolling {h h' : Host} (written : h.Written h') : Enrolling x c spared h h' :=
  .of_eq written.registries written.extensions written.registering.configurations fun u => by
    rw [written.registering.urls]
    exact .refl _

theorem Noted.enrolling {h h' : Host} (noted : h.Noted h') : Enrolling x c spared h h' :=
  noted.written.enrolling

theorem Abiding.builds {h h' : Host} (abiding : Abiding x c spared h h') (protocol : String) :
    (h'.extensions.get x).Builds protocol ↔ (h.extensions.get x).Builds protocol := by
  unfold Extensions.Builds
  rw [abiding.constructors]

instance : Course (Abiding x c spared) where
  refl h := (Enrolling.of_eq rfl rfl rfl fun _ => .refl _).toAbiding
  trans := by
    intro _ mid _ first second
    refine ⟨Nat.le_trans first.next second.next, fun r identity known spares lists => ?_,
      fun direct => second.direct (first.direct direct),
      fun identity r found => second.kept _ _ (first.kept _ _ found), fun identity r found => ?_,
      fun name => (second.address name).trans (first.address name), fun name u address => ?_,
      second.constructors.trans first.constructors⟩
    · exact second.lists r identity (known.mono first.next) spares
        (first.lists r identity known spares lists)
    · rcases second.built identity r found with before | ⟨name, u, address, same, builds⟩
      · exact first.built identity r before
      · rw [first.address] at address
        have like := first.like name u address
        refine Or.inr ⟨name, u, address, ?_, ?_⟩
        · rw [← same, like.identity]
        · rwa [first.builds, like.protocol] at builds
    · exact (second.like name u (by rwa [first.address])).trans (first.like name u address)

instance : Course (Enrolling x c spared) where
  refl _ := .of_eq rfl rfl rfl fun _ => .refl _
  trans first second := ⟨Course.trans first.toAbiding second.toAbiding, fun u =>
    (second.urls u).trans (first.urls u)⟩

end Host

variable {h h' : Host} {x : ExtensionsRef} {c : ConfigurationRef} {spared : String → Prop}

theorem Registry.announced_eq {r : Registry} {listed : Keyed Unit}
    (state : r.state = .direct listed) (identity : String) :
    r.announced identity = { r with state := .direct (listed.insert identity ()) } := by
  unfold announced
  rw [state]

theorem Registry.withdrawn_eq {r : Registry} {listed : Keyed Unit}
    (state : r.state = .direct listed) (identity : String) :
    r.withdrawn identity = { r with state := .direct (listed.erase identity) } := by
  unfold withdrawn
  rw [state]

theorem modifyRegistry_enrolling (r : RegistryRef) (f : Registry → Registry)
    (lists : ∀ identity, spared identity → (h.registries.get r).lists identity = true →
      (f (h.registries.get r)).lists identity = true)
    (direct : (h.registries.get r).Direct → (f (h.registries.get r)).Direct) :
    Enrolling x c spared h { h with registries := h.registries.modify r f } := by
  refine { (Course.refl h : Enrolling x c spared h h) with
    next := Nat.le_refl _
    lists := fun other identity _ spares listed => ?_
    direct := fun all => ?_ }
  · show ((h.registries.modify r f).get other).lists identity = true
    rw [Store.get_modify]
    split
    · rename_i same
      exact lists identity spares (same ▸ listed)
    · exact listed
  · refine ⟨fun other => ?_, all.makers, all.known⟩
    show ((h.registries.modify r f).get other).Direct
    rw [Store.get_modify]
    split
    · exact direct (all.registries r)
    · exact all.registries other

theorem scripted_enrolling {r : RegistryRef} {script script' : RegistryScript}
    {asked asked' : List Demand}
    (state : (h.registries.get r).state = .scripted script asked) :
    Enrolling x c spared h { h with registries := h.registries.modify r fun registry =>
      { registry with state := .scripted script' asked' } } := by
  refine modifyRegistry_enrolling r _ (fun identity _ lists => ?_) fun direct => ?_
  · unfold Registry.lists at lists
    rw [state] at lists
    cases lists
  · obtain ⟨listed, other⟩ := direct
    rw [state] at other
    cases other

theorem Host.Consults.enrolling {r : RegistryRef} {errand : Errand} {result : Except Fault Unit}
    {mid : Host} (consults : h.Consults r errand result mid)
    (keeps : ∀ (registry : Registry) (listed : Keyed Unit), registry.state = .direct listed →
      ∀ identity, spared identity → registry.lists identity = true →
        Registry.lists { registry with state := .direct (errand.relist listed) } identity = true) :
    Enrolling x c spared h mid := by
  have marked (g : Host) (journal : List Event) : Enrolling x c spared g { g with journal } :=
    Written.enrolling ⟨g.screen, g.files, journal, rfl⟩
  cases consults with
  | @listed listed state =>
    have relisted := modifyRegistry_enrolling (x := x) (c := c) r (fun registry =>
      { registry with state := .direct (errand.relist listed) }) (keeps _ listed state)
      fun _ => ⟨_, rfl⟩
    exact Course.trans relisted (marked _ _)
  | granted _ state => exact Course.trans (scripted_enrolling state) (marked _ _)
  | failed _ state => exact Course.trans (scripted_enrolling state) (marked _ _)

theorem registerService_enrolling (r : RegistryRef) (u : UrlRef) :
    (registerService r u).Within (Enrolling x c spared) := fun h => by
  obtain ⟨_, mid, h', ends, consults, logged⟩ := registerService_consults h r u
  have leaves : (registerService r u).after h = h' := congrArg Prod.snd ends
  rw [leaves]
  refine Course.trans (consults.enrolling fun registry listed state identity _ lists => ?_)
    logged.noted.enrolling
  have announced : (registry.announced (h.urls.get u).identity).lists identity = true :=
    Registry.lists_announced_of_lists lists
  rwa [Registry.announced_eq state] at announced

theorem unregisterService_enrolling (r : RegistryRef) {u : UrlRef}
    (differ : ¬spared (h.urls.get u).identity) :
    Enrolling x c spared h ((unregisterService r u).after h) := by
  obtain ⟨_, mid, h', ends, consults, logged⟩ := unregisterService_consults h r u
  have leaves : (unregisterService r u).after h = h' := congrArg Prod.snd ends
  rw [leaves]
  refine Course.trans (consults.enrolling fun registry listed state identity spares lists => ?_)
    logged.noted.enrolling
  have other : identity ≠ (h.urls.get u).identity := fun same => differ (same ▸ spares)
  have withdrawn := Registry.lists_withdrawn_of_lists lists other
  rwa [Registry.withdrawn_eq state] at withdrawn

theorem unregisterAll_enrolling (registries : List RegistryRef) {u : UrlRef}
    (differ : ¬spared (h.urls.get u).identity) :
    Enrolling x c spared h ((unregisterAll u registries).after h) := by
  induction registries generalizing h with
  | nil => exact Course.refl h
  | cons r rest ih =>
    unfold unregisterAll
    refine leaves_bind_after (leaves_tryCatch (unregisterService_enrolling r differ)
      fun fault => ?_) fun first _ => ih (by rwa [(first.urls u).identity])
    split
    · exact within_throw _
    · exact within_bind within_get fun now =>
        within_lift fun h => (writeLog_within _ _ h).enrolling

theorem making_enrolling {name : String} {u : UrlRef} {r : Registry}
    (address : h.registryAddress? c name = some u)
    (absent : (h.extensions.get x).instances.find? (h.urls.get u).identity = none)
    (makes : (h.extensions.get x).registryFor u (h.urls.get u).protocol = .ok (some r)) :
    Enrolling x c spared h (h.making x (h.urls.get u).identity r) := by
  have factory := h.extensions_making x (h.urls.get u).identity r
  obtain ⟨constructor, found, makes⟩ := Extensions.registryFor_some makes
  -- nothing is kept under the identity yet, so that what is kept stays where it is
  refine ⟨⟨Nat.le_succ _, fun other identity known _ lists => ?_, fun direct => ⟨fun other => ?_,
    ?_, fun identity' other kept => ?_⟩, fun identity' other kept => ?_,
    fun identity' other kept => ?_, fun _ => rfl, fun _ _ _ => .refl _, ?_⟩, fun _ => .refl _⟩
  · show ((h.registries.add r).get other).lists identity = true
    rw [Store.get_add_ne _ known.ne_fresh]
    exact lists
  · show ((h.registries.add r).get other).Direct
    rw [Store.get_add]
    split
    · obtain ⟨_, same, isDirect | nothing⟩ := direct.makers _ _ found
      · cases same
        rw [isDirect] at makes
        cases makes
        exact ⟨_, rfl⟩
      · cases same
        rw [nothing] at makes
        cases makes
    · exact direct.registries other
  · rw [factory]
    exact direct.makers
  · rw [factory] at kept
    rw [Keyed.find?_insert] at kept
    split at kept
    · cases kept
      exact h.registries.allocated_fresh_add r
    · exact (direct.known identity' other kept).mono (Nat.le_succ _)
  · rw [factory]
    refine (Keyed.find?_insert_ne _ ?_ _).trans kept
    rintro rfl
    rw [absent] at kept
    cases kept
  · rw [factory] at kept
    rw [Keyed.find?_insert] at kept
    split at kept
    · rename_i own
      refine Or.inr ⟨name, u, address, own.symm, constructor, found, fun nothing => ?_⟩
      rw [nothing] at makes
      cases makes
    · exact Or.inl kept
  · rw [factory]

theorem findRegistry_enrolling {name : String} {u : UrlRef}
    (address : h.registryAddress? c name = some u) :
    Enrolling x c spared h ((findRegistry x u).after h) := by
  obtain ⟨result, mid, h', ends, looked, noted⟩ := findRegistry_ends h x u
  have leaves : (findRegistry x u).after h = h' := congrArg Prod.snd ends
  rw [leaves]
  cases looked with
  | kept => exact noted.enrolling
  | absent => exact noted.enrolling
  | made missing makes =>
    exact Course.trans (making_enrolling address missing makes) noted.enrolling
  | failing => exact noted.enrolling

theorem registerAt_enrolling (u : UrlRef) (name : String) :
    (registerAt x c u name).Within (Enrolling x c spared) := fun h => by
  unfold registerAt
  simp only [Attempt.after_get_bind]
  split
  · exact leaves_bind (writeLog_within _ _ h).enrolling fun _ => within_pure _
  · rename_i registryUrl address
    refine leaves_bind (findRegistry_enrolling address) fun found => ?_
    split
    · exact within_bind (within_lift fun h => (writeLog_within _ _ h).enrolling)
        fun _ => within_pure _
    · refine within_tryCatch ?_ fun fault => ?_
      · exact within_bind (registerService_enrolling _ u) fun _ => within_pure _
      · split
        · exact within_throw _
        · exact within_bind (within_lift fun h => (writeLog_within _ _ h).enrolling)
            fun _ => within_pure _

theorem registerAll_enrolling (u : UrlRef) (names : List String) :
    (registerAll x c u names).Within (Enrolling x c spared) := by
  induction names with
  | nil => exact within_pure _
  | cons name rest ih =>
    exact within_bind (registerAt_enrolling u name) fun _ => within_bind ih fun _ => within_pure _

/-- Addresses of the context that are told apart by their protocols only are not there. -/
def Host.Unambiguous (h : Host) (c : ConfigurationRef) : Prop :=
  ∀ name other u v, h.registryAddress? c name = some u → h.registryAddress? c other = some v →
    (h.urls.get u).identity = (h.urls.get v).identity →
      (h.urls.get u).protocol = (h.urls.get v).protocol

namespace Host.Abiding

variable (abiding : Abiding x c spared h h')

include abiding

theorem unambiguous (clear : h.Unambiguous c) : h'.Unambiguous c := by
  intro name other u v first second same
  rw [abiding.address] at first second
  have left := abiding.like name u first
  have right := abiding.like other v second
  rw [left.identity, right.identity] at same
  rw [left.protocol, right.protocol]
  exact clear name other u v first second same

theorem instances (clear : h.Unambiguous c) {name : String} {u : UrlRef}
    (address : h.registryAddress? c name = some u)
    (settled : h.Settled x c name) :
    (h'.extensions.get x).instances.find? (h.urls.get u).identity =
      (h.extensions.get x).instances.find? (h.urls.get u).identity := by
  cases found : (h.extensions.get x).instances.find? (h.urls.get u).identity with
  | some r => exact abiding.kept _ _ found
  | none =>
    cases later : (h'.extensions.get x).instances.find? (h.urls.get u).identity with
    | none => rfl
    | some r =>
      rcases abiding.built _ r later with before | ⟨other, v, second, same, builds⟩
      · rw [found] at before
        cases before
      · rcases settled u address with made | lacks
        · rw [found] at made
          cases made
        · rw [clear name other u v address second same.symm] at lacks
          exact absurd builds lacks

theorem resolve (clear : h.Unambiguous c) {name : String} (settled : h.Settled x c name) :
    h'.resolve x c name = h.resolve x c name := by
  unfold Host.resolve
  rw [abiding.address]
  cases address : h.registryAddress? c name with
  | none => rfl
  | some u =>
    show (h'.extensions.get x).instances.find? (h'.urls.get u).identity = _
    rw [(abiding.like name u address).identity]
    exact abiding.instances clear address settled

theorem settled (clear : h.Unambiguous c) {name : String} (settled : h.Settled x c name) :
    h'.Settled x c name := by
  intro u address
  rw [abiding.address] at address
  have like := abiding.like name u address
  rw [like.identity, abiding.instances clear address settled, like.protocol, abiding.builds]
  exact settled u address

end Host.Abiding

section Congruence

variable (configurations : h'.configurations = h.configurations)
  (extensions : h'.extensions = h.extensions) (urls : ∀ u, (h'.urls.get u).Like (h.urls.get u))

include configurations extensions urls

theorem Host.resolve_congr : h'.resolve x c = h.resolve x c := by
  funext name
  unfold resolve registryAddress?
  rw [configurations, extensions]
  simp only [(urls _).identity]

theorem Host.settled_congr {name : String} (settled : h.Settled x c name) :
    h'.Settled x c name := by
  intro u address
  unfold registryAddress? at address
  rw [configurations] at address
  rw [extensions, (urls u).identity, (urls u).protocol]
  exact settled u address

end Congruence

theorem Host.Registering.like (leaves : h.Registering h') (u : UrlRef) :
    (h'.urls.get u).Like (h.urls.get u) := by
  rw [leaves.urls]
  exact .refl _

theorem Host.Registering.settles {name : String} {found : Option RegistryRef}
    (leaves : h.Registering h') (extensions : h'.extensions = h.extensions)
    (resolved : h.resolve x c name = found) (settled : h.Settled x c name) :
    h'.resolve x c name = found ∧ h'.Settled x c name := by
  have urls := leaves.like
  refine ⟨?_, settled_congr leaves.configurations extensions urls settled⟩
  rw [resolve_congr leaves.configurations extensions urls, resolved]

structure Host.Relisted (f : Registry → Registry) (listed : List RegistryRef) (h h' : Host) :
    Prop where
  rest : ∃ registries screen files journal, h' = { h with registries, screen, files, journal }
  next : h'.registries.next = h.registries.next
  get : ∀ r, h'.registries.get r =
    if r ∈ listed then f (h.registries.get r) else h.registries.get r

namespace Host.Relisted

variable {f : Registry → Registry} {mid : Host} {listed : List RegistryRef}

theorem nil (written : h.Written h') : Relisted f [] h h' := by
  obtain ⟨screen, files, journal, rfl⟩ := written
  exact ⟨⟨_, _, _, _, rfl⟩, rfl, fun r => by simp⟩

theorem one {r : RegistryRef}
    (written : Written { h with registries := h.registries.modify r f } h') :
    Relisted f [r] h h' := by
  obtain ⟨screen, files, journal, rfl⟩ := written
  refine ⟨⟨_, _, _, _, rfl⟩, rfl, fun other => ?_⟩
  show (h.registries.modify r f).get other = _
  rw [Store.get_modify]
  simp only [List.mem_singleton]
  split
  · rename_i same
    rw [same]
  · rfl

theorem append {others : List RegistryRef} (again : ∀ r, f (f r) = f r)
    (first : Relisted f listed h mid) (second : Relisted f others mid h') :
    Relisted f (listed ++ others) h h' := by
  have get := first.get
  obtain ⟨_, _, _, _, rfl⟩ := first.rest
  obtain ⟨_, _, _, _, rest⟩ := second.rest
  refine ⟨⟨_, _, _, _, rest⟩, second.next.trans first.next, fun r => ?_⟩
  rw [second.get, get]
  by_cases here : r ∈ listed <;> by_cases there : r ∈ others <;> simp [here, there, again]

theorem registering (relisted : Relisted f listed h h') : h.Registering h' := by
  obtain ⟨_, _, _, _, rfl⟩ := relisted.rest
  exact ⟨⟨_, _, _, _, _, rfl⟩, fun x => ⟨_, rfl⟩⟩

theorem extensions (relisted : Relisted f listed h h') : h'.extensions = h.extensions := by
  obtain ⟨_, _, _, _, rfl⟩ := relisted.rest
  rfl

theorem direct (relisted : Relisted f listed h h') (kept : ∀ r : Registry, r.Direct → (f r).Direct)
    (direct : h.Direct x) : h'.Direct x := by
  refine ⟨fun r => ?_, ?_, fun identity r found => ?_⟩
  · rw [relisted.get]
    split
    · exact kept _ (direct.registries r)
    · exact direct.registries r
  · rw [relisted.extensions]
    exact direct.makers
  · rw [relisted.extensions] at found
    exact Nat.lt_of_lt_of_eq (direct.known identity r found) relisted.next.symm

end Host.Relisted

theorem Store.modify_congr {family : Family} {α : Type} [Inhabited α] (store : Store family α)
    {r : Handle family} {f g : α → α} (same : f (store.get r) = g (store.get r)) :
    store.modify r f = store.modify r g := by
  unfold Store.modify
  rw [same]

variable {identity : String}

theorem Host.Consults.direct {r : RegistryRef} {errand : Errand} {f : Registry → Registry}
    {result : Except Fault Unit} {mid : Host} (consults : h.Consults r errand result mid)
    (direct : (h.registries.get r).Direct)
    (relists : ∀ (registry : Registry) (listed : Keyed Unit), registry.state = .direct listed →
      f registry = { registry with state := .direct (errand.relist listed) }) :
    result = .ok () ∧ Written { h with registries := h.registries.modify r f } mid := by
  obtain ⟨listed, state⟩ := direct
  cases consults with
  | @listed listed' state' =>
    have same : h.registries.modify r f = h.registries.modify r fun registry =>
        { registry with state := .direct (errand.relist listed') } :=
      Store.modify_congr h.registries (relists _ listed' state')
    rw [same]
    exact ⟨rfl, _, _, _, rfl⟩
  | granted _ state' => cases state.symm.trans state'
  | failed _ state' => cases state.symm.trans state'

theorem registerService_direct {r : RegistryRef} {u : UrlRef}
    (direct : (h.registries.get r).Direct) (own : (h.urls.get u).identity = identity) :
    ∃ h', (registerService r u).Yields h () h' ∧
      Relisted (Registry.announced · identity) [r] h h' := by
  obtain ⟨_, mid, h', ends, consults, logged⟩ := registerService_consults h r u
  rw [own] at consults
  obtain ⟨rfl, written⟩ := consults.direct direct fun _ _ state =>
    Registry.announced_eq state identity
  exact ⟨h', ends, .one (Course.trans written logged.noted.written)⟩

theorem unregisterService_direct {r : RegistryRef} {u : UrlRef}
    (direct : (h.registries.get r).Direct) (own : (h.urls.get u).identity = identity) :
    ∃ h', (unregisterService r u).Yields h () h' ∧
      Relisted (Registry.withdrawn · identity) [r] h h' := by
  obtain ⟨_, mid, h', ends, consults, logged⟩ := unregisterService_consults h r u
  rw [own] at consults
  obtain ⟨rfl, written⟩ := consults.direct direct fun _ _ state =>
    Registry.withdrawn_eq state identity
  exact ⟨h', ends, .one (Course.trans written logged.noted.written)⟩

theorem unregisterAll_direct (registries : List RegistryRef) {u : UrlRef} (direct : h.Direct x)
    (own : (h.urls.get u).identity = identity) :
    ∃ h', (unregisterAll u registries).Yields h () h' ∧
      Relisted (Registry.withdrawn · identity) registries h h' := by
  induction registries generalizing h with
  | nil => exact ⟨h, yields_pure.2 ⟨rfl, rfl⟩, .nil (Course.refl h)⟩
  | cons r rest ih =>
    obtain ⟨mid, first, relisted⟩ := unregisterService_direct (direct.registries r) own
    have still := relisted.direct (fun _ direct => direct.withdrawn) direct
    obtain ⟨h', second, others⟩ := ih still (by rwa [relisted.registering.urls])
    refine ⟨h', yields_bind.2 ⟨(), mid, yields_tryCatch.2 (Or.inl first), second⟩, ?_⟩
    exact relisted.append (fun _ => Registry.withdrawn_withdrawn) others

theorem Host.Direct.registryFor (direct : h.Direct x) (v : UrlRef) (protocol : String) :
    ∃ made, (h.extensions.get x).registryFor v protocol = .ok made ∧
      (made.isSome = true ↔ (h.extensions.get x).Builds protocol) := by
  unfold Extensions.registryFor Extensions.Builds
  cases known : (h.extensions.get x).registries.find? protocol with
  | none => exact ⟨none, rfl, by simp⟩
  | some maker =>
    obtain ⟨constructor, rfl, makes | makes⟩ := direct.makers _ _ known
    · exact ⟨some ⟨Registry.directName, v, .direct .empty⟩, by simp [makes, RegistryMaker.make],
        by simp [makes]⟩
    · exact ⟨none, by simp [makes, RegistryMaker.make], by simp [makes]⟩

theorem findRegistry_direct {v : UrlRef} (direct : h.Direct x) :
    ∃ found h', (findRegistry x v).Yields h found h' ∧
      (h'.extensions.get x).instances.find? (h.urls.get v).identity = found ∧
      (found = none → ¬(h.extensions.get x).Builds (h.urls.get v).protocol) := by
  obtain ⟨made, same, builds⟩ := direct.registryFor v (h.urls.get v).protocol
  obtain ⟨result, mid, h', ends, looked, noted⟩ := findRegistry_ends h x v
  cases looked with
  | kept found => exact ⟨_, h', ends, by rw [noted.extensions, found], by simp⟩
  | absent missing nothing =>
    obtain rfl := Except.ok.inj (same.symm.trans nothing)
    refine ⟨_, h', ends, by rw [noted.extensions, missing], fun _ lacks => ?_⟩
    simpa using builds.2 lacks
  | made =>
    refine ⟨_, h', ends, ?_, by simp⟩
    rw [noted.extensions, h.extensions_making]
    exact Keyed.find?_insert_self _ _ _
  | failing _ fails => cases same.symm.trans fails

theorem findRegistry_settled {name : String} {v : UrlRef} (direct : h.Direct x)
    (settled : h.Settled x c name) (address : h.registryAddress? c name = some v) :
    ∃ h', (findRegistry x v).Yields h
      ((h.extensions.get x).instances.find? (h.urls.get v).identity) h' ∧ h.Noted h' := by
  obtain ⟨made, same, builds⟩ := direct.registryFor v (h.urls.get v).protocol
  obtain ⟨result, mid, h', ends, looked, noted⟩ := findRegistry_ends h x v
  cases looked with
  | kept found =>
    rw [found]
    exact ⟨h', ends, noted⟩
  | absent missing =>
    rw [missing]
    exact ⟨h', ends, noted⟩
  | made missing makes =>
    obtain rfl := Except.ok.inj (same.symm.trans makes)
    have lacks := (settled v address).resolve_left (by simp [missing])
    exact absurd (builds.1 rfl) lacks
  | failing _ fails => cases same.symm.trans fails

theorem registerAt_settled {name : String} {u : UrlRef} (direct : h.Direct x)
    (settled : h.Settled x c name) (own : (h.urls.get u).identity = identity) :
    ∃ h', (registerAt x c u name).Yields h (h.resolve x c name) h' ∧
      Relisted (Registry.announced · identity) (h.resolve x c name).toList h h' := by
  unfold Host.resolve
  cases address : h.registryAddress? c name with
  | none =>
    obtain ⟨h', ends, logged⟩ := registerAt_unknown (x := x) u address
    exact ⟨h', ends, .nil logged.noted.written⟩
  | some v =>
    obtain ⟨mid, looked, noted⟩ := findRegistry_settled direct settled address
    rw [Option.bind_some]
    cases made : (h.extensions.get x).instances.find? (h.urls.get v).identity with
    | none =>
      rw [made] at looked
      obtain ⟨h', ends, logged⟩ := registerAt_unfound address u looked
      exact ⟨h', ends, .nil (Course.trans noted logged.noted).written⟩
    | some r =>
      rw [made] at looked
      have still : (mid.registries.get r).Direct := by
        rw [noted.registries]
        exact direct.registries r
      obtain ⟨h', took, relisted⟩ := registerService_direct still
        (show (mid.urls.get u).identity = identity by rwa [noted.registering.urls])
      refine ⟨h', (registerAt_found address u looked).trans (offerTo_taken took), ?_⟩
      exact (Relisted.nil noted.written).append (fun _ => Registry.announced_announced) relisted

theorem registerAll_settled {names : List String} {u : UrlRef} (direct : h.Direct x)
    (settled : ∀ name ∈ names, h.Settled x c name) (own : (h.urls.get u).identity = identity) :
    ∃ h', (registerAll x c u names).Yields h (names.filterMap (h.resolve x c)) h' ∧
      Relisted (Registry.announced · identity) (names.filterMap (h.resolve x c)) h h' := by
  induction names generalizing h with
  | nil => exact ⟨h, yields_pure.2 ⟨rfl, rfl⟩, .nil (Course.refl h)⟩
  | cons name rest ih =>
    obtain ⟨mid, first, relisted⟩ :=
      registerAt_settled direct (settled name List.mem_cons_self) own
    -- offering the address at the first registry leaves all names leading where they did
    have resolve : mid.resolve x c = h.resolve x c := resolve_congr
      relisted.registering.configurations relisted.extensions relisted.registering.like
    have settled' : ∀ name ∈ rest, mid.Settled x c name := fun name member =>
      settled_congr relisted.registering.configurations relisted.extensions
        relisted.registering.like (settled name (List.mem_cons_of_mem _ member))
    obtain ⟨h', second, others⟩ :=
      ih (relisted.direct (fun _ direct => direct.announced) direct) settled'
        (by rwa [relisted.registering.urls])
    rw [resolve] at second others
    have all := relisted.append (fun _ => Registry.announced_announced) others
    have both : (name :: rest).filterMap (h.resolve x c) =
        (h.resolve x c name).toList ++ rest.filterMap (h.resolve x c) := by
      cases found : h.resolve x c name <;> simp [found]
    rw [both]
    exact ⟨h', yields_bind.2 ⟨_, mid, first, yields_bind.2 ⟨_, h', second,
      yields_pure.2 ⟨rfl, rfl⟩⟩⟩, all⟩

theorem findRegistry_leads {name : String} {v : UrlRef} (direct : h.Direct x)
    (address : h.registryAddress? c name = some v) :
    ∃ found h', (findRegistry x v).Yields h found h' ∧ Enrolling x c (fun _ => True) h h' ∧
      h'.resolve x c name = found ∧ h'.Settled x c name := by
  obtain ⟨found, h', ends, made, lacks⟩ := findRegistry_direct (v := v) direct
  have enrolling : Enrolling x c (fun _ => True) h h' := by
    rw [← ends.after_eq]
    exact findRegistry_enrolling address
  have address' : h'.registryAddress? c name = some v := by
    rw [enrolling.address, address]
  rw [← (enrolling.urls v).identity] at made
  refine ⟨found, h', ends, enrolling, ?_, fun w found' => ?_⟩
  · unfold Host.resolve
    rw [address']
    exact made
  · rw [address'] at found'
    cases found'
    rw [made, (enrolling.urls v).protocol, enrolling.builds]
    cases found with
    | none => exact Or.inr (lacks rfl)
    | some r => exact Or.inl rfl

theorem registerAt_direct (name : String) {u : UrlRef} (direct : h.Direct x)
    (own : (h.urls.get u).identity = identity) :
    ∃ accepted h', (registerAt x c u name).Yields h accepted h' ∧
      h'.resolve x c name = accepted ∧ h'.Settled x c name ∧
      ∀ r, accepted = some r → (h'.registries.get r).lists identity = true := by
  cases address : h.registryAddress? c name with
  | none =>
    have unknown : h.resolve x c name = none := by simp [Host.resolve, address]
    have settled : h.Settled x c name := fun v found => by
      rw [address] at found
      cases found
    obtain ⟨h', ends, logged⟩ := registerAt_unknown (x := x) u address
    have written := logged.noted.written
    obtain ⟨resolved, settled⟩ := written.registering.settles written.extensions unknown settled
    exact ⟨none, h', ends, resolved, settled, by simp⟩
  | some v =>
    obtain ⟨found, mid, looked, enrolling, resolved, settled⟩ := findRegistry_leads direct address
    cases found with
    | none =>
      obtain ⟨h', ends, logged⟩ := registerAt_unfound address u looked
      have written := logged.noted.written
      obtain ⟨resolved, settled⟩ := written.registering.settles written.extensions resolved settled
      exact ⟨none, h', ends, resolved, settled, by simp⟩
    | some r =>
      have still := (enrolling.direct direct).registries r
      obtain ⟨h', took, relisted⟩ := registerService_direct (u := u) still
        ((enrolling.urls u).identity.trans own)
      obtain ⟨resolved, settled⟩ :=
        relisted.registering.settles relisted.extensions resolved settled
      refine ⟨some r, h', (registerAt_found address u looked).trans (offerTo_taken took),
        resolved, settled, fun r' same => ?_⟩
      cases same
      rw [relisted.get, if_pos (List.mem_singleton.2 rfl)]
      exact Registry.lists_announced still

/-- Registering ends with the registries that the names lead to, and all of them list the
address. -/
theorem registerAll_direct (names : List String) {u : UrlRef} (direct : h.Direct x)
    (clear : h.Unambiguous c) (own : (h.urls.get u).identity = identity) :
    ∃ h', (registerAll x c u names).Yields h (names.filterMap (h'.resolve x c)) h' ∧
      (∀ name ∈ names, h'.Settled x c name) ∧
      ∀ name ∈ names, ∀ r, h'.resolve x c name = some r →
        (h'.registries.get r).lists identity = true := by
  induction names generalizing h with
  | nil => exact ⟨h, yields_pure.2 ⟨rfl, rfl⟩, by simp, by simp⟩
  | cons name rest ih =>
    obtain ⟨accepted, mid, first, resolved, settled, lists⟩ :=
      registerAt_direct (c := c) name direct own
    have enrolling : Enrolling x c (fun _ => True) h mid := by
      rw [← first.after_eq]
      exact registerAt_enrolling u name h
    have clear' := enrolling.unambiguous clear
    obtain ⟨h', second, others, listed⟩ := ih (enrolling.direct direct) clear'
      ((enrolling.urls u).identity.trans own)
    -- the other names may make registries, but take nothing off a list
    have later : Enrolling x c (fun _ => True) mid h' := by
      rw [← second.after_eq]
      exact registerAll_enrolling u rest mid
    -- where the first name led it still leads in the end
    have same : h'.resolve x c name = accepted := (later.resolve clear' settled).trans resolved
    refine ⟨h', ?_, ?_, ?_⟩
    · have both : (name :: rest).filterMap (h'.resolve x c) =
          accepted.toList ++ rest.filterMap (h'.resolve x c) := by
        cases accepted <;> simp [same]
      rw [both]
      exact yields_bind.2 ⟨_, mid, first, yields_bind.2 ⟨_, h', second, yields_pure.2 ⟨rfl, rfl⟩⟩⟩
    · intro other member
      rcases List.mem_cons.1 member with here | member
      · rw [here]
        exact later.settled clear' settled
      · exact others other member
    · intro other member r found
      rcases List.mem_cons.1 member with here | member
      · rw [here, same] at found
        have known : mid.registries.Allocated r := by
          obtain ⟨v, address, made⟩ := Option.bind_eq_some_iff.1 (resolved.trans found)
          exact (enrolling.direct direct).known _ r made
        exact later.lists r identity known trivial (lists r found)
      · exact listed other member r found

end RpcHost
