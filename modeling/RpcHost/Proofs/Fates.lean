import RpcHost.Proofs.Booking
/-!
What comes of the names of registries when an address is offered under them. A name leads to no
registry, or to one that takes the address or declines it for a reason, or to a fault that nobody
catches. Offering goes on past the first three; a fault of the last kind ends it.
-/
namespace RpcHost

open Attempt Host

/-- What a registry was asked: to take an identity, which it did or not, or to give one up. -/
inductive RegistryCall where
  | register (registry : RegistryRef) (identity : String) (taken : Bool)
  | unregister (registry : RegistryRef) (identity : String)
  deriving DecidableEq, Repr

def Event.call? : Event → Option RegistryCall
  | registered r _ identity taken => some (.register r identity taken)
  | unregistered r _ identity _ => some (.unregister r identity)
  | _ => none

def RegistryCall.took : RegistryCall → Bool
  | register _ _ taken => taken
  | unregister _ _ => false

def registryCalls (events : List Event) : List RegistryCall := events.filterMap Event.call?

theorem registryCalls_append (before after : List Event) :
    registryCalls (before ++ after) = registryCalls before ++ registryCalls after :=
  List.filterMap_append

theorem Event.call?_of_other {event : Event} (other : event.isRegistration = false) :
    event.call? = none := by
  cases event with
  | registered => cases other
  | unregistered => cases other
  | _ => rfl

def Host.Consulted (calls : List RegistryCall) (h h' : Host) : Prop :=
  ∃ events, h'.journal = h.journal ++ events ∧ registryCalls events = calls

namespace Host.Consulted

variable {h mid h' : Host} {calls others : List RegistryCall}

theorem of_eq (same : h'.journal = h.journal) : Consulted [] h h' :=
  ⟨[], by rw [same, List.append_nil], rfl⟩

theorem one {event : Event} {call : RegistryCall} (journal : h'.journal = h.journal ++ [event])
    (asks : event.call? = some call) : Consulted [call] h h' := by
  refine ⟨[event], journal, ?_⟩
  simp [registryCalls, asks]

theorem trans (first : Consulted calls h mid) (second : Consulted others mid h') :
    Consulted (calls ++ others) h h' := by
  obtain ⟨before, grows, rfl⟩ := first
  obtain ⟨after, grows', rfl⟩ := second
  refine ⟨before ++ after, ?_, registryCalls_append before after⟩
  rw [grows', grows, List.append_assoc]

theorem uneventful (quiet : h.Uneventful h') : Consulted [] h h' := by
  obtain ⟨events, others, grows⟩ := quiet
  refine ⟨events, grows, List.filterMap_eq_nil_iff.2 ?_⟩
  intro event member
  exact Event.call?_of_other (others event member)

theorem quiet (consulted : Consulted calls h mid) (quiet : mid.Uneventful h') :
    Consulted calls h h' := by
  have all := consulted.trans (uneventful quiet)
  rwa [List.append_nil] at all

theorem noted (consulted : Consulted calls h mid) (noted : mid.Noted h') :
    Consulted calls h h' :=
  consulted.quiet noted.uneventful

theorem frame {g g' : Host} (consulted : Consulted calls h h') (before : g.journal = h.journal)
    (after : g'.journal = h'.journal) : Consulted calls g g' := by
  obtain ⟨events, grows, asks⟩ := consulted
  exact ⟨events, by rw [after, grows, before], asks⟩

end Host.Consulted

namespace Registry

/-- All that the answers of a registry depend on. A direct one does what it is asked. -/
def history (r : Registry) : Option (RegistryScript × List Demand) :=
  match r.state with
  | .direct _ => none
  | .scripted script asked => some (script, asked)

def refusal? (r : Registry) (demand : Demand) : Option Fault :=
  r.history.bind fun (script, asked) => script asked demand

def heard (r : Registry) (demand : Demand) : Registry :=
  match r.state with
  | .direct _ => r
  | .scripted script asked => { r with state := .scripted script (demand :: asked) }

variable {r : Registry} {script : RegistryScript} {asked : List Demand} {listed : Keyed Unit}

theorem history_direct (state : r.state = .direct listed) : r.history = none := by
  simp [history, state]

theorem history_scripted (state : r.state = .scripted script asked) :
    r.history = some (script, asked) := by
  simp [history, state]

theorem refusal?_direct (state : r.state = .direct listed) (demand : Demand) :
    r.refusal? demand = none := by
  simp [refusal?, history_direct state]

theorem refusal?_scripted (state : r.state = .scripted script asked) (demand : Demand) :
    r.refusal? demand = script asked demand := by
  simp [refusal?, history_scripted state]

theorem history_heard (r : Registry) (demand : Demand) :
    (r.heard demand).history = r.history.map fun (script, asked) => (script, demand :: asked) := by
  unfold heard
  split
  · rename_i state
    rw [history_direct state]
    rfl
  · rename_i state
    rw [history_scripted state]
    rfl

end Registry

/-- What comes of the name of a registry. -/
inductive Fate where
  /-- The name leads to no registry. -/
  | astray
  | taken (r : RegistryRef)
  /-- The registry fails for a reason, and is passed over. -/
  | declined (r : RegistryRef)
  /-- Nobody catches the fault: that of a constructor, or of a registry that gives no reason. -/
  | broken (r : Option RegistryRef) (fault : Fault)
  deriving DecidableEq, Repr

namespace Fate

def under (r : RegistryRef) : Option Fault → Fate
  | none => taken r
  | some fault => if fault.reason?.isSome then declined r else broken (some r) fault

def taker? : Fate → Option RegistryRef
  | taken r => some r
  | _ => none

def call? (identity : String) : Fate → Option RegistryCall
  | astray => none
  | taken r => some (.register r identity true)
  | declined r => some (.register r identity false)
  | broken r _ => r.map fun r => .register r identity false

def Passes : Fate → Prop
  | broken _ _ => False
  | _ => True

instance : DecidablePred Passes
  | broken _ _ => isFalse id
  | astray => isTrue trivial
  | taken _ => isTrue trivial
  | declined _ => isTrue trivial

def outcome : Fate → Except Fault (Option RegistryRef)
  | broken _ fault => .error fault
  | fate => .ok fate.taker?

variable {fate : Fate}

theorem Passes.outcome (passes : fate.Passes) : fate.outcome = .ok fate.taker? := by
  cases fate with
  | broken => exact passes.elim
  | _ => rfl

theorem filter_took (identity : String) (fates : List Fate) :
    (fates.filterMap (call? identity)).filter RegistryCall.took =
      (fates.filterMap taker?).map (.register · identity true) := by
  induction fates with
  | nil => rfl
  | cons fate rest ih =>
    cases fate with
    | astray => exact ih
    | taken r => exact congrArg _ ih
    | declined r => exact ih
    | broken r fault => cases r <;> exact ih

/-- Either all fates pass, or there is a first one that does not. -/
theorem pass_or_break (fates : List Fate) :
    (∀ fate ∈ fates, fate.Passes) ∨ ∃ before r fault after,
      fates = before ++ broken r fault :: after ∧ ∀ fate ∈ before, fate.Passes := by
  induction fates with
  | nil => simp
  | cons fate rest ih =>
    cases fate with
    | broken r fault => exact Or.inr ⟨[], r, fault, rest, rfl, by simp⟩
    | _ =>
      rcases ih with all | ⟨before, r, fault, after, rfl, passes⟩
      · exact Or.inl (List.forall_mem_cons.2 ⟨trivial, all⟩)
      · exact Or.inr ⟨_ :: before, r, fault, after, rfl,
          List.forall_mem_cons.2 ⟨trivial, passes⟩⟩

end Fate

namespace Host

def registryAt (h : Host) (x : ExtensionsRef) (v : UrlRef) : Except Fault (Option RegistryRef) :=
  match (h.extensions.get x).instances.find? (h.urls.get v).identity with
  | some r => .ok (some r)
  | none => ((h.extensions.get x).registryFor v (h.urls.get v).protocol).map
      (Option.map fun _ => h.registries.fresh)

def lookedUp (h : Host) (x : ExtensionsRef) (v : UrlRef) : Host :=
  match (h.extensions.get x).instances.find? (h.urls.get v).identity,
      (h.extensions.get x).registryFor v (h.urls.get v).protocol with
  | none, .ok (some registry) => h.making x (h.urls.get v).identity registry
  | _, _ => h

def demanding (h : Host) (r : RegistryRef) (demand : Demand) : Host :=
  { h with registries := h.registries.modify r (·.heard demand) }

def fate (h : Host) (x : ExtensionsRef) (c : ConfigurationRef) (identity name : String) : Fate :=
  match h.registryAddress? c name with
  | none => .astray
  | some v =>
    match h.registryAt x v with
    | .error fault => .broken none fault
    | .ok none => .astray
    | .ok (some r) => .under r (((h.lookedUp x v).registries.get r).refusal? (.register identity))

def afterName (h : Host) (x : ExtensionsRef) (c : ConfigurationRef) (identity name : String) :
    Host :=
  match h.registryAddress? c name with
  | none => h
  | some v =>
    match h.registryAt x v with
    | .ok (some r) => (h.lookedUp x v).demanding r (.register identity)
    | _ => h.lookedUp x v

/-- What comes of the names one after the other: the next one finds what is made for the first, and
its registry may remember the first. -/
def fates (h : Host) (x : ExtensionsRef) (c : ConfigurationRef) (identity : String) :
    List String → List Fate
  | [] => []
  | name :: rest =>
    h.fate x c identity name :: (h.afterName x c identity name).fates x c identity rest

/-- Names lead to the same registries in both states, and find them equally willing. -/
structure Matches (x : ExtensionsRef) (g h : Host) : Prop where
  configurations : h.configurations = g.configurations
  identity : ∀ u, (h.urls.get u).identity = (g.urls.get u).identity
  protocol : ∀ u, (h.urls.get u).protocol = (g.urls.get u).protocol
  instances : (h.extensions.get x).instances = (g.extensions.get x).instances
  constructors : (h.extensions.get x).registries = (g.extensions.get x).registries
  next : h.registries.next = g.registries.next
  history : ∀ r, (h.registries.get r).history = (g.registries.get r).history

instance : Course (Matches x) where
  refl _ := ⟨rfl, fun _ => rfl, fun _ => rfl, rfl, rfl, rfl, fun _ => rfl⟩
  trans first second :=
    ⟨second.configurations.trans first.configurations,
      fun u => (second.identity u).trans (first.identity u),
      fun u => (second.protocol u).trans (first.protocol u),
      second.instances.trans first.instances, second.constructors.trans first.constructors,
      second.next.trans first.next, fun r => (second.history r).trans (first.history r)⟩

theorem Matches.of_eq {g h : Host} {x : ExtensionsRef} (registries : h.registries = g.registries)
    (extensions : h.extensions = g.extensions)
    (configurations : h.configurations = g.configurations)
    (urls : ∀ u, (h.urls.get u).Like (g.urls.get u)) : g.Matches x h := by
  refine ⟨configurations, fun u => (urls u).identity, fun u => (urls u).protocol, ?_, ?_, ?_, ?_⟩
  · rw [extensions]
  · rw [extensions]
  · rw [registries]
  · intro r
    rw [registries]

theorem Noted.matches {g h : Host} {x : ExtensionsRef} (noted : g.Noted h) : g.Matches x h :=
  .of_eq noted.registries noted.extensions noted.registering.configurations
    noted.registering.like

variable {g h : Host} {x : ExtensionsRef} {c : ConfigurationRef}

namespace Matches

theorem fresh (same : g.Matches x h) : h.registries.fresh = g.registries.fresh :=
  congrArg Handle.mk same.next

theorem refusal? (same : g.Matches x h) (r : RegistryRef) (demand : Demand) :
    (h.registries.get r).refusal? demand = (g.registries.get r).refusal? demand := by
  unfold Registry.refusal?
  rw [same.history]

theorem demanding (same : g.Matches x h) (r : RegistryRef) (demand : Demand) :
    (g.demanding r demand).Matches x (h.demanding r demand) := by
  refine ⟨same.configurations, same.identity, same.protocol, same.instances, same.constructors,
    same.next, fun other => ?_⟩
  show ((h.registries.modify r _).get other).history = ((g.registries.modify r _).get other).history
  rw [Store.get_modify, Store.get_modify]
  split
  · rw [Registry.history_heard, Registry.history_heard, same.history]
  · exact same.history other

theorem registryFor (same : g.Matches x h) (v : UrlRef) (protocol : String) :
    (h.extensions.get x).registryFor v protocol = (g.extensions.get x).registryFor v protocol := by
  unfold Extensions.registryFor
  rw [same.constructors]

theorem registryAt (same : g.Matches x h) (v : UrlRef) :
    h.registryAt x v = g.registryAt x v := by
  unfold Host.registryAt
  rw [same.instances, same.identity, same.registryFor, same.protocol, same.fresh]

theorem making (same : g.Matches x h) (identity : String) (registry : Registry) :
    (g.making x identity registry).Matches x (h.making x identity registry) := by
  have factory := g.extensions_making x identity registry
  have factory' := h.extensions_making x identity registry
  refine ⟨same.configurations, same.identity, same.protocol, ?_, ?_, congrArg (· + 1) same.next, ?_⟩
  · rw [factory, factory', same.instances, same.fresh]
  · rw [factory, factory']
    exact same.constructors
  · intro r
    show ((h.registries.add registry).get r).history = ((g.registries.add registry).get r).history
    rw [Store.get_add, Store.get_add, same.fresh]
    split
    · rfl
    · exact same.history r

theorem lookedUp (same : g.Matches x h) (v : UrlRef) :
    (g.lookedUp x v).Matches x (h.lookedUp x v) := by
  unfold Host.lookedUp
  rw [same.instances, same.identity, same.registryFor, same.protocol]
  split
  · exact same.making _ _
  · exact same

theorem registryAddress? (same : g.Matches x h) (name : String) :
    h.registryAddress? c name = g.registryAddress? c name := by
  unfold Host.registryAddress?
  rw [same.configurations]

theorem fate (same : g.Matches x h) (identity name : String) :
    h.fate x c identity name = g.fate x c identity name := by
  unfold Host.fate
  rw [same.registryAddress?]
  cases g.registryAddress? c name with
  | none => rfl
  | some v => simp only [same.registryAt, (same.lookedUp v).refusal?]

theorem afterName (same : g.Matches x h) (identity name : String) :
    (g.afterName x c identity name).Matches x (h.afterName x c identity name) := by
  unfold Host.afterName
  rw [same.registryAddress?]
  cases g.registryAddress? c name with
  | none => exact same
  | some v =>
    have looked := same.lookedUp v
    simp only [same.registryAt]
    split
    · exact looked.demanding _ _
    · exact looked

theorem fates (same : g.Matches x h) (identity : String) (names : List String) :
    h.fates x c identity names = g.fates x c identity names := by
  induction names generalizing g h with
  | nil => rfl
  | cons name rest ih =>
    rw [Host.fates, Host.fates, same.fate, ih (same.afterName identity name)]

end Matches

end Host

variable {h : Host} {x : ExtensionsRef} {c : ConfigurationRef}

theorem Host.LooksUp.leads {v : UrlRef} {result : Except Fault (Option RegistryRef)} {mid : Host}
    (looked : h.LooksUp x v result mid) : h.registryAt x v = result ∧ h.lookedUp x v = mid := by
  unfold registryAt lookedUp
  cases looked with
  | kept found => simp [found]
  | absent missing nothing => simp [missing, nothing, Except.map]
  | made missing makes => simp [missing, makes, Except.map]
  | failing missing fails => simp [missing, fails, Except.map]

theorem Host.lookedUp_rest (h : Host) (x : ExtensionsRef) (v : UrlRef) :
    ∃ registries extensions, h.lookedUp x v = { h with registries, extensions } := by
  unfold lookedUp
  split
  · exact ⟨_, _, rfl⟩
  · exact ⟨h.registries, h.extensions, rfl⟩

theorem findRegistry_leads_to (v : UrlRef) :
    ∃ h', (findRegistry x v).ending h = (h.registryAt x v, h') ∧ (h.lookedUp x v).Noted h' := by
  obtain ⟨result, mid, h', ends, looked, noted⟩ := findRegistry_ends h x v
  obtain ⟨rfl, rfl⟩ := looked.leads
  exact ⟨h', ends, noted⟩

theorem Host.modify_matches {r : RegistryRef} (demand : Demand) (f : Registry → Registry)
    (same : (f (h.registries.get r)).history = ((h.registries.get r).heard demand).history)
    (journal : List Event) :
    (h.demanding r demand).Matches x { h with registries := h.registries.modify r f, journal } := by
  refine ⟨rfl, fun _ => rfl, fun _ => rfl, rfl, rfl, rfl, ?_⟩
  intro other
  show ((h.registries.modify r f).get other).history = ((h.registries.modify r _).get other).history
  rw [Store.get_modify, Store.get_modify]
  split
  · exact same
  · rfl

theorem Host.asked_matches (h : Host) {r : RegistryRef} {script : RegistryScript}
    {asked : List Demand} (state : (h.registries.get r).state = .scripted script asked)
    (demand : Demand) (journal : List Event) :
    (h.demanding r demand).Matches x
      { h with
        registries := h.registries.modify r fun registry =>
          { registry with state := .scripted script (demand :: asked) },
        journal } := by
  have history := Registry.history_scripted state
  refine modify_matches demand _ ?_ journal
  rw [Registry.history_heard, history]
  rfl

/-- A registry that is asked answers as its history says, and remembers what it was asked. -/
theorem Host.Consults.replies {r : RegistryRef} {errand : Errand} {result : Except Fault Unit}
    {mid h' : Host} (consults : h.Consults r errand result mid) (logged : mid.Logged h')
    (call : Bool → RegistryCall)
    (asks : ∀ host done, (errand.event host done).call? = some (call done)) :
    let fault? := (h.registries.get r).refusal? errand.demand
    result = fault?.elim (.ok ()) .error ∧ (h.demanding r errand.demand).Matches x h' ∧
      Consulted [call fault?.isNone] h h' := by
  have kept := logged.noted.matches (x := x)
  cases consults with
  | @listed addresses state =>
    have none := Registry.history_direct state
    have listed := modify_matches (x := x) (h := h) errand.demand
      (fun registry => { registry with state := .direct (errand.relist addresses) })
      (by rw [Registry.history_heard, none]; rfl)
    rw [Registry.refusal?_direct state]
    exact ⟨rfl, Course.trans (listed _) kept, .noted (.one rfl (asks .none true)) logged.noted⟩
  | @granted script asked host state agrees =>
    rw [Registry.refusal?_scripted state, agrees]
    exact ⟨rfl, Course.trans (h.asked_matches state _ _) kept,
      .noted (.one rfl (asks host true)) logged.noted⟩
  | @failed script asked fault host state fails =>
    rw [Registry.refusal?_scripted state, fails]
    exact ⟨rfl, Course.trans (h.asked_matches state _ _) kept,
      .noted (.one rfl (asks host false)) logged.noted⟩

theorem registerService_replies (r : RegistryRef) (u : UrlRef) :
    let demand := Demand.register (h.urls.get u).identity
    let fault? := (h.registries.get r).refusal? demand
    ∃ h', (registerService r u).ending h = (fault?.elim (.ok ()) .error, h') ∧
      (h.demanding r demand).Matches x h' ∧
      Consulted [.register r (h.urls.get u).identity fault?.isNone] h h' := by
  obtain ⟨_, _, h', ends, consults, logged⟩ := registerService_consults h r u
  obtain ⟨rfl, matching, asked⟩ := consults.replies (x := x) logged
    (.register r (h.urls.get u).identity) fun _ _ => rfl
  exact ⟨h', ends, matching, asked⟩

theorem offerTo_fate (r : RegistryRef) (u : UrlRef) (name : String) :
    let demand := Demand.register (h.urls.get u).identity
    let fate := Fate.under r ((h.registries.get r).refusal? demand)
    ∃ h', (offerTo r u name).ending h = (fate.outcome, h') ∧ (h.demanding r demand).Matches x h' ∧
      Consulted (fate.call? (h.urls.get u).identity).toList h h' := by
  obtain ⟨mid, replies, matching, asked⟩ := registerService_replies (x := x) (h := h) r u
  dsimp only
  cases fault? : (h.registries.get r).refusal? (.register (h.urls.get u).identity) with
  | none =>
    rw [fault?] at replies asked
    exact ⟨mid, offerTo_taken replies, matching, asked⟩
  | some fault =>
    rw [fault?] at replies asked
    rcases offerTo_failed name replies with
      ⟨untold, breaks⟩ | ⟨told, h', declines, logged⟩
    · have broken : Fate.under r (some fault) = .broken (some r) fault := by
        simp [Fate.under, untold]
      rw [broken]
      exact ⟨mid, breaks, matching, asked⟩
    · have declined : Fate.under r (some fault) = .declined r := by simp [Fate.under, told]
      rw [declined]
      exact ⟨h', declines, Course.trans matching logged.noted.matches, asked.noted logged.noted⟩

/-- Offering an address under a name ends as the fate of the name says. -/
theorem registerAt_fate (u : UrlRef) (name : String) :
    let identity := (h.urls.get u).identity
    ∃ h', (registerAt x c u name).ending h = ((h.fate x c identity name).outcome, h') ∧
      (h.afterName x c identity name).Matches x h' ∧
      Consulted ((h.fate x c identity name).call? identity).toList h h' := by
  unfold Host.fate Host.afterName
  cases address : h.registryAddress? c name with
  | none =>
    obtain ⟨h', ends, logged⟩ := registerAt_unknown (x := x) u address
    exact ⟨h', ends, logged.noted.matches, .uneventful logged.noted.uneventful⟩
  | some v =>
    obtain ⟨mid, ends, noted⟩ := findRegistry_leads_to (h := h) (x := x) v
    have quiet : h.Uneventful mid ∧ (mid.urls.get u).identity = (h.urls.get u).identity := by
      obtain ⟨registries, extensions, same⟩ := h.lookedUp_rest x v
      rw [same] at noted
      exact ⟨noted.uneventful, by rw [noted.registering.urls]⟩
    dsimp only
    cases leads : h.registryAt x v with
    | error fault =>
      rw [leads] at ends
      exact ⟨mid, registerAt_lost address u ends, noted.matches, .uneventful quiet.1⟩
    | ok found =>
      rw [leads] at ends
      cases found with
      | none =>
        obtain ⟨h', ends, logged⟩ := registerAt_unfound address u ends
        exact ⟨h', ends, Course.trans noted.matches logged.noted.matches,
          .uneventful (Course.trans quiet.1 logged.noted.uneventful)⟩
      | some r =>
        obtain ⟨h', offered, matching, asked⟩ := offerTo_fate (x := x) (h := mid) r u name
        rw [quiet.2] at offered matching asked
        rw [noted.matches.refusal? (x := x) r] at offered asked
        exact ⟨h', (registerAt_found address u ends).trans offered,
          Course.trans (noted.matches.demanding r _) matching,
          Consulted.trans (.uneventful quiet.1) asked⟩

theorem registerAt_identity {name : String} {result : Except Fault (Option RegistryRef)}
    {h' : Host} (ends : (registerAt x c u name).ending h = (result, h')) :
    (h'.urls.get u).identity = (h.urls.get u).identity := by
  have registering := (registerAt_within x c u name).leaves (congrArg Prod.snd ends)
  rw [registering.urls]

theorem filterMap_cons_eq {α β : Type} (f : α → Option β) (a : α) (l : List α) :
    (a :: l).filterMap f = (f a).toList ++ l.filterMap f := by
  cases found : f a <;> simp [found]

variable {names : List String} {before after : List Fate} {r : Option RegistryRef} {fault : Fault}

theorem registerAll_passes {identity : String} (u : UrlRef)
    (own : (h.urls.get u).identity = identity)
    (passes : ∀ fate ∈ h.fates x c identity names, fate.Passes) :
    ∃ h', (registerAll x c u names).Yields h ((h.fates x c identity names).filterMap Fate.taker?)
        h' ∧
      Consulted ((h.fates x c identity names).filterMap (Fate.call? identity)) h h' := by
  induction names generalizing h with
  | nil => exact ⟨h, rfl, .of_eq rfl⟩
  | cons name rest ih =>
    obtain ⟨mid, first, matching, asked⟩ := registerAt_fate (h := h) (x := x) (c := c) u name
    have still := registerAt_identity first
    rw [own] at first matching asked still
    rw [Host.fates] at passes ⊢
    obtain ⟨passes, others⟩ := List.forall_mem_cons.1 passes
    -- the others find the registries as the first name leaves them
    rw [← matching.fates] at others ⊢
    obtain ⟨h', more, askedMore⟩ := ih still others
    rw [passes.outcome] at first
    refine ⟨h', ?_, ?_⟩
    · rw [filterMap_cons_eq]
      exact yields_bind.2 ⟨_, _, first, yields_bind.2 ⟨_, _, more, yields_pure.2 ⟨rfl, rfl⟩⟩⟩
    · rw [filterMap_cons_eq]
      exact asked.trans askedMore

theorem registerAll_breaks {identity : String} (u : UrlRef)
    (own : (h.urls.get u).identity = identity)
    (breaks : h.fates x c identity names = before ++ .broken r fault :: after)
    (passes : ∀ fate ∈ before, fate.Passes) :
    ∃ h', (registerAll x c u names).Fails h fault h' ∧
      Consulted ((before ++ [Fate.broken r fault]).filterMap (Fate.call? identity)) h h' := by
  -- on the fates before the one that does not pass, each of which belongs to a name
  induction before generalizing names h with
  | nil =>
    cases names with
    | nil => cases breaks
    | cons name rest =>
      obtain ⟨mid, first, -, asked⟩ := registerAt_fate (h := h) (x := x) (c := c) u name
      rw [own] at first asked
      obtain ⟨broken, -⟩ := List.cons_eq_cons.1 breaks
      rw [broken] at first asked
      refine ⟨mid, fails_bind.2 (Or.inl first), ?_⟩
      rw [List.nil_append, filterMap_cons_eq, List.filterMap_nil, List.append_nil]
      exact asked
  | cons fate before ih =>
    cases names with
    | nil => cases breaks
    | cons name rest =>
      obtain ⟨mid, first, matching, asked⟩ := registerAt_fate (h := h) (x := x) (c := c) u name
      have still := registerAt_identity first
      rw [own] at first matching asked still
      obtain ⟨same, later⟩ := List.cons_eq_cons.1 breaks
      obtain ⟨passes, others⟩ := List.forall_mem_cons.1 passes
      obtain ⟨h', more, askedMore⟩ := ih still ((matching.fates identity rest).trans later) others
      rw [same] at first asked
      rw [passes.outcome] at first
      refine ⟨h', fails_bind.2 (Or.inr ⟨_, _, first, fails_bind.2 (Or.inl more)⟩), ?_⟩
      rw [List.cons_append, filterMap_cons_eq]
      exact asked.trans askedMore

end RpcHost
