import RpcHost.Proofs.Listing
/-!
What the journal says of registrations: for each registry and identity, which registrations were
taken and which were tried to be withdrawn, in order. A direct registry lists what the last of
them says.
-/
namespace RpcHost

open Attempt Host

/-- What an event says of the identity at the registry: that it was taken, that it was tried to
be withdrawn, or nothing. -/
def Event.mark? (r : RegistryRef) (identity : String) : Event → Option Bool
  | registered other _ announced taken =>
    if other = r ∧ announced = identity ∧ taken = true then some true else none
  | unregistered other _ announced _ =>
    if other = r ∧ announced = identity then some false else none
  | _ => none

def marks (r : RegistryRef) (identity : String) (events : List Event) : List Bool :=
  events.filterMap (Event.mark? r identity)

def taken (r : RegistryRef) (identity : String) (events : List Event) : Nat :=
  (marks r identity events).count true

def tried (r : RegistryRef) (identity : String) (events : List Event) : Nat :=
  (marks r identity events).count false

theorem marks_append (r : RegistryRef) (identity : String) (before after : List Event) :
    marks r identity (before ++ after) = marks r identity before ++ marks r identity after :=
  List.filterMap_append

theorem Event.mark?_of_other {event : Event} (other : event.isRegistration = false)
    (r : RegistryRef) (identity : String) : event.mark? r identity = none := by
  cases event with
  | registered => cases other
  | unregistered => cases other
  | _ => rfl

theorem marks_uneventful {events : List Event}
    (others : ∀ event ∈ events, event.isRegistration = false) (r : RegistryRef)
    (identity : String) : marks r identity events = [] :=
  List.filterMap_eq_nil_iff.2 fun event member =>
    Event.mark?_of_other (others event member) r identity

/-- Where registrations stand: for each identity, the registries that took it. -/
abbrev Standing := String → List RegistryRef

def Standing.one (identity : String) (registries : List RegistryRef) : Standing :=
  fun other => if identity = other then registries else []

def Standing.stamps (standing : Standing) (mark : Bool) (r : RegistryRef) (identity : String) :
    List Bool :=
  List.replicate ((standing identity).count r) mark

namespace Standing

theorem stamps_nil (standing : Standing) {mark : Bool} {r : RegistryRef} {identity : String}
    (none : standing identity = []) : standing.stamps mark r identity = [] := by
  unfold stamps
  rw [none]
  rfl

theorem stamps_one_nil (identity : String) (mark : Bool) (r : RegistryRef) (other : String) :
    (one identity []).stamps mark r other = [] :=
  stamps_nil _ (by unfold one; split <;> rfl)

theorem stamps_one_append (identity : String) (before after : List RegistryRef) (mark : Bool)
    (r : RegistryRef) (other : String) :
    (one identity (before ++ after)).stamps mark r other =
      (one identity before).stamps mark r other ++ (one identity after).stamps mark r other := by
  unfold stamps one
  split
  · rw [List.count_append, List.replicate_append_replicate]
  · rfl

theorem stamps_one_singleton (identity : String) (registry : RegistryRef) (mark : Bool)
    (r : RegistryRef) (other : String) :
    (one identity [registry]).stamps mark r other =
      if registry = r ∧ identity = other then [mark] else [] := by
  unfold stamps one
  by_cases same : identity = other <;> by_cases here : registry = r <;> simp [same, here]

end Standing

namespace Host

def listsAt (h : Host) (r : RegistryRef) (identity : String) : Bool :=
  decide (r.index < h.registries.next) && (h.registries.get r).lists identity

def DirectAt (h : Host) (r : RegistryRef) : Prop :=
  h.registries.Allocated r → (h.registries.get r).Direct

def Stocked (h : Host) (x : ExtensionsRef) : Prop :=
  ∀ identity r, (h.extensions.get x).instances.find? identity = some r →
    h.registries.Allocated r

theorem listsAt_of_allocated {h : Host} {r : RegistryRef} (known : h.registries.Allocated r)
    (identity : String) : h.listsAt r identity = (h.registries.get r).lists identity := by
  have decided : decide (r.index < h.registries.next) = true := decide_eq_true known
  unfold listsAt
  rw [decided, Bool.true_and]

theorem listsAt_of_not_allocated {h : Host} {r : RegistryRef}
    (unknown : ¬h.registries.Allocated r) (identity : String) : h.listsAt r identity = false := by
  have decided : decide (r.index < h.registries.next) = false := decide_eq_false unknown
  unfold listsAt
  rw [decided, Bool.false_and]

theorem listsAt_congr {h h' : Host} (registries : h'.registries = h.registries)
    (r : RegistryRef) (identity : String) : h'.listsAt r identity = h.listsAt r identity := by
  unfold listsAt
  rw [registries]

/-- Between the states these marks were left, and a direct registry lists what the last of them
says. -/
structure Recorded (x : ExtensionsRef) (left : RegistryRef → String → List Bool) (h h' : Host) :
    Prop where
  journal : ∃ events, h'.journal = h.journal ++ events ∧
    ∀ r identity, marks r identity events = left r identity
  stocked : h'.Stocked x
  listed : ∀ r, h'.DirectAt r → h.DirectAt r ∧ ∀ identity,
    h'.listsAt r identity = (left r identity).getLastD (h.listsAt r identity)

def unmarked : RegistryRef → String → List Bool := fun _ _ => []

namespace Recorded

variable {x : ExtensionsRef} {h mid h' : Host} {left right : RegistryRef → String → List Bool}

theorem congr (recorded : Recorded x left h h')
    (same : ∀ r identity, left r identity = right r identity) : Recorded x right h h' := by
  obtain rfl : left = right := funext fun r => funext fun identity => same r identity
  exact recorded

theorem unlisted {identity : String} {mark : Bool} (recorded : Recorded x unmarked h h') :
    Recorded x ((Standing.one identity []).stamps mark) h h' :=
  recorded.congr fun r other => (Standing.stamps_one_nil identity mark r other).symm

theorem still (stocked : h.Stocked x) (events : List Event)
    (journal : h'.journal = h.journal ++ events)
    (none : ∀ r identity, marks r identity events = [])
    (registries : h'.registries = h.registries) (extensions : h'.extensions = h.extensions) :
    Recorded x unmarked h h' where
  journal := ⟨events, journal, none⟩
  stocked := by
    unfold Stocked
    rw [registries, extensions]
    exact stocked
  listed r direct := by
    refine ⟨?_, fun identity => listsAt_congr registries r identity⟩
    unfold DirectAt at direct
    rwa [registries] at direct

theorem quiet (stocked : h.Stocked x) (uneventful : h.Uneventful h')
    (registries : h'.registries = h.registries) (extensions : h'.extensions = h.extensions) :
    Recorded x unmarked h h' := by
  obtain ⟨events, others, journal⟩ := uneventful
  exact .still stocked events journal (marks_uneventful others) registries extensions

theorem refl (stocked : h.Stocked x) : Recorded x unmarked h h :=
  .still stocked [] (List.append_nil _).symm (fun _ _ => rfl) rfl rfl

theorem trans (first : Recorded x left h mid) (second : Recorded x right mid h') :
    Recorded x (fun r identity => left r identity ++ right r identity) h h' where
  journal := by
    obtain ⟨before, grows, marked⟩ := first.journal
    obtain ⟨after, grows', marked'⟩ := second.journal
    refine ⟨before ++ after, by rw [grows', grows, List.append_assoc], fun r identity => ?_⟩
    rw [marks_append, marked, marked']
  stocked := second.stocked
  listed r direct := by
    obtain ⟨between, lists'⟩ := second.listed r direct
    obtain ⟨before, lists⟩ := first.listed r between
    refine ⟨before, fun identity => ?_⟩
    rw [lists', lists, List.getLastD_eq_getLast?, List.getLastD_eq_getLast?,
      List.getLastD_eq_getLast?, List.getLast?_append]
    cases (right r identity).getLast? <;> rfl

theorem frame (recorded : Recorded x left h mid) (h' : Host) (journal : h'.journal = mid.journal)
    (registries : h'.registries = mid.registries) (extensions : h'.extensions = mid.extensions) :
    Recorded x left h h' :=
  (recorded.trans (.quiet recorded.stocked (.of_eq journal) registries extensions)).congr
    fun _ _ => List.append_nil _

theorem noted {other : Host} (recorded : Recorded x left h mid) (noted : other.Noted h')
    (journal : other.journal = mid.journal) (registries : other.registries = mid.registries)
    (extensions : other.extensions = mid.extensions) : Recorded x left h h' := by
  have framed := recorded.frame other journal registries extensions
  exact (framed.trans (.quiet framed.stocked noted.uneventful noted.registries
    noted.extensions)).congr fun _ _ => List.append_nil _

theorem grown (recorded : Recorded x left h mid) (grown : mid.Grown h') :
    Recorded x left h h' :=
  (recorded.trans (.quiet recorded.stocked grown.uneventful grown.registries
    grown.extensions)).congr fun _ _ => List.append_nil _

theorem posted {registry : RegistryRef} {identity : String} {mark : Bool} {event : Event}
    (stocked : h.Stocked x) (journal : h'.journal = h.journal ++ [event])
    (extensions : h'.extensions = h.extensions)
    (marked : ∀ r other, (event.mark? r other).toList =
      (Standing.one identity [registry]).stamps mark r other)
    (next : h'.registries.next = h.registries.next)
    (others : ∀ r, r ≠ registry → h'.registries.get r = h.registries.get r)
    (known : mark = true → h.registries.Allocated registry)
    (lists : (h'.registries.get registry).Direct → (h.registries.get registry).Direct ∧
      ∀ other, (h'.registries.get registry).lists other =
        if identity = other then mark else (h.registries.get registry).lists other) :
    Recorded x ((Standing.one identity [registry]).stamps mark) h h' where
  journal := by
    refine ⟨[event], journal, fun r other => ?_⟩
    rw [← marked]
    unfold marks
    cases found : event.mark? r other <;> simp [found]
  stocked := by
    intro identity r found
    rw [extensions] at found
    exact Nat.lt_of_lt_of_eq (stocked identity r found) next.symm
  listed r direct := by
    have same : h'.registries.Allocated r ↔ h.registries.Allocated r := by
      unfold Store.Allocated
      rw [next]
    -- a registry that was not there lists nothing, before and after
    by_cases there : h.registries.Allocated r
    · by_cases here : r = registry
      · subst here
        obtain ⟨before, now⟩ := lists (direct (same.2 there))
        refine ⟨fun _ => before, fun other => ?_⟩
        rw [listsAt_of_allocated (same.2 there), listsAt_of_allocated there, now,
          Standing.stamps_one_singleton]
        split <;> simp_all
      · refine ⟨fun _ => others r here ▸ direct (same.2 there), fun other => ?_⟩
        rw [listsAt_of_allocated (same.2 there), listsAt_of_allocated there, others r here,
          Standing.stamps_one_singleton, if_neg fun both => here both.1.symm]
        rfl
    · refine ⟨fun known => absurd known there, fun other => ?_⟩
      rw [listsAt_of_not_allocated there,
        listsAt_of_not_allocated fun known => there (same.1 known),
        Standing.stamps_one_singleton]
      split
      · rename_i both
        cases mark with
        | true => exact absurd (both.1 ▸ known rfl) there
        | false => rfl
      · rfl

theorem modified {registry : RegistryRef} {identity : String} {mark : Bool} {event : Event}
    {f : Registry → Registry} (stocked : h.Stocked x)
    (marked : ∀ r other, (event.mark? r other).toList =
      (Standing.one identity [registry]).stamps mark r other)
    (known : mark = true → h.registries.Allocated registry)
    (lists : (f (h.registries.get registry)).Direct → (h.registries.get registry).Direct ∧
      ∀ other, (f (h.registries.get registry)).lists other =
        if identity = other then mark else (h.registries.get registry).lists other) :
    Recorded x ((Standing.one identity [registry]).stamps mark) h
      { h with registries := h.registries.modify registry f, journal := h.journal ++ [event] } := by
  refine posted stocked rfl rfl marked rfl (fun r differ => Store.get_modify_ne _ differ _) known ?_
  show ((h.registries.modify registry f).get registry).Direct → _
  rw [Store.get_modify_self]
  exact lists

theorem apart {registry : RegistryRef} {event : Event} {f : Registry → Registry}
    (stocked : h.Stocked x) (none : ∀ r other, event.mark? r other = none)
    (other : ¬(f (h.registries.get registry)).Direct) :
    Recorded x unmarked h
      { h with registries := h.registries.modify registry f, journal := h.journal ++ [event] } where
  journal := ⟨[event], rfl, fun r identity => by simp [marks, none, unmarked]⟩
  stocked := stocked
  listed r direct := by
    by_cases there : h.registries.Allocated r
    · have differ : r ≠ registry := by
        rintro rfl
        have own : ((h.registries.modify r f).get r).Direct := direct there
        rw [Store.get_modify_self] at own
        exact other own
      have same : (h.registries.modify registry f).get r = h.registries.get r :=
        Store.get_modify_ne _ differ _
      refine ⟨fun _ => same ▸ direct there, fun identity => ?_⟩
      rw [listsAt_of_allocated there, ← same]
      exact listsAt_of_allocated (h := { h with
        registries := h.registries.modify registry f, journal := h.journal ++ [event] }) there _
    · refine ⟨fun known => absurd known there, fun identity => ?_⟩
      rw [listsAt_of_not_allocated there]
      exact listsAt_of_not_allocated (h := { h with
        registries := h.registries.modify registry f, journal := h.journal ++ [event] }) there _

end Recorded

end Host

variable {x : ExtensionsRef} {c : ConfigurationRef} {h h' : Host} {u : UrlRef}
  {registry : RegistryRef} {identity : String}

theorem Registry.not_direct {r : Registry} {script : RegistryScript} {asked : List Demand}
    (state : r.state = .scripted script asked) : ¬r.Direct := by
  rintro ⟨listed, direct⟩
  rw [state] at direct
  cases direct

theorem Registry.lists_insert {r : Registry} {listed : Keyed Unit}
    (state : r.state = .direct listed) (identity other : String) :
    ({ r with state := .direct (listed.insert identity ()) } : Registry).lists other =
      if identity = other then true else r.lists other := by
  show ((listed.insert identity ()).find? other).isSome = _
  rw [Keyed.find?_insert]
  unfold lists Keyed.contains
  rw [state]
  by_cases same : identity = other <;> simp [same, eq_comm]

theorem Registry.lists_erase {r : Registry} {listed : Keyed Unit}
    (state : r.state = .direct listed) (identity other : String) :
    ({ r with state := .direct (listed.erase identity) } : Registry).lists other =
      if identity = other then false else r.lists other := by
  show ((listed.erase identity).find? other).isSome = _
  rw [Keyed.find?_erase]
  unfold lists Keyed.contains
  rw [state]
  by_cases same : identity = other <;> simp [same, eq_comm]

theorem mark?_registered (registry : RegistryRef) (identity : String) (host : Option String)
    (r : RegistryRef) (other : String) :
    (Event.mark? r other (.registered registry host identity true)).toList =
      (Standing.one identity [registry]).stamps true r other := by
  rw [Standing.stamps_one_singleton]
  by_cases here : registry = r <;> by_cases same : identity = other <;>
    simp [Event.mark?, here, same]

theorem mark?_unregistered (registry : RegistryRef) (identity : String) (host : Option String)
    (done : Bool) (r : RegistryRef) (other : String) :
    (Event.mark? r other (.unregistered registry host identity done)).toList =
      (Standing.one identity [registry]).stamps false r other := by
  rw [Standing.stamps_one_singleton]
  by_cases here : registry = r <;> by_cases same : identity = other <;>
    simp [Event.mark?, here, same]

theorem Host.Consults.recorded {errand : Errand} {mark : Bool} {mid : Host}
    (consults : h.Consults registry errand (.ok ()) mid) (stocked : h.Stocked x)
    (known : mark = true → h.registries.Allocated registry)
    (marked : ∀ host r other, (Event.mark? r other (errand.event host true)).toList =
      (Standing.one identity [registry]).stamps mark r other)
    (lists : ∀ (r : Registry) (listed : Keyed Unit), r.state = .direct listed → ∀ other,
      Registry.lists { r with state := .direct (errand.relist listed) } other =
        if identity = other then mark else r.lists other) :
    Recorded x ((Standing.one identity [registry]).stamps mark) h mid := by
  cases consults with
  | @listed listed state =>
    exact Recorded.modified stocked (marked none) known fun _ => ⟨⟨_, state⟩, lists _ _ state⟩
  | granted host state =>
    exact Recorded.modified stocked (marked host) known fun direct =>
      absurd direct (Registry.not_direct rfl)

theorem registerService_recorded (stocked : h.Stocked x) (known : h.registries.Allocated registry)
    (own : (h.urls.get u).identity = identity) :
    (∃ h', (registerService registry u).Yields h () h' ∧
      Recorded x ((Standing.one identity [registry]).stamps true) h h') ∨
    ∃ fault h', (registerService registry u).Fails h fault h' ∧ Recorded x unmarked h h' := by
  obtain ⟨result, mid, h', ends, consults, logged⟩ := registerService_consults h registry u
  rw [own] at consults
  cases result with
  | ok =>
    have took := consults.recorded stocked (fun _ => known)
      (fun host => mark?_registered registry identity host)
      fun _ _ state => Registry.lists_insert state identity
    exact Or.inl ⟨h', ends, took.noted logged.noted rfl rfl rfl⟩
  | error fault =>
    cases consults with
    | @failed script asked _ host =>
      have silent (r : RegistryRef) (other : String) :
          Event.mark? r other (.registered registry host identity false) = none := by
        simp [Event.mark?]
      have declined := Recorded.apart (f := fun registry => { registry with
        state := .scripted script (.register identity :: asked) }) stocked silent
          (Registry.not_direct (r := { h.registries.get registry with
            state := .scripted script (.register identity :: asked) }) rfl)
      exact Or.inr ⟨fault, h', ends, declined.noted logged.noted rfl rfl rfl⟩

theorem unregisterService_recorded (stocked : h.Stocked x)
    (own : (h.urls.get u).identity = identity) :
    Recorded x ((Standing.one identity [registry]).stamps false) h
      ((unregisterService registry u).after h) := by
  obtain ⟨result, mid, h', ends, consults, logged⟩ := unregisterService_consults h registry u
  have leaves : (unregisterService registry u).after h = h' := congrArg Prod.snd ends
  rw [own] at consults
  rw [leaves]
  refine Recorded.noted ?_ logged.noted rfl rfl rfl
  cases result with
  | ok =>
    exact consults.recorded stocked (by simp)
      (fun host => mark?_unregistered registry identity host true)
      fun _ _ state => Registry.lists_erase state identity
  | error fault =>
    cases consults with
    | failed host =>
      exact Recorded.modified stocked (mark?_unregistered registry identity host false) (by simp)
        fun direct => absurd direct (Registry.not_direct rfl)

theorem RegistryMaker.lists_make {maker : RegistryMaker} {r : Registry}
    (makes : maker.make u = .ok (some r)) (identity : String) : r.lists identity = false := by
  cases maker with
  | direct =>
    cases makes
    rfl
  | scripted =>
    cases makes
    rfl
  | nothing => cases makes
  | failing => cases makes

theorem making_recorded {r : Registry} (stocked : h.Stocked x)
    (bare : ∀ identity, r.lists identity = false) :
    Recorded x unmarked h (h.making x identity r) where
  journal := ⟨[], (List.append_nil _).symm, fun _ _ => rfl⟩
  stocked := by
    intro other registry found
    rw [extensions_making] at found
    rw [Keyed.find?_insert] at found
    split at found
    · cases found
      exact h.registries.allocated_fresh_add r
    · exact (stocked other registry found).mono (Nat.le_succ _)
  listed registry direct := by
    have grown : (h.making x identity r).registries = h.registries.add r := rfl
    by_cases known : h.registries.Allocated registry
    · have later : (h.registries.add r).Allocated registry := known.mono (Nat.le_succ _)
      have same : (h.registries.add r).get registry = h.registries.get registry :=
        Store.get_add_ne _ known.ne_fresh r
      refine ⟨fun _ => same ▸ direct later, fun other => ?_⟩
      rw [listsAt_of_allocated later, listsAt_of_allocated known, grown, same]
      rfl
    · refine ⟨fun there => absurd there known, fun other => ?_⟩
      rw [listsAt_of_not_allocated known]
      by_cases new : registry = h.registries.fresh
      · subst new
        rw [listsAt_of_allocated (h.registries.allocated_fresh_add r), grown, Store.get_add_fresh]
        exact bare other
      · refine listsAt_of_not_allocated (fun later => ?_) other
        have bound : registry.index < h.registries.next + 1 := later
        have differ : registry.index ≠ h.registries.next := Store.index_ne new
        exact known (show registry.index < h.registries.next by omega)

theorem findRegistry_recorded {found : Option RegistryRef} (stocked : h.Stocked x)
    (ends : (findRegistry x u).Yields h found h') :
    Recorded x unmarked h h' ∧ ∀ r, found = some r → h'.registries.Allocated r := by
  obtain ⟨result, mid, h₁, run, looked, noted⟩ := findRegistry_ends h x u
  obtain ⟨rfl, rfl⟩ := Prod.mk.inj (ends.symm.trans run)
  have still (same : mid = h) : Recorded x unmarked h h' := by
    subst same
    exact (Recorded.refl stocked).noted noted rfl rfl rfl
  generalize accepted : (Except.ok found : Except Fault (Option RegistryRef)) = result at looked
  cases looked with
  | kept kept =>
    obtain rfl := Except.ok.inj accepted
    refine ⟨still rfl, fun registry same => ?_⟩
    obtain rfl := Option.some.inj same
    exact (still rfl).stocked _ _ (by rw [noted.extensions]; exact kept)
  | absent =>
    obtain rfl := Except.ok.inj accepted
    exact ⟨still rfl, by simp⟩
  | @made r _ makes =>
    obtain rfl := Except.ok.inj accepted
    obtain ⟨_, _, makes⟩ := Extensions.registryFor_some makes
    have before : Recorded x unmarked h (h.making x (h.urls.get u).identity r) :=
      making_recorded stocked (RegistryMaker.lists_make makes)
    refine ⟨before.noted noted rfl rfl rfl, fun registry same => ?_⟩
    obtain rfl := Option.some.inj same
    rw [noted.registries]
    exact h.registries.allocated_fresh_add r
  | failing => cases accepted

theorem offerTo_recorded {r : RegistryRef} {name : String} {accepted : Option RegistryRef}
    (stocked : h.Stocked x) (known : h.registries.Allocated r)
    (own : (h.urls.get u).identity = identity) (ends : (offerTo r u name).Yields h accepted h') :
    Recorded x ((Standing.one identity accepted.toList).stamps true) h h' := by
  rcases registerService_recorded stocked known own with
    ⟨mid, took, recorded⟩ | ⟨fault, mid, fails, recorded⟩
  · obtain ⟨rfl, rfl⟩ := ends.unique (offerTo_taken took)
    exact recorded
  · rcases offerTo_failed name fails with ⟨_, breaks⟩ | ⟨_, h₁, declines, logged⟩
    · cases ends.symm.trans breaks
    · obtain ⟨rfl, rfl⟩ := ends.unique declines
      exact (recorded.noted logged.noted rfl rfl rfl).unlisted

theorem registerAt_recorded {name : String} {accepted : Option RegistryRef}
    (stocked : h.Stocked x) (own : (h.urls.get u).identity = identity)
    (ends : (registerAt x c u name).Yields h accepted h') :
    Recorded x ((Standing.one identity accepted.toList).stamps true) h h' := by
  cases address : (h.configurations.get c).registries.find? name with
  | none =>
    obtain ⟨h₁, ends', logged⟩ := registerAt_unknown (x := x) u address
    obtain ⟨rfl, rfl⟩ := ends.unique ends'
    exact ((Recorded.refl stocked).noted logged.noted rfl rfl rfl).unlisted
  | some v =>
    rcases yields_or_fails (findRegistry x v) h with ⟨found, looked⟩ | ⟨fault, fails⟩
    · obtain ⟨before, known⟩ := findRegistry_recorded stocked looked
      have urls := (findRegistry_within x v h).urls
      cases found with
      | none =>
        obtain ⟨h₁, ends', logged⟩ := registerAt_unfound address u looked
        obtain ⟨rfl, rfl⟩ := ends.unique ends'
        exact (before.noted logged.noted rfl rfl rfl).unlisted
      | some r =>
        have own' : (((findRegistry x v).after h).urls.get u).identity = identity := by rwa [urls]
        have offered := offerTo_recorded before.stocked (known r rfl) own'
          ((registerAt_found address u looked).symm.trans ends)
        exact (before.trans offered).congr fun _ _ => rfl
    · cases ends.symm.trans (registerAt_lost address u fails)

theorem registerAll_recorded {names : List String} {accepted : List RegistryRef}
    (stocked : h.Stocked x) (own : (h.urls.get u).identity = identity)
    (ends : (registerAll x c u names).Yields h accepted h') :
    Recorded x ((Standing.one identity accepted).stamps true) h h' := by
  -- the marks of the first name and those of the others add up to the marks of all
  induction names generalizing h accepted with
  | nil =>
    obtain ⟨rfl, rfl⟩ := yields_pure.1 ends
    exact (Recorded.refl stocked).unlisted
  | cons name rest ih =>
    obtain ⟨first, mid, ends₁, ends⟩ := yields_bind.1 ends
    obtain ⟨others, h₂, ends₂, ends⟩ := yields_bind.1 ends
    obtain ⟨rfl, rfl⟩ := yields_pure.1 ends
    have registering : h.Registering mid := by
      rw [← ends₁.after_eq]
      exact registerAt_within x c u name h
    have before := registerAt_recorded stocked own ends₁
    have after := ih before.stocked (by rwa [registering.urls]) ends₂
    exact (before.trans after).congr fun r other =>
      (Standing.stamps_one_append identity first.toList others true r other).symm

theorem release_recorded (stocked : h.Stocked x) (own : (h.urls.get u).identity = identity)
    (ends : (release registry u).Yields h () h') :
    Recorded x ((Standing.one identity [registry]).stamps false) h h' ∧ h'.urls = h.urls := by
  have asked : Recorded x ((Standing.one identity [registry]).stamps false) h
      ((unregisterService registry u).after h) := unregisterService_recorded stocked own
  have urls := (Errand.run_within (.unregister registry) registry u h).urls
  rcases yields_or_fails (unregisterService registry u) h with ⟨_, gave⟩ | ⟨fault, fails⟩
  · obtain ⟨-, rfl⟩ := ends.unique (release_given gave)
    exact ⟨asked, urls⟩
  · rcases release_failed fails with ⟨_, breaks⟩ | ⟨_, h₁, passes, logged⟩
    · cases ends.symm.trans breaks
    · obtain ⟨-, rfl⟩ := ends.unique passes
      exact ⟨asked.noted logged.noted rfl rfl rfl, logged.noted.registering.urls.trans urls⟩

theorem unregisterAll_recorded {registries : List RegistryRef} (stocked : h.Stocked x)
    (own : (h.urls.get u).identity = identity)
    (ends : (unregisterAll u registries).Yields h () h') :
    Recorded x ((Standing.one identity registries).stamps false) h h' := by
  induction registries generalizing h with
  | nil =>
    obtain ⟨-, rfl⟩ := yields_pure.1 ends
    exact (Recorded.refl stocked).unlisted
  | cons registry rest ih =>
    obtain ⟨_, mid, first, others⟩ := yields_bind.1 ends
    obtain ⟨before, urls⟩ := release_recorded stocked own first
    have after := ih before.stocked (by rwa [urls]) others
    exact (before.trans after).congr fun r other =>
      (Standing.stamps_one_append identity [registry] rest false r other).symm

end RpcHost
