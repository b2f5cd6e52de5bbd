import RpcHost.Proofs.Consultation
/-!
Factories and registries that behave: every constructor has a body and makes something or
nothing, and a registry that fails gives a reason. Over these, nothing that looks up, registers
or withdraws ends in a fault.
-/
namespace RpcHost

variable {α β : Type}

namespace Attempt

def Succeeds (P : Host → Prop) (m : Attempt α) (h : Host) : Prop :=
  ∃ a h', m.Yields h a h' ∧ P h'

/-- Where the attempt fails, a reason is known; `P` holds in the end. -/
def Explained (P : Host → Prop) (m : Attempt α) (h : Host) : Prop :=
  P (m.after h) ∧ m.outcome h ≠ .error .unknown

variable {P : Host → Prop} {m : Attempt α} {k : α → Attempt β} {h : Host}

theorem succeeds_pure (a : α) (holds : P h) : Succeeds P (pure a) h :=
  ⟨a, h, yields_pure.2 ⟨rfl, rfl⟩, holds⟩

theorem succeeds_lift {m : Step α} (holds : P (m.after h)) : Succeeds P (liftM m) h :=
  ⟨_, _, yields_lift.2 ⟨rfl, rfl⟩, holds⟩

theorem succeeds_bind (first : Succeeds P m h) (rest : ∀ a h, P h → Succeeds P (k a) h) :
    Succeeds P (m >>= k) h := by
  obtain ⟨a, mid, one, holds⟩ := first
  obtain ⟨b, h', two, holds⟩ := rest a mid holds
  exact ⟨b, h', yields_bind.2 ⟨a, mid, one, two⟩, holds⟩

theorem succeeds_get_bind {k : Host → Attempt β} (rest : Succeeds P (k h) h) :
    Succeeds P (get >>= k) h := by
  obtain ⟨b, h', run, holds⟩ := rest
  exact ⟨b, h', yields_bind.2 ⟨h, h, yields_get.2 ⟨rfl, rfl⟩, run⟩, holds⟩

theorem Succeeds.explained (succeeds : Succeeds P m h) : Explained P m h := by
  obtain ⟨a, h', run, holds⟩ := succeeds
  obtain ⟨gives, leaves⟩ := yields_iff.1 run
  exact ⟨by rwa [leaves], by simp [gives]⟩

theorem explained_of_ending {result : Except Fault α} {h' : Host}
    (ends : m.ending h = (result, h')) (holds : P h') (known : result ≠ .error .unknown) :
    Explained P m h := by
  unfold Explained outcome Attempt.after
  rw [ends]
  exact ⟨holds, known⟩

theorem explained_bind (first : Explained P m h) (rest : ∀ a h, P h → Explained P (k a) h) :
    Explained P (m >>= k) h := by
  unfold Explained outcome
  rw [after_bind, ending_bind]
  cases found : m.outcome h with
  | ok a => exact rest a _ first.1
  | error fault => exact ⟨first.1, by simpa [found] using first.2⟩

theorem succeeds_tryCatch {handler : Fault → Attempt α} (first : Explained P m h)
    (rest : ∀ fault h, fault ≠ .unknown → P h → Succeeds P (handler fault) h) :
    Succeeds P (tryCatch m handler) h := by
  rcases yields_or_fails m h with ⟨a, run⟩ | ⟨fault, run⟩
  · exact ⟨a, _, yields_tryCatch.2 (Or.inl run), first.1⟩
  · have known : fault ≠ .unknown := by
      rintro rfl
      exact first.2 (fails_iff.1 run).1
    obtain ⟨a, h', handled, holds⟩ := rest fault _ known first.1
    exact ⟨a, h', yields_tryCatch.2 (Or.inr ⟨fault, _, run, handled⟩), holds⟩

end Attempt

def RegistryScript.Civil (script : RegistryScript) : Prop :=
  ∀ asked demand, script asked demand ≠ some .unknown

def Registry.Civil (r : Registry) : Prop :=
  match r.state with
  | .direct _ => True
  | .scripted script _ => script.Civil

def RegistryMaker.Civil : RegistryMaker → Prop
  | direct => True
  | scripted _ script => script.Civil
  | nothing => True
  | failing _ => False

structure Host.Civil (h : Host) (x : ExtensionsRef) : Prop where
  registries : ∀ r, (h.registries.get r).Civil
  makers : ∀ protocol maker, (h.extensions.get x).registries.find? protocol = some maker →
    ∃ constructor, maker = some constructor ∧ constructor.maker.Civil

theorem RegistryMaker.Civil.make {maker : RegistryMaker} (civil : maker.Civil) (u : UrlRef) :
    ∃ made, maker.make u = .ok made ∧ ∀ r ∈ made, r.Civil := by
  cases maker with
  | direct => exact ⟨_, rfl, by simp [Registry.Civil]⟩
  | scripted name script =>
    exact ⟨_, rfl, by simpa [Registry.Civil, RegistryMaker.Civil] using civil⟩
  | nothing => exact ⟨_, rfl, by simp⟩
  | failing fault => exact civil.elim

theorem Extensions.registry_builtIn {protocol : String} {maker : Option RegistryConstructor}
    (found : builtIn.registries.find? protocol = some maker) : maker = some ⟨none, .direct⟩ := by
  have inserted : (Keyed.empty.insert Registry.directName (some ⟨none, .direct⟩)).find? protocol =
      some maker := found
  rw [Keyed.find?_insert] at inserted
  split at inserted
  · exact (Option.some.inj inserted).symm
  · cases inserted

open Attempt Host

variable {x : ExtensionsRef} {h : Host}

theorem Host.Written.civil {h' : Host} (written : h.Written h') (civil : h.Civil x) :
    h'.Civil x := by
  obtain ⟨_, _, _, rfl⟩ := written
  exact ⟨civil.registries, civil.makers⟩

theorem Host.Noted.civil {h' : Host} (noted : h.Noted h') (civil : h.Civil x) : h'.Civil x :=
  noted.written.civil civil

theorem Host.Civil.modify {r : RegistryRef} {f : Registry → Registry} (civil : h.Civil x)
    (kept : (f (h.registries.get r)).Civil) (journal : List Event) :
    Host.Civil { h with registries := h.registries.modify r f, journal } x := by
  refine ⟨fun other => ?_, civil.makers⟩
  show ((h.registries.modify r f).get other).Civil
  rw [Store.get_modify]
  split
  · exact kept
  · exact civil.registries other

theorem Host.Civil.making {r : Registry} (civil : h.Civil x) (new : r.Civil) (identity : String) :
    (h.making x identity r).Civil x := by
  refine ⟨fun other => ?_, ?_⟩
  · show ((h.registries.add r).get other).Civil
    rw [Store.get_add]
    split
    · exact new
    · exact civil.registries other
  · rw [h.extensions_making x identity r]
    exact civil.makers

theorem Host.Civil.registryFor (civil : h.Civil x) (v : UrlRef) (protocol : String) :
    ∃ made, (h.extensions.get x).registryFor v protocol = .ok made ∧ ∀ r ∈ made, r.Civil := by
  unfold Extensions.registryFor
  cases known : (h.extensions.get x).registries.find? protocol with
  | none => exact ⟨none, rfl, by simp⟩
  | some maker =>
    obtain ⟨constructor, rfl, tame⟩ := civil.makers _ _ known
    exact tame.make v

theorem findRegistry_succeeds (u : UrlRef) (civil : h.Civil x) :
    Succeeds (Civil · x) (findRegistry x u) h := by
  obtain ⟨made, same, all⟩ := civil.registryFor u (h.urls.get u).protocol
  obtain ⟨result, mid, h', ends, looked, noted⟩ := findRegistry_ends h x u
  cases looked with
  | kept => exact ⟨_, h', ends, noted.civil civil⟩
  | absent => exact ⟨_, h', ends, noted.civil civil⟩
  | made _ makes =>
    obtain rfl := Except.ok.inj (same.symm.trans makes)
    exact ⟨_, h', ends, noted.civil (civil.making (all _ rfl) _)⟩
  | failing _ fails => cases same.symm.trans fails

/-- A registry that behaves gives a reason where it fails, and behaves afterwards. -/
theorem Host.Consults.explained {r : RegistryRef} {errand : Errand} {result : Except Fault Unit}
    {mid : Host} (consults : h.Consults r errand result mid) (civil : h.Civil x) :
    mid.Civil x ∧ result ≠ .error .unknown := by
  have own := civil.registries r
  cases consults with
  | listed =>
    refine ⟨civil.modify ?_ _, by simp⟩
    trivial
  | granted _ state =>
    rw [Registry.Civil, state] at own
    refine ⟨civil.modify ?_ _, by simp⟩
    exact own
  | failed _ state fails =>
    rw [Registry.Civil, state] at own
    refine ⟨civil.modify ?_ _, fun unknown => ?_⟩
    · exact own
    · cases unknown
      exact own _ _ fails

theorem registerService_explained (r : RegistryRef) (u : UrlRef) (civil : h.Civil x) :
    Explained (Civil · x) (registerService r u) h := by
  obtain ⟨_, mid, h', ends, consults, logged⟩ := registerService_consults h r u
  have explained := consults.explained civil
  exact explained_of_ending ends (logged.noted.civil explained.1) explained.2

theorem unregisterService_explained (r : RegistryRef) (u : UrlRef) (civil : h.Civil x) :
    Explained (Civil · x) (unregisterService r u) h := by
  obtain ⟨_, mid, h', ends, consults, logged⟩ := unregisterService_consults h r u
  have explained := consults.explained civil
  exact explained_of_ending ends (logged.noted.civil explained.1) explained.2

theorem Fault.reason?_of_ne_unknown {fault : Fault} (known : fault ≠ .unknown) :
    ∃ reason, fault.reason? = some reason :=
  Option.ne_none_iff_exists'.1 fun none => known (fault.reason?_eq_none_iff.1 none)

theorem registerAt_succeeds (c : ConfigurationRef) (u : UrlRef) (name : String)
    (civil : h.Civil x) : Succeeds (Civil · x) (registerAt x c u name) h := by
  refine succeeds_get_bind ?_
  split
  · refine succeeds_bind (succeeds_lift ((writeLog_within _ _ h).civil civil)) ?_
    exact fun _ h civil => succeeds_pure _ civil
  · refine succeeds_bind (findRegistry_succeeds _ civil) fun found h civil => ?_
    split
    · refine succeeds_bind (succeeds_lift ((writeLog_within _ _ h).civil civil)) ?_
      exact fun _ h civil => succeeds_pure _ civil
    · refine succeeds_tryCatch ?_ fun fault h known civil => ?_
      · refine explained_bind (registerService_explained _ u civil) fun _ h civil => ?_
        exact (succeeds_pure _ civil).explained
      · obtain ⟨reason, found⟩ := Fault.reason?_of_ne_unknown known
        rw [found]
        refine succeeds_bind (succeeds_lift ((writeLog_within _ _ h).civil civil)) ?_
        exact fun _ h civil => succeeds_pure _ civil

theorem registerAll_succeeds (c : ConfigurationRef) (u : UrlRef) (names : List String)
    (civil : h.Civil x) : Succeeds (Civil · x) (registerAll x c u names) h := by
  induction names generalizing h with
  | nil => exact succeeds_pure _ civil
  | cons name rest ih =>
    refine succeeds_bind (registerAt_succeeds c u name civil) fun accepted h civil => ?_
    exact succeeds_bind (ih civil) fun others h civil => succeeds_pure _ civil

theorem unregisterAll_succeeds (u : UrlRef) (registries : List RegistryRef)
    (civil : h.Civil x) : Succeeds (Civil · x) (unregisterAll u registries) h := by
  induction registries generalizing h with
  | nil => exact succeeds_pure _ civil
  | cons r rest ih =>
    refine succeeds_bind (succeeds_tryCatch (unregisterService_explained r u civil) ?_)
      fun _ h civil => ih civil
    intro fault h known civil
    obtain ⟨reason, found⟩ := Fault.reason?_of_ne_unknown known
    rw [found]
    exact succeeds_get_bind (succeeds_lift ((writeLog_within _ _ h).civil civil))

end RpcHost
