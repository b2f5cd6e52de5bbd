import RpcHost.Proofs.Consultation
import RpcHost.Proofs.Identities
import RpcHost.Proofs.Nesting
import RpcHost.Proofs.Runs
/-!
The registries that one factory supplies, over any run of constructors put under names and of
look-ups. The first registry made for an identity is the one that every later look-up gets. A
constructor that makes none, or fails, leaves nothing behind and is called again.
-/
namespace RpcHost

open Attempt Host

def addConstructor (x : ExtensionsRef) (protocol : String)
    (constructor : Option RegistryConstructor) : Step Unit :=
  modifyExtensions x fun extensions =>
    { extensions with registries := extensions.registries.insert protocol constructor }

def Host.instancesOf (h : Host) (x : ExtensionsRef) : Keyed RegistryRef :=
  (h.extensions.get x).instances

def Host.constructorsOf (h : Host) (x : ExtensionsRef) : Keyed (Option RegistryConstructor) :=
  (h.extensions.get x).registries

theorem Host.instancesOf_making (h : Host) (x : ExtensionsRef) (identity : String) (r : Registry) :
    (h.making x identity r).instancesOf x =
      (h.instancesOf x).insert identity h.registries.fresh :=
  congrArg Extensions.instances (extensions_making h x identity r)

theorem instancesOf_addConstructor (h : Host) (x : ExtensionsRef) (protocol : String)
    (constructor : Option RegistryConstructor) :
    ((addConstructor x protocol constructor).after h).instancesOf x = h.instancesOf x := by
  have modified : ((addConstructor x protocol constructor).after h).extensions.get x =
      { h.extensions.get x with
        registries := (h.constructorsOf x).insert protocol constructor } :=
    Store.get_modify_self _ _ _
  unfold instancesOf
  rw [modified]

section LookUp

variable {h h' : Host} {x : ExtensionsRef} {u : UrlRef} {r : RegistryRef}
  {constructor : RegistryConstructor} {result : Except Fault (Option RegistryRef)}

theorem findRegistry_again (found : (h.instancesOf x).find? (h.urls.get u).identity = some r) :
    (findRegistry x u).Yields h (some r) (h.traced [.sought (h.urls.get u).identity]) := by
  show (findRegistry x u).ending h = _
  have same : ((h.traced [.sought (h.urls.get u).identity]).extensions.get x).instances.find?
      (h.urls.get u).identity = some r := found
  unfold findRegistry
  simp only [ending_lift_bind, ending_get_bind, value_getUrl, after_getUrl, after_emit, same]
  rfl

theorem findRegistry_anew (missing : (h.instancesOf x).find? (h.urls.get u).identity = none)
    (known : (h.constructorsOf x).find? (h.urls.get u).protocol = some (some constructor)) :
    (findRegistry x u).ending h =
      let mid := h.traced [.sought (h.urls.get u).identity,
        .constructed constructor.label (h.urls.get u).identity]
      match constructor.maker.make u with
      | .error fault => (.error fault, mid)
      | .ok none => (.ok none, mid)
      | .ok (some registry) =>
        (.ok (some h.registries.fresh), mid.making x (h.urls.get u).identity registry) := by
  have absent : ((h.traced [.sought (h.urls.get u).identity]).extensions.get x).instances.find?
      (h.urls.get u).identity = none := missing
  have present : ((h.traced [.sought (h.urls.get u).identity]).extensions.get x).registries.find?
      (h.urls.get u).protocol = some (some constructor) := known
  unfold findRegistry
  simp only [ending_lift_bind, ending_get_bind, value_getUrl, after_getUrl, after_emit, absent,
    present, traced_traced, List.cons_append, List.nil_append]
  cases constructor.maker.make u with
  | error fault => rfl
  | ok made =>
    cases made with
    | none => rfl
    | some registry => rfl

theorem find?_instancesOf_findRegistry (ends : (findRegistry x u).ending h = (result, h'))
    (identity : String) :
    (h'.instancesOf x).find? identity = some r ↔
      (h.instancesOf x).find? identity = some r ∨
        (h.urls.get u).identity = identity ∧ result = .ok (some r) := by
  obtain ⟨_, mid, _, ends', looks, noted⟩ := findRegistry_ends h x u
  obtain ⟨rfl, rfl⟩ := Prod.mk.inj (ends.symm.trans ends')
  have same : h'.instancesOf x = mid.instancesOf x := by
    unfold instancesOf
    rw [noted.extensions]
  rw [same]
  cases looks with
  | @kept kept found =>
    constructor
    · exact Or.inl
    · rintro (before | ⟨rfl, handed⟩)
      · exact before
      · cases handed
        exact found
  | absent missing nothing => simp
  | failing missing fails => simp
  | made missing makes =>
    have unseen : (h.instancesOf x).find? (h.urls.get u).identity = none := missing
    rw [instancesOf_making, Keyed.find?_insert]
    split
    · rename_i here
      simp [here, unseen]
    · rename_i elsewhere
      simp [Ne.symm elsewhere]

theorem extensions_findRegistry (ends : (findRegistry x u).ending h = (result, h'))
    (nothing : ∀ r, result ≠ .ok (some r)) : h'.extensions = h.extensions := by
  obtain ⟨_, mid, _, ends', looks, noted⟩ := findRegistry_ends h x u
  obtain ⟨rfl, rfl⟩ := Prod.mk.inj (ends.symm.trans ends')
  rw [noted.extensions]
  cases looks with
  | kept found => exact absurd rfl (nothing _)
  | absent missing nothing => rfl
  | failing missing fails => rfl
  | made missing makes => exact absurd rfl (nothing _)

end LookUp

structure Inquiry where
  identity : String
  outcome : Except Fault (Option RegistryRef)
  events : List Event

/-- A run of constructors put under names and of look-ups in one factory, with the look-ups in their
order. Meanwhile anything else may happen that leaves the factory alone. -/
inductive Inquired (x : ExtensionsRef) (start : Host) : List Inquiry → Host → Prop
  | start : Inquired x start [] start
  | idled {past : List Inquiry} {h h' : Host} (run : Inquired x start past h)
    (constructors : h'.constructorsOf x = h.constructorsOf x)
    (instances : h'.instancesOf x = h.instancesOf x) : Inquired x start past h'
  | taught {past : List Inquiry} {h : Host} (run : Inquired x start past h) (protocol : String)
    (constructor : Option RegistryConstructor) :
    Inquired x start past ((addConstructor x protocol constructor).after h)
  | sought {past : List Inquiry} {h h' : Host} {outcome : Except Fault (Option RegistryRef)}
    {events : List Event} (run : Inquired x start past h) (u : UrlRef)
    (ends : (findRegistry x u).ending h = (outcome, h'))
    (journal : h'.journal = h.journal ++ events) :
    Inquired x start (past ++ [⟨(h.urls.get u).identity, outcome, events⟩]) h'

/-- A look-up for the identity has handed the registry out. -/
def Handed (past : List Inquiry) (identity : String) (r : RegistryRef) : Prop :=
  ∃ inquiry ∈ past, inquiry.identity = identity ∧ inquiry.outcome = .ok (some r)

namespace Inquired

variable {x : ExtensionsRef} {start h : Host} {past : List Inquiry} {identity : String}
  {r : RegistryRef}

theorem handed_snoc {inquiry : Inquiry} : Handed (past ++ [inquiry]) identity r ↔
    Handed past identity r ∨ inquiry.identity = identity ∧ inquiry.outcome = .ok (some r) := by
  simp [Handed, or_and_right, exists_or]

theorem find?_instancesOf (empty : start.instancesOf x = .empty) (run : Inquired x start past h) :
    (h.instancesOf x).find? identity = some r ↔ Handed past identity r := by
  induction run with
  | start => simp [empty, Handed]
  | idled run constructors instances ih => rw [instances, ih]
  | taught run protocol constructor ih =>
    rw [instancesOf_addConstructor, ih]
  | sought run u ends journal ih =>
    rw [find?_instancesOf_findRegistry ends, ih, handed_snoc]

/-- Once a registry is handed out, every later look-up of its identity gets it and no more. -/
theorem pairwise (empty : start.instancesOf x = .empty) (run : Inquired x start past h) :
    past.Pairwise fun first later => ∀ r, first.outcome = .ok (some r) →
      later.identity = first.identity →
      later.outcome = .ok (some r) ∧ later.events = [.sought later.identity] := by
  induction run with
  | start => exact List.Pairwise.nil
  | idled run constructors instances ih => exact ih
  | taught run protocol constructor ih => exact ih
  | @sought past h h' outcome events run u ends journal ih =>
    refine List.pairwise_append.2 ⟨ih, List.pairwise_singleton _ _, ?_⟩
    intro first member later last r handed same
    obtain rfl := List.mem_singleton.1 last
    -- what was handed out before is held, so that the new look-up finds it
    have found := (run.find?_instancesOf empty).2 ⟨first, member, same.symm, handed⟩
    obtain ⟨rfl, rfl⟩ := Prod.mk.inj (ends.symm.trans (findRegistry_again found))
    exact ⟨rfl, (List.append_cancel_left journal).symm⟩

theorem handed_unique (empty : start.instancesOf x = .empty) (run : Inquired x start past h)
    {s : RegistryRef} (one : Handed past identity r) (other : Handed past identity s) : r = s := by
  have kept := (run.find?_instancesOf empty).2 one
  have also := (run.find?_instancesOf empty).2 other
  exact Option.some.inj (kept.symm.trans also)

theorem not_found (empty : start.instancesOf x = .empty) (run : Inquired x start past h)
    (never : ∀ r, ¬ Handed past identity r) : (h.instancesOf x).find? identity = none := by
  cases found : (h.instancesOf x).find? identity with
  | none => rfl
  | some r => exact absurd ((run.find?_instancesOf empty).1 found) (never r)

/-- One registry an identity: however constructors and look-ups follow each other, the first
registry handed out for an identity is what all later look-ups of it get, and they run no
constructor. As long as none is handed out, each look-up runs the constructor of the protocol
anew, and one that makes nothing or fails leaves the factory alone. -/
theorem one_registry_per_identity (empty : start.instancesOf x = .empty)
    (run : Inquired x start past h) :
    (past.Pairwise fun first later => ∀ r, first.outcome = .ok (some r) →
      later.identity = first.identity →
      later.outcome = .ok (some r) ∧ later.events = [.sought later.identity]) ∧
    (∀ identity r s, Handed past identity r → Handed past identity s → r = s) ∧
    (∀ u r, Handed past (h.urls.get u).identity r →
      (findRegistry x u).Yields h (some r) (h.traced [.sought (h.urls.get u).identity])) ∧
    (∀ u constructor, (∀ r, ¬ Handed past (h.urls.get u).identity r) →
      (h.constructorsOf x).find? (h.urls.get u).protocol = some (some constructor) →
      (findRegistry x u).outcome h =
        (constructor.maker.make u).map (Option.map fun _ => h.registries.fresh) ∧
      ((findRegistry x u).after h).journal = h.journal ++ [.sought (h.urls.get u).identity,
        .constructed constructor.label (h.urls.get u).identity]) ∧
    (∀ u, (∀ r, (findRegistry x u).outcome h ≠ .ok (some r)) →
      ((findRegistry x u).after h).extensions = h.extensions) ∧
    ∀ u v : Url, u.Delimited → v.Delimited →
      (u.identity = v.identity ↔ u.protocol = v.protocol ∧ u.host = v.host ∧ u.port = v.port ∧
        u.path = v.path ∧ u.group = v.group) := by
  refine ⟨run.pairwise empty, ?unique, ?again, ?anew, ?nothing, ?told⟩
  case unique =>
    intro identity r s one other
    exact run.handed_unique empty one other
  case again =>
    intro u r handed
    exact findRegistry_again ((run.find?_instancesOf empty).2 handed)
  case anew =>
    intro u constructor never known
    have ends := findRegistry_anew (run.not_found empty never) known
    unfold outcome after
    rw [ends]
    cases constructor.maker.make u with
    | error fault => exact ⟨rfl, rfl⟩
    | ok made => cases made <;> exact ⟨rfl, rfl⟩
  case nothing =>
    intro u nothing
    exact extensions_findRegistry rfl nothing
  case told =>
    intro u v hu hv
    exact Url.identity_eq_iff hu hv

end Inquired

namespace Host

def signposted : Host :=
  furnished .builtIn .empty [⟨"direct", "127.0.0.1", 9000, "", "", .empty⟩]

def opened : Host :=
  (signposted.traced [.sought "direct://127.0.0.1:9000/?group=",
    .constructed none "direct://127.0.0.1:9000/?group="]).making ⟨0⟩
      "direct://127.0.0.1:9000/?group=" ⟨"direct", ⟨0⟩, .direct .empty⟩

def retaught : Host := (addConstructor ⟨0⟩ "direct" (some ⟨some "late", .nothing⟩)).after opened

end Host

/-- The registry is made, then its constructor is replaced by one that makes nothing. -/
theorem one_registry_retaught : (findRegistry ⟨0⟩ ⟨0⟩).Yields Host.retaught (some ⟨0⟩)
    (Host.retaught.traced [.sought "direct://127.0.0.1:9000/?group="]) := by
  have known : (Host.signposted.constructorsOf ⟨0⟩).find?
      (Host.signposted.urls.get ⟨0⟩).protocol = some (some ⟨none, .direct⟩) := rfl
  have made := findRegistry_anew rfl known
  have run : Inquired ⟨0⟩ Host.signposted _ Host.retaught :=
    .taught (.sought .start ⟨0⟩ made rfl) "direct" (some ⟨some "late", .nothing⟩)
  obtain ⟨_, _, again, _⟩ := run.one_registry_per_identity rfl
  exact again ⟨0⟩ ⟨0⟩ ⟨_, List.mem_singleton_self _, rfl, rfl⟩

end RpcHost
