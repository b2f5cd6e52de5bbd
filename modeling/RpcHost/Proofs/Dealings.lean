import RpcHost.Proofs.Account
import RpcHost.Proofs.FanOut
/-!
Exporters that share a factory. Each export that succeeds and each that is taken back is a deal.
A direct registry lists the identities whose last deal there is an export, and then the exporter
of that deal still exports.
-/
namespace RpcHost

open Attempt Host

/-- What an exporter exports: the identity of its address, and the registries that took it. -/
structure Posting where
  identity : String
  registries : List RegistryRef
  deriving DecidableEq, Repr

def Posting.At (posting : Posting) (r : RegistryRef) (identity : String) : Prop :=
  posting.identity = identity ∧ r ∈ posting.registries

instance (posting : Posting) (r : RegistryRef) (identity : String) :
    Decidable (posting.At r identity) :=
  inferInstanceAs (Decidable (posting.identity = identity ∧ r ∈ posting.registries))

/-- An export that succeeded, or that was taken back. -/
inductive Deal where
  | opened (e : ExporterRef) (posting : Posting)
  | closed (e : ExporterRef) (posting : Posting)
  deriving DecidableEq, Repr

namespace Deal

/-- What the deal says of the identity at the registry: that it was exported there, that it was
taken back from there, or nothing. -/
def mark? (r : RegistryRef) (identity : String) : Deal → Option Bool
  | opened _ posting => if posting.At r identity then some true else none
  | closed _ posting => if posting.At r identity then some false else none

def stands (r : RegistryRef) (identity : String) (deals : List Deal) : Bool :=
  (deals.filterMap (mark? r identity)).getLastD false

theorem stands_snoc (r : RegistryRef) (identity : String) (deals : List Deal) (deal : Deal) :
    stands r identity (deals ++ [deal]) =
      (deal.mark? r identity).getD (stands r identity deals) := by
  unfold stands
  rw [List.filterMap_append, List.getLastD_eq_getLast?, List.getLast?_append]
  cases marked : deal.mark? r identity <;> simp [marked, List.getLastD_eq_getLast?]

/-- The exporter exported, and nothing was taken back since then that has the identity and the
registry. -/
def Unopposed (r : RegistryRef) (identity : String) (e : ExporterRef) (posting : Posting)
    (deals : List Deal) : Prop :=
  ∃ before after, deals = before ++ opened e posting :: after ∧
    ∀ other taken, closed other taken ∈ after → ¬taken.At r identity

variable {r : RegistryRef} {identity : String} {e : ExporterRef} {posting : Posting}
  {deals : List Deal}

theorem unopposed_last (r : RegistryRef) (identity : String) (e : ExporterRef)
    (posting : Posting) (deals : List Deal) :
    Unopposed r identity e posting (deals ++ [opened e posting]) :=
  ⟨deals, [], rfl, fun _ _ member => by cases member⟩

theorem Unopposed.snoc (unopposed : Unopposed r identity e posting deals) {deal : Deal}
    (harmless : ∀ other taken, deal = closed other taken →
      ¬taken.At r identity) :
    Unopposed r identity e posting (deals ++ [deal]) := by
  obtain ⟨before, after, rfl, since⟩ := unopposed
  refine ⟨before, after ++ [deal], by simp, fun other taken member => ?_⟩
  rcases List.mem_append.1 member with earlier | last
  · exact since other taken earlier
  · exact harmless other taken (List.mem_singleton.1 last).symm

theorem stands_of_after {after : List Deal} (before : List Deal)
    (since : ∀ other taken, closed other taken ∈ after →
      ¬taken.At r identity)
    (stood : stands r identity before = true) : stands r identity (before ++ after) = true := by
  -- each later deal opens the posting again or is silent about it
  induction after generalizing before with
  | nil => rwa [List.append_nil]
  | cons deal rest ih =>
    rw [List.append_cons]
    refine ih (before ++ [deal]) (fun other taken member => since other taken
      (List.mem_cons_of_mem _ member)) ?_
    rw [stands_snoc]
    cases deal with
    | opened other taken =>
      show (if taken.At r identity then some true else none).getD _ = true
      split
      · rfl
      · exact stood
    | closed other taken =>
      have silent : (closed other taken).mark? r identity = none :=
        if_neg (since other taken List.mem_cons_self)
      rw [silent]
      exact stood

theorem Unopposed.stands (unopposed : Unopposed r identity e posting deals)
    (bears : posting.At r identity) : Deal.stands r identity deals = true := by
  obtain ⟨before, after, rfl, since⟩ := unopposed
  rw [List.append_cons]
  refine stands_of_after _ since ?_
  rw [stands_snoc, mark?, if_pos bears]
  rfl

end Deal

namespace Host

def posting? (h : Host) (e : ExporterRef) : Option Posting :=
  if (h.exporters.get e).exported then
    (h.exporters.get e).url.map fun u => ⟨(h.urls.get u).identity, (h.exporters.get e).registries⟩
  else none

/-- What goes on besides: exporters are made and fitted out, but each that exports goes on to
export what it does, and nobody uses the registries. -/
structure Aside (x : ExtensionsRef) (own : RegistryRef → Prop) (h h' : Host) : Prop where
  exporters : h.exporters.next ≤ h'.exporters.next
  idle : ∀ e, (h.exporters.get e).exported = false → (h'.exporters.get e).exported = false
  posting : ∀ e posting, h.posting? e = some posting → h'.posting? e = some posting
  untouched : ∀ r, own r → h.Untouched r h'
  stocked : h.Stocked x → h'.Stocked x
  filters : h.filters.Extends h'.filters

end Host

/-- Exporters that share the factory export, and their exports are taken back, in any order. -/
inductive Dealings (x : ExtensionsRef) (own : RegistryRef → Prop) (start : Host) :
    List Deal → Host → Prop
  | start : Dealings x own start [] start
  | idled {deals : List Deal} {h h' : Host} (before : Dealings x own start deals h)
    (aside : h.Aside x own h') : Dealings x own start deals h'
  | exported {deals : List Deal} {h h' : Host} {e : ExporterRef} {endpoint : Option EndpointRef}
    {c : ConfigurationRef} {status : Status} (before : Dealings x own start deals h)
    (known : h.exporters.Allocated e) (ends : (exportBy e endpoint x c).Yields h status h') :
    Dealings x own start
      (deals ++ if status = .ok then ((h'.posting? e).map (.opened e)).toList else []) h'
  | unexported {deals : List Deal} {h h' : Host} {e : ExporterRef} {status : Status}
    (before : Dealings x own start deals h) (ends : (unexport e).Yields h status h') :
    Dealings x own start (deals ++ ((h.posting? e).map (.closed e)).toList) h'

/-- The exporters and the registries are what the deals make of them. -/
structure Host.Reckoned (h : Host) (x : ExtensionsRef) (own : RegistryRef → Prop)
    (deals : List Deal) : Prop where
  terminated : h.Terminated
  stocked : h.Stocked x
  spare : ∀ e, ¬h.exporters.Allocated e → (h.exporters.get e).exported = false
  posted : ∀ e, (h.exporters.get e).exported = true → ∃ posting, h.posting? e = some posting
  lists : ∀ r, own r → h.DirectAt r → ∀ identity,
    h.listsAt r identity = Deal.stands r identity deals
  stands : ∀ r identity, Deal.stands r identity deals = true → ∃ e posting,
    h.posting? e = some posting ∧ posting.At r identity ∧
      Deal.Unopposed r identity e posting deals

variable {h h' mid start : Host} {x : ExtensionsRef} {own : RegistryRef → Prop} {u : UrlRef}
  {e : ExporterRef} {p : ProviderRef} {posting : Posting} {status : Status} {deals : List Deal}
  {left : RegistryRef → String → List Bool}

namespace Host

theorem posting?_eq_some_iff : h.posting? e = some posting ↔
    (h.exporters.get e).exported = true ∧ ∃ u, (h.exporters.get e).url = some u ∧
      (h.urls.get u).identity = posting.identity ∧
      (h.exporters.get e).registries = posting.registries := by
  obtain ⟨identity, registries⟩ := posting
  unfold posting?
  cases (h.exporters.get e).exported <;> simp

theorem posting?_idle (idle : (h.exporters.get e).exported = false) : h.posting? e = none := by
  unfold posting?
  rw [idle]
  rfl

theorem posting?_congr (exporter : h'.exporters.get e = h.exporters.get e)
    (identities : ∀ u, (h'.urls.get u).identity = (h.urls.get u).identity) :
    h'.posting? e = h.posting? e := by
  unfold posting?
  rw [exporter]
  simp only [identities]

theorem Aside.of_eq (exporters : h'.exporters = h.exporters)
    (identities : ∀ u, (h'.urls.get u).identity = (h.urls.get u).identity)
    (registries : h'.registries = h.registries) (extensions : h'.extensions = h.extensions)
    (filters : h.filters.Extends h'.filters) : h.Aside x own h' where
  filters := filters
  exporters := Nat.le_of_eq (congrArg Store.next exporters.symm)
  idle e idle := by
    rw [exporters]
    exact idle
  posting e posting posts := (posting?_congr (by rw [exporters]) identities).trans posts
  untouched _ _ := .of_eq registries
  stocked stocked := by
    unfold Stocked
    rw [registries, extensions]
    exact stocked

end Host

theorem Standing.getLastD_stamps_one (identity : String) (registries : List RegistryRef)
    (mark : Bool) (r : RegistryRef) (other : String) (lists : Bool) :
    ((one identity registries).stamps mark r other).getLastD lists =
      if identity = other ∧ r ∈ registries then mark else lists := by
  unfold stamps one
  by_cases same : identity = other
  · by_cases listed : r ∈ registries
    · have some : 0 < registries.count r := List.count_pos_iff.2 listed
      simp [same, listed, List.getLastD_eq_getLast?, List.getLast?_replicate, Nat.ne_of_gt some]
    · simp [same, listed, List.count_eq_zero.2 listed]
  · simp [same]

structure Host.Dealt (x : ExtensionsRef) (e : ExporterRef) (posting : Posting) (opens : Bool)
    (h h' : Host) : Prop where
  recorded : Recorded x ((Standing.one posting.identity posting.registries).stamps opens) h h'
  exporters : h'.exporters.next = h.exporters.next
  others : ∀ other, other ≠ e → h'.exporters.get other = h.exporters.get other
  identities : ∀ u, (h'.urls.get u).identity = (h.urls.get u).identity
  servers : h'.servers = h.servers
  filters : h'.filters = h.filters

theorem announce_takes {endpoint : Option EndpointRef} {c : ConfigurationRef}
    (ends : (announce e endpoint x c u).Yields h status h') : ∃ registries mid,
    (registerAll x c u ((h.urls.get u).listParam Url.registryKey)).Yields
      { h with exporters := h.exporters.modify e fun exporter =>
          { exporter with endpoint, url := some u } } registries mid ∧
      Host.Noted { mid with exporters := mid.exporters.modify e fun exporter =>
        { exporter with registries, exported := true, available := true } } h' := by
  rcases yields_or_fails (registerAll x c u ((h.urls.get u).listParam Url.registryKey))
    { h with exporters := h.exporters.modify e fun exporter =>
      { exporter with endpoint, url := some u } } with ⟨registries, took⟩ | ⟨fault, fails⟩
  · obtain ⟨_, announces, noted⟩ := announce_yields endpoint x c took
    obtain ⟨-, rfl⟩ := ends.unique announces
    exact ⟨registries, _, took, noted⟩
  · cases ends.symm.trans (announce_fails endpoint x c fails)

theorem announce_dealt {endpoint : Option EndpointRef} {c : ConfigurationRef}
    (stocked : h.Stocked x) (ends : (announce e endpoint x c u).Yields h status h') :
    ∃ posting, h'.posting? e = some posting ∧ h.Dealt x e posting true h' := by
  obtain ⟨registries, mid, took, noted⟩ := announce_takes ends
  have begun : Recorded x unmarked h { h with exporters := h.exporters.modify e fun exporter =>
      { exporter with endpoint, url := some u } } := (Recorded.refl stocked).frame _ rfl rfl rfl
  have registering := registerAll_within x c u ((h.urls.get u).listParam Url.registryKey)
    { h with exporters := h.exporters.modify e fun exporter =>
      { exporter with endpoint, url := some u } }
  rw [took.after_eq] at registering
  have urls : h'.urls = h.urls := noted.registering.urls.trans registering.urls
  have exporters : h'.exporters = mid.exporters.modify e fun exporter =>
      { exporter with registries, exported := true, available := true } :=
    noted.registering.exporters
  have before : mid.exporters = h.exporters.modify e fun exporter =>
      { exporter with endpoint, url := some u } := registering.exporters
  have recorded := (begun.trans (registerAll_recorded begun.stocked rfl took)).noted noted
    rfl rfl rfl
  refine ⟨⟨(h.urls.get u).identity, registries⟩, posting?_eq_some_iff.2 ?_,
    ⟨recorded.congr fun _ _ => List.nil_append _, ?_, ?_, ?_,
      noted.registering.servers.trans registering.servers,
      noted.registering.filters.trans registering.filters⟩⟩
  · rw [exporters, Store.get_modify_self, before, Store.get_modify_self, urls]
    exact ⟨rfl, u, rfl, rfl, rfl⟩
  · rw [exporters, Store.next_modify, before, Store.next_modify]
  · intro other differ
    rw [exporters, Store.get_modify_ne _ differ, before, Store.get_modify_ne _ differ]
  · rw [urls]
    exact fun _ => rfl

theorem Url.identity_modify_asService (urls : Store .url Url) (u v : UrlRef) :
    ((urls.modify u Url.asService).get v).identity = (urls.get v).identity :=
  (Url.like_modify urls u v).identity

theorem exportBy_dealt {endpoint : Option EndpointRef} {c : ConfigurationRef}
    (stocked : h.Stocked x) (ends : (exportBy e endpoint x c).Yields h status h') :
    (status ≠ .ok ∧ h.Aside x own h' ∧ h'.servers = h.servers) ∨
      status = .ok ∧ h.posting? e = none ∧ ∃ posting, h'.posting? e = some posting ∧
        h.Dealt x e posting true h' := by
  have announcement := exportBy_announcement h e endpoint x c
  rw [ends] at announcement
  have quiet {urls : Store .url Url} (logged : Host.Logged { h with urls } h')
      (identities : ∀ u, (urls.get u).identity = (h.urls.get u).identity) :
      h.Aside x own h' ∧ h'.servers = h.servers := by
    obtain ⟨_, _, rfl⟩ := logged
    exact ⟨.of_eq rfl identities rfl rfl (.refl _), rfl⟩
  cases announcement with
  | already _ logged => exact Or.inl ⟨by simp, quiet logged fun _ => rfl⟩
  | unattached _ _ logged => exact Or.inl ⟨by simp, quiet logged fun _ => rfl⟩
  | nameless _ _ _ logged =>
    exact Or.inl ⟨by simp, quiet logged (Url.identity_modify_asService h.urls _)⟩
  | @accepted _ p idle attached named _ _ _ =>
    have begun : Recorded x unmarked h
        { h with urls := h.urls.modify (h.addressOf p) Url.asService } :=
      (Recorded.refl stocked).frame _ rfl rfl rfl
    obtain ⟨posting, posts, dealt⟩ := announce_dealt begun.stocked
      ((exportBy_offered endpoint x c idle attached named).symm.trans ends)
    refine Or.inr ⟨rfl, posting?_idle idle, posting, posts,
      ⟨(begun.trans dealt.recorded).congr fun _ _ => List.nil_append _, dealt.exporters,
        dealt.others, fun v => (dealt.identities v).trans ?_, dealt.servers, dealt.filters⟩⟩
    exact Url.identity_modify_asService h.urls _ v

theorem Host.Dealt.posting? {opens : Bool} (dealt : h.Dealt x e posting opens h')
    {other : ExporterRef} (differ : other ≠ e) : h'.posting? other = h.posting? other :=
  posting?_congr (dealt.others other differ) dealt.identities

theorem unexport_dealt (stocked : h.Stocked x)
    (posted : (h.exporters.get e).exported = true → ∃ posting, h.posting? e = some posting)
    (ends : (unexport e).Yields h status h') :
    (h.posting? e = none ∧ h' = h) ∨ ∃ posting, h.posting? e = some posting ∧
      (h'.exporters.get e).exported = false ∧ h.Dealt x e posting false h' := by
  cases exported : (h.exporters.get e).exported with
  | false => exact Or.inl ⟨posting?_idle exported, ((unexport_idle exported).unique ends).2.symm⟩
  | true =>
    obtain ⟨posting, posts⟩ := posted exported
    obtain ⟨_, u, url, same, listed⟩ := posting?_eq_some_iff.1 posts
    rcases unexport_exported exported url with ⟨mid, h₁, withdrew, run, noted⟩ | ⟨_, _, _, fails⟩
    · obtain ⟨-, rfl⟩ := ends.unique run
      have registering : h.Registering mid := withdrew.after_eq ▸ unregisterAll_within _ _ _
      have urls : h'.urls = h.urls := noted.registering.urls.trans registering.urls
      have exporters : h'.exporters = h.exporters.modify e withdrawn := noted.registering.exporters
      rw [listed] at withdrew
      refine Or.inr ⟨posting, posts, ?_,
        ⟨(unregisterAll_recorded stocked same withdrew).noted noted rfl rfl rfl, ?_, ?_, ?_,
          noted.registering.servers.trans registering.servers,
          noted.registering.filters.trans registering.filters⟩⟩
      · rw [exporters, Store.get_modify_self]
        rfl
      · rw [exporters]
        rfl
      · intro other differ
        rw [exporters, Store.get_modify_ne _ differ]
      · rw [urls]
        exact fun _ => rfl
    · cases ends.symm.trans fails

namespace Host.Reckoned

variable (reckoned : h.Reckoned x own deals)

include reckoned

theorem aside (aside : h.Aside x own h') : h'.Reckoned x own deals where
  terminated := reckoned.terminated.extended aside.filters
  stocked := aside.stocked reckoned.stocked
  spare e unknown := aside.idle e (reckoned.spare e fun known =>
    unknown (known.mono aside.exporters))
  posted e exported := by
    cases before : (h.exporters.get e).exported with
    | false => rw [aside.idle e before] at exported; cases exported
    | true =>
      obtain ⟨posting, posts⟩ := reckoned.posted e before
      exact ⟨posting, aside.posting e posting posts⟩
  lists r mine direct identity := by
    obtain ⟨before, same⟩ := (aside.untouched r mine).listsAt direct identity
    rw [same]
    exact reckoned.lists r mine before identity
  stands r identity stands := by
    obtain ⟨e, posting, posts, since⟩ := reckoned.stands r identity stands
    exact ⟨e, posting, aside.posting e posting posts, since⟩

theorem lists_dealt {opens : Bool} {deal : Deal} (dealt : h.Dealt x e posting opens h')
    (tells : ∀ r identity, deal.mark? r identity =
      if posting.At r identity then some opens else none) {r : RegistryRef} (mine : own r)
    (direct : h'.DirectAt r) (identity : String) :
    h'.listsAt r identity = Deal.stands r identity (deals ++ [deal]) := by
  obtain ⟨before, lists⟩ := dealt.recorded.listed r direct
  rw [lists, Standing.getLastD_stamps_one, Deal.stands_snoc, tells, reckoned.lists r mine before]
  by_cases bears : posting.At r identity
  · rw [if_pos bears]
    exact if_pos bears
  · rw [if_neg bears]
    exact if_neg bears

theorem opened (known : h.exporters.Allocated e) (idle : h.posting? e = none)
    (posts : h'.posting? e = some posting) (dealt : h.Dealt x e posting true h') :
    h'.Reckoned x own (deals ++ [.opened e posting]) where
  terminated := reckoned.terminated.extended (dealt.filters ▸ .refl _)
  stocked := dealt.recorded.stocked
  spare other unknown := by
    have before : ¬h.exporters.Allocated other := fun there =>
      unknown (there.mono (Nat.le_of_eq dealt.exporters.symm))
    rw [dealt.others other (known.ne_of_not before).symm]
    exact reckoned.spare other before
  posted other exported := by
    by_cases same : other = e
    · exact ⟨posting, same ▸ posts⟩
    · rw [dealt.others other same] at exported
      rw [dealt.posting? same]
      exact reckoned.posted other exported
  lists _ mine direct := reckoned.lists_dealt dealt (fun _ _ => rfl) mine direct
  stands r identity stands := by
    by_cases here : posting.At r identity
    · exact ⟨e, posting, posts, here, Deal.unopposed_last r identity e posting deals⟩
    · have silent : (Deal.opened e posting).mark? r identity = none := if_neg here
      rw [Deal.stands_snoc, silent] at stands
      obtain ⟨other, kept, held, bears, unopposed⟩ := reckoned.stands r identity stands
      have differ : other ≠ e := by
        rintro rfl
        rw [idle] at held
        cases held
      exact ⟨other, kept, (dealt.posting? differ).trans held, bears,
        unopposed.snoc fun _ _ same => by cases same⟩

theorem closed (posts : h.posting? e = some posting) (idle : (h'.exporters.get e).exported = false)
    (dealt : h.Dealt x e posting false h') : h'.Reckoned x own (deals ++ [.closed e posting]) where
  terminated := reckoned.terminated.extended (dealt.filters ▸ .refl _)
  stocked := dealt.recorded.stocked
  spare other unknown := by
    by_cases same : other = e
    · rw [same]
      exact idle
    · rw [dealt.others other same]
      exact reckoned.spare other fun there =>
        unknown (there.mono (Nat.le_of_eq dealt.exporters.symm))
  posted other exported := by
    have differ : other ≠ e := by
      rintro rfl
      rw [idle] at exported
      cases exported
    rw [dealt.others other differ] at exported
    rw [dealt.posting? differ]
    exact reckoned.posted other exported
  lists _ mine direct := reckoned.lists_dealt dealt (fun _ _ => rfl) mine direct
  stands r identity stands := by
    have harmless : ¬posting.At r identity := by
      intro here
      have gone : (Deal.closed e posting).mark? r identity = some false := if_pos here
      rw [Deal.stands_snoc, gone] at stands
      cases stands
    have silent : (Deal.closed e posting).mark? r identity = none := if_neg harmless
    rw [Deal.stands_snoc, silent] at stands
    obtain ⟨other, kept, held, bears, unopposed⟩ := reckoned.stands r identity stands
    -- the exporter of the last export is not the one that is taken back, which would end it
    have differ : other ≠ e := by
      rintro rfl
      rw [posts] at held
      cases held
      exact harmless bears
    refine ⟨other, kept, (dealt.posting? differ).trans held, bears, unopposed.snoc ?_⟩
    rintro _ _ ⟨⟩
    exact harmless

end Host.Reckoned

/-- Whatever exporters that share a factory do, their deals tell what registries list. -/
theorem Dealings.reckoned (dealings : Dealings x own start deals h)
    (fresh : start.Reckoned x own []) : h.Reckoned x own deals := by
  -- an export that is refused and a withdrawal of nothing make no deal
  induction dealings with
  | start => exact fresh
  | idled _ aside ih => exact ih.aside aside
  | @exported _ _ _ e _ _ _ _ known ends ih =>
    rcases exportBy_dealt ih.stocked ends with
      ⟨refused, aside, _⟩ | ⟨rfl, idle, posting, posts, dealt⟩
    · rw [if_neg refused, List.append_nil]
      exact ih.aside aside
    · rw [if_pos rfl, posts]
      exact ih.opened known idle posts dealt
  | unexported _ ends ih =>
    rcases unexport_dealt ih.stocked (ih.posted _) ends with
      ⟨idle, rfl⟩ | ⟨posting, posts, idle, dealt⟩
    · rw [idle, Option.map_none, Option.toList_none, List.append_nil]
      exact ih
    · rw [posts]
      exact ih.closed posts idle dealt

end RpcHost
