import RpcHost.Proofs.Sections
/-!
What a configuration text means. It is accepted exactly when its sections can be read and each
service that names a base service names one that is there. Then the names of the sections, and no
others, are in force; a service takes over from the base service that it names what the document
says for that one, and in whichever order services are looked at, the outcome is the same.
-/
namespace RpcHost

open Attempt Host

variable {h h' mid : Host} {document : Json} {own base : Url} {u : UrlRef} {c : ConfigurationRef}
  {text : String} {basics : Keyed UrlRef} {entries : List (String × UrlRef)} {loader : Loader}

/-- What is set in an address stays, and what is not set in it is taken from the base. -/
structure Url.Inherits (own base result : Url) : Prop where
  path : result.path = own.path
  protocol : result.protocol = if own.protocol = "" then base.protocol else own.protocol
  host : result.host = if own.host = "" then base.host else own.host
  port : result.port = if own.port = 0 then base.port else own.port
  group : result.group = if own.group = "" then base.group else own.group
  params : ∀ key, result.params.find? key = (own.params.find? key).or (base.params.find? key)

theorem Keyed.find?_insertNew_foldl {α : Type} (more : List (String × α)) (m : Keyed α)
    (key : String) :
    (more.foldl (fun m entry => m.insertNew entry.1 entry.2) m).find? key =
      (m.find? key).or (Entries.find? key more) := by
  induction more generalizing m with
  | nil => exact Option.or_none.symm
  | cons entry rest ih =>
    rw [List.foldl_cons, ih, find?_insertNew, Option.or_assoc, Entries.find?]
    by_cases same : entry.1 = key
    · rw [if_pos same, if_pos same.symm]
      rfl
    · rw [if_neg same, if_neg (Ne.symm same), Option.none_or]

theorem Url.mergeFrom_inherits (own base : Url) : own.Inherits base (own.mergeFrom base) := by
  have empty (s : String) : s.isEmpty = true ↔ s = "" := String.isEmpty_iff
  constructor
  · rfl
  · simp only [mergeFrom, empty]
  · simp only [mergeFrom, empty]
  · rfl
  · simp only [mergeFrom, empty]
  · exact own.params.find?_insertNew_foldl _

/-- What a service reads as once it has taken over from its base service. There is none where that
is missing. -/
def Host.resolved (h : Host) (basics : Keyed UrlRef) (u : UrlRef) : Option Url :=
  if (h.urls.get u).param Url.basicServiceKey = "" then some (h.urls.get u)
  else (basics.find? ((h.urls.get u).param Url.basicServiceKey)).map fun base =>
    (h.urls.get u).mergeFrom (h.urls.get base)

theorem Host.resolved_congr (own : h'.urls.get u = h.urls.get u)
    (bases : ∀ name base, basics.find? name = some base → h'.urls.get base = h.urls.get base) :
    h'.resolved basics u = h.resolved basics u := by
  unfold resolved
  rw [own]
  split
  · rfl
  · cases found : basics.find? ((h.urls.get u).param Url.basicServiceKey) with
    | none => rfl
    | some base =>
      rw [Option.map_some, Option.map_some, bases _ base found]

structure Separate (basics : Keyed UrlRef) (entries : List (String × UrlRef)) : Prop where
  apart : (entries.map Prod.snd).Nodup
  based : ∀ entry ∈ entries, ∀ name base, basics.find? name = some base → base ≠ entry.2

theorem Separate.tail {entry : String × UrlRef} (separate : Separate basics (entry :: entries)) :
    Separate basics entries where
  apart := (List.nodup_cons.1 separate.apart).2
  based other member := separate.based other (List.mem_cons_of_mem _ member)

theorem Separate.ne_head {entry other : String × UrlRef}
    (separate : Separate basics (entry :: entries)) (member : other ∈ entries) :
    other.2 ≠ entry.2 := fun same =>
  (List.nodup_cons.1 separate.apart).1 (same ▸ List.mem_map_of_mem member)

theorem Separate.perm {order : List (String × UrlRef)} (separate : Separate basics entries)
    (perm : order.Perm entries) : Separate basics order where
  apart := (perm.map _).nodup_iff.2 separate.apart
  based entry member := separate.based entry (perm.subset member)

/-- What inheriting does to the services. It comes to an end at one whose base is missing. -/
structure Inheriting (h : Host) (basics : Keyed UrlRef) (entries : List (String × UrlRef))
    (done : Bool) (h' : Host) : Prop where
  done_iff : done = true ↔ ∀ entry ∈ entries, (h.resolved basics entry.2).isSome = true
  own : done = true → ∀ entry ∈ entries, h.resolved basics entry.2 = some (h'.urls.get entry.2)
  others : ∀ u, (∀ entry ∈ entries, entry.2 ≠ u) → h'.urls.get u = h.urls.get u
  rest : ∃ urls screen files, h' = { h with urls, screen, files }

theorem Inheriting.cons {name : String} {done : Bool}
    (separate : Separate basics ((name, u) :: entries))
    (settled : h.resolved basics u = some (mid.urls.get u))
    (others : ∀ other, other ≠ u → mid.urls.get other = h.urls.get other)
    (rest : ∃ urls screen files, mid = { h with urls, screen, files })
    (inheriting : Inheriting mid basics entries done h') :
    Inheriting h basics ((name, u) :: entries) done h' := by
  have same (entry : String × UrlRef) (member : entry ∈ entries) :
      mid.resolved basics entry.2 = h.resolved basics entry.2 :=
    resolved_congr (others _ (separate.ne_head member)) fun key base found =>
      others base (separate.based (name, u) List.mem_cons_self key base found)
  constructor
  · rw [inheriting.done_iff, List.forall_mem_cons, settled]
    simp only [Option.isSome_some, true_and]
    exact forall₂_congr fun entry member => by rw [same entry member]
  · intro done
    refine List.forall_mem_cons.2 ⟨?_, fun entry member => ?_⟩
    · rw [settled, inheriting.others u fun entry member => separate.ne_head member]
    · rw [← same entry member]
      exact inheriting.own done entry member
  · intro other differ
    obtain ⟨first, differ⟩ := List.forall_mem_cons.1 differ
    rw [inheriting.others other differ, others other first.symm]
  · obtain ⟨_, _, _, rfl⟩ := rest
    obtain ⟨_, _, _, rfl⟩ := inheriting.rest
    exact ⟨_, _, _, rfl⟩

theorem inheritAll_inheriting (separate : Separate basics entries) (h : Host) :
    Inheriting h basics entries ((inheritAll basics entries).value h)
      ((inheritAll basics entries).after h) := by
  -- on the services, in the order in which they are looked at
  induction entries generalizing h with
  | nil =>
    refine ⟨?_, ?_, fun _ _ => rfl, _, _, _, rfl⟩
    · exact iff_of_true rfl fun _ member => by cases member
    · exact fun _ _ member => by cases member
  | cons entry rest ih =>
    obtain ⟨name, u⟩ := entry
    unfold inheritAll
    rw [Step.value_bind, Step.after_bind, value_getUrl, after_getUrl]
    dsimp only
    by_cases bare : (h.urls.get u).param Url.basicServiceKey = ""
    · rw [if_pos (String.isEmpty_iff.2 bare)]
      refine .cons separate ?_ (fun _ _ => rfl) ⟨_, _, _, rfl⟩ (ih separate.tail h)
      unfold Host.resolved
      exact if_pos bare
    · rw [if_neg (mt String.isEmpty_iff.1 bare)]
      have resolved : h.resolved basics u =
          (basics.find? ((h.urls.get u).param Url.basicServiceKey)).map fun base =>
            (h.urls.get u).mergeFrom (h.urls.get base) := by
        unfold Host.resolved
        exact if_neg bare
      cases found : basics.find? ((h.urls.get u).param Url.basicServiceKey) with
      | none =>
        rw [found] at resolved
        -- the base is missing: inheriting ends here, and not all services are resolved
        obtain ⟨screen, files, leaves⟩ := writeLog_logged .error ["服务 ", name, " 引用的基础配置 ",
          (h.urls.get u).param Url.basicServiceKey, " 不存在!\n"] h
        dsimp only
        rw [Step.value_bind, Step.after_bind, leaves]
        refine ⟨iff_of_false Bool.noConfusion fun all => ?_, Bool.noConfusion, fun _ _ => rfl,
          _, _, _, rfl⟩
        have first := all (name, u) List.mem_cons_self
        rw [resolved] at first
        cases first
      | some base =>
        rw [found] at resolved
        dsimp only
        rw [Step.value_bind, Step.after_bind, value_getUrl, after_getUrl, Step.value_bind,
          Step.after_bind, after_modifyUrl]
        refine .cons separate ?_ (fun other differ => ?_) ⟨_, _, _, rfl⟩ (ih separate.tail _)
        · rw [resolved, Option.map_some]
          show _ = some ((h.urls.modify u fun url => url.mergeFrom (h.urls.get base)).get u)
          rw [Store.get_modify_self]
        · exact Store.get_modify_ne _ differ _

theorem Inheriting.perm {order : List (String × UrlRef)} {done : Bool}
    (inheriting : Inheriting h basics order done h') (perm : order.Perm entries) :
    Inheriting h basics entries done h' where
  done_iff := by
    rw [inheriting.done_iff]
    exact forall_congr' fun entry => by rw [perm.mem_iff]
  own done entry member := inheriting.own done entry (perm.symm.subset member)
  others u apart := inheriting.others u fun entry member => apart entry (perm.subset member)
  rest := inheriting.rest

/-- It makes no difference in which order services take over. -/
theorem inheritAll_walk (order : Traversal UrlRef) {services : Keyed UrlRef}
    (separate : Separate basics services.entries) (h : Host) :
    Inheriting h basics services.entries
      ((inheritAll basics (order.walk services)).value h)
      ((inheritAll basics (order.walk services)).after h) :=
  (inheritAll_inheriting (separate.perm (order.walk_perm services)) h).perm
    (order.walk_perm services)

theorem inheritAll_perm {order : List (String × UrlRef)} (separate : Separate basics entries)
    (perm : order.Perm entries) (h : Host) :
    (inheritAll basics order).value h = (inheritAll basics entries).value h ∧
      ((inheritAll basics entries).value h = true → ∀ u,
        ((inheritAll basics order).after h).urls.get u =
          ((inheritAll basics entries).after h).urls.get u) := by
  have one := (inheritAll_inheriting (separate.perm perm) h).perm perm
  have other := inheritAll_inheriting separate h
  have same : (inheritAll basics order).value h = (inheritAll basics entries).value h := by
    rw [Bool.eq_iff_iff, one.done_iff, other.done_iff]
  refine ⟨same, fun done u => ?_⟩
  by_cases visited : ∃ entry ∈ entries, entry.2 = u
  · obtain ⟨entry, member, rfl⟩ := visited
    have first := one.own (same.trans done) entry member
    rw [other.own done entry member] at first
    exact (Option.some.inj first).symm
  · have apart (entry : String × UrlRef) (member : entry ∈ entries) : entry.2 ≠ u :=
      fun same => visited ⟨entry, member, same⟩
    rw [other.others u apart, one.others u apart]

/-- The document says all that a configuration needs: each section is absent, null or an object of
addresses, and each service that names a base service names one that is there. -/
structure Json.Configures (document : Json) : Prop where
  sections : ∀ heading ∈ [Configuration.registrySection, Configuration.basicSection,
      Configuration.serviceSection],
    document.member heading = .null ∨
      ∃ members, document.member heading = .obj members ∧ Readable members
  based : ∀ name own, document.urlAt Configuration.serviceSection name = some own →
    own.param Url.basicServiceKey ≠ "" →
      (document.urlAt Configuration.basicSection (own.param Url.basicServiceKey)).isSome = true

theorem Json.section?_iff (document : Json) (heading : String) :
    (∃ members, document.section? heading = some members ∧ Readable members) ↔
      document.member heading = .null ∨
        ∃ members, document.member heading = .obj members ∧ Readable members := by
  unfold section?
  cases document.member heading with
  | null => simp [Readable]
  | _ => simp

structure Host.Sectioned (h : Host) (document : Json) (registries basics services : Keyed UrlRef)
    (h' : Host) : Prop where
  gathered : h.Gathered h'
  registered : ∀ name, (registries.find? name).map h'.urls.get =
    document.urlAt Configuration.registrySection name
  basic : ∀ name, (basics.find? name).map h'.urls.get =
    document.urlAt Configuration.basicSection name
  served : ∀ name, (services.find? name).map h'.urls.get =
    document.urlAt Configuration.serviceSection name
  separate : Separate basics services.entries
  aside : ∀ name u, registries.find? name = some u → ∀ entry ∈ services.entries, entry.2 ≠ u

theorem Host.Lists.separate {start between : Host} {members others : List (String × Json)}
    {services : Keyed UrlRef} (lists : start.Lists between members basics)
    (later : between.Lists h others services) : Separate basics services.entries where
  apart := by
    have found {entry : String × UrlRef} (member : entry ∈ services.entries) :
        services.find? entry.1 = some entry.2 :=
      (Entries.find?_eq_some_iff services.sorted).2 member
    refine List.pairwise_map.2 (services.sorted.imp_of_mem ?_)
    intro a b first second smaller same
    have names : a.1 = b.1 := later.apart a.1 b.1 b.2 (same ▸ found first) (found second)
    exact String.lt_irrefl _ (names ▸ smaller)
  based entry member name base found same := by
    have listed := (Entries.find?_eq_some_iff services.sorted).2 member
    exact (later.fresh _ _ listed).1 (same ▸ (lists.fresh _ _ found).2)

theorem readSections_reads (ordered : document.Ordered)
    (sections : ∀ heading ∈ [Configuration.registrySection, Configuration.basicSection,
      Configuration.serviceSection],
      ∃ members, document.section? heading = some members ∧ Readable members) (h : Host) :
    ∃ registries basics services h',
      (readSections document).Yields h (some (registries, basics, services)) h' ∧
        h.Sectioned document registries basics services h' := by
  obtain ⟨members₁, found₁, readable₁⟩ := sections Configuration.registrySection (by simp)
  obtain ⟨members₂, found₂, readable₂⟩ := sections Configuration.basicSection (by simp)
  obtain ⟨members₃, found₃, readable₃⟩ := sections Configuration.serviceSection (by simp)
  obtain ⟨registries, h₁, reads₁, grown₁, lists₁⟩ := readSection_reads ordered found₁ readable₁ h
  obtain ⟨basics, h₂, reads₂, grown₂, lists₂⟩ := readSection_reads ordered found₂ readable₂ h₁
  obtain ⟨services, h₃, reads₃, grown₃, lists₃⟩ := readSection_reads ordered found₃ readable₃ h₂
  refine ⟨registries, basics, services, h₃, ?_, ?_⟩
  · exact yields_bind.2 ⟨_, h₁, reads₁, yields_bind.2 ⟨_, h₂, reads₂,
      yields_bind.2 ⟨_, h₃, reads₃, yields_pure.2 ⟨rfl, rfl⟩⟩⟩⟩
  · constructor
    · exact Course.trans grown₁ (Course.trans grown₂ grown₃)
    · intro name
      rw [← Json.find?_section found₁]
      exact (lists₁.later (Course.trans grown₂ grown₃)).named name
    · intro name
      rw [← Json.find?_section found₂]
      exact (lists₂.later grown₃).named name
    · intro name
      rw [← Json.find?_section found₃]
      exact lists₃.named name
    · exact lists₂.separate lists₃
    · intro name u found entry member same
      exact ((lists₁.later grown₂).separate lists₃).based entry member name u found same.symm

theorem readSections_readable {found : Keyed UrlRef × Keyed UrlRef × Keyed UrlRef}
    (yields : (readSections document).Yields h (some found) h') :
    ∀ heading ∈ [Configuration.registrySection, Configuration.basicSection,
      Configuration.serviceSection],
      ∃ members, document.section? heading = some members ∧ Readable members := by
  obtain ⟨_ | registries, h₁, reads₁, yields⟩ := yields_bind.1 yields
  · cases (yields_pure.1 yields).1
  obtain ⟨_ | basics, h₂, reads₂, yields⟩ := yields_bind.1 yields
  · cases (yields_pure.1 yields).1
  obtain ⟨_ | services, h₃, reads₃, yields⟩ := yields_bind.1 yields
  · cases (yields_pure.1 yields).1
  simp only [List.forall_mem_cons]
  exact ⟨readSection_readable reads₁, readSection_readable reads₂, readSection_readable reads₃,
    fun _ member => by cases member⟩

namespace Host.Sectioned

variable {registries services : Keyed UrlRef}
  (sectioned : h.Sectioned document registries basics services mid)

include sectioned

theorem address {name : String} (member : (name, u) ∈ services.entries) :
    document.urlAt Configuration.serviceSection name = some (mid.urls.get u) := by
  rw [← sectioned.served]
  have found : services.find? name = some u := (Entries.find?_eq_some_iff services.sorted).2 member
  rw [found]
  rfl

theorem resolved_isSome_iff (u : UrlRef) :
    (mid.resolved basics u).isSome = true ↔
      ((mid.urls.get u).param Url.basicServiceKey ≠ "" →
        (document.urlAt Configuration.basicSection
          ((mid.urls.get u).param Url.basicServiceKey)).isSome = true) := by
  unfold Host.resolved
  rw [← sectioned.basic, Option.isSome_map]
  by_cases bare : (mid.urls.get u).param Url.basicServiceKey = ""
  · simp [bare]
  · simp [bare]

theorem based_iff :
    (∀ entry ∈ services.entries, (mid.resolved basics entry.2).isSome = true) ↔
      ∀ name own, document.urlAt Configuration.serviceSection name = some own →
        own.param Url.basicServiceKey ≠ "" →
          (document.urlAt Configuration.basicSection
            (own.param Url.basicServiceKey)).isSome = true := by
  constructor
  · intro all name own tells
    rw [← sectioned.served] at tells
    obtain ⟨u, found, rfl⟩ := Option.map_eq_some_iff.1 tells
    exact (sectioned.resolved_isSome_iff u).1
      (all (name, u) ((Entries.find?_eq_some_iff services.sorted).1 found))
  · intro all entry member
    exact (sectioned.resolved_isSome_iff entry.2).2 (all entry.1 _ (sectioned.address member))

end Host.Sectioned

def Host.registryUrl (h : Host) (c : ConfigurationRef) (name : String) : Option Url :=
  ((h.configurations.get c).registries.find? name).map h.urls.get

def Host.basicUrl (h : Host) (c : ConfigurationRef) (name : String) : Option Url :=
  ((h.configurations.get c).basics.find? name).map h.urls.get

def Host.serviceUrl (h : Host) (c : ConfigurationRef) (name : String) : Option Url :=
  ((h.configurations.get c).services.find? name).map h.urls.get

/-- What the document says is in force, and nothing else: a service that names a base service has
taken over from what the document says for that one. -/
structure Host.Configured (h : Host) (c : ConfigurationRef) (document : Json) : Prop where
  registries : ∀ name, h.registryUrl c name = document.urlAt Configuration.registrySection name
  basics : ∀ name, h.basicUrl c name = document.urlAt Configuration.basicSection name
  absent : ∀ name, document.urlAt Configuration.serviceSection name = none →
    h.serviceUrl c name = none
  services : ∀ name own, document.urlAt Configuration.serviceSection name = some own →
    ∃ url, h.serviceUrl c name = some url ∧
      (own.param Url.basicServiceKey = "" → url = own) ∧
      ∀ base, own.param Url.basicServiceKey ≠ "" →
        document.urlAt Configuration.basicSection (own.param Url.basicServiceKey) = some base →
          own.Inherits base url

theorem loadDocument_inherits {registries services : Keyed UrlRef}
    (reads : (readSections document).Yields h (some (registries, basics, services)) mid)
    (c : ConfigurationRef) :
    ((inheritAll basics (loader.services.walk services)).value mid = true →
      ∃ h', (loadDocument loader c document).Yields h .ok h' ∧
        h'.urls = ((inheritAll basics (loader.services.walk services)).after mid).urls ∧
        (h'.configurations.get c).registries = registries ∧
        (h'.configurations.get c).basics = basics ∧
        (h'.configurations.get c).services = services) ∧
    ((inheritAll basics (loader.services.walk services)).value mid = false →
      (loadDocument loader c document).outcome h = .ok .configError) := by
  have ends : (loadDocument loader c document).ending h = _ := reads.ending_bind _
  dsimp only at ends
  rw [ending_lift_bind] at ends
  constructor
  · intro done
    rw [if_pos done, ending_lift_bind, ending_lift_bind, ending_lift_bind, ending_pure] at ends
    refine ⟨_, ends, ?_⟩
    obtain ⟨screen, files, leaves⟩ := writeLog_logged .info ["配置加载完成，注册中心 ",
      toString registries.size, " 个，服务 ", toString services.size, " 个\n"] _
    rw [leaves]
    have kept (f : Configuration → Configuration) (h : Host) :
        ((modifyConfiguration c f).after h).configurations.get c = f (h.configurations.get c) :=
      Store.get_modify_self _ _ _
    dsimp only
    rw [kept]
    exact ⟨rfl, rfl, rfl, rfl⟩
  · intro stopped
    rw [if_neg (ne_true_of_eq_false stopped)] at ends
    exact congrArg Prod.fst ends

theorem Host.Sectioned.configured {registries services : Keyed UrlRef}
    (sectioned : h.Sectioned document registries basics services mid)
    (done : (inheritAll basics (loader.services.walk services)).value mid = true)
    (urls : h'.urls = ((inheritAll basics (loader.services.walk services)).after mid).urls)
    (kept : (h'.configurations.get c).registries = registries ∧
      (h'.configurations.get c).basics = basics ∧
      (h'.configurations.get c).services = services) : h'.Configured c document := by
  obtain ⟨rfl, rfl, rfl⟩ := kept
  -- only addresses of services change, and registries and bases have others
  have inheriting := inheritAll_walk loader.services sectioned.separate mid
  constructor
  · intro name
    rw [← sectioned.registered]
    unfold registryUrl
    refine Option.map_congr fun u found => ?_
    rw [urls, inheriting.others u (sectioned.aside name u found)]
  · intro name
    rw [← sectioned.basic]
    unfold basicUrl
    refine Option.map_congr fun u found => ?_
    rw [urls, inheriting.others u fun entry member same =>
      sectioned.separate.based entry member name u found same.symm]
  · intro name lacks
    rw [← sectioned.served, Option.map_eq_none_iff] at lacks
    unfold serviceUrl
    rw [lacks]
    rfl
  · intro name own tells
    rw [← sectioned.served] at tells
    obtain ⟨u, found, rfl⟩ := Option.map_eq_some_iff.1 tells
    have member := (Entries.find?_eq_some_iff (h'.configurations.get c).services.sorted).1 found
    have resolved := inheriting.own done (name, u) member
    refine ⟨h'.urls.get u, by unfold serviceUrl; rw [found]; rfl, ?_, ?_⟩
    all_goals
      rw [← urls] at resolved
      unfold Host.resolved at resolved
    · intro bare
      rw [if_pos bare] at resolved
      exact (Option.some.inj resolved).symm
    · intro base named tells
      rw [if_neg named] at resolved
      rw [← sectioned.basic] at tells
      obtain ⟨b, found, rfl⟩ := Option.map_eq_some_iff.1 tells
      rw [found] at resolved
      rw [← Option.some.inj resolved]
      exact Url.mergeFrom_inherits _ _

/-- A document is accepted exactly when it says all that a configuration needs, and is in force
then. -/
theorem loadDocument_configures (ordered : document.Ordered) (c : ConfigurationRef) (h : Host) :
    ((loadDocument loader c document).outcome h = .ok .ok ↔ document.Configures) ∧
      ((loadDocument loader c document).outcome h = .ok .ok →
        ((loadDocument loader c document).after h).Configured c document) := by
  by_cases readable : ∀ heading ∈ [Configuration.registrySection, Configuration.basicSection,
      Configuration.serviceSection],
      ∃ members, document.section? heading = some members ∧ Readable members
  · obtain ⟨registries, basics, services, mid, reads, sectioned⟩ :=
      readSections_reads ordered readable h
    obtain ⟨accepts, refuses⟩ := loadDocument_inherits reads c
    have inheriting := inheritAll_walk loader.services sectioned.separate mid
    have configures_iff : document.Configures ↔
        (inheritAll basics (loader.services.walk services)).value mid = true := by
      rw [inheriting.done_iff, sectioned.based_iff]
      refine ⟨Json.Configures.based, fun based => ⟨fun heading member => ?_, based⟩⟩
      exact (document.section?_iff heading).1 (readable heading member)
    cases done : (inheritAll basics (loader.services.walk services)).value mid with
    | true =>
      obtain ⟨h', yields, urls, kept⟩ := accepts done
      obtain ⟨ends, leaves⟩ := yields_iff.1 yields
      rw [leaves]
      exact ⟨iff_of_true ends (configures_iff.2 done), fun _ =>
        sectioned.configured done urls kept⟩
    | false =>
      have ends := refuses done
      have refused : (loadDocument loader c document).outcome h ≠ .ok .ok := by
        rw [ends]
        simp
      exact ⟨iff_of_false refused (by simp [configures_iff, done]), fun ok => absurd ok refused⟩
  · have refused : (loadDocument loader c document).outcome h ≠ .ok .ok := fun ok => by
      obtain ⟨found, mid, reads, rest⟩ := yields_bind.1 (yields_iff.2 ⟨ok, rfl⟩)
      cases found with
      | none => cases (yields_pure.1 rest).1
      | some found => exact readable (readSections_readable reads)
    refine ⟨iff_of_false refused fun configures => readable fun heading member => ?_,
      fun ok => absurd ok refused⟩
    exact (document.section?_iff heading).2 (configures.sections heading member)

theorem loadText_cases (loader : Loader) (c : ConfigurationRef) (text : String) (h : Host) :
    (∃ members, loader.read? text = some (.obj members) ∧
      loadText loader c text = loadDocument loader c (.obj members)) ∨
    (∀ document, loader.read? text = some document → document.isObject = false) ∧
      (loadText loader c text).outcome h = .ok .configError := by
  unfold loadText
  cases reads : loader.read? text with
  | none => exact Or.inr ⟨fun _ found => (nomatch found), rfl⟩
  | some document =>
    cases document with
    | obj members => exact Or.inl ⟨members, rfl, rfl⟩
    | _ =>
      refine Or.inr ⟨fun _ found => ?_, rfl⟩
      cases found
      rfl

/-- A text is accepted exactly when it is an object that says all that a configuration needs. Then
what it says is in force and nothing else. Looking at the services in any other order comes to the
same. -/
theorem loadText_configures (loader : Loader) (c : ConfigurationRef) (text : String) (h : Host) :
    ((loadText loader c text).outcome h = .ok .ok ↔
      ∃ document, loader.read? text = some document ∧ document.isObject = true ∧
        document.Configures) ∧
    ∀ document, loader.read? text = some document →
      ((loadText loader c text).outcome h = .ok .ok →
        ((loadText loader c text).after h).Configured c document) ∧
      ∀ registries basics services mid,
        (readSections document).Yields h (some (registries, basics, services)) mid →
        ∀ order, order.Perm services.entries →
          (inheritAll basics order).value mid = (inheritAll basics services.entries).value mid ∧
          ((inheritAll basics services.entries).value mid = true → ∀ u,
            ((inheritAll basics order).after mid).urls.get u =
              ((inheritAll basics services.entries).after mid).urls.get u) := by
  refine ⟨?_, fun document reads => ⟨fun ok => ?_, ?_⟩⟩
  · rcases loadText_cases loader c text h with ⟨members, reads, loads⟩ | ⟨others, refused⟩
    · rw [loads, (loadDocument_configures (loader.ordered reads) c h).1]
      refine ⟨fun configures => ⟨_, reads, rfl, configures⟩, ?_⟩
      rintro ⟨document, reads', _, configures⟩
      rw [reads] at reads'
      cases reads'
      exact configures
    · rw [refused]
      refine iff_of_false (by simp) ?_
      rintro ⟨document, reads, object, _⟩
      rw [others document reads] at object
      cases object
  · rcases loadText_cases loader c text h with ⟨members, reads', loads⟩ | ⟨_, refused⟩
    · rw [reads] at reads'
      cases reads'
      rw [loads] at ok ⊢
      exact (loadDocument_configures (loader.ordered reads) c h).2 ok
    · rw [refused] at ok
      cases ok
  · intro registries basics services mid yields order perm
    obtain ⟨_, _, _, _, yields', sectioned⟩ :=
      readSections_reads (loader.ordered reads) (readSections_readable yields) h
    obtain ⟨same, rfl⟩ := yields.unique yields'
    cases same
    exact inheritAll_perm sectioned.separate perm mid

def Json.sample : Json :=
  .obj [("basicServices", .obj [("b", .obj [("group", .str "g")])]),
    ("services", .obj [("s", .obj [("basicService", .str "b")])])]

def Json.sampleText : String :=
  "\x7b\"basicServices\":\x7b\"b\":\x7b\"group\":\"g\"\x7d\x7d," ++
    "\"services\":\x7b\"s\":\x7b\"basicService\":\"b\"\x7d\x7d\x7d"

theorem Loader.read?_sampleText : standard.read? Json.sampleText = some Json.sample := by
  rw [read?_standard]
  cbv

theorem Json.configures_sample : Json.sample.Configures where
  sections := by
    refine List.forall_mem_cons.2 ⟨Or.inl rfl, List.forall_mem_cons.2 ⟨Or.inr ⟨_, rfl, ?_⟩,
      List.forall_mem_singleton.2 (Or.inr ⟨_, rfl, ?_⟩)⟩⟩
    · exact List.forall_mem_singleton.2 rfl
    · exact List.forall_mem_singleton.2 rfl
  based := by
    intro name own tells _
    by_cases same : "s" = name
    · subst same
      obtain rfl : ⟨"", "", 0, "", "", .ofList [("basicService", "b")]⟩ = own :=
        Option.some.inj tells
      rfl
    · have lacks : sample.urlAt Configuration.serviceSection name = none := by
        show Url.of? ((if "s" = name then some _ else none).getD .null) = none
        rw [if_neg same]
        rfl
      rw [lacks] at tells
      cases tells

theorem loadText_configures_sample :
    (loadText .standard ⟨0⟩ Json.sampleText).outcome
        (.start (.workingIn []) (fun _ _ => 0) fun _ _ => 0) = .ok .ok ∧
      ∃ url, Host.serviceUrl ((loadText .standard ⟨0⟩ Json.sampleText).after
        (.start (.workingIn []) (fun _ _ => 0) fun _ _ => 0)) ⟨0⟩ "s" = some url ∧
        url.group = "g" := by
  obtain ⟨accepted_iff, meaning⟩ := loadText_configures .standard ⟨0⟩ Json.sampleText
    (.start (.workingIn []) (fun _ _ => 0) fun _ _ => 0)
  have accepted := accepted_iff.2 ⟨_, Loader.read?_sampleText, rfl, Json.configures_sample⟩
  obtain ⟨configured, _⟩ := meaning _ Loader.read?_sampleText
  obtain ⟨url, serves, _, inherits⟩ := (configured accepted).services "s"
    ⟨"", "", 0, "", "", .ofList [("basicService", "b")]⟩ rfl
  have inherited := inherits ⟨"", "", 0, "", "g", .empty⟩ (by decide) rfl
  exact ⟨accepted, url, serves, inherited.group⟩

end RpcHost
