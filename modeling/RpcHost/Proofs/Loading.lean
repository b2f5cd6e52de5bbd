import RpcHost.Proofs.Misreadings
/-!
A load is all or nothing. A text that is accepted is in force as a whole. Any other leaves in force
what was, and every address and the settings of the log too: the sections are read into new
addresses, and services inherit within those.
-/
namespace RpcHost

open Attempt Host

variable {h mid inherited h' : Host} {document : Json} {c : ConfigurationRef} {text : String}
  {registries basics services : Keyed UrlRef} {entries : List (String × UrlRef)} {loader : Loader}

/-- What is in force stays, and so does every address that there is. -/
structure Host.Retains (h h' : Host) : Prop where
  configurations : h'.configurations = h.configurations
  log : h'.log = h.log
  addresses : h.urls.Extends h'.urls

instance : Course Host.Retains where
  refl _ := ⟨rfl, rfl, .refl _⟩
  trans first second := ⟨second.configurations.trans first.configurations,
    second.log.trans first.log, first.addresses.trans second.addresses⟩

theorem Host.Gathered.retains (gathered : h.Gathered h') : h.Retains h' := by
  obtain ⟨⟨_, _, _, rfl⟩, grown⟩ := gathered
  exact ⟨rfl, rfl, grown⟩

theorem writeLog_retains (level : Level) (pieces : List String) :
    (writeLog level pieces).Within Retains := fun h => (writeLog_gathers level pieces h).retains

structure Host.Rooted (h : Host) (c : ConfigurationRef) : Prop where
  registries : ∀ name u, (h.configurations.get c).registries.find? name = some u →
    h.urls.Allocated u
  basics : ∀ name u, (h.configurations.get c).basics.find? name = some u → h.urls.Allocated u
  services : ∀ name u, (h.configurations.get c).services.find? name = some u → h.urls.Allocated u

theorem find?_map_retained {refs : Keyed UrlRef} (grown : h.urls.Extends h'.urls)
    (rooted : ∀ name u, refs.find? name = some u → h.urls.Allocated u) (name : String) :
    (refs.find? name).map h'.urls.get = (refs.find? name).map h.urls.get := by
  cases found : refs.find? name with
  | none => rfl
  | some u => exact congrArg some (grown.get u (rooted name u found))

/-- The configuration has what it had but for the name of its file, and every address that there
is stays. -/
structure Host.Upholds (h : Host) (c : ConfigurationRef) (h' : Host) : Prop where
  document : (h'.configurations.get c).document = (h.configurations.get c).document
  registries : (h'.configurations.get c).registries = (h.configurations.get c).registries
  basics : (h'.configurations.get c).basics = (h.configurations.get c).basics
  services : (h'.configurations.get c).services = (h.configurations.get c).services
  addresses : h.urls.Extends h'.urls

theorem Host.Retains.upholds (retains : h.Retains h') (c : ConfigurationRef) : h.Upholds c h' := by
  constructor
  all_goals first | exact retains.addresses | rw [retains.configurations]

namespace Host.Upholds

variable (upholds : h.Upholds c h')

include upholds

theorem rooted (rooted : h.Rooted c) : h'.Rooted c := by
  constructor
  all_goals
    intro name u found
    apply upholds.addresses.allocated
  · rw [upholds.registries] at found
    exact rooted.registries name u found
  · rw [upholds.basics] at found
    exact rooted.basics name u found
  · rw [upholds.services] at found
    exact rooted.services name u found

theorem registryUrl (rooted : h.Rooted c) (name : String) :
    h'.registryUrl c name = h.registryUrl c name := by
  unfold Host.registryUrl
  rw [upholds.registries]
  exact find?_map_retained upholds.addresses rooted.registries name

theorem basicUrl (rooted : h.Rooted c) (name : String) :
    h'.basicUrl c name = h.basicUrl c name := by
  unfold Host.basicUrl
  rw [upholds.basics]
  exact find?_map_retained upholds.addresses rooted.basics name

theorem serviceUrl (rooted : h.Rooted c) (name : String) :
    h'.serviceUrl c name = h.serviceUrl c name := by
  unfold Host.serviceUrl
  rw [upholds.services]
  exact find?_map_retained upholds.addresses rooted.services name

theorem configured (rooted : h.Rooted c) (configured : h.Configured c document) :
    h'.Configured c document := by
  constructor
  · intro name
    rw [upholds.registryUrl rooted, configured.registries]
  · intro name
    rw [upholds.basicUrl rooted, configured.basics]
  · intro name absent
    rw [upholds.serviceUrl rooted, configured.absent name absent]
  · intro name own tells
    rw [upholds.serviceUrl rooted]
    exact configured.services name own tells

end Host.Upholds

theorem readSection_gathers (document : Json) (heading : String) :
    (readSection document heading).Within Gathered := by
  unfold readSection
  split
  · exact Attempt.within_pure _
  · exact readEntries_gathers _ _ _
  · exact Attempt.within_bind (within_lift (writeLog_gathers _ _)) fun _ => Attempt.within_pure _

theorem readSections_gathers (document : Json) : (readSections document).Within Gathered := by
  refine Attempt.within_bind (readSection_gathers _ _) fun registries => ?_
  cases registries with
  | none => exact Attempt.within_pure _
  | some registries =>
    refine Attempt.within_bind (readSection_gathers _ _) fun basics => ?_
    cases basics with
    | none => exact Attempt.within_pure _
    | some basics =>
      refine Attempt.within_bind (readSection_gathers _ _) fun services => ?_
      cases services <;> exact Attempt.within_pure _

theorem readSection_fresh {refs : Keyed UrlRef} {heading : String} (ordered : document.Ordered)
    (reads : (readSection document heading).Yields h (some refs) h') :
    ∀ name u, refs.find? name = some u → ¬h.urls.Allocated u ∧ h'.urls.Allocated u := by
  obtain ⟨members, found, readable⟩ := readSection_readable reads
  obtain ⟨refs', mid, reads', _, lists⟩ := readSection_reads ordered found readable h
  obtain ⟨same, rfl⟩ := reads.unique reads'
  cases same
  exact lists.fresh

theorem readSections_fresh (ordered : document.Ordered)
    (reads : (readSections document).Yields h (some (registries, basics, services)) h') :
    (∀ name u, registries.find? name = some u → h'.urls.Allocated u) ∧
      (∀ name u, basics.find? name = some u → h'.urls.Allocated u) ∧
      ∀ name u, services.find? name = some u → ¬h.urls.Allocated u ∧ h'.urls.Allocated u := by
  obtain ⟨_ | _, h₁, first, rest⟩ := yields_bind.1 reads
  · cases (yields_pure.1 rest).1
  obtain ⟨_ | _, h₂, second, rest⟩ := yields_bind.1 rest
  · cases (yields_pure.1 rest).1
  obtain ⟨_ | _, h₃, third, rest⟩ := yields_bind.1 rest
  · cases (yields_pure.1 rest).1
  obtain ⟨same, rfl⟩ := yields_pure.1 rest
  cases same
  have grown₁ : h.Gathered h₁ := (readSection_gathers _ _).leaves first.after_eq
  have grown₂ : h₁.Gathered h₂ := (readSection_gathers _ _).leaves second.after_eq
  have grown₃ : h₂.Gathered h₃ := (readSection_gathers _ _).leaves third.after_eq
  refine ⟨fun name u found => ?_, fun name u found => ?_, fun name u found => ?_⟩
  · have known := (readSection_fresh ordered first name u found).2
    exact grown₃.urls.allocated (grown₂.urls.allocated known)
  · exact grown₃.urls.allocated (readSection_fresh ordered second name u found).2
  · obtain ⟨new, known⟩ := readSection_fresh ordered third name u found
    exact ⟨fun old => new (grown₂.urls.allocated (grown₁.urls.allocated old)), known⟩

theorem inheritAll_keeps {P : Host → Prop} (basics : Keyed UrlRef)
    (logs : ∀ level pieces mid, P mid → P ((writeLog level pieces).after mid))
    (merges : ∀ entry ∈ entries, ∀ f mid, P mid → P ((modifyUrl entry.2 f).after mid))
    (holds : P h) : P ((inheritAll basics entries).after h) := by
  -- on the services; inheriting may end half-way, at a base that is not there
  induction entries generalizing h with
  | nil => exact holds
  | cons entry rest ih =>
    obtain ⟨name, u⟩ := entry
    obtain ⟨first, others⟩ := List.forall_mem_cons.1 merges
    unfold inheritAll
    rw [Step.after_bind, value_getUrl, after_getUrl]
    dsimp only
    by_cases bare : ((h.urls.get u).param Url.basicServiceKey).isEmpty = true
    · rw [if_pos bare]
      exact ih others holds
    · rw [if_neg bare]
      cases basics.find? ((h.urls.get u).param Url.basicServiceKey) with
      | none => exact logs _ _ h holds
      | some base =>
        dsimp only
        rw [Step.after_bind, value_getUrl, after_getUrl, Step.after_bind]
        exact ih others (first _ h holds)

theorem inheritAll_retains (new : ∀ entry ∈ entries, ¬h.urls.Allocated entry.2)
    (retains : h.Retains mid) : h.Retains ((inheritAll basics entries).after mid) := by
  refine inheritAll_keeps basics ?_ ?_ retains
  · intro level pieces mid retains
    exact Course.trans retains (writeLog_retains level pieces mid)
  · intro entry member f mid retains
    exact ⟨retains.configurations, retains.log, retains.addresses.modify (new entry member) f⟩

theorem inheritAll_next (basics : Keyed UrlRef) (entries : List (String × UrlRef)) (h : Host) :
    ((inheritAll basics entries).after h).urls.next = h.urls.next := by
  refine inheritAll_keeps (P := fun mid => mid.urls.next = h.urls.next) basics ?_ ?_ rfl
  · intro level pieces mid same
    obtain ⟨screen, files, leaves⟩ := writeLog_logged level pieces mid
    rw [leaves]
    exact same
  · intro entry _ f mid same
    exact same

/-- The document is in force for the configuration. Nothing else that was in force has changed but
the settings of the log, where the document gives any. -/
structure Host.Adopts (h : Host) (c : ConfigurationRef) (document : Json) (h' : Host) : Prop where
  configured : h'.Configured c document
  kept : (h'.configurations.get c).document = keptDocument document
  file : (h'.configurations.get c).file = (h.configurations.get c).file
  log : h'.log = h.log.configured (document.member Configuration.logSection)
  others : ∀ other, other ≠ c → h'.configurations.get other = h.configurations.get other
  addresses : h.urls.Extends h'.urls
  rooted : h'.Rooted c

theorem loadDocument_after
    (reads : (readSections document).Yields h (some (registries, basics, services)) mid)
    (leaves : (inheritAll basics (loader.services.walk services)).after mid = inherited)
    (done : (inheritAll basics (loader.services.walk services)).value mid = true)
    (c : ConfigurationRef) :
    ∃ screen files, (loadDocument loader c document).after h =
      { inherited with
        log := inherited.log.configured (document.member Configuration.logSection)
        configurations := inherited.configurations.modify c fun configuration =>
          { configuration with document := keptDocument document, registries, basics, services }
        screen, files } := by
  have ends : (loadDocument loader c document).ending h = _ := reads.ending_bind _
  dsimp only at ends
  rw [ending_lift_bind, if_pos done, ending_lift_bind, ending_lift_bind, ending_lift_bind,
    leaves] at ends
  obtain ⟨screen, files, logs⟩ := writeLog_logged .info ["配置加载完成，注册中心 ",
    toString registries.size, " 个，服务 ", toString services.size, " 个\n"] _
  rw [logs] at ends
  exact ⟨screen, files, congrArg Prod.snd ends⟩

theorem loadDocument_adopts (ordered : document.Ordered)
    (reads : (readSections document).Yields h (some (registries, basics, services)) mid)
    (done : (inheritAll basics (loader.services.walk services)).value mid = true)
    (c : ConfigurationRef) :
    h.Adopts c document ((loadDocument loader c document).after h) := by
  obtain ⟨_, yields, _⟩ := (loadDocument_inherits reads c).1 done
  have configured := (loadDocument_configures ordered c h).2 (yields_iff.1 yields).1
  obtain ⟨registered, based, served⟩ := readSections_fresh ordered reads
  have gathered : h.Gathered mid := (readSections_gathers document).leaves reads.after_eq
  have retains : h.Retains ((inheritAll basics (loader.services.walk services)).after mid) := by
    apply inheritAll_retains _ gathered.retains
    intro entry member
    have listed := (loader.services.walk_perm services).subset member
    exact (served _ _ ((Entries.find?_eq_some_iff services.sorted).2 listed)).1
  have next := inheritAll_next basics (loader.services.walk services) mid
  obtain ⟨screen, files, leaves⟩ := loadDocument_after reads rfl done c
  generalize (inheritAll basics (loader.services.walk services)).after mid = inherited
    at retains next leaves
  rw [leaves] at configured ⊢
  have grown : mid.urls.next ≤ inherited.urls.next := Nat.le_of_eq next.symm
  constructor
  · exact configured
  · dsimp only
    rw [Store.get_modify_self]
  · dsimp only
    rw [Store.get_modify_self, retains.configurations]
  · exact congrArg (Log.configured · _) retains.log
  · intro other differ
    dsimp only
    rw [Store.get_modify_ne _ differ, retains.configurations]
  · exact retains.addresses
  · constructor
    all_goals
      intro name u found
      dsimp only at found
      rw [Store.get_modify_self] at found
    · exact (registered name u found).mono grown
    · exact (based name u found).mono grown
    · exact (served name u found).2.mono grown

theorem loadDocument_retains (ordered : document.Ordered)
    (refused : (loadDocument loader c document).outcome h ≠ .ok .ok) :
    h.Retains ((loadDocument loader c document).after h) := by
  have gathered : h.Gathered ((readSections document).after h) := readSections_gathers document h
  rcases yields_or_fails (readSections document) h with ⟨found, reads⟩ | ⟨fault, fails⟩
  · have ends : (loadDocument loader c document).ending h = _ := reads.ending_bind _
    cases found with
    | none =>
      have leaves : (loadDocument loader c document).after h = _ := congrArg Prod.snd ends
      rw [leaves]
      exact gathered.retains
    | some sections =>
      obtain ⟨registries, basics, services⟩ := sections
      obtain ⟨_, _, served⟩ := readSections_fresh ordered reads
      cases done : (inheritAll basics (loader.services.walk services)).value
          ((readSections document).after h) with
      | true =>
        obtain ⟨h', yields, _⟩ := (loadDocument_inherits reads c).1 done
        exact absurd (yields_iff.1 yields).1 refused
      | false =>
        dsimp only at ends
        rw [ending_lift_bind, if_neg (ne_true_of_eq_false done)] at ends
        have leaves : (loadDocument loader c document).after h = _ := congrArg Prod.snd ends
        rw [leaves]
        apply inheritAll_retains _ gathered.retains
        intro entry member
        have listed := (loader.services.walk_perm services).subset member
        exact (served _ _ ((Entries.find?_eq_some_iff services.sorted).2 listed)).1
  · have leaves : (loadDocument loader c document).after h = _ :=
      congrArg Prod.snd (fails.ending_bind _)
    rw [leaves]
    exact gathered.retains

theorem loadDocument_accepts (ordered : document.Ordered)
    (accepted : (loadDocument loader c document).outcome h = .ok .ok) :
    h.Adopts c document ((loadDocument loader c document).after h) := by
  have yields :
      (loadDocument loader c document).Yields h .ok ((loadDocument loader c document).after h) :=
    yields_iff.2 ⟨accepted, rfl⟩
  obtain ⟨found, mid, reads, rest⟩ := yields_bind.1 yields
  cases found with
  | none => cases (yields_pure.1 rest).1
  | some sections =>
    obtain ⟨registries, basics, services⟩ := sections
    apply loadDocument_adopts ordered reads
    cases done : (inheritAll basics (loader.services.walk services)).value mid with
    | true => rfl
    | false =>
      have refused := (loadDocument_inherits reads c).2 done
      rw [refused] at accepted
      cases accepted

theorem loadText_accepts (accepted : (loadText loader c text).outcome h = .ok .ok) :
    ∃ document, loader.read? text = some document ∧
      h.Adopts c document ((loadText loader c text).after h) := by
  rcases loadText_cases loader c text h with ⟨members, reads, loads⟩ | ⟨_, refused⟩
  · rw [loads] at accepted ⊢
    exact ⟨_, reads, loadDocument_accepts (loader.ordered reads) accepted⟩
  · rw [refused] at accepted
    cases accepted

theorem loadText_retains (refused : (loadText loader c text).outcome h ≠ .ok .ok) :
    h.Retains ((loadText loader c text).after h) := by
  unfold loadText at *
  cases reads : loader.read? text with
  | none =>
    exact Attempt.within_bind (within_lift (writeLog_retains _ _)) (fun _ =>
      Attempt.within_bind (within_lift (writeLog_retains _ _)) fun _ => Attempt.within_pure _) h
  | some document =>
    rw [reads] at refused
    cases document with
    | obj members => exact loadDocument_retains (loader.ordered reads) refused
    | _ =>
      exact Attempt.within_bind (within_lift (writeLog_retains _ _))
        (fun _ => Attempt.within_pure _) h

/-- A text is taken over as a whole, with nothing of what was in force before left for the
configuration, or, where the load ends in any other way, all that was in force still is: the same
addresses under the same names, and each of them reads as before. -/
theorem loadText_all_or_nothing (loader : Loader) (c : ConfigurationRef) (text : String)
    (h : Host) :
    ((loadText loader c text).outcome h = .ok .ok ∧
      ∃ document, loader.read? text = some document ∧
        h.Adopts c document ((loadText loader c text).after h)) ∨
    (((loadText loader c text).outcome h = .ok .configError ∨
        (loadText loader c text).outcome h = .error .conversion) ∧
      h.Retains ((loadText loader c text).after h) ∧
      (h.Rooted c → ∀ name,
        ((loadText loader c text).after h).registryUrl c name = h.registryUrl c name ∧
        ((loadText loader c text).after h).basicUrl c name = h.basicUrl c name ∧
        ((loadText loader c text).after h).serviceUrl c name = h.serviceUrl c name)) := by
  have ends := loadText_ends loader c text h
  by_cases accepted : (loadText loader c text).outcome h = .ok .ok
  · exact Or.inl ⟨accepted, loadText_accepts accepted⟩
  · have retains := loadText_retains accepted
    refine Or.inr ⟨(ends.resolve_left accepted).imp_right And.right, retains, ?_⟩
    intro rooted name
    have upholds := retains.upholds c
    exact ⟨upholds.registryUrl rooted name, upholds.basicUrl rooted name,
      upholds.serviceUrl rooted name⟩

end RpcHost
