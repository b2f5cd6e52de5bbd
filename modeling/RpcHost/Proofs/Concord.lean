import RpcHost.Proofs.Sweeps
/-!
Two states that the same services were deployed to from one state, in whichever order. Registries
may have been made in another order, so they are told apart by the identities of their addresses.
-/
namespace RpcHost

open Attempt Host

variable {h g g' : Host} {s : ServerRef} {x : ExtensionsRef} {u : UrlRef} {p : ProviderRef}
  {r r' : RegistryRef} {path identity key : String} {done done' : List (UrlRef × Option Service)}

theorem Registry.Direct.state_eq {a b : Registry} (direct : a.Direct) (direct' : b.Direct)
    (same : ∀ identity, a.lists identity = b.lists identity) : a.state = b.state := by
  obtain ⟨listed, state⟩ := direct
  obtain ⟨listed', state'⟩ := direct'
  rw [state, state']
  refine congrArg RegistryState.direct (Keyed.ext_find? fun identity => ?_)
  have alike := same identity
  unfold lists at alike
  rw [state, state'] at alike
  change (listed.find? identity).isSome = (listed'.find? identity).isSome at alike
  cases found : listed.find? identity with
  | none =>
    rw [found] at alike
    exact (Option.isSome_eq_false_iff.1 alike.symm |> Option.isNone_iff_eq_none.1).symm
  | some =>
    rw [found] at alike
    obtain ⟨_, found'⟩ := Option.isSome_iff_exists.1 alike.symm
    exact found'.symm

namespace Host

/-- The service is to be announced under the identity, at the registry for `key`. -/
def Posts (h : Host) (s : ServerRef) (d : UrlRef × Option Service) (identity key : String) : Prop :=
  ∃ portrait, h.fateOf s d.1 d.2 = some portrait ∧ portrait.url.identity = identity ∧
    ∃ name ∈ portrait.url.listParam Url.registryKey, ∃ v,
      h.registryAddress? (h.servers.get s).configuration name = some v ∧
        (h.urls.get v).identity = key

def Posted (h : Host) (s : ServerRef) (done : List (UrlRef × Option Service))
    (identity key : String) : Prop :=
  ∃ d ∈ done, h.Makes s d.1 ∧ h.Posts s d identity key

/-- What a registry holds that the factory made for `key`. -/
def contentAt (h : Host) (x : ExtensionsRef) (key : String) : Option RegistryState :=
  ((h.stock x).find? key).map fun r => (h.registries.get r).state

theorem Coherent.isSome_exporterAt (coherent : h.Coherent s) (path : String) :
    (h.exporterAt s path).isSome = (h.portraitAt s path).isSome := by
  rw [portraitAt, Option.isSome_map]
  exact Bool.eq_iff_iff.2 (coherent.agreeing.paths path)

namespace Retouched

section One

variable (retouched : h.Retouched s done g)

include retouched

theorem resolve_iff {name : String} :
    g.resolve (h.servers.get s).extensions (h.servers.get s).configuration name = some r ↔
      ∃ v, h.registryAddress? (h.servers.get s).configuration name = some v ∧
        (g.stock (h.servers.get s).extensions).find? (h.urls.get v).identity = some r := by
  unfold resolve
  rw [retouched.abiding.address, Option.bind_eq_some_iff]
  simp only [(retouched.steady.urls _).identity]

theorem standing_iff {d : UrlRef × Option Service} (member : d ∈ done) (makes : h.Makes s d.1) :
    r ∈ g.standingAt s (h.urls.get d.1).path identity ↔ ∃ key, h.Posts s d identity key ∧
      (g.stock (h.servers.get s).extensions).find? key = some r := by
  have shown := retouched.shown d member
  cases route : g.routeAt s (h.urls.get d.1).path with
  | none =>
    rw [portraitAt, route, Option.map_none] at shown
    rw [standingAt_unserved (retouched.coherent.unserved route)]
    simp [Posts, ← shown]
  | some p =>
    rw [portraitAt_of_route route] at shown
    obtain ⟨e, registries, kept⟩ := retouched.kept d member makes p route
    have names := g.listParam_portrait p
    have listed : r ∈ registries ↔ ∃ name ∈ g.registryNames p,
        g.resolve (h.servers.get s).extensions (h.servers.get s).configuration name = some r := by
      rw [kept.resolved, retouched.steady.factory, retouched.steady.context, List.mem_filterMap]
    rw [kept.serves.standingAt]
    unfold Standing.one Posts
    rw [← shown]
    constructor
    · intro stands
      split at stands
      · rename_i own
        obtain ⟨name, named, found⟩ := listed.1 stands
        obtain ⟨v, there, made⟩ := retouched.resolve_iff.1 found
        exact ⟨_, ⟨_, rfl, own, name, by rwa [names], v, there, rfl⟩, made⟩
      · cases stands
    · rintro ⟨_, ⟨_, same, own, name, named, v, there, rfl⟩, made⟩
      cases same
      rw [if_pos (show g.announcedAs p = identity from own)]
      rw [names] at named
      exact listed.2 ⟨name, named, retouched.resolve_iff.2 ⟨v, there, made⟩⟩

theorem stands_iff : h.Stands g s done r identity ↔ ∃ key, h.Posted s done identity key ∧
    (g.stock (h.servers.get s).extensions).find? key = some r := by
  constructor
  · rintro ⟨d, member, makes, stands⟩
    obtain ⟨key, posts, made⟩ := (retouched.standing_iff member makes).1 stands
    exact ⟨key, ⟨d, member, makes, posts⟩, made⟩
  · rintro ⟨key, ⟨d, member, makes, posts⟩, made⟩
    exact ⟨d, member, makes, (retouched.standing_iff member makes).2 ⟨key, posts, made⟩⟩

theorem settled (posted : h.Posted s done identity key) :
    ((g.stock (h.servers.get s).extensions).find? key).isSome = true ∨
      ∃ name v, h.registryAddress? (h.servers.get s).configuration name = some v ∧
        (h.urls.get v).identity = key ∧
          ¬(h.extensions.get (h.servers.get s).extensions).Builds (h.urls.get v).protocol := by
  obtain ⟨d, member, makes, portrait, fate, own, name, named, v, there, same⟩ := posted
  have shown := retouched.shown d member
  rw [fate] at shown
  obtain ⟨p, route, alike⟩ := Option.map_eq_some_iff.1 shown
  obtain ⟨e, registries, kept⟩ := retouched.kept d member makes p route
  rw [← alike, listParam_portrait] at named
  have settled := kept.settled name named
  rw [retouched.steady.factory, retouched.steady.context] at settled
  rcases settled v (by rw [retouched.abiding.address, there]) with made | lacks
  · rw [(retouched.steady.urls v).identity, same] at made
    exact Or.inl made
  · rw [(retouched.steady.urls v).protocol, retouched.abiding.builds] at lacks
    exact Or.inr ⟨name, v, there, same, lacks⟩

end One

section Two

variable (first : h.Retouched s done g) (second : h.Retouched s done' g')
  (same : ∀ d, d ∈ done ↔ d ∈ done')

include first second same

theorem portraitAt_eq (path : String) : g.portraitAt s path = g'.portraitAt s path := by
  rcases first.portraitAt_cases path with ⟨d, member, rfl, looks⟩ | ⟨away, looks⟩
  · rw [looks, second.shown d ((same d).1 member)]
  · rw [looks, (second.spared path fun d member => away d ((same d).2 member)).1]

omit first second in
theorem posted_iff : h.Posted s done identity key ↔ h.Posted s done' identity key := by
  unfold Posted
  simp only [same]

theorem counterpart (clear : h.Unambiguous (h.servers.get s).configuration)
    (made : (g.stock (h.servers.get s).extensions).find? key = some r) :
    ∃ r', (g'.stock (h.servers.get s).extensions).find? key = some r' ∧
      (r = r' ∨ ¬h.registries.Allocated r ∧ ¬h.registries.Allocated r') := by
  rcases first.stocks.made key r made with before | ⟨new, ⟨identity, stands⟩, alone⟩
  · exact ⟨r, second.stocks.kept key r before, Or.inl rfl⟩
  obtain ⟨other, posted, there⟩ := first.stands_iff.1 stands
  obtain rfl : other = key := alone other there
  have there' : ((g'.stock (h.servers.get s).extensions).find? other).isSome = true := by
    rcases second.settled ((posted_iff same).1 posted) with made' | ⟨name, v, address, own, lacks⟩
    · exact made'
    · rcases first.abiding.built other r made with before | ⟨name', w, address', own', builds⟩
      · exact Option.isSome_iff_exists.2 ⟨r, second.stocks.kept other r before⟩
      · rw [clear name name' v w address address' (own.trans own'.symm)] at lacks
        exact absurd builds lacks
  obtain ⟨r', made'⟩ := Option.isSome_iff_exists.1 there'
  refine ⟨r', made', Or.inr ⟨new, fun known => ?_⟩⟩
  -- one that was there before would have been found in the first course as well
  have before := (second.stocks.find?_of_allocated known).1 made'
  obtain rfl : r = r' := Option.some.inj (made.symm.trans (first.stocks.kept other r' before))
  exact new known

theorem listsAt_eq (alike : ∀ key, (g.stock (h.servers.get s).extensions).find? key = some r ↔
      (g'.stock (h.servers.get s).extensions).find? key = some r')
    (both : r = r' ∨ ¬h.registries.Allocated r ∧ ¬h.registries.Allocated r')
    (identity : String) : g.listsAt r identity = g'.listsAt r' identity := by
  have stands : h.Stands g s done r identity ↔ h.Stands g' s done' r' identity := by
    rw [first.stands_iff, second.stands_iff]
    simp only [alike, posted_iff same]
  have stood : h.Stands h s done r identity ↔ h.Stands h s done' r identity := by
    unfold Stands
    simp only [same]
  rw [Bool.eq_iff_iff, first.lists, second.lists, stands, stood]
  rcases both with rfl | ⟨new, new'⟩
  · rfl
  · rw [listsAt_of_not_allocated new, listsAt_of_not_allocated new']
    simp

theorem listsAt_known (known : h.registries.Allocated r) (identity : String) :
    g.listsAt r identity = g'.listsAt r identity := by
  refine first.listsAt_eq second same (fun key => ?_) (Or.inl rfl) identity
  rw [first.stocks.find?_of_allocated known, second.stocks.find?_of_allocated known]

theorem contentAt_eq (direct : h.Direct (h.servers.get s).extensions)
    (clear : h.Unambiguous (h.servers.get s).configuration) (key : String) :
    g.contentAt (h.servers.get s).extensions key =
      g'.contentAt (h.servers.get s).extensions key := by
  have left := first.abiding.direct direct
  have right := second.abiding.direct direct
  unfold contentAt
  cases made : (g.stock (h.servers.get s).extensions).find? key with
  | none =>
    cases made' : (g'.stock (h.servers.get s).extensions).find? key with
    | none => rfl
    | some r' =>
      obtain ⟨r, there, _⟩ := second.counterpart first (fun d => (same d).symm) clear made'
      rw [made] at there
      cases there
  | some r =>
    obtain ⟨r', made', both⟩ := first.counterpart second same clear made
    rw [made', Option.map_some, Option.map_some]
    refine congrArg some ((left.registries r).state_eq (right.registries r') fun identity => ?_)
    rw [← listsAt_of_allocated (left.known _ _ made),
      ← listsAt_of_allocated (right.known _ _ made')]
    refine first.listsAt_eq second same (fun other => ?_) both identity
    by_cases known : h.registries.Allocated r
    · rcases both with rfl | ⟨new, _⟩
      · rw [first.stocks.find?_of_allocated known, second.stocks.find?_of_allocated known]
      · exact absurd known new
    · have new' : ¬h.registries.Allocated r' := by
        rcases both with rfl | ⟨_, new'⟩
        · exact known
        · exact new'
      rw [first.stocks.find?_of_new direct.known known made,
        second.stocks.find?_of_new direct.known new' made']

end Two

end Retouched

end Host

end RpcHost
