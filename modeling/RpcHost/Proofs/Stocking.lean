import RpcHost.Proofs.Continuity
import RpcHost.Proofs.Booking
/-!
The registries that a factory makes while a service is exported. Each is made for an identity that
had none, for no other, and is one where the service of the path stands registered afterwards.
-/
namespace RpcHost

open Attempt Host

variable {h mid h' : Host} {s : ServerRef} {t : TableRef} {x : ExtensionsRef}
  {c : ConfigurationRef} {u v : UrlRef} {p old : ProviderRef} {e : ExporterRef} {path : String}
  {registries accepted : List RegistryRef} {used used' : RegistryRef → Prop}

namespace Host

abbrev stock (h : Host) (x : ExtensionsRef) : Keyed RegistryRef := (h.extensions.get x).instances

/-- The registries that came to the factory were made for one identity each, and are `used`. -/
structure Stocks (x : ExtensionsRef) (used : RegistryRef → Prop) (h h' : Host) : Prop where
  next : h.registries.next ≤ h'.registries.next
  kept : ∀ identity r, (h.stock x).find? identity = some r → (h'.stock x).find? identity = some r
  made : ∀ identity r, (h'.stock x).find? identity = some r →
    (h.stock x).find? identity = some r ∨ (¬h.registries.Allocated r ∧ used r ∧
      ∀ other, (h'.stock x).find? other = some r → other = identity)
  reached : ∀ r, h'.registries.Allocated r → h.registries.Allocated r ∨
    ∃ identity, (h'.stock x).find? identity = some r

namespace Stocks

theorem of_eq (next : h'.registries.next = h.registries.next)
    (extensions : h'.extensions = h.extensions) : Stocks x used h h' where
  next := Nat.le_of_eq next.symm
  kept _ _ found := by rwa [stock, extensions]
  made _ _ found := Or.inl (by rwa [stock, extensions] at found)
  reached _ known := Or.inl (Nat.lt_of_lt_of_eq known next)

theorem mono (stocks : Stocks x used h h') (more : ∀ r, used r → used' r) :
    Stocks x used' h h' where
  next := stocks.next
  kept := stocks.kept
  made identity r found := by
    refine (stocks.made identity r found).imp_right ?_
    rintro ⟨new, uses, alone⟩
    exact ⟨new, more r uses, alone⟩
  reached := stocks.reached

theorem trans (stocked : mid.Stocked x) (first : Stocks x used h mid)
    (second : Stocks x used' mid h') : Stocks x (fun r => used r ∨ used' r) h h' where
  next := Nat.le_trans first.next second.next
  kept identity r found := second.kept identity r (first.kept identity r found)
  made identity r found := by
    rcases second.made identity r found with there | ⟨new, uses, alone⟩
    · refine (first.made identity r there).imp_right fun ⟨new, uses, alone⟩ =>
        ⟨new, Or.inl uses, fun other found' => ?_⟩
      -- what was made in the first part is no other's registry in the second
      rcases second.made other r found' with there' | ⟨unknown, _⟩
      · exact alone other there'
      · exact absurd (stocked identity r there) unknown
    · exact Or.inr ⟨fun known => new (known.mono first.next), Or.inr uses, alone⟩
  reached r known := by
    rcases second.reached r known with there | later
    · exact (first.reached r there).imp_right fun ⟨identity, found⟩ =>
        ⟨identity, second.kept identity r found⟩
    · exact Or.inr later

theorem after (stocks : Stocks x used mid h') (next : mid.registries.next = h.registries.next)
    (extensions : mid.extensions = h.extensions) : Stocks x used h h' where
  next := next ▸ stocks.next
  kept := by
    unfold stock
    rw [← extensions]
    exact stocks.kept
  made identity r found := by
    unfold stock
    rw [← extensions]
    refine (stocks.made identity r found).imp_right ?_
    rintro ⟨new, rest⟩
    exact ⟨fun known => new (Nat.lt_of_lt_of_eq known next.symm), rest⟩
  reached r known := (stocks.reached r known).imp_left fun there =>
    Nat.lt_of_lt_of_eq there next

theorem onto (stocks : Stocks x used h mid) (next : h'.registries.next = mid.registries.next)
    (extensions : h'.extensions = mid.extensions) : Stocks x used h h' where
  next := next ▸ stocks.next
  kept := by
    unfold stock
    rw [extensions]
    exact stocks.kept
  made := by
    unfold stock
    rw [extensions]
    exact stocks.made
  reached r known := by
    rw [stock, extensions]
    exact stocks.reached r (Nat.lt_of_lt_of_eq known next)

theorem find?_of_allocated (stocks : Stocks x used h h') {identity : String} {r : RegistryRef}
    (known : h.registries.Allocated r) :
    (h'.stock x).find? identity = some r ↔ (h.stock x).find? identity = some r := by
  refine ⟨fun found => ?_, stocks.kept identity r⟩
  rcases stocks.made identity r found with before | ⟨new, _⟩
  · exact before
  · exact absurd known new

theorem find?_of_new (stocks : Stocks x used h h') (stocked : h.Stocked x) {identity : String}
    {r : RegistryRef} (new : ¬h.registries.Allocated r)
    (made : (h'.stock x).find? identity = some r) (other : String) :
    (h'.stock x).find? other = some r ↔ other = identity := by
  rcases stocks.made identity r made with before | ⟨_, _, alone⟩
  · exact absurd (stocked identity r before) new
  · refine ⟨alone other, ?_⟩
    rintro rfl
    exact made

end Stocks

theorem Noted.stocks (noted : h.Noted h') : Stocks x used h h' :=
  .of_eq (by rw [noted.registries]) noted.extensions

end Host

theorem making_stocks {identity : String} (registry : Registry) (stocked : h.Stocked x)
    (missing : (h.stock x).find? identity = none) :
    h.Stocks x (· = h.registries.fresh) (h.making x identity registry) := by
  have find (other : String) : ((h.making x identity registry).stock x).find? other =
      if other = identity then some h.registries.fresh else (h.stock x).find? other := by
    rw [stock, h.extensions_making]
    exact Keyed.find?_insert _ _ _ _
  refine ⟨Nat.le_succ _, fun other r there => ?_, fun other r there => ?_, fun r known => ?_⟩
  · rw [find, if_neg ?_]
    · exact there
    · rintro rfl
      rw [missing] at there
      cases there
  · rw [find] at there
    split at there
    · rename_i own
      cases there
      refine Or.inr ⟨h.registries.not_allocated_fresh, rfl, fun another found => ?_⟩
      rw [find] at found
      split at found
      · rename_i same
        rw [own, same]
      · exact absurd (stocked another _ found) h.registries.not_allocated_fresh
    · exact Or.inl there
  · rcases Nat.lt_succ_iff_lt_or_eq.1 known with before | new
    · exact Or.inl before
    · refine Or.inr ⟨identity, ?_⟩
      rw [find, if_pos rfl]
      cases r
      exact congrArg (fun index => some (Handle.mk index)) new.symm

theorem findRegistry_stocks {found : Option RegistryRef} (direct : h.Direct x)
    (looked : (findRegistry x v).Yields h found h') : h.Stocks x (· ∈ found) h' := by
  obtain ⟨result, mid, last, ends, leads, noted⟩ := findRegistry_ends h x v
  obtain ⟨rfl, rfl⟩ := Prod.mk.inj (looked.symm.trans ends)
  have registries := congrArg Store.next noted.registries
  refine Stocks.onto ?_ registries noted.extensions
  cases leads with
  | kept => exact .of_eq rfl rfl
  | absent => exact .of_eq rfl rfl
  | made missing =>
    refine (making_stocks _ direct.known missing).mono ?_
    rintro r rfl
    rfl

theorem registerAt_stocks {name : String} {taken : Option RegistryRef} (direct : h.Direct x)
    (ends : (registerAt x c u name).Yields h taken h') : h.Stocks x (· ∈ taken) h' := by
  cases address : h.registryAddress? c name with
  | none =>
    obtain ⟨_, unknown, logged⟩ := registerAt_unknown (x := x) u address
    obtain ⟨-, rfl⟩ := unknown.unique ends
    exact logged.noted.stocks
  | some v =>
    obtain ⟨found, mid, looked, enrolling, _⟩ := findRegistry_leads direct address
    have stocks := findRegistry_stocks direct looked
    cases found with
    | none =>
      obtain ⟨_, unfound, logged⟩ := registerAt_unfound address u looked
      obtain ⟨rfl, rfl⟩ := unfound.unique ends
      exact stocks.onto (by rw [logged.noted.registries]) logged.noted.extensions
    | some r =>
      obtain ⟨_, took, relisted⟩ := registerService_direct (u := u)
        ((enrolling.direct direct).registries r) rfl
      have registered := (registerAt_found address u looked).trans (offerTo_taken took)
      obtain ⟨rfl, rfl⟩ := Yields.unique registered ends
      exact stocks.onto relisted.next relisted.extensions

theorem registerAll_stocks {names : List String} (direct : h.Direct x)
    (ends : (registerAll x c u names).Yields h accepted h') : h.Stocks x (· ∈ accepted) h' := by
  -- each registry that is made accepts the address, and so is among those that are kept
  induction names generalizing h accepted with
  | nil =>
    obtain ⟨-, rfl⟩ := yields_pure.1 ends
    exact .of_eq rfl rfl
  | cons name rest ih =>
    obtain ⟨taken, mid, first, later⟩ := yields_bind.1 ends
    obtain ⟨others, last, second, gives⟩ := yields_bind.1 later
    obtain ⟨rfl, rfl⟩ := yields_pure.1 gives
    have enrolling : Enrolling x c (fun _ => True) h mid := by
      rw [← first.after_eq]
      exact registerAt_enrolling u name h
    have still := enrolling.direct direct
    refine ((registerAt_stocks direct first).trans still.known (ih still second)).mono ?_
    intro r uses
    rw [List.mem_append, Option.mem_toList]
    exact uses

namespace Host

/-- The service at the path stands registered at the registry. -/
def StandsAt (h : Host) (s : ServerRef) (path : String) (r : RegistryRef) : Prop :=
  ∃ identity, r ∈ h.standingAt s path identity

end Host

theorem stocks_of_offered {h₁ h₂ : Host} {backends : Store .backend Backend}
    {servers : Store .server Server}
    (offered : (offer h₁ s p).Yields (h₁.offering s p) registries h₂)
    (leaves : Host.Noted { h₂ with
      exporters := h₁.exporting s p registries, backends, servers } h')
    (kept : (servers.get s).exporters.find? path = some h₁.exporters.fresh)
    (direct : h₁.Direct (h₁.servers.get s).extensions) :
    h₁.Stocks (h₁.servers.get s).extensions (h'.StandsAt s path) h' := by
  have stands := standingAt_kept (offer_registering offered.after_eq) leaves kept
  have begun : (h₁.offering s p).Direct (h₁.servers.get s).extensions := direct.of_eq rfl rfl
  have stocks : Stocks _ (· ∈ registries) h₁ h' :=
    ((registerAll_stocks begun offered).onto (congrArg Store.next leaves.registries)
      leaves.extensions).after rfl rfl
  refine stocks.mono fun r member => ⟨h₁.announcedAs p, ?_⟩
  rw [stands]
  unfold Standing.one
  rwa [if_pos rfl]

theorem Host.Direct.noted {other : Host} (direct : h.Direct x) (noted : other.Noted h')
    (registries : other.registries = h.registries) (extensions : other.extensions = h.extensions) :
    h'.Direct x :=
  direct.of_eq (noted.registries.trans registries) (by rw [noted.extensions, extensions])

theorem stocks_of_routed {h₁ h₂ : Host} (routed : (h.routing t p).Noted h₁)
    (offered : (offer h₁ s p).Yields (h₁.offering s p) registries h₂)
    (kept : Host.Noted { h₂ with
      exporters := h₁.exporting s p registries
      servers := h.keeping s (h.pathOf p) h.exporters.fresh } h')
    (direct : h.Direct (h.servers.get s).extensions) :
    h.Stocks (h.servers.get s).extensions (h'.StandsAt s (h.pathOf p)) h' := by
  have servers : h₁.servers = h.servers := routed.registering.servers
  have fresh := fresh_routed routed
  have still := direct.noted routed rfl rfl
  rw [← servers] at still ⊢
  refine (stocks_of_offered offered kept ?_ still).after
    (congrArg Store.next routed.registries) routed.extensions
  rw [fresh]
  exact h.find?_keeping s _ _

theorem Opening.stocks {status : Status} (opening : Opening h s t p (.ok status, h'))
    (direct : h.Direct (h.servers.get s).extensions) :
    h.Stocks (h.servers.get s).extensions (h'.StandsAt s (h.pathOf p)) h' := by
  cases opening with
  | accepted routed _ offered kept => exact stocks_of_routed routed offered kept direct
  | refused routed _ unrouted =>
    exact (routed.stocks.onto (congrArg Store.next unrouted.registries)
      unrouted.extensions).after rfl rfl

theorem Restoration.stocks (restoration : Restoration h s t p (.ok (), h'))
    (direct : h.Direct (h.servers.get s).extensions) :
    h.Stocks (h.servers.get s).extensions (h'.StandsAt s (h.pathOf p)) h' := by
  cases restoration with
  | restored routed _ offered kept => exact stocks_of_routed routed offered kept direct
  | lost routed _ dropped =>
    exact (routed.stocks.onto (congrArg Store.next dropped.registries)
      dropped.extensions).after rfl rfl

theorem Superseding.stock {h₁ h₂ h₃ : Host}
    (replaced : Superseding h t e old registries p h₁ h₂ h₃) (direct : h.Direct x) :
    h₃.registries.next = h.registries.next ∧ h₃.extensions = h.extensions ∧ h₃.Direct x := by
  have still : h₁.Direct x := direct.noted replaced.routed rfl rfl
  obtain ⟨mid, withdrew, relisted⟩ :=
    unregisterAll_direct (u := h.addressOf old) registries still rfl
  obtain ⟨-, rfl⟩ := withdrew.unique replaced.withdrew
  refine ⟨?_, ?_, ?_⟩
  · rw [replaced.unexported.registries]
    exact relisted.next.trans (congrArg Store.next replaced.routed.registries)
  · rw [replaced.unexported.extensions]
    exact relisted.extensions.trans replaced.routed.extensions
  · have taken := relisted.direct (fun _ direct => direct.withdrawn) still
    exact taken.noted replaced.unexported rfl rfl

theorem Changeover.stocks {status : Status}
    (changeover : Changeover h s t e old registries p (.ok status, h'))
    (same : h.pathOf old = h.pathOf p) (direct : h.Direct (h.servers.get s).extensions) :
    h.Stocks (h.servers.get s).extensions (h'.StandsAt s (h.pathOf p)) h' := by
  by_cases accepted : status = .ok
  · subst accepted
    obtain ⟨_, _, h₃, _, _, replaced, _, offered, kept⟩ := changeover.accepted_cases
    obtain ⟨next, extensions, still⟩ := replaced.stock direct
    rw [← replaced.servers] at still ⊢
    refine (stocks_of_offered offered kept ?_ still).after next extensions
    rw [replaced.fresh]
    exact h.find?_keeping s _ _
  · obtain ⟨-, _, _, h₃, h₄, replaced, _, unrouted, restoration⟩ :=
      changeover.refused_cases accepted
    obtain ⟨next, extensions, still⟩ := replaced.stock direct
    have servers := replaced.servers_unrouted unrouted
    have cleared := still.noted unrouted rfl rfl
    rw [← same, ← replaced.pathOf_unrouted unrouted old]
    rw [← servers] at cleared ⊢
    exact (restoration.stocks cleared).after
      ((congrArg Store.next unrouted.registries).trans next)
      (unrouted.extensions.trans extensions)

theorem Deployed.stocks {service : Option Service} {status : Status}
    (deployed : Deployed h s t u service (.ok status, h'))
    (direct : h.Direct (h.servers.get s).extensions) :
    h.Stocks (h.servers.get s).extensions (h'.StandsAt s (h.urls.get u).path) h' := by
  have begun {mid : Host} (grown : h.Grown mid) : mid.Direct (mid.servers.get s).extensions := by
    rw [grown.servers]
    exact direct.of_eq grown.registries (by rw [grown.extensions])
  cases deployed with
  | unmade _ noted => exact noted.stocks
  | first _ prepared opening =>
    have stocks := opening.stocks (begun prepared.grown)
    rw [prepared.grown.servers, prepared.pathOf] at stocks
    exact stocks.after (congrArg Store.next prepared.grown.registries) prepared.grown.extensions
  | again serves prepared changeover =>
    have stocks := changeover.stocks (Deployed.held serves prepared rfl).1 (begun prepared.grown)
    rw [prepared.grown.servers, prepared.pathOf] at stocks
    exact stocks.after (congrArg Store.next prepared.grown.registries) prepared.grown.extensions

theorem Changeover.kept_refused {status : Status}
    (changeover : Changeover h s t e old registries p (.ok status, h')) (refused : status ≠ .ok)
    (table : h.tableOf s = some t) (same : h.pathOf old = h.pathOf p)
    (made : h.providers.Allocated old)
    (backed : h.backends.Allocated (h.providers.get old).backend)
    (available : (h.backendOf old).available = true)
    (direct : h.Direct (h.servers.get s).extensions)
    (clear : h.Unambiguous (h.servers.get s).configuration) :
    (∃ e registries, h'.Kept s (h.pathOf p) old e registries) ∨
      h'.exporterAt s (h.pathOf p) = none := by
  obtain ⟨-, _, _, h₃, h₄, replaced, _, unrouted, restoration⟩ := changeover.refused_cases refused
  have servers := replaced.servers_unrouted unrouted
  have backends := replaced.backends_unrouted unrouted
  have providers := replaced.providers_unrouted unrouted
  have table' := (replaced.tableOf_unrouted unrouted s).trans table
  have begins : Enrolling (h.servers.get s).extensions (h.servers.get s).configuration
      (fun _ => False) h h₄ := replaced.enrolling_unrouted unrouted id
  rw [← (replaced.pathOf_unrouted unrouted old).trans same]
  cases restoration with
  | restored routed names offered kept =>
    refine Or.inl ⟨_, _, kept_of_routed routed names offered kept table' ?_ ?_ ?_ ?_ ?_⟩
    · rwa [providers]
    · rwa [backends, providers]
    · rwa [replaced.backendOf_unrouted unrouted old]
    · rw [servers]
      exact begins.direct direct
    · rw [servers]
      exact begins.unambiguous clear
  | lost routed lacks dropped =>
    exact Or.inr ((Restoration.lost routed lacks dropped).unserved table' lacks).1

namespace Deployed

variable {service : Option Service} {status : Status}

theorem kept_anew (deployed : Deployed h s t u service (.ok status, h'))
    (table : h.tableOf s = some t) (made : status ≠ .noProvider)
    (direct : h.Direct (h.servers.get s).extensions)
    (clear : h.Unambiguous (h.servers.get s).configuration)
    (route : h'.routeAt s (h.urls.get u).path = some p) (coherent : h'.Coherent s) :
    ∃ e registries, h'.Kept s (h.urls.get u).path p e registries := by
  by_cases accepted : status = .ok
  · subst accepted
    exact deployed.kept table direct clear route
  · cases deployed with
    | unmade =>
      exact absurd rfl made
    | first unserved prepared opening =>
      rw [← prepared.pathOf] at unserved route
      have none := (opening.unserved accepted ((prepared.grown.tableOf s).trans table)
        (by rw [prepared.grown.exporterAt, unserved])).2.2
      rw [route] at none
      cases none
    | @again _ _ q old e registries _ serves prepared changeover =>
      obtain ⟨same, backed, available, _⟩ := held serves prepared rfl
      obtain ⟨direct', clear'⟩ := prepared.grown.listing direct clear
      obtain ⟨e', there⟩ := coherent.routes _ p route
      rw [← prepared.pathOf] at route there ⊢
      rcases changeover.kept_refused accepted ((prepared.grown.tableOf s).trans table) same
          (serves.made.mono prepared.grown.providers.next) backed available direct' clear' with
        ⟨e, registries, kept⟩ | unserved
      · obtain rfl : p = old := Option.some.inj (route.symm.trans kept.serves.route)
        exact ⟨e, registries, kept⟩
      · rw [unserved] at there
        cases there

end Deployed

end RpcHost
