import RpcHost.Proofs.Portraits
import RpcHost.Proofs.Stocking
/-!
Many services that are deployed one after another, each at a path and under identities of its own.
What becomes of a path is told from the state that all started in, and so is what registries list:
it makes no difference what was deployed before.
-/
namespace RpcHost

open Attempt Host

variable {h g g' mid h' : Host} {s : ServerRef} {t : TableRef} {u : UrlRef} {p : ProviderRef}
  {e : ExporterRef} {r : RegistryRef} {path identity : String} {service : Option Service}
  {status code : Status} {codes : List Status} {done plan : List (UrlRef × Option Service)}
  {impls : Keyed (Option Service)} {entries : List (String × UrlRef)}

def attempts (impls : Keyed (Option Service)) (entries : List (String × UrlRef)) :
    List (UrlRef × Option Service) :=
  entries.filterMap fun entry => (impls.find? entry.1).map fun service => (entry.2, service)

theorem attempts_skipped {name : String} (found : impls.find? name = none) :
    attempts impls ((name, u) :: entries) = attempts impls entries := by
  simp [attempts, found]

theorem attempts_tried {name : String} (found : impls.find? name = some service) :
    attempts impls ((name, u) :: entries) = (u, service) :: attempts impls entries := by
  simp [attempts, found]

/-- Services are exported one after another, each with the code that its export ends with. Between
them something may be logged. -/
inductive Sweep (s : ServerRef) :
    List (UrlRef × Option Service) → List Status → Host → Host → Prop
  | done (h : Host) : Sweep s [] [] h h
  | passed {plan : List (UrlRef × Option Service)} {codes : List Status} {h mid h' : Host}
    (noted : h.Noted mid) (rest : Sweep s plan codes mid h') : Sweep s plan codes h h'
  | exported {plan : List (UrlRef × Option Service)} {codes : List Status} {h mid h' : Host}
    {u : UrlRef} {service : Option Service} {code : Status}
    (ends : (exportService s u service).Yields h code mid) (rest : Sweep s plan codes mid h') :
    Sweep s ((u, service) :: plan) (code :: codes) h h'

def verdict (status : Status) (codes : List Status) : Status :=
  codes.foldl (fun status code => if code = .ok then status else code) status

theorem verdict_eq_ok_iff :
    verdict status codes = .ok ↔ status = .ok ∧ ∀ code ∈ codes, code = .ok := by
  induction codes generalizing status with
  | nil => simp [verdict]
  | cons code rest ih =>
    show verdict (if code = .ok then status else code) rest = .ok ↔ _
    rw [ih]
    by_cases accepted : code = .ok <;> simp [accepted]

theorem exportEntries_sweeps (coherent : h.Coherent s) (terminated : h.Terminated)
    (civil : h.Civil (h.servers.get s).extensions) (impls : Keyed (Option Service))
    (entries : List (String × UrlRef)) (status : Status) :
    ∃ codes h', Sweep s (attempts impls entries) codes h h' ∧
      (exportEntries s impls entries status).Yields h (verdict status codes) h' := by
  -- what an export needs of the state is left by every export, so that all of them end
  induction entries generalizing h status with
  | nil => exact ⟨[], h, .done h, rfl⟩
  | cons entry rest ih =>
    obtain ⟨name, u⟩ := entry
    unfold exportEntries
    cases found : impls.find? name with
    | none =>
      have noted := writeLog_within .warning ["服务 ", name, " 没有对应的业务对象，跳过\n"] h
      obtain ⟨codes, h', sweep, ends⟩ := ih (coherent.grown noted.grown)
        (terminated.extended noted.grown.filters)
        (by rw [noted.registering.servers]; exact noted.civil civil) status
      refine ⟨codes, h', ?_, ?_⟩
      · rw [attempts_skipped found]
        exact .passed noted sweep
      · unfold Yields
        simp only [ending_lift_bind]
        exact ends
    | some service =>
      obtain ⟨mid, exported, coherent, civil, steady⟩ :=
        exportService_completes u service coherent terminated civil
      obtain ⟨_, server⟩ := steady.server
      obtain ⟨codes, h', sweep, ends⟩ := ih coherent (steady.terminated terminated)
        (by rw [server]; exact civil) (if h.exportStatus s u = .ok then status
          else h.exportStatus s u)
      refine ⟨h.exportStatus s u :: codes, h', ?_, ?_⟩
      · rw [attempts_tried found]
        exact .exported exported sweep
      · exact (exported.ending_bind _).trans ends

theorem Host.Noted.steady (noted : h.Noted h') : h.Steady s h' :=
  ((Elsewhere.refl h : Elsewhere s "" none none h h).noted noted).steady

namespace Host.Steady

variable (steady : h.Steady s g)

include steady

theorem factory : (g.servers.get s).extensions = (h.servers.get s).extensions := by
  obtain ⟨_, server⟩ := steady.server
  rw [server]

theorem context : (g.servers.get s).configuration = (h.servers.get s).configuration := by
  obtain ⟨_, server⟩ := steady.server
  rw [server]

theorem backendFor (x : ExtensionsRef) (u : UrlRef) :
    (g.extensions.get x).backendFor u (g.urls.get u) =
      (h.extensions.get x).backendFor u (h.urls.get u) := by
  obtain ⟨_, makers⟩ := steady.makers x
  unfold Extensions.backendFor
  rw [makers, (steady.urls u).paramOr (by decide)]
  simp only [(steady.urls u).make_eq]

theorem kindsFor (x : ExtensionsRef) (u : UrlRef) : g.kindsFor x u = h.kindsFor x u := by
  obtain ⟨_, makers⟩ := steady.makers x
  unfold Host.kindsFor
  rw [makers, (steady.urls u).listParam (by decide)]
  rfl

theorem exportStatus (u : UrlRef) : g.exportStatus s u = h.exportStatus s u := by
  unfold Host.exportStatus
  rw [steady.factory, steady.backendFor, (steady.urls u).hasParam]

theorem fateOf (u : UrlRef) (service : Option Service)
    (same : g.portraitAt s (h.urls.get u).path = h.portraitAt s (h.urls.get u).path) :
    g.fateOf s u service = h.fateOf s u service := by
  unfold Host.fateOf
  rw [steady.factory, steady.backendFor, steady.kindsFor, (steady.urls u).hasParam,
    (steady.urls u).path, same, show (g.urls.get u).asService = _ from steady.urls u]

end Host.Steady

theorem Deployed.exporter_elsewhere (deployed : Deployed h s t u service (.ok status, h'))
    (coherent : h.Coherent s) (table : h.tableOf s = some t) (differ : path ≠ (h.urls.get u).path) :
    h'.exporterAt s path = h.exporterAt s path ∧
      ∀ e, h.exporterAt s path = some e → h'.exporters.get e = h.exporters.get e := by
  obtain ⟨_, _, apart⟩ := deployed.apart table
  refine ⟨apart.exporterAt path differ, fun e kept => ?_⟩
  obtain ⟨_, _, serves⟩ := coherent.serves path e kept
  exact (deployed.untouched table serves.toHolds differ).1

theorem Deployed.abiding (deployed : Deployed h s t u service (.ok status, h')) :
    Abiding (h.servers.get s).extensions (h.servers.get s).configuration (fun _ => False) h h' :=
  (deployed.enrolling fun _ _ _ _ => id).toAbiding

namespace Host

theorem standingAt_of_exporter (kept : g.exporterAt s path = h.exporterAt s path)
    (same : ∀ e, h.exporterAt s path = some e → g.exporters.get e = h.exporters.get e)
    (urls : ∀ u, (g.urls.get u).Like (h.urls.get u)) :
    g.standingAt s path = h.standingAt s path := by
  funext identity
  unfold standingAt
  rw [kept]
  cases found : h.exporterAt s path with
  | none => rfl
  | some e =>
    exact congrFun (standingOf_congr (by rw [same e found]) (by rw [same e found])
      fun u _ => (urls u).identity) identity

/-- The identities of a path: those of the addresses to be deployed there, and that of what is
served there. -/
def Owns (h : Host) (s : ServerRef) (addresses : List UrlRef) (path identity : String) : Prop :=
  (∃ u ∈ addresses, (h.urls.get u).path = path ∧ (h.urls.get u).identity = identity) ∨
    ∃ p, h.routeAt s path = some p ∧ h.announcedAs p = identity

/-- Services can be deployed over direct registries without getting in each other's way. -/
structure Plannable (h : Host) (s : ServerRef) (plan : List (UrlRef × Option Service)) : Prop where
  terminated : h.Terminated
  direct : h.Direct (h.servers.get s).extensions
  clear : h.Unambiguous (h.servers.get s).configuration
  paths : plan.Pairwise fun d d' => (h.urls.get d.1).path ≠ (h.urls.get d'.1).path
  apart : ∀ path other identity, h.Owns s (plan.map Prod.fst) path identity →
    h.Owns s (plan.map Prod.fst) other identity → path = other

def Makes (h : Host) (s : ServerRef) (u : UrlRef) : Prop := h.exportStatus s u ≠ .noProvider

def Stands (h g : Host) (s : ServerRef) (done : List (UrlRef × Option Service)) (r : RegistryRef)
    (identity : String) : Prop :=
  ∃ d ∈ done, h.Makes s d.1 ∧ r ∈ g.standingAt s (h.urls.get d.1).path identity

/-- The services were deployed from `h` on, and nothing else was done. -/
structure Retouched (s : ServerRef) (done : List (UrlRef × Option Service)) (h g : Host) :
    Prop where
  coherent : g.Coherent s
  steady : h.Steady s g
  endpoints : g.endpoints = h.endpoints
  solid : g.Solid s
  abiding : Abiding (h.servers.get s).extensions (h.servers.get s).configuration
    (fun _ => False) h g
  shown : ∀ d ∈ done, g.portraitAt s (h.urls.get d.1).path = h.fateOf s d.1 d.2
  spared : ∀ path, (∀ d ∈ done, (h.urls.get d.1).path ≠ path) →
    g.portraitAt s path = h.portraitAt s path ∧ g.routeAt s path = h.routeAt s path ∧
      g.exporterAt s path = h.exporterAt s path ∧
      ∀ e, h.exporterAt s path = some e → g.exporters.get e = h.exporters.get e
  kept : ∀ d ∈ done, h.Makes s d.1 → ∀ p, g.routeAt s (h.urls.get d.1).path = some p →
    ∃ e registries, g.Kept s (h.urls.get d.1).path p e registries
  lists : ∀ r identity, g.listsAt r identity = true ↔ h.Stands g s done r identity ∨
    h.listsAt r identity = true ∧ ¬h.Stands h s done r identity
  stocks : h.Stocks (h.servers.get s).extensions
    (fun r => ∃ identity, h.Stands g s done r identity) g

theorem Retouched.start (coherent : h.Coherent s) (solid : h.Solid s) : Retouched s [] h h where
  coherent := coherent
  steady := Course.refl h
  endpoints := rfl
  solid := solid
  abiding := Course.refl h
  shown _ member := by cases member
  spared _ _ := ⟨rfl, rfl, rfl, fun _ _ => rfl⟩
  kept _ member := by cases member
  lists r identity := by simp [Stands]
  stocks := .of_eq rfl rfl

theorem fateOf_identity {portrait : Portrait} (fate : h.fateOf s u service = some portrait) :
    (h.urls.get u).identity = portrait.url.identity ∨
      ∃ p, h.routeAt s (h.urls.get u).path = some p ∧ h.announcedAs p = portrait.url.identity := by
  rcases fateOf_cases fate with ⟨b, _, rfl⟩ | before
  · exact Or.inl rfl
  · obtain ⟨p, route, rfl⟩ := Option.map_eq_some_iff.1 before
    exact Or.inr ⟨p, route, rfl⟩

namespace Retouched

variable (retouched : h.Retouched s done g)

include retouched

theorem portraitAt_cases (path : String) :
    (∃ d ∈ done, (h.urls.get d.1).path = path ∧ g.portraitAt s path = h.fateOf s d.1 d.2) ∨
      (∀ d ∈ done, (h.urls.get d.1).path ≠ path) ∧ g.portraitAt s path = h.portraitAt s path := by
  by_cases touched : ∃ d ∈ done, (h.urls.get d.1).path = path
  · obtain ⟨d, member, rfl⟩ := touched
    exact Or.inl ⟨d, member, rfl, retouched.shown d member⟩
  · have away : ∀ d ∈ done, (h.urls.get d.1).path ≠ path :=
      fun d member same => touched ⟨d, member, same⟩
    exact Or.inr ⟨away, (retouched.spared path away).1⟩

theorem owns_route (route : g.routeAt s path = some p) :
    h.Owns s (done.map Prod.fst) path (g.announcedAs p) := by
  have shows := portraitAt_of_route route
  rcases retouched.portraitAt_cases path with ⟨d, member, rfl, looks⟩ | ⟨_, looks⟩
  · rw [looks] at shows
    rcases fateOf_identity shows with own | before
    · exact Or.inl ⟨d.1, List.mem_map_of_mem member, rfl, own⟩
    · exact Or.inr before
  · rw [looks] at shows
    obtain ⟨old, before, same⟩ := Option.map_eq_some_iff.1 shows
    exact Or.inr ⟨old, before, congrArg (fun portrait => portrait.url.identity) same⟩

theorem owns_standing (stands : r ∈ g.standingAt s path identity) :
    h.Owns s (done.map Prod.fst) path identity := by
  cases kept : g.exporterAt s path with
  | none =>
    rw [standingAt_unserved kept] at stands
    cases stands
  | some e =>
    obtain ⟨p, registries, serves⟩ := retouched.coherent.serves path e kept
    rw [serves.standingAt] at stands
    unfold Standing.one at stands
    split at stands
    · rename_i own
      rw [← own]
      exact retouched.owns_route serves.route
    · cases stands

end Retouched

theorem Booked.listsAt_iff (booked : g.Booked s path g')
    (direct : g'.Direct (g.servers.get s).extensions) (r : RegistryRef) (identity : String) :
    g'.listsAt r identity = true ↔ r ∈ g'.standingAt s path identity ∨
      g.listsAt r identity = true ∧ r ∉ g.standingAt s path identity := by
  obtain ⟨_, lists⟩ := booked.recorded.listed r fun _ => direct.registries r
  rw [lists]
  unfold Standing.turned Standing.stamps
  by_cases after : r ∈ g'.standingAt s path identity
  · have counted := Nat.ne_of_gt (List.count_pos_iff.2 after)
    simp [after, counted, List.getLastD_eq_getLast?, List.getLast?_append, List.getLast?_replicate]
  · by_cases before : r ∈ g.standingAt s path identity
    · have counted := Nat.ne_of_gt (List.count_pos_iff.2 before)
      simp [after, before, counted, List.count_eq_zero.2 after, List.getLastD_eq_getLast?,
        List.getLast?_replicate]
    · simp [after, before, List.count_eq_zero.2 after, List.count_eq_zero.2 before]

theorem Owns.mono {addresses more : List UrlRef} (owns : h.Owns s addresses path identity)
    (sub : ∀ u ∈ addresses, u ∈ more) : h.Owns s more path identity :=
  owns.imp_left fun ⟨u, member, rest⟩ => ⟨u, sub u member, rest⟩

theorem Owns.extend (owns : h.Owns s (done.map Prod.fst) path identity)
    (plan : List (UrlRef × Option Service)) :
    h.Owns s ((done ++ plan).map Prod.fst) path identity :=
  owns.mono fun u member => by
    rw [List.map_append]
    exact List.mem_append_left _ member

theorem stands_snoc (d : UrlRef × Option Service) :
    h.Stands g s (done ++ [d]) r identity ↔ h.Stands g s done r identity ∨
      h.Makes s d.1 ∧ r ∈ g.standingAt s (h.urls.get d.1).path identity := by
  simp only [Stands, List.mem_append, List.mem_singleton, or_and_right, exists_or, exists_eq_left]

theorem Plannable.fresh (plannable : h.Plannable s (done ++ [(u, service)])) :
    ∀ d ∈ done, (h.urls.get d.1).path ≠ (h.urls.get u).path := fun d member =>
  (List.pairwise_append.1 plannable.paths).2.2 d member _ (List.mem_singleton_self _)

theorem makes_of_backend {b : Backend}
    (found : (h.extensions.get (h.servers.get s).extensions).backendFor u (h.urls.get u) =
      some b) : h.Makes s u := by
  unfold Makes
  rw [exportStatus_of_backend found]
  split <;> decide

namespace Retouched

variable (retouched : h.Retouched s done g)

include retouched

theorem makes {b : Backend} (found : (g.extensions.get (g.servers.get s).extensions).backendFor u
    (g.urls.get u) = some b) : h.Makes s u := by
  unfold Makes
  rw [← retouched.steady.exportStatus]
  exact makes_of_backend found

variable (plannable : h.Plannable s (done ++ [(u, service)]))

include plannable

theorem elsewhere : ∀ d ∈ done, (h.urls.get d.1).path ≠ (g.urls.get u).path := by
  rw [(retouched.steady.urls u).path]
  exact plannable.fresh

theorem direct : g.Direct (g.servers.get s).extensions := by
  rw [retouched.steady.factory]
  exact retouched.abiding.direct plannable.direct

theorem clear : g.Unambiguous (g.servers.get s).configuration := by
  rw [retouched.steady.context]
  exact retouched.abiding.unambiguous plannable.clear

theorem distinct : g.Distinct s := by
  intro path other p q differ route route' same
  have own := (retouched.owns_route route).extend [(u, service)]
  have own' := (retouched.owns_route route').extend [(u, service)]
  rw [show g.announcedAs p = g.announcedAs q from same] at own
  exact differ (plannable.apart path other _ own own')

variable (deployed : Deployed g s t u service (.ok code, g')) (table : g.tableOf s = some t)

include deployed table

theorem standings : ∀ d ∈ done,
    g'.standingAt s (h.urls.get d.1).path = g.standingAt s (h.urls.get d.1).path := by
  intro d member
  obtain ⟨kept, same⟩ := deployed.exporter_elsewhere retouched.coherent table
    (retouched.elsewhere plannable d member)
  exact standingAt_of_exporter kept same (deployed.steady table).urls

theorem stands_exported : h.Stands g' s (done ++ [(u, service)]) r identity ↔
    h.Stands g s done r identity ∨
      h.Makes s u ∧ r ∈ g'.standingAt s (h.urls.get u).path identity := by
  rw [stands_snoc]
  refine or_congr_left ⟨?_, ?_⟩
  · rintro ⟨d, member, makes, stands⟩
    rw [retouched.standings plannable deployed table d member] at stands
    exact ⟨d, member, makes, stands⟩
  · rintro ⟨d, member, makes, stands⟩
    rw [← retouched.standings plannable deployed table d member] at stands
    exact ⟨d, member, makes, stands⟩

theorem lists_exported (r : RegistryRef) (identity : String) :
    g'.listsAt r identity = true ↔ h.Stands g' s (done ++ [(u, service)]) r identity ∨
      h.listsAt r identity = true ∧ ¬h.Stands h s (done ++ [(u, service)]) r identity := by
  have here : (g.urls.get u).path = (h.urls.get u).path := (retouched.steady.urls u).path
  have direct := retouched.direct plannable
  have before : g.standingAt s (h.urls.get u).path = h.standingAt s (h.urls.get u).path := by
    obtain ⟨_, _, kept, same⟩ := retouched.spared _ plannable.fresh
    exact standingAt_of_exporter kept same retouched.steady.urls
  rw [retouched.stands_exported plannable deployed table, stands_snoc]
  cases found : (g.extensions.get (g.servers.get s).extensions).backendFor u (g.urls.get u) with
  | none =>
    have unmade : ¬h.Makes s u := fun makes => makes <| by
      rw [← retouched.steady.exportStatus]
      exact exportStatus_unmade found
    rw [listsAt_congr (deployed.noted found).registries, retouched.lists r identity]
    simp [unmade]
  | some b =>
    have makes := retouched.makes found
    have booked := (deployed.booked retouched.coherent table direct.known).resolve_left (by
      rw [found]
      simp)
    have still := deployed.abiding.direct direct
    rw [booked.listsAt_iff still, here, before, retouched.lists r identity]
    -- what was deployed before stands under identities that the path does not own
    have others : h.Stands g s done r identity →
        r ∉ h.standingAt s (h.urls.get u).path identity := by
      rintro ⟨d, member, _, stands⟩ stood
      rw [← before] at stood
      exact plannable.fresh d member (plannable.apart _ _ identity
        ((retouched.owns_standing stands).extend _) ((retouched.owns_standing stood).extend _))
    grind

theorem stocks_exported : h.Stocks (h.servers.get s).extensions
    (fun r => ∃ identity, h.Stands g' s (done ++ [(u, service)]) r identity) g' := by
  have direct := retouched.direct plannable
  cases found : (g.extensions.get (g.servers.get s).extensions).backendFor u (g.urls.get u) with
  | none =>
    have noted := deployed.noted found
    refine (retouched.stocks.onto (congrArg Store.next noted.registries) noted.extensions).mono ?_
    rintro r ⟨identity, stands⟩
    exact ⟨identity, (retouched.stands_exported plannable deployed table).2 (Or.inl stands)⟩
  | some b =>
    have makes := retouched.makes found
    have stocks := deployed.stocks direct
    rw [retouched.steady.factory, (retouched.steady.urls u).path] at stocks
    rw [retouched.steady.factory] at direct
    refine (retouched.stocks.trans direct.known stocks).mono ?_
    rintro r (⟨identity, stands⟩ | ⟨identity, stands⟩)
    · exact ⟨identity, (retouched.stands_exported plannable deployed table).2 (Or.inl stands)⟩
    · exact ⟨identity, (retouched.stands_exported plannable deployed table).2
        (Or.inr ⟨makes, stands⟩)⟩

omit table in
theorem code_exported : code = h.exportStatus s u := by
  rw [← retouched.steady.exportStatus]
  exact Except.ok.inj (deployed.civil (retouched.direct plannable).civil).1

theorem shown_exported : ∀ d ∈ done ++ [(u, service)],
    g'.portraitAt s (h.urls.get d.1).path = h.fateOf s d.1 d.2 := by
  intro d member
  rcases List.mem_append.1 member with before | own
  · have differ := retouched.elsewhere plannable d before
    rw [deployed.portraitAt_elsewhere retouched.coherent table retouched.solid differ]
    exact retouched.shown d before
  · cases List.mem_singleton.1 own
    -- its path has not been deployed on, so that its fate is the one told from the start
    rw [← (retouched.steady.urls u).path, deployed.portraitAt retouched.coherent table
      retouched.solid (retouched.direct plannable).civil]
    exact retouched.steady.fateOf u service (retouched.spared _ plannable.fresh).1

omit plannable in
theorem spared_exported (away : ∀ d ∈ done ++ [(u, service)], (h.urls.get d.1).path ≠ path) :
    g'.portraitAt s path = h.portraitAt s path ∧ g'.routeAt s path = h.routeAt s path ∧
      g'.exporterAt s path = h.exporterAt s path ∧
      ∀ e, h.exporterAt s path = some e → g'.exporters.get e = h.exporters.get e := by
  have differ : path ≠ (g.urls.get u).path := by
    rw [(retouched.steady.urls u).path]
    exact (away (u, service) (by simp)).symm
  obtain ⟨shows, routes, kept, same⟩ := retouched.spared path fun d member =>
    away d (List.mem_append_left _ member)
  obtain ⟨kept', same'⟩ := deployed.exporter_elsewhere retouched.coherent table differ
  refine ⟨?_, ?_, kept'.trans kept, fun e found => ?_⟩
  · exact (deployed.portraitAt_elsewhere retouched.coherent table retouched.solid differ).trans
      shows
  · exact (deployed.routeAt_elsewhere table differ).trans routes
  · exact (same' e (kept.trans found)).trans (same e found)

theorem kept_exported : ∀ d ∈ done ++ [(u, service)], h.Makes s d.1 →
    ∀ p, g'.routeAt s (h.urls.get d.1).path = some p →
      ∃ e registries, g'.Kept s (h.urls.get d.1).path p e registries := by
  intro d member makes p route
  rcases List.mem_append.1 member with before | own
  · have differ := retouched.elsewhere plannable d before
    rw [deployed.routeAt_elsewhere table differ] at route
    obtain ⟨e, registries, kept⟩ := retouched.kept d before makes p route
    exact ⟨e, registries,
      kept.elsewhere_deployed (retouched.distinct plannable) deployed table differ⟩
  · cases List.mem_singleton.1 own
    rw [← (retouched.steady.urls u).path] at route ⊢
    rw [Makes, ← retouched.code_exported plannable deployed] at makes
    exact deployed.kept_anew table makes (retouched.direct plannable)
      (retouched.clear plannable) route (deployed.coherent retouched.coherent table)

theorem exported : code = h.exportStatus s u ∧ h.Retouched s (done ++ [(u, service)]) g' := by
  have abiding := deployed.abiding
  rw [retouched.steady.factory, retouched.steady.context] at abiding
  refine ⟨retouched.code_exported plannable deployed, ?_⟩
  constructor
  case coherent => exact deployed.coherent retouched.coherent table
  case steady => exact Course.trans retouched.steady (deployed.steady table)
  case endpoints =>
    obtain ⟨_, _, apart⟩ := deployed.apart table
    exact apart.endpoints.trans retouched.endpoints
  case solid => exact deployed.solid table retouched.solid
  case abiding => exact Course.trans retouched.abiding abiding
  case shown => exact retouched.shown_exported plannable deployed table
  case spared => exact fun _ => retouched.spared_exported deployed table
  case kept => exact retouched.kept_exported plannable deployed table
  case lists => exact retouched.lists_exported plannable deployed table
  case stocks => exact retouched.stocks_exported plannable deployed table

end Retouched

theorem Retouched.noted (retouched : h.Retouched s done g) (noted : g.Noted g') :
    h.Retouched s done g' := by
  have stands (r : RegistryRef) (identity : String) :
      h.Stands g' s done r identity ↔ h.Stands g s done r identity := by
    unfold Stands
    simp only [standingAt_grown noted.grown]
  have abiding : Enrolling (h.servers.get s).extensions (h.servers.get s).configuration
      (fun _ => False) g g' := noted.enrolling
  refine ⟨retouched.coherent.grown noted.grown, ?_, ?_, fun path p route => ?_,
    Course.trans retouched.abiding abiding.toAbiding, fun d member => ?_, fun path away => ?_,
    fun d member makes p route => ?_, fun r identity => ?_, ?_⟩
  · exact Course.trans retouched.steady noted.steady
  · exact noted.registering.endpoints.trans retouched.endpoints
  · rw [noted.registering.routeAt] at route
    exact (retouched.solid path p route).steady (s := s) noted.steady
  · rw [portraitAt_noted noted]
    exact retouched.shown d member
  · obtain ⟨shows, routes, kept, same⟩ := retouched.spared path away
    refine ⟨?_, ?_, ?_, fun e found => ?_⟩
    · rw [portraitAt_noted noted, shows]
    · rw [noted.registering.routeAt, routes]
    · rw [noted.grown.exporterAt, kept]
    · rw [noted.registering.exporters, same e found]
  · rw [noted.registering.routeAt] at route
    obtain ⟨e, registries, kept⟩ := retouched.kept d member makes p route
    exact ⟨e, registries, kept.grown noted.grown⟩
  · rw [listsAt_congr noted.registries, stands]
    exact retouched.lists r identity
  · simp only [stands]
    exact retouched.stocks.onto (congrArg Store.next noted.registries) noted.extensions

theorem Plannable.shorten {more : List (UrlRef × Option Service)}
    (plannable : h.Plannable s (plan ++ more)) : h.Plannable s plan where
  terminated := plannable.terminated
  direct := plannable.direct
  clear := plannable.clear
  paths := (List.pairwise_append.1 plannable.paths).1
  apart path other identity own own' :=
    plannable.apart path other identity (own.extend more) (own'.extend more)

end Host

/-- Each export of a sweep ends with the code that it ends with on its own, and leaves what is told
from the state that the sweep started in. -/
theorem Sweep.retouched (sweep : Sweep s plan codes g g') (retouched : h.Retouched s done g)
    (plannable : h.Plannable s (done ++ plan)) :
    codes = plan.map (fun d => h.exportStatus s d.1) ∧ h.Retouched s (done ++ plan) g' := by
  -- on the sweep, with what was deployed before: it is all told from the one state `h`
  induction sweep generalizing done with
  | done g =>
    rw [List.append_nil]
    exact ⟨rfl, retouched⟩
  | passed noted rest ih => exact ih (retouched.noted noted) plannable
  | @exported plan codes g mid g' u service code ends rest ih =>
    rw [List.append_cons] at plannable ⊢
    have terminated := retouched.steady.terminated plannable.terminated
    obtain ⟨t, table⟩ := retouched.coherent.table
    have deployed := retouched.coherent.deployed terminated table ends
    obtain ⟨same, onward⟩ := retouched.exported plannable.shorten deployed table
    obtain ⟨others, reached⟩ := ih onward plannable
    exact ⟨by rw [same, others]; rfl, reached⟩

end RpcHost
