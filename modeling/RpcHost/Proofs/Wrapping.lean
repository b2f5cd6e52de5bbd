import RpcHost.Proofs.Registration
/-!
New providers with filters around them. What is made stands beside what there was, and each
filter of a chain leads to one that is older, so that chains end.
-/
namespace RpcHost

namespace Host

structure Grown (h h' : Host) : Prop where
  rest : ∃ backends providers filters screen files journal,
    h' = { h with backends, providers, filters, screen, files, journal }
  uneventful : h.Uneventful h'
  backends : h.backends.Extends h'.backends
  providers : h.providers.Extends h'.providers
  filters : h.filters.Extends h'.filters

theorem Noted.grown {h h' : Host} (noted : h.Noted h') : h.Grown h' := by
  have uneventful := noted.uneventful
  obtain ⟨_, _, _, rfl⟩ := noted.written
  exact ⟨⟨_, _, _, _, _, _, rfl⟩, uneventful, .refl _, .refl _, .refl _⟩

namespace Grown

variable {h h' : Host} (grown : h.Grown h')

include grown

theorem urls : h'.urls = h.urls := by
  obtain ⟨_, _, _, _, _, _, rfl⟩ := grown.rest
  rfl

theorem registries : h'.registries = h.registries := by
  obtain ⟨_, _, _, _, _, _, rfl⟩ := grown.rest
  rfl

theorem tables : h'.tables = h.tables := by
  obtain ⟨_, _, _, _, _, _, rfl⟩ := grown.rest
  rfl

theorem endpoints : h'.endpoints = h.endpoints := by
  obtain ⟨_, _, _, _, _, _, rfl⟩ := grown.rest
  rfl

theorem exporters : h'.exporters = h.exporters := by
  obtain ⟨_, _, _, _, _, _, rfl⟩ := grown.rest
  rfl

theorem extensions : h'.extensions = h.extensions := by
  obtain ⟨_, _, _, _, _, _, rfl⟩ := grown.rest
  rfl

theorem servers : h'.servers = h.servers := by
  obtain ⟨_, _, _, _, _, _, rfl⟩ := grown.rest
  rfl

end Grown

instance : Course Grown where
  refl h := Noted.grown (Course.refl h)
  trans := by
    intro h mid h' first second
    have uneventful := Course.trans first.uneventful second.uneventful
    obtain ⟨_, _, _, _, _, _, rfl⟩ := first.rest
    obtain ⟨_, _, _, _, _, _, rfl⟩ := second.rest
    exact ⟨⟨_, _, _, _, _, _, rfl⟩, uneventful, first.backends.trans second.backends,
      first.providers.trans second.providers, first.filters.trans second.filters⟩

inductive Chain (h : Host) : FilterRef → List FilterKind → Prop
  | last {f : FilterRef} (known : h.filters.Allocated f) (ends : (h.filters.get f).next = none) :
    Chain h f [(h.filters.get f).kind]
  | link {f g : FilterRef} {kinds : List FilterKind} (known : h.filters.Allocated f)
    (leads : (h.filters.get f).next = some g) (older : g.index < f.index)
    (chain : Chain h g kinds) : Chain h f ((h.filters.get f).kind :: kinds)

namespace Chain

variable {h h' : Host} {f : FilterRef} {kinds : List FilterKind}

theorem known (chain : h.Chain f kinds) : h.filters.Allocated f := by
  cases chain <;> assumption

theorem kinds_chainFrom (chain : h.Chain f kinds) {bound : Nat} (within : f.index < bound) :
    (h.chainFrom bound f).map (fun f => (h.filters.get f).kind) = kinds := by
  induction chain generalizing bound with
  | last known ends =>
    cases bound with
    | zero => omega
    | succ bound => simp [chainFrom, ends]
  | link known leads older chain ih =>
    cases bound with
    | zero => omega
    | succ bound => simp [chainFrom, leads, @ih bound (by omega)]

theorem kinds_chainOf (chain : h.Chain f kinds) :
    (h.chainOf f).map (fun f => (h.filters.get f).kind) = kinds :=
  chain.kinds_chainFrom chain.known

theorem extended (chain : h.Chain f kinds) (grown : h.filters.Extends h'.filters) :
    h'.Chain f kinds := by
  induction chain with
  | last known ends =>
    rw [← grown.get _ known] at ends ⊢
    exact .last (grown.allocated known) ends
  | link known leads older chain ih =>
    rw [← grown.get _ known] at leads ⊢
    exact .link (grown.allocated known) leads older ih

end Chain

structure Terminated (h : Host) : Prop where
  known : h.filters.Allocated terminal
  node : h.filters.get terminal = .ofKind .terminal

theorem Terminated.chain {h : Host} (terminated : h.Terminated) :
    h.Chain terminal [.terminal] := by
  have chain := Chain.last terminated.known (by rw [terminated.node]; rfl)
  rwa [terminated.node] at chain

theorem Terminated.extended {h h' : Host} (terminated : h.Terminated)
    (grown : h.filters.Extends h'.filters) : h'.Terminated :=
  ⟨grown.allocated terminated.known, by rw [grown.get _ terminated.known, terminated.node]⟩

end Host

def FilterKind.onto (kind : FilterKind) (behind : List FilterKind) : List FilterKind :=
  match kind with
  | terminal => [terminal]
  | kind => if kind.forwards then kind :: behind else behind

theorem FilterKind.onto_linked {kind : FilterKind} (forwards : kind.forwards = true)
    (differ : kind ≠ .terminal) (behind : List FilterKind) :
    kind.onto behind = kind :: behind := by
  cases kind <;> simp_all [onto, FilterKind.forwards]

theorem FilterKind.onto_unlinked {kind : FilterKind} (blocks : kind.forwards = false)
    (behind : List FilterKind) : kind.onto behind = behind := by
  cases kind <;> simp_all [onto, FilterKind.forwards]

def FilterKind.linked (kind : FilterKind) (c : ConfigurationRef) (u : UrlRef) (next : FilterRef) :
    FilterNode :=
  if kind.keepsContext then ⟨kind, some next, some u, some c⟩ else ⟨kind, some next, none, none⟩

@[simp] theorem FilterKind.kind_linked (kind : FilterKind) (c : ConfigurationRef) (u : UrlRef)
    (next : FilterRef) : (kind.linked c u next).kind = kind := by
  unfold linked
  split <;> rfl

@[simp] theorem FilterKind.next_linked (kind : FilterKind) (c : ConfigurationRef) (u : UrlRef)
    (next : FilterRef) : (kind.linked c u next).next = some next := by
  unfold linked
  split <;> rfl

/-- The filters from `f` on were made since `start` for the address and the context, each with an
older one behind it. The last of them is the terminal. -/
inductive Host.Composed (start : Host) (c : ConfigurationRef) (u : UrlRef) (h : Host) :
    FilterRef → List FilterKind → Prop
  | ends (terminated : h.Terminated) : Composed start c u h terminal [.terminal]
  | link {f g : FilterRef} {kind : FilterKind} {kinds : List FilterKind}
    (new : ¬start.filters.Allocated f) (known : h.filters.Allocated f)
    (node : h.filters.get f = kind.linked c u g) (older : g.index < f.index)
    (behind : Composed start c u h g kinds) : Composed start c u h f (kind :: kinds)

namespace Host.Composed

variable {start h h' : Host} {c : ConfigurationRef} {u : UrlRef} {f : FilterRef}
  {kinds : List FilterKind} (composed : start.Composed c u h f kinds)

include composed

theorem known : h.filters.Allocated f := by
  cases composed with
  | ends terminated => exact terminated.known
  | link _ known => exact known

theorem chain : h.Chain f kinds := by
  induction composed with
  | ends terminated => exact terminated.chain
  | link new known node older behind ih =>
    have chain := Chain.link known (by rw [node, FilterKind.next_linked]) older ih
    rwa [node, FilterKind.kind_linked] at chain

theorem extended (grown : h.filters.Extends h'.filters) : start.Composed c u h' f kinds := by
  induction composed with
  | ends terminated => exact .ends (terminated.extended grown)
  | link new known node older behind ih =>
    exact .link new (grown.allocated known) (by rw [grown.get _ known, node]) older ih

end Host.Composed

theorem composeChain_linked {h : Host} (head : FilterRef) (c : ConfigurationRef) (u : UrlRef)
    {kind : FilterKind} (forwards : kind.forwards = true) (differ : kind ≠ .terminal) :
    ∃ filters, h.filters.Extends filters ∧ filters.Allocated h.filters.fresh ∧
      filters.get h.filters.fresh = kind.linked c u head ∧
      ∀ rest, StateT.run (composeChain c u (kind :: rest) head) h =
        StateT.run (composeChain c u rest h.filters.fresh) { h with filters } := by
  have new : ¬h.filters.Allocated h.filters.fresh := h.filters.not_allocated_fresh
  have plain (binds : bindFilter kind u = do return some (← addFilter (.ofKind kind)))
      (keeps : kind.keepsContext = false) : ∃ filters, h.filters.Extends filters ∧
      filters.Allocated h.filters.fresh ∧
      filters.get h.filters.fresh = kind.linked c u head ∧
      ∀ rest, StateT.run (composeChain c u (kind :: rest) head) h =
        StateT.run (composeChain c u rest h.filters.fresh) { h with filters } := by
    refine ⟨_, ((Store.Extends.refl h.filters).add (.ofKind kind)).modify new fun node =>
      { node with next := some head }, Nat.lt_succ_self _, ?_, fun rest => ?_⟩
    · simp [FilterKind.linked, keeps, FilterNode.ofKind]
    · simp [composeChain, binds, addFilter, giveContext, setNext, forwards, keeps,
        FilterNode.ofKind]
  cases kind with
  | inert name => simp [FilterKind.forwards] at forwards
  | unbound name => simp [FilterKind.forwards] at forwards
  | terminal => exact absurd rfl differ
  | recording name =>
    let node : FilterNode := { FilterNode.ofKind (.recording name) with url := some u }
    refine ⟨_, (((Store.Extends.refl h.filters).add node).modify new fun node =>
      { node with context := some c }).modify new fun node => { node with next := some head },
      Nat.lt_succ_self _, ?_, fun rest => ?_⟩
    · simp [node, FilterKind.linked, FilterKind.keepsContext, FilterNode.ofKind]
    · simp [composeChain, bindFilter, addFilter, giveContext, setNext, FilterKind.forwards,
        FilterKind.keepsContext, FilterNode.ofKind, node]
  | accessLog => exact plain rfl rfl
  | throwing name fault => exact plain rfl rfl
  | answering name failure => exact plain rfl rfl
  | repeating name => exact plain rfl rfl

theorem composeChain_unlinked {h : Host} (c : ConfigurationRef) (u : UrlRef)
    {kind : FilterKind} (blocks : kind.forwards = false) (head : FilterRef) :
    ∃ filters, h.filters.Extends filters ∧
      ∀ rest, StateT.run (composeChain c u (kind :: rest) head) h =
        StateT.run (composeChain c u rest head) { h with filters } := by
  cases kind with
  | inert name =>
    refine ⟨_, (Store.Extends.refl h.filters).add (.ofKind (.inert name)), fun rest => ?_⟩
    simp [composeChain, bindFilter, addFilter, FilterKind.forwards]
  | unbound name =>
    refine ⟨_, Store.Extends.refl h.filters, fun rest => ?_⟩
    simp [composeChain, bindFilter]
  | _ => simp [FilterKind.forwards] at blocks

theorem composeChain_terminal {h : Host} (c : ConfigurationRef) (u : UrlRef)
    (terminated : h.Terminated) (head : FilterRef) :
    ∃ mid, h.Noted mid ∧ ∀ rest, StateT.run (composeChain c u (.terminal :: rest) head) h =
      StateT.run (composeChain c u rest Host.terminal) mid := by
  refine ⟨_, writeLog_within .warning ["lastEndPointFilter 不能设置后续过滤器\n"] h, fun rest => ?_⟩
  simp [composeChain, bindFilter, giveContext, setNext, FilterKind.forwards,
    FilterKind.keepsContext, terminated.node, FilterNode.ofKind, Step.after]
  rfl

theorem Host.grown_filters {h : Host} {filters : Store .filter FilterNode}
    (added : h.filters.Extends filters) : h.Grown { h with filters } :=
  ⟨⟨_, _, _, _, _, _, rfl⟩, .of_eq rfl, .refl _, .refl _, added⟩

def FilterKind.stack : List FilterKind → List FilterKind → List FilterKind
  | [], behind => behind
  | kind :: rest, behind => stack rest (kind.onto behind)

theorem composeChain_spec {start h : Host} {head : FilterRef} {behind : List FilterKind}
    (c : ConfigurationRef) (u : UrlRef) (kinds : List FilterKind) (terminated : h.Terminated)
    (since : start.filters.Extends h.filters) (composed : start.Composed c u h head behind) :
    h.Grown ((composeChain c u kinds head).after h) ∧
      ((composeChain c u kinds head).after h).backends = h.backends ∧
      start.Composed c u ((composeChain c u kinds head).after h)
        ((composeChain c u kinds head).value h) (FilterKind.stack kinds behind) := by
  -- on the filters that are left; `behind` is the chain so far, which a terminal filter begins anew
  induction kinds generalizing h head behind with
  | nil => exact ⟨Course.refl h, rfl, composed⟩
  | cons kind rest ih =>
    unfold Step.after Step.value FilterKind.stack
    by_cases last : kind = .terminal
    · subst last
      obtain ⟨mid, noted, goes⟩ := composeChain_terminal c u terminated head
      rw [goes]
      have terminated := terminated.extended noted.grown.filters
      obtain ⟨grown, backends, composed⟩ :=
        ih terminated (since.trans noted.grown.filters) (.ends terminated)
      exact ⟨Course.trans noted.grown grown, backends.trans noted.registering.backends, composed⟩
    · cases forwards : kind.forwards with
      | true =>
        obtain ⟨filters, added, known, node, goes⟩ :=
          composeChain_linked head c u forwards last
        rw [goes, kind.onto_linked forwards last]
        have first := Host.grown_filters added
        have new : ¬start.filters.Allocated h.filters.fresh := fun old =>
          h.filters.not_allocated_fresh (since.allocated old)
        obtain ⟨grown, backends, composed⟩ := ih (terminated.extended first.filters)
          (since.trans added) (.link new known node composed.known (composed.extended added))
        exact ⟨Course.trans first grown, backends, composed⟩
      | false =>
        obtain ⟨filters, added, goes⟩ := composeChain_unlinked c u forwards head
        rw [goes, kind.onto_unlinked forwards]
        have first := Host.grown_filters added
        obtain ⟨grown, backends, composed⟩ := ih (terminated.extended first.filters)
          (since.trans added) (composed.extended added)
        exact ⟨Course.trans first grown, backends, composed⟩

def Extensions.filterNamed (x : Extensions) (name : String) : Option FilterKind :=
  (Extensions.usable x.filters name).join

theorem Extensions.filter_builtIn {name : String} {kind : FilterKind}
    (found : builtIn.filterNamed name = some kind) : kind = .accessLog := by
  have inserted : ((Keyed.empty.insert FilterKind.accessLog.name
      (some (some FilterKind.accessLog))).find? name).join.join = some kind := found
  rw [Keyed.find?_insert] at inserted
  split at inserted
  · exact (Option.some.inj inserted).symm
  · cases inserted

theorem findFilter_spec (x : ExtensionsRef) (name : String) (h : Host) :
    (findFilter x name).value h = (h.extensions.get x).filterNamed name ∧
      h.Noted ((findFilter x name).after h) := by
  simp only [findFilter, Step.value_bind, Step.after_bind, Step.value_get, Step.after_get,
    Extensions.filterNamed]
  split
  · rename_i absent
    exact ⟨by rw [absent]; rfl, writeLog_within _ _ h⟩
  · rename_i maker found
    exact ⟨by rw [found]; rfl, Course.refl h⟩

theorem findFilters_spec (x : ExtensionsRef) (names : List String) (h : Host) :
    (findFilters x names).value h = names.filterMap (h.extensions.get x).filterNamed ∧
      h.Noted ((findFilters x names).after h) := by
  induction names generalizing h with
  | nil => exact ⟨rfl, Course.refl h⟩
  | cons name rest ih =>
    obtain ⟨found, first⟩ := findFilter_spec x name h
    obtain ⟨others, second⟩ := ih ((findFilter x name).after h)
    have same : ((findFilter x name).after h).extensions = h.extensions := by
      rw [first.extensions]
    rw [same] at others
    refine ⟨?_, Course.trans first second⟩
    simp only [findFilters, Step.value_bind, Step.value_pure, found, others]
    cases named : (h.extensions.get x).filterNamed name <;> simp [named]

def Host.kindsFor (h : Host) (x : ExtensionsRef) (u : UrlRef) : List FilterKind :=
  ((h.urls.get u).listParam Url.filterKey).filterMap (h.extensions.get x).filterNamed

theorem addressFilters_spec (x : ExtensionsRef) (u : UrlRef) (h : Host) :
    (addressFilters x u).value h = h.kindsFor x u ∧ h.Noted ((addressFilters x u).after h) := by
  unfold addressFilters Host.kindsFor
  rw [Step.value_bind, Step.after_bind, value_getUrl, after_getUrl]
  exact findFilters_spec x _ h

theorem wrapProvider_cases {h : Host} (p : ProviderRef) (x : ExtensionsRef) (c : ConfigurationRef)
    (terminated : h.Terminated) :
    ∃ mid head, h.Grown mid ∧ mid.backends = h.backends ∧
      h.Composed c (h.addressOf p) mid head
        (FilterKind.stack (h.kindsFor x (h.addressOf p)) [.terminal]) ∧
      (wrapProvider p x c).value h = mid.providers.fresh ∧
      Host.Noted { mid with
        providers := mid.providers.add
          ⟨(mid.providers.get p).backend, head :: (mid.providers.get p).layers, some p⟩ }
        ((wrapProvider p x c).after h) := by
  obtain ⟨found, noted⟩ := addressFilters_spec x (h.addressOf p) h
  generalize marks : (addressFilters x (h.addressOf p)).after h = looked at noted
  have stands := terminated.extended noted.grown.filters
  obtain ⟨second, backends, composed⟩ := composeChain_spec c (h.addressOf p)
    (h.kindsFor x (h.addressOf p)) stands noted.grown.filters (.ends stands)
  generalize leaves : (composeChain c (h.addressOf p) (h.kindsFor x (h.addressOf p))
    Host.terminal).after looked = mid at second backends composed
  generalize leads : (composeChain c (h.addressOf p) (h.kindsFor x (h.addressOf p))
    Host.terminal).value looked = head at composed
  refine ⟨mid, head, Course.trans noted.grown second,
    backends.trans noted.registering.backends, composed, ?_⟩
  simp only [wrapProvider, Step.value_bind, Step.after_bind, Step.value_get, Step.after_get,
    Step.after_set, Step.value_pure, Step.after_pure, found, marks, leaves, leads]
  exact ⟨trivial, writeLog_within _ _ _⟩

theorem wrapProvider_spec {h : Host} {p : ProviderRef} (x : ExtensionsRef) (c : ConfigurationRef)
    (terminated : h.Terminated) (known : h.providers.Allocated p) :
    h.Grown ((wrapProvider p x c).after h) ∧
      ((wrapProvider p x c).after h).backends = h.backends ∧
      ((wrapProvider p x c).after h).providers.Allocated ((wrapProvider p x c).value h) ∧
      ¬h.providers.Allocated ((wrapProvider p x c).value h) ∧
      ∃ head, ((wrapProvider p x c).after h).providers.get ((wrapProvider p x c).value h) =
          ⟨(h.providers.get p).backend, head :: (h.providers.get p).layers, some p⟩ ∧
        h.Composed c (h.addressOf p) ((wrapProvider p x c).after h) head
          (FilterKind.stack (h.kindsFor x (h.addressOf p)) [.terminal]) := by
  obtain ⟨mid, head, grown, backends, composed, value, noted⟩ :=
    wrapProvider_cases p x c terminated
  rw [grown.providers.get p known] at noted
  have added : h.Grown { mid with
      providers := mid.providers.add
        ⟨(h.providers.get p).backend, head :: (h.providers.get p).layers, some p⟩ } :=
    Course.trans grown ⟨⟨_, _, _, _, _, _, rfl⟩, .of_eq rfl, .refl _,
      (Store.Extends.refl _).add _, .refl _⟩
  rw [value]
  refine ⟨Course.trans added noted.grown, ?_, ?_, ?_, head, ?_, ?_⟩
  · rw [noted.registering.backends]
    exact backends
  · rw [noted.registering.providers]
    exact mid.providers.allocated_fresh_add _
  · exact fun old => mid.providers.not_allocated_fresh (grown.providers.allocated old)
  · rw [noted.registering.providers]
    exact mid.providers.get_add_fresh _
  · exact composed.extended (noted.grown.filters)

def Extensions.backendFor (x : Extensions) (u : UrlRef) (url : Url) : Option Backend :=
  (Extensions.usable x.providers (url.paramOr Url.providerKey defaultName)).bind fun maker =>
    maker.make u url

theorem Extensions.provider_builtIn {name : String} {maker : ProviderMaker}
    (found : usable builtIn.providers name = some maker) : maker = .standard := by
  have inserted : ((Keyed.empty.insert defaultName (some .standard)).find? name).join =
      some maker := found
  rw [Keyed.find?_insert] at inserted
  split at inserted
  · exact (Option.some.inj inserted).symm
  · cases inserted

theorem makeProvider_none {h : Host} {x : ExtensionsRef} {u : UrlRef}
    (none : (h.extensions.get x).backendFor u (h.urls.get u) = none) :
    (makeProvider x u).value h = .none ∧ h.Noted ((makeProvider x u).after h) := by
  simp only [makeProvider, getUrl, Step.value_bind, Step.after_bind, Step.value_get,
    Step.after_get, Step.value_pure, Step.after_pure]
  unfold Extensions.backendFor at none
  split
  · exact ⟨rfl, writeLog_within _ _ h⟩
  · rename_i maker found
    rw [found] at none
    have nothing : maker.make u (h.urls.get u) = .none := none
    rw [nothing]
    exact ⟨rfl, Course.refl h⟩

theorem makeProvider_some {h : Host} {x : ExtensionsRef} {u : UrlRef} {b : Backend}
    (some : (h.extensions.get x).backendFor u (h.urls.get u) = some b) :
    StateT.run (makeProvider x u) h = (.some h.providers.fresh,
      { h with
        backends := h.backends.add b
        providers := h.providers.add ⟨h.backends.fresh, [], none⟩ }) := by
  obtain ⟨maker, found, makes⟩ := Option.bind_eq_some_iff.1 some
  refine Prod.ext (?value : Step.value _ _ = _) (?after : Step.after _ _ = _)
  case value =>
    simp only [makeProvider, Step.value_bind, value_getUrl, after_getUrl, Step.value_get,
      Step.after_get, found, makes, Step.value_pure]
    rfl
  case after =>
    simp only [makeProvider, Step.after_bind, value_getUrl, after_getUrl, Step.value_get,
      Step.after_get, found, makes, Step.after_pure]
    rfl

def Backend.serving (b : Backend) (service : Option Service) : Backend :=
  match b.engine, service with
  | .standard _, some (.methods table) => { b with engine := .standard (some table) }
  | .standard _, _ => b
  | .scripted behaviour first calls memory _, service =>
    { b with engine := .scripted behaviour first calls memory service }

theorem Backend.url_serving (b : Backend) (service : Option Service) :
    (b.serving service).url = b.url := by
  unfold serving
  split <;> rfl

theorem Backend.available_serving (b : Backend) (service : Option Service) :
    (b.serving service).available = b.available := by
  unfold serving
  split <;> rfl

theorem setService_spec (p : ProviderRef) (service : Option Service) (h : Host) :
    ∃ backends, Host.Noted { h with backends } ((setService p service).after h) ∧
      backends.next = h.backends.next ∧
      ∀ b, backends.get b =
        if b = (h.providers.get p).backend then (h.backendOf p).serving service
        else h.backends.get b := by
  have modified (f : Backend → Backend) (same : f (h.backendOf p) = (h.backendOf p).serving service)
      (b : BackendRef) : (h.backends.modify (h.providers.get p).backend f).get b =
        if b = (h.providers.get p).backend then (h.backendOf p).serving service
        else h.backends.get b := by
    rw [Store.get_modify, ← same]
    rfl
  unfold setService
  rw [Step.after_bind, Step.value_get, Step.after_get]
  dsimp only
  split
  · rename_i methods engine
    have standard : (h.backendOf p).engine = .standard methods := engine
    split
    · refine ⟨_, .of_eq (after_modifyBackend _ _ _), rfl, ?_⟩
      refine modified _ ?_
      unfold Backend.serving
      rw [standard]
    · rename_i other
      refine ⟨h.backends, writeLog_within _ _ h, rfl, fun b => ?_⟩
      have same : (h.backendOf p).serving service = h.backendOf p := by
        unfold Backend.serving
        rw [standard]
        split
        · rename_i table _
          exact absurd rfl (other table)
        · rfl
        · rename_i scripted
          cases scripted
      split
      · rename_i own
        rw [same, own]
        rfl
      · rfl
  · rename_i behaviour first calls memory held engine
    have scripted : (h.backendOf p).engine = .scripted behaviour first calls memory held := engine
    refine ⟨_, .of_eq (after_modifyBackend _ _ _), rfl, ?_⟩
    refine modified _ ?_
    unfold Backend.serving
    rw [scripted]

/-- A provider was made for an address, with a business object and its filters around it. -/
structure Host.Prepared (h : Host) (x : ExtensionsRef) (u : UrlRef) (service : Option Service)
    (p : ProviderRef) (h' : Host) : Prop where
  grown : h.Grown h'
  known : h'.providers.Allocated p
  new : ¬h.providers.Allocated p
  backed : h'.backends.Allocated (h'.providers.get p).backend
  apart : ¬h.backends.Allocated (h'.providers.get p).backend
  others : ∀ b, b ≠ (h'.providers.get p).backend → h'.backends.get b = h.backends.get b
  backend : ∃ b, (h.extensions.get x).backendFor u (h.urls.get u) = some b ∧
    h'.backendOf p = b.serving service
  layers : ∃ head, (h'.providers.get p).layers = [head] ∧
    h'.Chain head (FilterKind.stack (h.kindsFor x u) [.terminal])

theorem Extensions.url_backendFor {x : Extensions} {u : UrlRef} {url : Url} {b : Backend}
    (found : x.backendFor u url = some b) : b.url = u ∧ b.available = true := by
  obtain ⟨maker, _, makes⟩ := Option.bind_eq_some_iff.1 found
  exact ⟨maker.url_make makes, maker.available_make makes⟩

theorem Host.Prepared.addressOf {h h' : Host} {x : ExtensionsRef} {u : UrlRef}
    {service : Option Service} {p : ProviderRef} (prepared : h.Prepared x u service p h') :
    h'.addressOf p = u ∧ (h'.backendOf p).available = true := by
  obtain ⟨b, found, serves⟩ := prepared.backend
  unfold Host.addressOf
  rw [serves, Backend.url_serving, Backend.available_serving]
  exact Extensions.url_backendFor found

structure Host.Supplied (h : Host) (b : Backend) (service : Option Service) (h' : Host) : Prop where
  grown : h.Grown h'
  known : h'.providers.Allocated h.providers.fresh
  provider : h'.providers.get h.providers.fresh = ⟨h.backends.fresh, [], none⟩
  backed : h'.backends.Allocated h.backends.fresh
  backend : h'.backends.get h.backends.fresh = b.serving service
  others : ∀ other, other ≠ h.backends.fresh → h'.backends.get other = h.backends.get other
  urls : h'.urls = h.urls
  extensions : h'.extensions = h.extensions

theorem setService_supplied (h : Host) (b : Backend) (service : Option Service) :
    h.Supplied b service ((setService h.providers.fresh service).after { h with
      backends := h.backends.add b
      providers := h.providers.add ⟨h.backends.fresh, [], none⟩ }) := by
  obtain ⟨backends, noted, next, given⟩ := setService_spec h.providers.fresh service
    { h with
      backends := h.backends.add b
      providers := h.providers.add ⟨h.backends.fresh, [], none⟩ }
  generalize (setService h.providers.fresh service).after _ = mid at noted
  simp only [Host.backendOf, Store.get_add_fresh] at given
  have more : h.backends.Extends backends := by
    refine ⟨by rw [next]; exact Nat.le_succ _, fun other old => ?_⟩
    rw [given, if_neg old.ne_fresh, Store.get_add_ne _ old.ne_fresh]
  have stored : mid.backends = backends := noted.registering.backends
  refine ⟨?_, ?_, ?_, ?_, ?_, fun other differ => ?_, noted.registering.urls, noted.extensions⟩
  · refine Course.trans (?_ : h.Grown { h with
      backends, providers := h.providers.add ⟨h.backends.fresh, [], none⟩ }) noted.grown
    exact ⟨⟨_, _, _, _, _, _, rfl⟩, .of_eq rfl, more, (Store.Extends.refl _).add _, .refl _⟩
  · rw [noted.registering.providers]
    exact h.providers.allocated_fresh_add _
  · rw [noted.registering.providers]
    exact h.providers.get_add_fresh _
  · rw [stored]
    show h.backends.next < backends.next
    rw [next]
    exact Nat.lt_succ_self _
  · rw [stored, given, if_pos rfl]
  · rw [stored, given, if_neg differ, Store.get_add_ne _ differ]

theorem prepared_of_backend {h : Host} {x : ExtensionsRef} {u : UrlRef} {b : Backend}
    (c : ConfigurationRef) (service : Option Service) (terminated : h.Terminated)
    (found : (h.extensions.get x).backendFor u (h.urls.get u) = some b) :
    ∃ p mid, StateT.run (makeProvider x u) h = (some p, mid) ∧
      h.Prepared x u service
        ((wrapProvider p x c).value ((setService p service).after mid))
        ((wrapProvider p x c).after ((setService p service).after mid)) := by
  refine ⟨_, _, makeProvider_some found, ?_⟩
  have supplied := setService_supplied h b service
  generalize (setService h.providers.fresh service).after _ = mid at supplied
  have address : mid.addressOf h.providers.fresh = u := by
    unfold Host.addressOf Host.backendOf
    rw [supplied.provider, supplied.backend, Backend.url_serving,
      (Extensions.url_backendFor found).1]
  have kinds : mid.kindsFor x u = h.kindsFor x u := by
    unfold Host.kindsFor
    rw [supplied.urls, supplied.extensions]
  obtain ⟨second, backends, made, new, head, wrapped, composed⟩ :=
    wrapProvider_spec x c (terminated.extended supplied.grown.filters) supplied.known
  rw [supplied.provider] at wrapped
  rw [address, kinds] at composed
  refine ⟨Course.trans supplied.grown second, made,
    fun old => new (supplied.grown.providers.allocated old), ?_, ?_, fun other differ => ?_,
    ⟨b, found, ?_⟩, head, ?_, composed.chain⟩
  · rw [wrapped]
    exact second.backends.allocated supplied.backed
  · rw [wrapped]
    exact h.backends.not_allocated_fresh
  · rw [wrapped] at differ
    rw [backends, supplied.others other differ]
  · unfold Host.backendOf
    rw [wrapped, second.backends.get _ supplied.backed, supplied.backend]
  · rw [wrapped]

namespace Host

def Silent (h h' : Host) : Prop := h'.journal = h.journal

instance : Course Silent where
  refl _ := rfl
  trans first second := Eq.trans second first

end Host

theorem writeLog_silent (level : Level) (pieces : List String) :
    (writeLog level pieces).Within Host.Silent := journal_writeLog level pieces

theorem getUrl_silent (u : UrlRef) : (getUrl u).Within Host.Silent := fun _ => rfl

theorem makeProvider_silent (x : ExtensionsRef) (u : UrlRef) :
    (makeProvider x u).Within Host.Silent := by
  refine Step.within_bind (getUrl_silent u) fun url => ?_
  refine Step.within_bind Step.within_get fun now => ?_
  split
  · exact Step.within_bind (writeLog_silent _ _) fun _ => Step.within_pure _
  · split
    · exact Step.within_pure _
    · exact Step.within_bind (fun _ => rfl) fun _ => Step.within_pure _

theorem setService_silent (p : ProviderRef) (service : Option Service) :
    (setService p service).Within Host.Silent := by
  refine Step.within_bind Step.within_get fun now => ?_
  dsimp only
  split
  · split
    · exact fun _ => rfl
    · exact writeLog_silent _ _
  · exact fun _ => rfl

theorem findFilters_silent (x : ExtensionsRef) (names : List String) :
    (findFilters x names).Within Host.Silent := by
  induction names with
  | nil => exact Step.within_pure _
  | cons name rest ih =>
    refine Step.within_bind ?_ fun found => Step.within_bind ih fun _ => Step.within_pure _
    refine Step.within_bind Step.within_get fun now => ?_
    split
    · exact Step.within_bind (writeLog_silent _ _) fun _ => Step.within_pure _
    · exact Step.within_pure _

theorem bindFilter_silent (kind : FilterKind) (u : UrlRef) :
    (bindFilter kind u).Within Host.Silent := by
  cases kind <;> exact fun _ => rfl

theorem giveContext_silent (f : FilterRef) (c : ConfigurationRef) :
    (giveContext f c).Within Host.Silent := by
  intro h
  by_cases keeps : (h.filters.get f).kind.keepsContext
  · simp [Host.Silent, Step.after, giveContext, keeps]
    rfl
  · simp [Host.Silent, Step.after, giveContext, keeps]
    rfl

theorem setNext_silent (f : FilterRef) (next : Option FilterRef) :
    (setNext f next).Within Host.Silent := by
  intro h
  unfold setNext
  simp only [Step.after_bind, Step.value_get, Step.after_get]
  split
  · exact writeLog_silent _ _ h
  · rfl

theorem composeChain_silent (c : ConfigurationRef) (u : UrlRef) (kinds : List FilterKind)
    (head : FilterRef) : (composeChain c u kinds head).Within Host.Silent := by
  induction kinds generalizing head with
  | nil => exact Step.within_pure _
  | cons kind rest ih =>
    refine Step.within_bind (bindFilter_silent kind u) fun bound => ?_
    split
    · exact ih head
    · split
      · refine Step.within_bind (giveContext_silent _ c) fun _ => ?_
        exact Step.within_bind (setNext_silent _ _) fun _ => ih _
      · exact ih head

/-- Composing the filters of an address and putting them around a provider is not told. -/
theorem wrapProvider_silent (p : ProviderRef) (x : ExtensionsRef) (c : ConfigurationRef) :
    (wrapProvider p x c).Within Host.Silent := by
  refine Step.within_bind Step.within_get fun now => ?_
  refine Step.within_bind ?_ fun kinds => ?_
  · exact Step.within_bind (getUrl_silent _) fun url => findFilters_silent x _
  · refine Step.within_bind (composeChain_silent c _ kinds _) fun head => ?_
    intro h
    simp only [Step.after_bind, Step.value_get, Step.after_get, Step.after_set, Step.after_pure]
    exact writeLog_silent _ _ _

end RpcHost
