import Mathlib.Data.List.Chain
import Mathlib.Data.List.Induction
import RpcHost.Proofs.Runs
/-!
The shape of a composed chain: a line of new filters in front of the terminal, one for each name
that can be used and that no terminal cuts off. Chains that are composed later leave it as it is.
-/
namespace RpcHost

open Host

variable {start h h' mid later : Host} {c : ConfigurationRef} {u : UrlRef} {x : ExtensionsRef}
  {p : ProviderRef} {f g head : FilterRef} {kind : FilterKind} {kinds : List FilterKind}

namespace FilterKind

/-- The kinds that have a place in the chain, the one named last first: those that can be linked
and that are named after all terminals. -/
def placed (kinds : List FilterKind) : List FilterKind :=
  (kinds.reverse.takeWhile (· ≠ .terminal)).filter forwards

theorem stack_snoc (kinds behind : List FilterKind) (kind : FilterKind) :
    stack (kinds ++ [kind]) behind = kind.onto (stack kinds behind) := by
  induction kinds generalizing behind with
  | nil => rfl
  | cons first rest ih => exact ih (first.onto behind)

theorem onto_placed (kinds : List FilterKind) (kind : FilterKind) :
    kind.onto (placed kinds ++ [.terminal]) = placed (kinds ++ [kind]) ++ [.terminal] := by
  unfold placed
  by_cases last : kind = .terminal
  · subst last
    simp [onto]
  · cases linked : kind.forwards with
    | true => simp [onto_linked linked last, last, linked]
    | false => simp [onto_unlinked linked, last, linked]

theorem stack_terminal (kinds : List FilterKind) :
    stack kinds [.terminal] = placed kinds ++ [.terminal] := by
  induction kinds using List.reverseRecOn with
  | nil => rfl
  | append_singleton kinds kind ih => rw [stack_snoc, ih, onto_placed]

end FilterKind

namespace Host

namespace Chain

theorem chainFrom_succ (leads : (h.filters.get f).next = some g) (bound : Nat) :
    h.chainFrom (bound + 1) f = f :: h.chainFrom bound g := by
  simp [chainFrom, leads]

theorem chainFrom_bound (chain : h.Chain f kinds) {m n : Nat} (within : f.index < m)
    (within' : f.index < n) : h.chainFrom m f = h.chainFrom n f := by
  -- each link leads to an older filter, so that any bound above the index will do
  induction chain generalizing m n with
  | last known ends =>
    cases m with
    | zero => omega
    | succ m =>
      cases n with
      | zero => omega
      | succ n => simp [chainFrom, ends]
  | link known leads older chain ih =>
    cases m with
    | zero => omega
    | succ m =>
      cases n with
      | zero => omega
      | succ n => rw [chainFrom_succ leads, chainFrom_succ leads, @ih m n (by omega) (by omega)]

theorem chainOf_link (chain : h.Chain g kinds) (known : h.filters.Allocated f)
    (leads : (h.filters.get f).next = some g) (older : g.index < f.index) :
    h.chainOf f = f :: h.chainOf g := by
  have bound : h.chainOf f = h.chainFrom (f.index + 1) f :=
    (Chain.link known leads older chain).chainFrom_bound known (Nat.lt_succ_self _)
  have behind : h.chainFrom f.index g = h.chainOf g := chain.chainFrom_bound older chain.known
  rw [bound, ← behind, chainFrom_succ leads]

theorem chainOf_last (ends : (h.filters.get f).next = none) (known : h.filters.Allocated f) :
    h.chainOf f = [f] := by
  unfold chainOf
  cases total : h.filters.next with
  | zero =>
    unfold Store.Allocated at known
    omega
  | succ bound => simp [chainFrom, ends]

theorem known_of_mem (chain : h.Chain f kinds) (member : g ∈ h.chainOf f) :
    h.filters.Allocated g := by
  induction chain with
  | last known ends =>
    rw [chainOf_last ends known, List.mem_singleton] at member
    rwa [member]
  | link known leads older chain ih =>
    rw [chain.chainOf_link known leads older] at member
    rcases List.mem_cons.1 member with rfl | behind
    · exact known
    · exact ih behind

theorem chainOf_extended (chain : h.Chain f kinds) (grown : h.filters.Extends h'.filters) :
    h'.chainOf f = h.chainOf f := by
  induction chain with
  | last known ends =>
    rw [chainOf_last ends known, chainOf_last (by rwa [grown.get _ known]) (grown.allocated known)]
  | link known leads older chain ih =>
    rw [chain.chainOf_link known leads older, ← ih,
      (chain.extended grown).chainOf_link (grown.allocated known)
        (by rwa [grown.get _ known]) older]

end Chain

/-- The filters from `head` on stand in a line, `nodes` and then the terminal, where it ends. None
of them comes back. -/
structure Line (h : Host) (head : FilterRef) (nodes : List FilterRef) : Prop where
  chainOf : h.chainOf head = nodes ++ [terminal]
  begins : (nodes ++ [terminal]).head? = some head
  linked : (nodes ++ [terminal]).IsChain fun f g => (h.filters.get f).next = some g
  ends : (h.filters.get terminal).next = none
  falls : (nodes ++ [terminal]).Pairwise fun f g => g.index < f.index

theorem Line.nodup {nodes : List FilterRef} (line : h.Line head nodes) :
    (h.chainOf head).Nodup := by
  rw [line.chainOf]
  exact line.falls.imp fun older same => by
    rw [same] at older
    exact Nat.lt_irrefl _ older

theorem Terminated.line (terminated : h.Terminated) : h.Line terminal [] where
  chainOf := Chain.chainOf_last (by rw [terminated.node]; rfl) terminated.known
  begins := rfl
  linked := List.isChain_singleton _
  ends := by
    rw [terminated.node]
    rfl
  falls := List.pairwise_singleton _ _

theorem Line.cons {nodes : List FilterRef} (line : h.Line g nodes) (chain : h.Chain g kinds)
    (known : h.filters.Allocated f) (leads : (h.filters.get f).next = some g)
    (older : g.index < f.index) : h.Line f (f :: nodes) where
  chainOf := by
    rw [chain.chainOf_link known leads older, line.chainOf]
    rfl
  begins := rfl
  linked := by
    obtain ⟨_, begins, linked, _, _⟩ := line
    rw [List.cons_append, List.isChain_cons]
    refine ⟨fun next first => ?_, linked⟩
    rw [begins] at first
    cases first
    exact leads
  ends := line.ends
  falls := by
    obtain ⟨_, begins, _, _, falls⟩ := line
    obtain ⟨rest, all⟩ : ∃ rest, nodes ++ [terminal] = g :: rest := List.head?_eq_some_iff.1 begins
    rw [all] at falls
    rw [List.cons_append, all]
    refine List.pairwise_cons.2 ⟨fun other member => ?_, falls⟩
    rcases List.mem_cons.1 member with rfl | later
    · exact older
    · exact Nat.lt_trans ((List.pairwise_cons.1 falls).1 other later) older

theorem Composed.line (composed : start.Composed c u h f kinds) :
    ∃ nodes, h.Line f nodes ∧
      nodes.map (fun f => (h.filters.get f).kind) ++ [.terminal] = kinds ∧
      ∀ f ∈ nodes, ¬start.filters.Allocated f ∧
        ∃ next, h.filters.get f = (h.filters.get f).kind.linked c u next := by
  -- a filter that was made later begins the line of those before it
  induction composed with
  | ends terminated => exact ⟨[], terminated.line, rfl, fun _ none => by cases none⟩
  | @link f g kind kinds new known node older behind ih =>
    obtain ⟨nodes, line, same, made⟩ := ih
    have leads : (h.filters.get f).next = some g := by rw [node, FilterKind.next_linked]
    refine ⟨f :: nodes, line.cons behind.chain known leads older, ?_, ?_⟩
    · rw [List.map_cons, List.cons_append, same, node, FilterKind.kind_linked]
    · intro other member
      rcases List.mem_cons.1 member with rfl | member
      · exact ⟨new, g, by rw [node, FilterKind.kind_linked]⟩
      · exact made other member

/-- Further chains are composed, and nothing else is done to filters. -/
inductive Composing (h : Host) : Host → Prop
  | start : Composing h h
  | moved {mid later : Host} (before : Composing h mid) (same : later.filters = mid.filters) :
    Composing h later
  | composed {mid : Host} {p : ProviderRef} {x : ExtensionsRef} {c : ConfigurationRef}
    (before : Composing h mid) : Composing h ((wrapProvider p x c).after mid)

theorem Composing.extends (composing : h.Composing later) (terminated : h.Terminated) :
    h.filters.Extends later.filters := by
  induction composing with
  | start => exact .refl _
  | moved _ same ih =>
    rw [same]
    exact ih
  | @composed mid p x c before ih =>
    obtain ⟨_, _, grown, _, _, _, noted⟩ := wrapProvider_cases p x c (terminated.extended ih)
    exact (ih.trans grown.filters).trans noted.grown.filters

end Host

theorem joinNames_of_ne {names : List String} (named : ∀ name ∈ names, name ≠ "") :
    joinNames names = "->".intercalate names := by
  unfold joinNames
  cases names with
  | nil => rfl
  | cons first rest =>
    have nonempty : first.isEmpty = false := by
      rw [String.isEmpty_eq_false_iff]
      exact named first List.mem_cons_self
    rw [List.dropWhile_cons_of_neg (by rw [nonempty]; exact Bool.false_ne_true)]

/-- The chain around a provider is a line of new filters and the terminal: one filter for each name
of the address that can be used and comes after all names of the terminal, the last name first.
Those that keep an address and a context have those of the provider. However many chains are
composed later, the chain and what it tells of itself stay. -/
theorem wrapProvider_composes {wrapped : ProviderRef} (terminated : h.Terminated)
    (known : h.providers.Allocated p) (value : (wrapProvider p x c).value h = wrapped)
    (after : (wrapProvider p x c).after h = h') :
    ∃ head nodes, h'.providers.get wrapped =
        ⟨(h.providers.get p).backend, head :: (h.providers.get p).layers, some p⟩ ∧
      h'.Line head nodes ∧ (h'.chainOf head).Nodup ∧
      nodes.map (fun f => (h'.filters.get f).kind) =
        FilterKind.placed (h.kindsFor x (h.addressOf p)) ∧
      (∀ f ∈ nodes, ¬h.filters.Allocated f ∧ f ≠ terminal ∧
        ((h'.filters.get f).kind.keepsContext = true →
          (h'.filters.get f).context = some c ∧ (h'.filters.get f).url = some (h.addressOf p))) ∧
      h'.chainInfo head = joinNames
        ((FilterKind.placed (h.kindsFor x (h.addressOf p))).map FilterKind.name ++
          [FilterKind.terminal.name]) ∧
      ((∀ kind ∈ FilterKind.placed (h.kindsFor x (h.addressOf p)), kind.name ≠ "") →
        h'.chainInfo head = "->".intercalate
          ((FilterKind.placed (h.kindsFor x (h.addressOf p))).map FilterKind.name ++
            [FilterKind.terminal.name])) ∧
      ∀ later, h'.Composing later → later.chainOf head = h'.chainOf head ∧
        (∀ f ∈ h'.chainOf head, later.filters.get f = h'.filters.get f) ∧
        later.chainInfo head = h'.chainInfo head := by
  obtain ⟨grown, _, _, _, head, stands, composed⟩ := wrapProvider_spec x c terminated known
  rw [after] at grown composed
  rw [after, value] at stands
  rw [FilterKind.stack_terminal] at composed
  obtain ⟨nodes, line, same, made⟩ := composed.line
  have kinds := List.append_cancel_right same
  have info : h'.chainInfo head = joinNames
      ((FilterKind.placed (h.kindsFor x (h.addressOf p))).map FilterKind.name ++
        [FilterKind.terminal.name]) := by
    have stays := terminated.extended grown.filters
    unfold chainInfo
    rw [line.chainOf, List.map_append, ← kinds, List.map_map, List.map_singleton, stays.node]
    rfl
  refine ⟨head, nodes, stands, line, line.nodup, kinds, fun f member => ?_, info, fun named => ?_,
    fun later composing => ?_⟩
  · obtain ⟨new, next, node⟩ := made f member
    refine ⟨new, fun same => new (same ▸ terminated.known), fun keeps => ?_⟩
    rw [node, FilterKind.linked, if_pos keeps]
    exact ⟨rfl, rfl⟩
  · rw [info, joinNames_of_ne]
    intro name member
    rcases List.mem_append.1 member with placed | last
    · obtain ⟨kind, there, rfl⟩ := List.mem_map.1 placed
      exact named kind there
    · rw [List.mem_singleton.1 last]
      decide
  · have more := composing.extends (terminated.extended grown.filters)
    have chain := composed.chain
    have chainOf := chain.chainOf_extended more
    have unchanged : ∀ f ∈ h'.chainOf head, later.filters.get f = h'.filters.get f :=
      fun f member => more.get f (chain.known_of_mem member)
    refine ⟨chainOf, unchanged, ?_⟩
    unfold chainInfo
    rw [chainOf, List.map_congr_left fun f member => by rw [unchanged f member]]

def Host.layered (names : String) : Host :=
  { furnished { Extensions.builtIn with
      filters := .ofList [("a", some (some (.recording "a"))), ("b", some (some (.recording "b"))),
        ("last", some (some .terminal)), ("empty", none), ("null", some none),
        ("inert", some (some (.inert "inert"))), ("unbound", some (some (.unbound "unbound"))),
        ("boom", some (some (.throwing "boom" .unknown)))] }
      .empty [⟨"mrpc", "127.0.0.1", 8100, "p", "", .ofList [(Url.filterKey, names)]⟩] with
    backends := Store.empty.add (.scriptedAt .firstPath ⟨0⟩)
    providers := Store.empty.add ⟨⟨0⟩, [], none⟩ }

theorem wrapProvider_composes_layered :
    let h := Host.layered "a, last, b, unknown, empty, null, inert, unbound, b"
    let h' := (wrapProvider ⟨0⟩ ⟨0⟩ ⟨0⟩).after h
    ∃ head nodes, h'.Line head nodes ∧
      nodes.map (fun f => (h'.filters.get f).kind) = [.recording "b", .recording "b"] ∧
      h'.chainInfo head = "b->b->lastEndPointFilter" := by
  intro h h'
  obtain ⟨head, nodes, _, line, _, kinds, _, info, _⟩ := wrapProvider_composes (h := h)
    ⟨Nat.zero_lt_one, rfl⟩ Nat.zero_lt_one rfl rfl
  have placed : FilterKind.placed (h.kindsFor ⟨0⟩ (h.addressOf ⟨0⟩)) =
      [.recording "b", .recording "b"] := by
    decide +kernel
  rw [placed] at kinds info
  exact ⟨head, nodes, line, kinds, info.trans (by decide)⟩

end RpcHost
