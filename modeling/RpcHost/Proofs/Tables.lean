import RpcHost.Proofs.Asking
import RpcHost.Proofs.Calls
import RpcHost.Proofs.Runs
/-!
What a dispatch table holds. From an empty table on, the provider at a path is the one that was put
there last, as long as the table was not cleared and that very provider not taken out since. Taking
out any other provider changes nothing, so the late removal of a provider that was replaced does
not touch the one in its place.
-/
namespace RpcHost

open Attempt Host

variable {h h' mid : Host} {t : TableRef} {p other : ProviderRef} {path : String}

inductive Move where
  | cleared
  | added (path : String) (p : ProviderRef)
  | removed (p : ProviderRef)
  deriving DecidableEq, Repr

namespace Move

def Leaves (path : String) (p : ProviderRef) : Move → Prop
  | cleared => False
  | added other _ => other ≠ path
  | removed other => other ≠ p

/-- The provider was the last to be put at the path, and has not been taken away from there. -/
def Stands (moves : List Move) (path : String) (p : ProviderRef) : Prop :=
  ∃ before after, moves = before ++ added path p :: after ∧
    ∀ move ∈ after, move.Leaves path p

variable {moves : List Move} {move : Move}

theorem not_stands_nil : ¬Stands [] path p := by
  rintro ⟨before, after, same, _⟩
  simp at same

theorem stands_snoc : Stands (moves ++ [move]) path p ↔
    move = added path p ∨ Stands moves path p ∧ move.Leaves path p := by
  constructor
  · rintro ⟨before, after, same, since⟩
    rcases List.eq_nil_or_concat after with rfl | ⟨after, last, rfl⟩
    · obtain ⟨_, here⟩ := List.append_inj' same rfl
      exact Or.inl (List.singleton_inj.1 here)
    · have split : moves ++ [move] = (before ++ added path p :: after) ++ [last] := by
        simpa using same
      obtain ⟨earlier, here⟩ := List.append_inj' split rfl
      obtain rfl := List.singleton_inj.1 here
      exact Or.inr ⟨⟨before, after, earlier, fun move member => since move (by simp [member])⟩,
        since move (by simp)⟩
  · rintro (rfl | ⟨⟨before, after, rfl, since⟩, leaves⟩)
    · exact ⟨moves, [], rfl, fun _ member => by cases member⟩
    · refine ⟨before, after ++ [move], by simp, fun other member => ?_⟩
      rcases List.mem_append.1 member with earlier | last
      · exact since other earlier
      · rw [List.mem_singleton.1 last]
        exact leaves

theorem stands_removals (gone : List ProviderRef) :
    Stands (moves ++ gone.map removed) path p ↔ Stands moves path p ∧ p ∉ gone := by
  induction gone generalizing moves with
  | nil => simp
  | cons other rest ih =>
    rw [List.map_cons, List.append_cons, ih, stands_snoc]
    simp only [reduceCtorEq, false_or, Leaves, List.mem_cons, not_or, and_assoc]
    exact and_congr_right fun _ => and_congr_left fun _ => ne_comm

end Move

def Event.unroutes? (t : TableRef) : Event → Option String
  | unrouted table path => if table = t then some path else none
  | _ => none

def Host.sinceThen (h h' : Host) : List Event := h'.journal.drop h.journal.length

def Host.tookOut (t : TableRef) (h h' : Host) : List ProviderRef :=
  ((h.sinceThen h').filterMap (Event.unroutes? t)).filterMap (h.tables.get t).find?

/-- Paths of providers stay as they are, and nothing but what the journal tells of was taken out of
the table. -/
structure Host.Thinned (t : TableRef) (h h' : Host) : Prop where
  paths : ∀ p, h'.pathOf p = h.pathOf p
  journal : ∃ events, h'.journal = h.journal ++ events ∧
    (∀ path, path ∉ events.filterMap (Event.unroutes? t) →
      (h'.tables.get t).find? path = (h.tables.get t).find? path) ∧
    ∀ path ∈ events.filterMap (Event.unroutes? t), (h'.tables.get t).find? path = none ∧
      ∃ p, (h.tables.get t).find? path = some p ∧ h.pathOf p = path

namespace Host.Thinned

theorem of_eq (tables : h'.tables = h.tables) (paths : ∀ p, h'.pathOf p = h.pathOf p)
    {events : List Event} (journal : h'.journal = h.journal ++ events)
    (others : events.filterMap (Event.unroutes? t) = []) : h.Thinned t h' := by
  refine ⟨paths, events, journal, fun path _ => by rw [tables], fun path member => ?_⟩
  rw [others] at member
  cases member

instance : Course (Host.Thinned t) where
  refl h := of_eq rfl (fun _ => rfl) (List.append_nil _).symm rfl
  trans := by
    rintro h mid h' ⟨paths, before, grows, kept, gone⟩ ⟨paths', after, grows', kept', gone'⟩
    have back {path : String} {p : ProviderRef} (found : (mid.tables.get t).find? path = some p) :
        (h.tables.get t).find? path = some p := by
      by_cases member : path ∈ before.filterMap (Event.unroutes? t)
      · rw [(gone path member).1] at found
        cases found
      · rwa [← kept path member]
    refine ⟨fun p => (paths' p).trans (paths p), before ++ after, ?_, fun path absent => ?_,
      fun path member => ?_⟩
    · rw [grows', grows, List.append_assoc]
    · rw [List.filterMap_append, List.mem_append, not_or] at absent
      rw [kept' path absent.2, kept path absent.1]
    · rw [List.filterMap_append, List.mem_append] at member
      by_cases later : path ∈ after.filterMap (Event.unroutes? t)
      · obtain ⟨none, p, found, place⟩ := gone' path later
        exact ⟨none, p, back found, (paths p).symm.trans place⟩
      · obtain ⟨none, stood⟩ := gone path (member.resolve_right later)
        exact ⟨(kept' path later).trans none, stood⟩

theorem mem_tookOut (thinned : h.Thinned t h')
    (placed : ∀ path p, (h.tables.get t).find? path = some p → h.pathOf p = path)
    (found : (h.tables.get t).find? path = some p) :
    p ∈ h.tookOut t h' ↔ (h'.tables.get t).find? path = none := by
  obtain ⟨_, events, grows, kept, gone⟩ := thinned
  have since : h.sinceThen h' = events := by
    unfold sinceThen
    rw [grows, List.drop_left]
  unfold tookOut
  rw [since, List.mem_filterMap]
  constructor
  · rintro ⟨other, member, found'⟩
    obtain rfl : other = path := (placed other p found').symm.trans (placed path p found)
    exact (gone other member).1
  · intro none
    refine ⟨path, Classical.byContradiction fun absent => ?_, found⟩
    rw [kept path absent, found] at none
    cases none

theorem find?_eq_some_iff (thinned : h.Thinned t h')
    (placed : ∀ path p, (h.tables.get t).find? path = some p → h.pathOf p = path) :
    (h'.tables.get t).find? path = some p ↔
      (h.tables.get t).find? path = some p ∧ p ∉ h.tookOut t h' := by
  constructor
  · intro found
    have stood : (h.tables.get t).find? path = some p := by
      obtain ⟨_, events, _, kept, gone⟩ := thinned
      by_cases member : path ∈ events.filterMap (Event.unroutes? t)
      · rw [(gone path member).1] at found
        cases found
      · rwa [← kept path member]
    rw [thinned.mem_tookOut placed stood, found]
    exact ⟨stood, by simp⟩
  · rintro ⟨stood, stays⟩
    rw [thinned.mem_tookOut placed stood] at stays
    obtain ⟨_, events, _, kept, gone⟩ := thinned
    by_cases member : path ∈ events.filterMap (Event.unroutes? t)
    · exact absurd (gone path member).1 stays
    · rwa [kept path member]

end Host.Thinned

theorem removeProvider_cases (t : TableRef) (p : ProviderRef) (h : Host) :
    (h.tables.get t).find? (h.pathOf p) = some p ∧
      (removeProvider t p).after h = { h with
        tables := h.tables.modify t fun routes => routes.erase (h.pathOf p)
        journal := h.journal ++ [.unrouted t (h.pathOf p)] } ∨
    (h.tables.get t).find? (h.pathOf p) ≠ some p ∧ (removeProvider t p).after h = h := by
  unfold removeProvider
  rw [Step.after_bind, Step.value_get, Step.after_get]
  dsimp only
  split
  · rename_i stands
    exact Or.inl ⟨stands, rfl⟩
  · rename_i lacks
    exact Or.inr ⟨lacks, rfl⟩

theorem removeProvider_thinned (table : TableRef) (p : ProviderRef) :
    (removeProvider table p).Within (Thinned t) := by
  intro h
  rcases removeProvider_cases table p h with ⟨stands, leaves⟩ | ⟨_, leaves⟩
  · rw [leaves]
    refine ⟨fun _ => rfl, _, rfl, fun path absent => ?_, fun path member => ?_⟩
    · show ((h.tables.modify table _).get t).find? path = _
      rw [Store.get_modify]
      split
      · rename_i same
        subst same
        rw [Keyed.find?_erase]
        split
        · rename_i here
          exact absurd (by simp [Event.unroutes?, here]) absent
        · rfl
      · rfl
    · have here : table = t ∧ h.pathOf p = path := by simpa [Event.unroutes?] using member
      obtain ⟨rfl, rfl⟩ := here
      refine ⟨?_, p, stands, rfl⟩
      show ((h.tables.modify table _).get table).find? _ = _
      rw [Store.get_modify_self, Keyed.find?_erase_self]
  · rw [leaves]
    exact Course.refl h

theorem Host.thinned_permits : Permits (Host.Thinned t) where
  logged level pieces h := by
    obtain ⟨screen, files, leaves⟩ := writeLog_logged level pieces h
    rw [leaves]
    exact .of_eq rfl (fun _ => rfl) (List.append_nil _).symm rfl
  marked event mark h := by
    have journal : ((emit event).after h).journal = h.journal ++ [event] := rfl
    refine .of_eq rfl (fun _ => rfl) journal ?_
    cases event <;> first | rfl | cases mark
  requested h requests := .of_eq rfl (fun _ => rfl) (List.append_nil _).symm rfl
  counted {h x behaviour first _ _ service} engine calls' memory' := by
    refine .of_eq rfl (fun p => ?_) (List.append_nil _).symm rfl
    show (h.urls.get ((h.backends.modify x _).get (h.providers.get p).backend).url).path = _
    rw [Store.get_modify]
    split
    · rename_i here
      rw [← here]
      rfl
    · rfl
  withdrew _ p := removeProvider_thinned _ p _

def Host.Unswept (t : TableRef) (h h' : Host) : Prop :=
  (∀ b, ¬(h.backends.get b).engine.Withdraws t) →
    (∀ b, ¬(h'.backends.get b).engine.Withdraws t) ∧ h'.tables.get t = h.tables.get t

instance : Course (Host.Unswept t) where
  refl _ spares := ⟨spares, rfl⟩
  trans first second spares := by
    obtain ⟨between, same⟩ := first spares
    obtain ⟨after, same'⟩ := second between
    exact ⟨after, same'.trans same⟩

theorem Host.unswept_permits : Permits (Host.Unswept t) where
  logged level pieces h spares := by
    obtain ⟨screen, files, leaves⟩ := writeLog_logged level pieces h
    rw [leaves]
    exact ⟨spares, rfl⟩
  marked _ _ _ spares := ⟨spares, rfl⟩
  requested _ _ spares := ⟨spares, rfl⟩
  counted {h x behaviour first _ _ service} engine calls' memory' spares := by
    refine ⟨fun b => ?_, rfl⟩
    show ¬((h.backends.modify x _).get b).engine.Withdraws t
    rw [Store.get_modify]
    split
    · have before := spares x
      rw [engine] at before
      cases behaviour <;> exact before
    · exact spares b
  withdrew {h x table _ _ _ _} engine p spares := by
    have differ : t ≠ table := fun same => spares x (by rw [engine]; exact same.symm)
    rcases removeProvider_cases table p h with ⟨_, leaves⟩ | ⟨_, leaves⟩
    · rw [leaves]
      exact ⟨spares, Store.get_modify_ne _ differ _⟩
    · rw [leaves]
      exact ⟨spares, rfl⟩

/-- A table from when it was empty on, with what was done to it. Calls may take providers out. In
the meantime anything else may happen, as long as providers keep their paths while they are in the
table. Looking a provider up and counting them does nothing. -/
inductive Managed (t : TableRef) : List Move → Host → Prop
  | opened {h : Host} (empty : h.tables.get t = .empty) : Managed t [] h
  | cleared {moves : List Move} {h : Host} (before : Managed t moves h) :
    Managed t (moves ++ [.cleared]) ((clearTable t).after h)
  | added {moves : List Move} {h : Host} (before : Managed t moves h) (p : ProviderRef) :
    Managed t (moves ++ [.added (h.pathOf p) p]) ((addProvider t p).after h)
  | removed {moves : List Move} {h : Host} (before : Managed t moves h) (p : ProviderRef) :
    Managed t (moves ++ [.removed p]) ((removeProvider t p).after h)
  | called {moves : List Move} {h : Host} (before : Managed t moves h) (q : Option RequestRef) :
    Managed t (moves ++ (h.tookOut t ((dispatch t q).after h)).map .removed)
      ((dispatch t q).after h)
  | meanwhile {moves : List Move} {h h' : Host} (before : Managed t moves h)
    (table : h'.tables.get t = h.tables.get t)
    (paths : ∀ path p, (h.tables.get t).find? path = some p → h'.pathOf p = h.pathOf p) :
    Managed t moves h'

/-- The table has at each path the provider that stands there, and each of its providers has the
path that it is at. -/
structure Host.Tabulates (h : Host) (t : TableRef) (moves : List Move) : Prop where
  stands : ∀ path p, (h.tables.get t).find? path = some p ↔ Move.Stands moves path p
  placed : ∀ path p, (h.tables.get t).find? path = some p → h.pathOf p = path

variable {moves : List Move}

namespace Host.Tabulates

variable (tabulates : h.Tabulates t moves)

include tabulates

omit tabulates in
theorem cleared : ((clearTable t).after h).Tabulates t (moves ++ [.cleared]) := by
  have empty (path : String) : (((clearTable t).after h).tables.get t).find? path = none := by
    show ((h.tables.set t .empty).get t).find? path = none
    rw [Store.get_set_self, Keyed.find?_empty]
  constructor
  · intro path p
    rw [empty, Move.stands_snoc]
    simp [Move.Leaves]
  · intro path p found
    rw [empty] at found
    cases found

theorem added (p : ProviderRef) :
    ((addProvider t p).after h).Tabulates t (moves ++ [.added (h.pathOf p) p]) := by
  have routes (path : String) : (((addProvider t p).after h).tables.get t).find? path =
      if path = h.pathOf p then some p else (h.tables.get t).find? path := by
    show ((h.tables.modify t _).get t).find? path = _
    rw [Store.get_modify_self, Keyed.find?_insert]
  constructor
  · intro path other
    rw [routes, Move.stands_snoc, ← tabulates.stands]
    by_cases here : path = h.pathOf p
    · simp [here, Move.Leaves]
    · simp [here, Ne.symm here, Move.Leaves]
  · intro path other found
    rw [routes] at found
    split at found
    · rename_i here
      cases found
      exact here.symm
    · exact tabulates.placed path other found

theorem find?_removed (p : ProviderRef) :
    (((removeProvider t p).after h).tables.get t).find? path = some other ↔
      (h.tables.get t).find? path = some other ∧ other ≠ p := by
  rcases removeProvider_cases t p h with ⟨stands, leaves⟩ | ⟨lacks, leaves⟩
  · rw [leaves]
    show ((h.tables.modify t _).get t).find? path = some other ↔ _
    rw [Store.get_modify_self, Keyed.find?_erase]
    by_cases here : path = h.pathOf p
    · rw [if_pos here, here, stands]
      simp [eq_comm]
    · rw [if_neg here]
      refine ⟨fun found => ⟨found, ?_⟩, And.left⟩
      rintro rfl
      exact here (tabulates.placed path other found).symm
  · rw [leaves]
    refine ⟨fun found => ⟨found, ?_⟩, And.left⟩
    rintro rfl
    rw [tabulates.placed path other found] at lacks
    exact lacks found

theorem removed (p : ProviderRef) :
    ((removeProvider t p).after h).Tabulates t (moves ++ [.removed p]) := by
  constructor
  · intro path other
    rw [tabulates.find?_removed, tabulates.stands, Move.stands_snoc]
    simp [Move.Leaves, ne_comm]
  · intro path other found
    have paths := (removeProvider_thinned (t := t) t p h).paths other
    exact paths.trans (tabulates.placed path other (tabulates.find?_removed p |>.1 found).1)

theorem called (q : Option RequestRef) :
    ((dispatch t q).after h).Tabulates t
      (moves ++ (h.tookOut t ((dispatch t q).after h)).map .removed) := by
  have thinned := (Host.thinned_permits (t := t)).dispatch_within t q h
  constructor
  · intro path p
    rw [thinned.find?_eq_some_iff tabulates.placed, Move.stands_removals, tabulates.stands]
  · intro path p found
    rw [thinned.find?_eq_some_iff tabulates.placed] at found
    exact (thinned.paths p).trans (tabulates.placed path p found.1)

theorem meanwhile (table : h'.tables.get t = h.tables.get t)
    (paths : ∀ path p, (h.tables.get t).find? path = some p → h'.pathOf p = h.pathOf p) :
    h'.Tabulates t moves := by
  constructor
  · intro path p
    rw [table, tabulates.stands]
  · intro path p found
    rw [table] at found
    exact (paths path p found).trans (tabulates.placed path p found)

end Host.Tabulates

theorem Managed.tabulates (managed : Managed t moves h) : h.Tabulates t moves := by
  induction managed with
  | opened empty =>
    constructor
    · intro path p
      rw [empty, Keyed.find?_empty]
      exact iff_of_false (by simp) Move.not_stands_nil
    · intro path p found
      rw [empty, Keyed.find?_empty] at found
      cases found
  | cleared => exact .cleared
  | added _ p ih => exact ih.added p
  | removed _ p ih => exact ih.removed p
  | called _ q ih => exact ih.called q
  | meanwhile _ table paths ih => exact ih.meanwhile table paths

theorem Keyed.mem_keys_iff {α : Type} (m : Keyed α) (key : String) :
    key ∈ m.keys ↔ ∃ a, m.find? key = some a := by
  unfold keys find?
  simp only [List.mem_map, Entries.find?_eq_some_iff m.sorted]
  exact ⟨fun ⟨entry, member, same⟩ => ⟨entry.2, same ▸ member⟩, fun ⟨a, member⟩ =>
    ⟨_, member, rfl⟩⟩

theorem Keyed.nodup_keys {α : Type} (m : Keyed α) : m.keys.Nodup := by
  refine List.pairwise_map.2 (m.sorted.imp ?_)
  intro a b smaller same
  exact String.lt_irrefl _ (same ▸ smaller)

/-- A table has at each path the provider that was put there last, unless that very provider was
taken out since or the table was cleared. Taking out one that stands nowhere changes nothing, what
is done to one path leaves the others alone, and there are as many entries as paths that lead
anywhere. Calls only take out, and only where a backend does so. -/
theorem Managed.refines (managed : Managed t moves h) :
    (∀ path p, (h.tables.get t).find? path = some p ↔ Move.Stands moves path p) ∧
    (∀ p, (∀ path, ¬Move.Stands moves path p) → (removeProvider t p).after h = h) ∧
    (∀ p path, path ≠ h.pathOf p →
      (((addProvider t p).after h).tables.get t).find? path = (h.tables.get t).find? path ∧
      (((removeProvider t p).after h).tables.get t).find? path = (h.tables.get t).find? path) ∧
    (∃ paths : List String, paths.Nodup ∧ (h.tables.get t).size = paths.length ∧
      ∀ path, path ∈ paths ↔ ∃ p, Move.Stands moves path p) ∧
    ∀ q, (∀ b, ¬(h.backends.get b).engine.Withdraws t) →
      ((dispatch t q).after h).tables.get t = h.tables.get t ∧
        h.tookOut t ((dispatch t q).after h) = [] := by
  have tabulates := managed.tabulates
  refine ⟨tabulates.stands, fun p nowhere => ?_, fun p path elsewhere => ⟨?_, ?_⟩,
    ⟨(h.tables.get t).keys, Keyed.nodup_keys _, (List.length_map _).symm, fun path => ?_⟩,
    fun q spares => ?_⟩
  · rcases removeProvider_cases t p h with ⟨stands, _⟩ | ⟨_, leaves⟩
    · exact absurd ((tabulates.stands _ p).1 stands) (nowhere _)
    · exact leaves
  · show ((h.tables.modify t _).get t).find? path = _
    rw [Store.get_modify_self, Keyed.find?_insert_ne _ elsewhere]
  · rcases removeProvider_cases t p h with ⟨_, leaves⟩ | ⟨_, leaves⟩
    · rw [leaves]
      show ((h.tables.modify t _).get t).find? path = _
      rw [Store.get_modify_self, Keyed.find?_erase_ne _ elsewhere]
    · rw [leaves]
  · rw [Keyed.mem_keys_iff]
    exact exists_congr fun p => tabulates.stands path p
  · have same := ((Host.unswept_permits (t := t)).dispatch_within t q h spares).2
    have thinned := (Host.thinned_permits (t := t)).dispatch_within t q h
    refine ⟨same, List.eq_nil_iff_forall_not_mem.2 fun p member => ?_⟩
    obtain ⟨path, _, found⟩ := List.mem_filterMap.1 member
    rw [thinned.mem_tookOut tabulates.placed found, same, found] at member
    cases member

def Host.paired : Host :=
  { furnished .builtIn .empty [⟨"mrpc", "127.0.0.1", 1, "p", "", .empty⟩] with
    backends := (Store.empty.add (.standardAt ⟨0⟩)).add (.standardAt ⟨0⟩)
    providers := (Store.empty.add ⟨⟨0⟩, [], none⟩).add ⟨⟨1⟩, [], none⟩
    tables := Store.empty.add .empty }

/-- The late removal of a provider that was replaced leaves the one in its place. -/
theorem Managed.refines_paired :
    (((removeProvider ⟨0⟩ ⟨0⟩).after ((addProvider ⟨0⟩ ⟨1⟩).after
      ((addProvider ⟨0⟩ ⟨0⟩).after .paired))).tables.get ⟨0⟩).find? "p" = some ⟨1⟩ := by
  have managed := (((Managed.opened (t := ⟨0⟩) (h := .paired) rfl).added ⟨0⟩).added ⟨1⟩).removed ⟨0⟩
  refine (managed.refines.1 "p" ⟨1⟩).2 ⟨[.added "p" ⟨0⟩], [.removed ⟨0⟩], rfl, ?_⟩
  refine List.forall_mem_singleton.2 ?_
  show (⟨0⟩ : ProviderRef) ≠ ⟨1⟩
  decide

end RpcHost
