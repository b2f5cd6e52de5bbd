import Mathlib.Data.List.TakeWhile
import RpcHost.Proofs.Composition
import RpcHost.Proofs.Conversation
/-!
Calls through a composed chain. They are calls of the provider with the filters nested around it:
the one named last stands outermost, so it runs first.
-/
namespace RpcHost

open Attempt Host

variable {h h' mid later : Host} {c : ConfigurationRef} {u : UrlRef} {x : ExtensionsRef}
  {p wrapped : ProviderRef} {q : Option RequestRef} {kind : FilterKind} {kinds : List FilterKind}
  {call call' : Attempt (Option Response)} {answer : Option Response} {fault : Fault}
  {names : List String}

def FilterKind.around (kind : FilterKind) (q : Option RequestRef)
    (inner : Attempt (Option Response)) : Attempt (Option Response) := kind.apply q inner inner

/-- A call with filters around it, one after another: the last stands outermost. -/
def nest (q : Option RequestRef) (call : Attempt (Option Response)) (kinds : List FilterKind) :
    Attempt (Option Response) := kinds.foldl (fun inner kind => kind.around q inner) call

theorem nest_append (inner outer : List FilterKind) :
    nest q call (inner ++ outer) = nest q (nest q call inner) outer := List.foldl_append

theorem FilterKind.apply_of_ne (differ : kind ≠ .terminal) (q : Option RequestRef)
    (call next : Attempt (Option Response)) : kind.apply q call next = kind.around q next := by
  cases kind <;> first | rfl | exact absurd rfl differ

theorem FilterKind.placed_fresh (fresh : .terminal ∉ kinds) :
    placed kinds = (kinds.filter forwards).reverse := by
  have all : kinds.reverse.takeWhile (· ≠ .terminal) = kinds.reverse := by
    refine List.takeWhile_eq_self_iff.2 fun kind member => decide_eq_true fun same => fresh ?_
    rw [← same]
    exact List.mem_reverse.1 member
  unfold placed
  rw [all, List.filter_reverse]

theorem callThrough_reverse (fresh : .terminal ∉ kinds) :
    callThrough q call (kinds.reverse ++ [.terminal]) = nest q call kinds := by
  induction kinds using List.reverseRecOn with
  | nil => rfl
  | append_singleton kinds kind ih =>
    have differ : kind ≠ .terminal := fun same => fresh (by simp [same])
    have rest : .terminal ∉ kinds := fun member => fresh (List.mem_append_left _ member)
    rw [nest_append, List.reverse_append, List.reverse_singleton, List.singleton_append,
      List.cons_append, callThrough, ih rest, kind.apply_of_ne differ]
    rfl

theorem nest_congr (kinds : List FilterKind)
    (same : ∀ a, h.Called a → call.ending a = call'.ending a ∧ h.Called (call.after a)) :
    (nest q call kinds).ending h = (nest q call' kinds).ending h := by
  -- both nestings pass through one and the same state at each step
  let R (a b : Host) : Prop := a = b ∧ h.Called a
  have step {α : Type} (m : Step α) (keeps : ∀ a, h.Called a → h.Called (m.after a)) (a b : Host)
      (related : R a b) : Step.Alike R m a m b := by
    obtain ⟨rfl, called⟩ := related
    exact ⟨rfl, rfl, keeps a called⟩
  have rids (a : Host) (called : h.Called a) : h.Called ((requestRid q).after a) := by
    cases q <;> exact called
  have infos (a : Host) (called : h.Called a) : h.Called ((requestInfo q).after a) := by
    cases q with
    | none => exact called
    | some q => exact called.withRequests _
  have nested : ∀ a b, R a b → Alike R (nest q call kinds) a (nest q call' kinds) b := by
    have calls : ∀ a b, R a b → Alike R call a call' b := by
      rintro a _ ⟨rfl, called⟩
      obtain ⟨ends, keeps⟩ := same a called
      exact ⟨congrArg Prod.fst ends, congrArg Prod.snd ends, keeps⟩
    clear same
    induction kinds generalizing call call' with
    | nil => exact calls
    | cons kind rest ih =>
      refine ih fun a b related => kind.apply_alike q ?_ ?_ ?_ ?_ calls calls related
      · exact fun event a b other => step (emit event)
          (fun a called => called.noted (emit_within event other a)) a b
      · exact fun info answer => step (logAccess info answer)
          fun a called => called.noted (logAccess_within info answer a)
      · exact step _ rids
      · exact step _ infos
  obtain ⟨outcome, after, _⟩ := nested h h ⟨rfl, .refl h⟩
  exact Prod.ext outcome after

def Host.traced (h : Host) (events : List Event) : Host :=
  { h with journal := h.journal ++ events }

theorem Host.traced_traced (h : Host) (first second : List Event) :
    (h.traced first).traced second = h.traced (first ++ second) := by
  unfold traced
  rw [List.append_assoc]

theorem after_emit (event : Event) (h : Host) : (emit event).after h = h.traced [event] := rfl

/-- What recording filters write when a call comes in, the outermost first. -/
def entering (names : List String) : List Event := names.reverse.map .entered

def leaving (names : List String) : List Event := names.map .left

theorem entering_cons (name : String) (names : List String) :
    entering (name :: names) = entering names ++ [.entered name] := by
  unfold entering
  rw [List.reverse_cons, List.map_append]
  rfl

theorem recording_yields {name : String} (run : call.Yields (h.traced [.entered name]) answer mid) :
    (FilterKind.around (.recording name) q call).Yields h answer (mid.traced [.left name]) := by
  show Attempt.ending _ h = _
  unfold FilterKind.around FilterKind.apply
  rw [ending_lift_bind, after_emit, run.ending_bind, ending_lift_bind, after_emit]
  rfl

theorem recording_fails {name : String} (run : call.Fails (h.traced [.entered name]) fault mid) :
    (FilterKind.around (.recording name) q call).Fails h fault mid := by
  show Attempt.ending _ h = _
  unfold FilterKind.around FilterKind.apply
  rw [ending_lift_bind, after_emit, run.ending_bind]

/-- Recording filters all write when the call comes in and when its answer goes out. The call is
made once, and its answer is passed on. -/
theorem nest_recording_yields
    (run : call.Yields (h.traced (entering names)) answer mid) :
    (nest q call (names.map .recording)).Yields h answer (mid.traced (leaving names)) := by
  induction names generalizing call mid with
  | nil =>
    unfold Host.traced entering leaving at *
    simpa [nest] using run
  | cons name rest ih =>
    rw [entering_cons, ← traced_traced] at run
    have outer := ih (recording_yields (q := q) run)
    rwa [traced_traced] at outer

theorem nest_recording_fails (run : call.Fails (h.traced (entering names)) fault mid) :
    (nest q call (names.map .recording)).Fails h fault mid := by
  induction names generalizing call with
  | nil =>
    unfold Host.traced entering at run
    simpa [nest] using run
  | cons name rest ih =>
    rw [entering_cons, ← traced_traced] at run
    exact ih (recording_fails run)

theorem nest_throwing (inner : List FilterKind) (name : String) (fault : Fault)
    (names : List String) :
    (nest q call (inner ++ .throwing name fault :: names.map .recording)).Fails h fault
      (h.traced (entering names)) := by
  rw [nest_append]
  exact nest_recording_fails rfl

theorem nest_answering (inner : List FilterKind) (name : String) (failure : Failure)
    (names : List String) :
    (nest q call (inner ++ .answering name failure :: names.map .recording)).Yields h
      (some (.ofFailure ((requestRid q).value h) failure))
      (h.traced (entering names ++ leaving names)) := by
  rw [nest_append, ← traced_traced]
  refine nest_recording_yields ?_
  cases q <;> rfl

theorem callAtDepth_forwards (depth : Nat) :
    ∃ forwarding, callAtDepth depth = callProviderWith forwarding := by
  cases depth <;> exact ⟨_, rfl⟩

theorem ending_callProviderWith (forwarding : Forwarding) (p : ProviderRef)
    (q : Option RequestRef) (h : Host) : (callProviderWith forwarding p q).ending h =
      (callLayers q (callBackend forwarding (h.providers.get p).backend q)
        (h.kindsOf p)).ending h := by
  unfold callProviderWith
  rw [ending_get_bind]
  rfl

theorem callProviderWith_called (forwarding : Forwarding) (p : ProviderRef)
    (q : Option RequestRef) {a : Host} (called : h.Called a) :
    (callProviderWith forwarding p q).ending a =
      (callLayers q (callBackend forwarding (h.providers.get p).backend q)
        (h.kindsOf p)).ending a := by
  have same : a.providers.get p = h.providers.get p := by rw [called.providers]
  rw [ending_callProviderWith, kindsOf_congr called.filters same, same]

theorem callAtDepth_nested {head : FilterRef} (depth : Nat) (fresh : .terminal ∉ kinds)
    (around : h.providers.get wrapped =
      ⟨(h.providers.get p).backend, head :: (h.providers.get p).layers, some p⟩)
    (chain : h.Chain head (FilterKind.placed kinds ++ [.terminal])) :
    (callAtDepth depth wrapped q).ending h =
      (nest q (callAtDepth depth p q) (kinds.filter FilterKind.forwards)).ending h := by
  obtain ⟨forwarding, forwards⟩ := callAtDepth_forwards depth
  have linked : .terminal ∉ kinds.filter FilterKind.forwards := fun member =>
    fresh (List.mem_of_mem_filter member)
  have outermost : h.kindsOf wrapped =
      (FilterKind.placed kinds ++ [.terminal]) :: h.kindsOf p := by
    unfold kindsOf
    rw [around, List.map_cons, chain.kinds_chainOf]
  have inner {a : Host} (called : h.Called a) := callProviderWith_called forwarding p q called
  have keeps {a : Host} (called : h.Called a) :
      h.Called ((callProviderWith forwarding p q).after a) := by
    rw [← forwards]
    exact (Called.lasting h).callAtDepth depth p q called
  rw [forwards, ending_callProviderWith, outermost, around, callLayers,
    FilterKind.placed_fresh fresh, callThrough_reverse linked]
  refine nest_congr _ fun a called => ⟨(inner called).symm, ?_⟩
  have after := congrArg Prod.snd (inner called)
  show h.Called ((callLayers q (callBackend forwarding (h.providers.get p).backend q)
    (h.kindsOf p)).ending a).2
  rw [← after]
  exact keeps called

/-- A call of a provider with the filters of its address around it is a call of the provider with
these filters nested around it, the one named last outermost. Where the filters record, each of
them writes as the call comes in and as its answer goes out; a filter that throws or answers keeps
the call from those named before it. Where there are none the provider itself is called. -/
theorem wrapProvider_nests (terminated : h.Terminated) (known : h.providers.Allocated p)
    (fresh : .terminal ∉ h.kindsFor x (h.addressOf p))
    (value : (wrapProvider p x c).value h = wrapped) (after : (wrapProvider p x c).after h = h')
    (usable : (h.kindsFor x (h.addressOf p)).filter FilterKind.forwards = kinds)
    (providers : h'.providers.Extends later.providers) (filters : h'.filters.Extends later.filters)
    (depth : Nat) (q : Option RequestRef) :
    (callAtDepth depth wrapped q).ending later =
        (nest q (callAtDepth depth p q) kinds).ending later ∧
      (∀ names, kinds = names.map .recording →
        (∀ answer mid, (callAtDepth depth p q).Yields (later.traced (entering names)) answer mid →
          (callAtDepth depth wrapped q).Yields later answer (mid.traced (leaving names))) ∧
        ∀ fault mid, (callAtDepth depth p q).Fails (later.traced (entering names)) fault mid →
          (callAtDepth depth wrapped q).Fails later fault mid) ∧
      (∀ inner name fault names, kinds = inner ++ .throwing name fault :: names.map .recording →
        (callAtDepth depth wrapped q).Fails later fault (later.traced (entering names))) ∧
      (∀ inner name failure names,
        kinds = inner ++ .answering name failure :: names.map .recording →
          (callAtDepth depth wrapped q).Yields later
            (some (.ofFailure ((requestRid q).value later) failure))
            (later.traced (entering names ++ leaving names))) ∧
      (kinds = [] →
        (callAtDepth depth wrapped q).ending later = (callAtDepth depth p q).ending later) := by
  obtain ⟨grown, _, made, _, head, stands, composed⟩ := wrapProvider_spec x c terminated known
  rw [after] at grown made composed
  rw [after, value] at stands
  rw [value] at made
  rw [FilterKind.stack_terminal] at composed
  have around : later.providers.get wrapped =
      ⟨(later.providers.get p).backend, head :: (later.providers.get p).layers, some p⟩ := by
    rw [providers.get _ made, stands, providers.get _ (grown.providers.allocated known),
      grown.providers.get _ known]
  have nested := callAtDepth_nested (q := q) depth fresh around (composed.chain.extended filters)
  rw [usable] at nested
  refine ⟨nested, fun names recording => ⟨fun answer mid run => ?_, fun fault mid run => ?_⟩,
    fun inner name fault names throws => ?_, fun inner name failure names answers => ?_,
    fun none => ?_⟩
  · subst recording
    exact nested.trans (nest_recording_yields run)
  · subst recording
    exact nested.trans (nest_recording_fails run)
  · subst throws
    exact nested.trans (nest_throwing inner name fault names)
  · subst answers
    exact nested.trans (nest_answering inner name failure names)
  · subst none
    exact nested

def Host.guarded : Host := .layered "a, boom, unknown, b, inert, b"

theorem wrapProvider_nests_guarded :
    ∃ h' wrapped, (wrapProvider ⟨0⟩ ⟨0⟩ ⟨0⟩).after .guarded = h' ∧
      (wrapProvider ⟨0⟩ ⟨0⟩ ⟨0⟩).value .guarded = wrapped ∧
      (callAtDepth 0 wrapped (some ⟨0⟩)).Fails h' .unknown
        (h'.traced [.entered "b", .entered "b"]) := by
  have fresh : .terminal ∉ Host.guarded.kindsFor ⟨0⟩ (Host.guarded.addressOf ⟨0⟩) := by
    decide +kernel
  have usable : (Host.guarded.kindsFor ⟨0⟩ (Host.guarded.addressOf ⟨0⟩)).filter
        FilterKind.forwards =
      [.recording "a"] ++ .throwing "boom" .unknown :: ["b", "b"].map .recording := by
    decide +kernel
  generalize after : (wrapProvider ⟨0⟩ ⟨0⟩ ⟨0⟩).after .guarded = h'
  generalize value : (wrapProvider ⟨0⟩ ⟨0⟩ ⟨0⟩).value .guarded = wrapped
  obtain ⟨_, _, throws, _⟩ := wrapProvider_nests (h := .guarded) ⟨Nat.zero_lt_one, rfl⟩
    Nat.zero_lt_one fresh value after usable (.refl _) (.refl _) 0 (some ⟨0⟩)
  exact ⟨h', wrapped, rfl, rfl, throws _ _ _ _ rfl⟩

end RpcHost
