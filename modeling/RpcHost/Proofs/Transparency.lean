import RpcHost.Proofs.Nesting
import RpcHost.Proofs.Numerals
/-!
The access log changes nothing but the log. A call through filters ends as the call through the
others does, in answers that read the same, and all that is done to providers and by the other
filters is the same. What goes back through an access log leaves one record, and a fault leaves
none.
-/
namespace RpcHost

open Attempt Host

variable {a b c h mid later origin : Host} {p w w' : ProviderRef} {q : Option RequestRef}
  {call call' next next' : Attempt (Option Response)}
  {v v' v'' : Except Fault (Option Response)} {answer : Option Response} {fault : Fault}

/-- Responses that read the same. -/
structure Response.ReadsAs (r s : Response) : Prop where
  rid : r.rid = s.rid
  result : r.result = s.result
  hasFailure : r.hasFailure = s.hasFailure
  failure : r.failure.value = s.failure.value
  gzipSize : r.gzipSize = s.gzipSize
  processTime : r.processTime = s.processTime

namespace Response.ReadsAs

variable {r s t : Response}

theorem refl (r : Response) : r.ReadsAs r := ⟨rfl, rfl, rfl, rfl, rfl, rfl⟩

theorem symm (same : r.ReadsAs s) : s.ReadsAs r :=
  ⟨same.rid.symm, same.result.symm, same.hasFailure.symm, same.failure.symm, same.gzipSize.symm,
    same.processTime.symm⟩

theorem trans (first : r.ReadsAs s) (second : s.ReadsAs t) : r.ReadsAs t :=
  ⟨first.rid.trans second.rid, first.result.trans second.result,
    first.hasFailure.trans second.hasFailure, first.failure.trans second.failure,
    first.gzipSize.trans second.gzipSize, first.processTime.trans second.processTime⟩

theorem failureSeen (r : Response) : r.failureSeen.ReadsAs r :=
  ⟨rfl, rfl, r.hasFailure_failureSeen, r.failure.value_seen, rfl, rfl⟩

end Response.ReadsAs

/-- Calls that end alike: in the same fault, without an answer, or in answers that read the same. -/
inductive EndsAs : Except Fault (Option Response) → Except Fault (Option Response) → Prop
  | fails (fault : Fault) : EndsAs (.error fault) (.error fault)
  | silent : EndsAs (.ok none) (.ok none)
  | answers {r s : Response} (same : r.ReadsAs s) : EndsAs (.ok (some r)) (.ok (some s))

namespace EndsAs

theorem refl (v : Except Fault (Option Response)) : EndsAs v v := by
  cases v with
  | error fault => exact .fails fault
  | ok answer =>
    cases answer with
    | none => exact .silent
    | some r => exact .answers (.refl r)

theorem symm (same : EndsAs v v') : EndsAs v' v := by
  cases same with
  | fails fault => exact .fails fault
  | silent => exact .silent
  | answers same => exact .answers same.symm

theorem trans (first : EndsAs v v') (second : EndsAs v' v'') : EndsAs v v'' := by
  cases first with
  | fails fault => exact second
  | silent => exact second
  | answers same =>
    cases second with
    | answers also => exact .answers (same.trans also)

theorem failureSeen (answer : Option Response) :
    EndsAs (.ok (answer.map Response.failureSeen)) (.ok answer) := by
  cases answer with
  | none => exact .silent
  | some r => exact .answers (.failureSeen r)

end EndsAs

/-- States that differ at most in what was logged and in which requests have been looked at. -/
structure Host.Twin (a b : Host) : Prop where
  rest : ∃ requests screen files, b = { a with requests, screen, files }
  fresh : a.requests.fresh = b.requests.fresh
  same : ∀ q, (a.requests.get q).Same (b.requests.get q)

namespace Host.Twin

theorem refl (a : Host) : a.Twin a := ⟨⟨_, _, _, rfl⟩, rfl, fun _ => .refl _⟩

theorem symm (twin : a.Twin b) : b.Twin a := by
  obtain ⟨⟨_, _, _, rfl⟩, fresh, same⟩ := twin
  exact ⟨⟨_, _, _, rfl⟩, fresh.symm, fun q => (same q).symm⟩

theorem trans (first : a.Twin b) (second : b.Twin c) : a.Twin c := by
  obtain ⟨⟨_, _, _, rfl⟩, fresh, same⟩ := first
  obtain ⟨⟨_, _, _, rfl⟩, fresh', same'⟩ := second
  exact ⟨⟨_, _, _, rfl⟩, fresh.trans fresh', fun q => (same q).trans (same' q)⟩

theorem logged (logged : a.Logged b) : a.Twin b := by
  obtain ⟨_, _, rfl⟩ := logged
  exact ⟨⟨_, _, _, rfl⟩, rfl, fun _ => .refl _⟩

theorem edited {edit edit' : Request → Request} {q : RequestRef} (twin : a.Twin b)
    (same : (edit (a.requests.get q)).Same (edit' (b.requests.get q))) :
    Host.Twin { a with requests := a.requests.modify q edit }
      { b with requests := b.requests.modify q edit' } := by
  obtain ⟨⟨_, _, _, rfl⟩, fresh, others⟩ := twin
  refine ⟨⟨_, _, _, rfl⟩, fresh, fun other => ?_⟩
  show ((a.requests.modify q edit).get other).Same ((Store.modify _ q edit').get other)
  rw [Store.get_modify, Store.get_modify]
  split
  · exact same
  · exact others other

theorem added (twin : a.Twin b) (r : Request) :
    Host.Twin { a with requests := a.requests.add r } { b with requests := b.requests.add r } := by
  obtain ⟨⟨requests, _, _, rfl⟩, fresh, same⟩ := twin
  have next : a.requests.next = requests.next := congrArg Handle.index fresh
  refine ⟨⟨_, _, _, rfl⟩, ?_, fun q => ?_⟩
  · show (⟨a.requests.next + 1⟩ : RequestRef) = ⟨requests.next + 1⟩
    rw [next]
  · show ((a.requests.add r).get q).Same ((requests.add r).get q)
    rw [Store.get_add, Store.get_add, ← show a.requests.fresh = requests.fresh from fresh]
    split
    · exact .refl r
    · exact same q

theorem marked {mark : Request → Request} (marks : ∀ r, (mark r).Same r) (a : Host)
    (q : RequestRef) : a.Twin { a with requests := a.requests.modify q mark } := by
  refine ⟨⟨_, _, _, rfl⟩, rfl, fun other => ?_⟩
  show (a.requests.get other).Same ((a.requests.modify q mark).get other)
  rw [Store.get_modify]
  split
  · rename_i here
    rw [here]
    exact (marks _).symm
  · exact .refl _

theorem after_requestInfo (a : Host) (q : Option RequestRef) :
    a.Twin ((requestInfo q).after a) := by
  cases q with
  | none => exact .refl a
  | some q => exact .marked Request.Same.infoSeen a q

theorem after_writeLog (a : Host) (level : Level) (pieces : List String) :
    a.Twin ((writeLog level pieces).after a) :=
  .logged (writeLog_logged level pieces a)

variable (twin : a.Twin b)

include twin

theorem journal : a.journal = b.journal := by
  obtain ⟨⟨_, _, _, rfl⟩, _, _⟩ := twin
  rfl

theorem backends : a.backends = b.backends := by
  obtain ⟨⟨_, _, _, rfl⟩, _, _⟩ := twin
  rfl

end Host.Twin

/-- What the backend does goes by its own state and by what a request reads as: from requests that
read the same it remembers the same, ends the call the same way and leaves what reads the same. -/
def Behaviour.Discreet (behaviour : Behaviour) : Prop :=
  ∀ path firstPath memory (r s : Request), r.Same s →
    let one := behaviour.react ⟨path, firstPath, memory, some r⟩
    let other := behaviour.react ⟨path, firstPath, memory, some s⟩
    one.memory = other.memory ∧ one.outcome = other.outcome ∧ (one.edit r).Same (other.edit s)

def Backend.Discreet (b : Backend) : Prop :=
  ∀ behaviour first calls memory service,
    b.engine = .scripted behaviour first calls memory service → behaviour.Discreet

/-- The providers that a call of `p` may come to: `p`, and those that a table has. -/
def Host.CallReaches (h : Host) (p p' : ProviderRef) : Prop :=
  p' = p ∨ ∃ t path, (h.tables.get t).find? path = some p'

structure Host.Descends (h h' : Host) : Prop where
  providers : h'.providers = h.providers
  routes : ∀ t path p, (h'.tables.get t).find? path = some p → (h.tables.get t).find? path = some p
  discreet : ∀ x, (h.backends.get x).Discreet → (h'.backends.get x).Discreet

namespace Host.Descends

theorem refl (h : Host) : h.Descends h := ⟨rfl, fun _ _ _ => id, fun _ => id⟩

theorem congr (descends : origin.Descends a) (providers : b.providers = a.providers)
    (tables : b.tables = a.tables) (backends : b.backends = a.backends) : origin.Descends b := by
  refine ⟨providers.trans descends.providers, ?_, ?_⟩
  · rw [tables]
    exact descends.routes
  · rw [backends]
    exact descends.discreet

theorem twin (descends : origin.Descends a) (twin : a.Twin b) : origin.Descends b := by
  obtain ⟨⟨_, _, _, rfl⟩, _, _⟩ := twin
  exact descends.congr rfl rfl rfl

theorem lasting (h : Host) : Lasting h.Descends (fun _ => True) where
  noted descends noted := by
    obtain ⟨_, _, _, rfl⟩ := noted.written
    exact descends.congr rfl rfl rfl
  requested descends := descends.congr rfl rfl rfl
  called {a x behaviour first _ _ service} descends engine calls' memory' := by
    refine ⟨descends.providers, descends.routes, fun other discreet => ?_⟩
    have before := descends.discreet other discreet
    show ((a.backends.modify x _).get other).Discreet
    rw [Store.get_modify]
    split
    · rename_i here
      rintro _ _ _ _ _ ⟨⟩
      rw [here] at before
      exact before _ _ _ _ _ engine
    · exact before
  withdrawing _ _ := trivial
  erased {a table} descends _ path := by
    refine ⟨descends.providers, fun t other p route => descends.routes t other p ?_,
      descends.discreet⟩
    have found : ((a.tables.modify table fun routes => routes.erase path).get t).find? other =
        some p := route
    rw [Store.get_modify] at found
    split at found
    · rename_i here
      rw [Keyed.find?_erase] at found
      split at found
      · cases found
      · rwa [here]
    · exact found

end Host.Descends

structure Host.Twins (origin a b : Host) : Prop where
  twin : a.Twin b
  descends : origin.Descends a

namespace Host.Twins

theorem symm (twins : origin.Twins a b) : origin.Twins b a :=
  ⟨twins.twin.symm, twins.descends.twin twins.twin⟩

theorem trans (first : origin.Twins a b) (second : origin.Twins b c) : origin.Twins a c :=
  ⟨first.twin.trans second.twin, first.descends⟩

theorem backend (twins : origin.Twins a b) {x : BackendRef} :
    a.backends.get x = b.backends.get x := by
  rw [twins.twin.backends]

/-- Calls in twins are alike: they look at no log, and at requests for what these read as. -/
theorem heeding (discreet : ∀ p', origin.CallReaches p p' → (origin.backendOf p').Discreet) :
    Heeding origin.Twins (origin.CallReaches p)
      (fun x => ∃ p', origin.CallReaches p p' ∧ x = (origin.providers.get p').backend)
      (fun _ => True) where
  methods := by
    rintro a b ⟨⟨⟨_, _, _, rfl⟩, _, _⟩, _⟩
    rfl
  tables := by
    rintro a b ⟨⟨⟨_, _, _, rfl⟩, _, _⟩, _⟩
    rfl
  urls := by
    rintro a b ⟨⟨⟨_, _, _, rfl⟩, _, _⟩, _⟩ u
    exact .refl _
  routed twins route := .inr ⟨_, _, twins.descends.routes _ _ _ route⟩
  backing {a b p'} twins reached := ⟨p', reached, by rw [twins.descends.providers]⟩
  provider := by
    rintro a b p ⟨⟨⟨_, _, _, rfl⟩, _, _⟩, _⟩ _
    refine ⟨rfl, Eq.symm ?_⟩
    apply kindsOf_congr <;> rfl
  backend twins _ := twins.backend
  called := by
    rintro a b x _ _ _ _ _ ⟨⟨⟨_, _, _, rfl⟩, fresh, same⟩, descends⟩ _ engine calls' memory'
    exact ⟨⟨⟨_, _, _, rfl⟩, fresh, same⟩,
      (Descends.lasting origin).called descends engine calls' memory'⟩
  withdrawing _ _ _ := trivial
  erased := by
    rintro a b table ⟨⟨⟨_, _, _, rfl⟩, fresh, same⟩, descends⟩ _ path
    exact ⟨⟨⟨_, _, _, rfl⟩, fresh, same⟩, (Descends.lasting origin).erased descends trivial path⟩
  reacting := by
    rintro a b x behaviour first calls memory service twins ⟨p', reached, rfl⟩ engine q path
      firstPath
    have reads : behaviour.Discreet :=
      twins.descends.discreet _ (discreet p' reached) _ _ _ _ _ engine
    cases q with
    | none => exact ⟨rfl, rfl, twins⟩
    | some q =>
      obtain ⟨remembered, outcome, same⟩ := reads path firstPath memory _ _ (twins.twin.same q)
      exact ⟨remembered, outcome, twins.twin.edited same, twins.descends.congr rfl rfl rfl⟩
  logged level pieces pieces' twins :=
    ⟨(Host.Twin.after_writeLog _ level pieces).symm.trans
      (twins.twin.trans (.after_writeLog _ level pieces')),
      (Descends.lasting origin).noted twins.descends (writeLog_within level pieces _)⟩
  emitted := by
    rintro a b event _ ⟨⟨⟨_, _, _, rfl⟩, fresh, same⟩, descends⟩
    exact ⟨⟨⟨_, _, _, rfl⟩, fresh, same⟩, descends.congr rfl rfl rfl⟩
  requests twins q := twins.twin.same q
  fresh twins := twins.twin.fresh
  marked q marks twins :=
    ⟨(Host.Twin.marked marks _ q).symm.trans (twins.twin.trans (.marked marks _ q)),
      twins.descends.congr rfl rfl rfl⟩
  added r twins := ⟨twins.twin.added r, twins.descends.congr rfl rfl rfl⟩

end Host.Twins

def Agree (origin : Host) (call : Attempt (Option Response)) (a : Host)
    (call' : Attempt (Option Response)) (b : Host) : Prop :=
  EndsAs (call.outcome a) (call'.outcome b) ∧ origin.Twins (call.after a) (call'.after b)

namespace Agree

variable {α : Type} {call'' : Attempt (Option Response)}

theorem of_alike (alike : Attempt.Alike origin.Twins call a call' b) :
    Agree origin call a call' b := by
  obtain ⟨same, twins⟩ := alike
  rw [Agree, same]
  exact ⟨.refl _, twins⟩

theorem congr (agree : Agree origin next a next' b) (one : call.ending a = next.ending a)
    (other : call'.ending b = next'.ending b) : Agree origin call a call' b := by
  unfold Agree outcome Attempt.after
  rw [one, other]
  exact agree

theorem symm (agree : Agree origin call a call' b) : Agree origin call' b call a :=
  ⟨agree.1.symm, agree.2.symm⟩

theorem trans (first : Agree origin call a call' b) (second : Agree origin call' b call'' c) :
    Agree origin call a call'' c :=
  ⟨first.1.trans second.1, first.2.trans second.2⟩

theorem pure {v v' : Option Response} (same : EndsAs (.ok v) (.ok v')) (twins : origin.Twins a b) :
    Agree origin (pure v) a (pure v') b := ⟨same, twins⟩

theorem bind {k k' : Option Response → Attempt (Option Response)}
    (first : Agree origin call a call' b)
    (rest : ∀ v v' a b, EndsAs (.ok v) (.ok v') → origin.Twins a b →
      Agree origin (k v) a (k' v') b) :
    Agree origin (call >>= k) a (call' >>= k') b := by
  obtain ⟨ends, twins⟩ := first
  unfold Agree outcome
  rw [after_bind, after_bind, ending_bind, ending_bind]
  generalize call.outcome a = v at ends ⊢
  generalize call'.outcome b = v' at ends ⊢
  cases ends with
  | fails fault => exact ⟨.fails fault, twins⟩
  | silent => exact rest _ _ _ _ .silent twins
  | answers same => exact rest _ _ _ _ (.answers same) twins

theorem lift_bind {m m' : Step α} {k k' : α → Attempt (Option Response)}
    (first : Step.Alike origin.Twins m a m' b)
    (rest : ∀ v a b, origin.Twins a b → Agree origin (k v) a (k' v) b) :
    Agree origin (liftM m >>= k) a (liftM m' >>= k') b := by
  obtain ⟨same, twins⟩ := first
  unfold Agree outcome
  rw [after_lift_bind, after_lift_bind, ending_lift_bind, ending_lift_bind, same]
  exact rest _ _ _ twins

end Agree

section Chains

variable {P : ProviderRef → Prop} {B : BackendRef → Prop} {may : TableRef → Prop}

theorem FilterKind.apply_agree (heeding : Heeding origin.Twins P B may) (kind : FilterKind)
    (q : Option RequestRef) (calls : ∀ a b, origin.Twins a b → Agree origin call a call' b)
    (goes : ∀ a b, origin.Twins a b → Agree origin next a next' b) (other : kind ≠ .accessLog)
    (twins : origin.Twins a b) :
    Agree origin (kind.apply q call next) a (kind.apply q call' next') b := by
  cases kind with
  | recording name =>
    refine .lift_bind (heeding.emit_alike rfl twins) fun _ a b twins => ?_
    refine .bind (goes a b twins) fun v v' a b same twins => ?_
    refine .lift_bind (heeding.emit_alike rfl twins) fun _ a b twins => ?_
    exact .pure same twins
  | accessLog => exact absurd rfl other
  | terminal => exact calls a b twins
  | throwing name fault => exact ⟨.fails fault, twins⟩
  | answering name failure =>
    refine .lift_bind (heeding.requestRid_alike q twins) fun rid a b twins => ?_
    exact .pure (.refl _) twins
  | repeating name => exact .bind (goes a b twins) fun _ _ a b _ twins => goes a b twins
  | inert name => exact goes a b twins
  | unbound name => exact goes a b twins

def accessRecord (info : String) (cost : Nat) (success : Bool) : Record :=
  ⟨.info, Record.messageOf ["access: ", info, ", cost=", toString cost, "ms, success=",
    if success then "true" else "false", "\n"]⟩

theorem FilterKind.accessLog_yields (call : Attempt (Option Response))
    (run : next.Yields a answer mid) :
    (FilterKind.apply .accessLog q call next).Yields a (answer.map Response.failureSeen)
      (((requestInfo q).after mid).record
        (accessRecord ((requestInfo q).value mid) (mid.elapsed mid.screen mid.files)
          (succeeded answer))) := by
  unfold Yields FilterKind.apply
  rw [run.ending_bind, ending_lift_bind, ending_lift_bind]
  cases q <;> rfl

theorem FilterKind.accessLog_fails (call : Attempt (Option Response))
    (run : next.Fails a fault mid) :
    (FilterKind.apply .accessLog q call next).Fails a fault mid := by
  unfold Fails FilterKind.apply
  rw [run.ending_bind]

theorem FilterKind.accessLog_agree (q : Option RequestRef) (call : Attempt (Option Response))
    (agree : Agree origin next a next' b) :
    Agree origin (FilterKind.apply .accessLog q call next) a next' b := by
  obtain ⟨ends, twins⟩ := agree
  unfold Agree
  rcases yields_or_fails next a with ⟨answer, run⟩ | ⟨fault, run⟩
  · obtain ⟨gives, leaves⟩ := yields_iff.1 (accessLog_yields (q := q) call run)
    have looked (record : Record) :
        (next.after a).Twin (((requestInfo q).after (next.after a)).record record) :=
      (Twin.after_requestInfo _ q).trans (.logged (logged_record _ record))
    rw [(yields_iff.1 run).1] at ends
    rw [gives, leaves]
    exact ⟨(EndsAs.failureSeen answer).trans ends, (looked _).symm.trans twins.twin,
      twins.descends.twin (looked _)⟩
  · obtain ⟨gives, leaves⟩ := fails_iff.1 (accessLog_fails (q := q) call run)
    rw [(fails_iff.1 run).1] at ends
    rw [gives, leaves]
    exact ⟨ends, twins⟩

theorem callThrough_agree (heeding : Heeding origin.Twins P B may) (q : Option RequestRef)
    (calls : ∀ a b, origin.Twins a b → Agree origin call a call b) (kinds : List FilterKind)
    (twins : origin.Twins a b) :
    Agree origin (callThrough q call kinds) a
      (callThrough q call (kinds.filter (· ≠ .accessLog))) b := by
  induction kinds generalizing a b with
  | nil => exact calls a b twins
  | cons kind rest ih =>
    by_cases logs : kind = .accessLog
    · -- nothing stands for it on the other side, so it has to agree with what is behind it
      subst logs
      rw [List.filter_cons_of_neg (by simp)]
      exact FilterKind.accessLog_agree q call (ih twins)
    · rw [List.filter_cons_of_pos (by simpa using logs)]
      exact kind.apply_agree heeding q calls (fun _ _ => ih) logs twins

end Chains

namespace FilterKind

/-- Access logs can be left out before the chain is composed, or after. -/
theorem filter_placed (kinds : List FilterKind) :
    (placed kinds).filter (· ≠ .accessLog) = placed (kinds.filter (· ≠ .accessLog)) := by
  have terminal (kind : FilterKind) :
      (!decide (kind ≠ .accessLog) || decide (kind ≠ .terminal)) = decide (kind ≠ .terminal) := by
    cases kind <;> rfl
  unfold placed
  rw [← List.filter_reverse, List.takeWhile_filter, List.filter_filter, List.filter_filter]
  simp only [terminal, Bool.and_comm]

theorem filter_filterMap {made : String → Option FilterKind}
    (registered : made FilterKind.accessLog.name = some .accessLog) (names : List String) :
    (names.filterMap made).filter (· ≠ .accessLog) =
      ((names.filter (· ≠ FilterKind.accessLog.name)).filterMap made).filter (· ≠ .accessLog) := by
  induction names with
  | nil => rfl
  | cons name rest ih =>
    by_cases logs : name = FilterKind.accessLog.name
    · subst logs
      rw [List.filterMap_cons_some registered, List.filter_cons_of_neg (by simp), ih,
        List.filter_cons_of_neg (by simp)]
    · rw [List.filter_cons_of_pos (by simpa using logs), List.filterMap_cons, List.filterMap_cons]
      cases made name with
      | none => exact ih
      | some kind =>
        simp only [List.filter_cons]
        rw [ih]

end FilterKind

/-- The provider `w` was once made around `p`, from the filters that the names stood for. -/
inductive Host.Wraps (later : Host) (made : String → Option FilterKind) (p : ProviderRef) :
    List String → ProviderRef → Prop
  | made {h : Host} (x : ExtensionsRef) (c : ConfigurationRef) (terminated : h.Terminated)
    (known : h.providers.Allocated p) (makers : (h.extensions.get x).filterNamed = made)
    (providers : ((wrapProvider p x c).after h).providers.Extends later.providers)
    (filters : ((wrapProvider p x c).after h).filters.Extends later.filters) :
    Wraps later made p ((h.urls.get (h.addressOf p)).listParam Url.filterKey)
      ((wrapProvider p x c).value h)

section Wraps

variable {made : String → Option FilterKind} {names names' : List String}

/-- What a call of the provider meets before it reaches `p`. -/
def FilterKind.line (made : String → Option FilterKind) (names : List String) : List FilterKind :=
  placed (names.filterMap made) ++ [.terminal]

theorem Host.Wraps.chain (wraps : later.Wraps made p names w) :
    ∃ head, later.providers.get w =
        ⟨(later.providers.get p).backend, head :: (later.providers.get p).layers, some p⟩ ∧
      later.Chain head (FilterKind.line made names) := by
  cases wraps with
  | @made h x c terminated known makers providers filters =>
    -- the provider and its chain are as they were made: later ones have references of their own
    obtain ⟨grown, _, new, _, head, stands, composed⟩ := wrapProvider_spec x c terminated known
    rw [FilterKind.stack_terminal] at composed
    refine ⟨head, ?_, ?_⟩
    · rw [providers.get _ new, stands, providers.get _ (grown.providers.allocated known),
        grown.providers.get _ known]
    · have chain := composed.chain.extended filters
      unfold kindsFor at chain
      rwa [makers] at chain

theorem Host.Wraps.ending (wraps : later.Wraps made p names w) (forwarding : Forwarding)
    (q : Option RequestRef) :
    (callProviderWith forwarding w q).ending later =
      (callThrough q (callLayers q (callBackend forwarding (later.providers.get p).backend q)
        (later.kindsOf p)) (FilterKind.line made names)).ending later := by
  obtain ⟨head, around, chain⟩ := wraps.chain
  have outermost : later.kindsOf w = FilterKind.line made names :: later.kindsOf p := by
    unfold kindsOf
    rw [around, List.map_cons, chain.kinds_chainOf]
  rw [ending_callProviderWith, outermost, around, callLayers]

theorem FilterKind.filter_line (registered : made FilterKind.accessLog.name = some .accessLog)
    (inserted : names'.filter (· ≠ FilterKind.accessLog.name) =
      names.filter (· ≠ FilterKind.accessLog.name)) :
    (line made names').filter (· ≠ .accessLog) = (line made names).filter (· ≠ .accessLog) := by
  unfold line
  rw [List.filter_append, List.filter_append, filter_placed, filter_placed,
    filter_filterMap registered names', inserted, ← filter_filterMap registered names]

/-- Providers with the same filters around one provider, but for access logs, agree. -/
theorem Host.Wraps.agree (plain : later.Wraps made p names w)
    (registered : made FilterKind.accessLog.name = some .accessLog)
    (inserted : names'.filter (· ≠ FilterKind.accessLog.name) =
      names.filter (· ≠ FilterKind.accessLog.name))
    (logged : later.Wraps made p names' w')
    (discreet : ∀ p', later.CallReaches p p' → (later.backendOf p').Discreet) (depth : Nat)
    (q : Option RequestRef) :
    Agree later (callAtDepth depth w q) later (callAtDepth depth w' q) later := by
  have heeding := Twins.heeding discreet
  obtain ⟨forwarding, forwards, onward⟩ := heeding.forwarding_alike depth
  have calls (a b : Host) (twins : later.Twins a b) := Agree.of_alike <|
    heeding.callLayers_alike q (fun _ _ => heeding.callBackend_alike onward
      ⟨p, .inl rfl, rfl⟩ q) (later.kindsOf p) twins
  have first := callThrough_agree heeding q calls (FilterKind.line made names)
    ⟨.refl later, .refl later⟩
  have second := callThrough_agree heeding q calls (FilterKind.line made names')
    ⟨.refl later, .refl later⟩
  rw [FilterKind.filter_line registered inserted] at second
  rw [forwards]
  exact (first.trans second.symm).congr (plain.ending forwarding q) (logged.ending forwarding q)

end Wraps

namespace Text

variable {cs front back : List Char} {limit : Nat}

end Text

namespace Host

def overseen (filter : FilterKind) (behaviour : Behaviour) : Host :=
  { furnished { Extensions.builtIn with
      filters := .ofList [("a", some (some filter)), ("accessLog", some (some .accessLog))] }
      .empty [⟨"mrpc", "127.0.0.1", 8100, "p", "", .ofList [(Url.filterKey, "a")]⟩] with
    backends := Store.empty.add (.scriptedAt behaviour ⟨0⟩)
    providers := Store.empty.add ⟨⟨0⟩, [], none⟩
    requests := Store.empty.add { Request.empty with rid := "1", service := .text "p" } }

def relisted (filter : FilterKind) (behaviour : Behaviour) : Host :=
  (modifyUrl ⟨0⟩ fun u => u.putParam Url.filterKey "accessLog, a, accessLog").after
    ((wrapProvider ⟨0⟩ ⟨0⟩ ⟨0⟩).after (overseen filter behaviour))

end Host

def Request.asking (method : String) : Request :=
  ⟨"1", .text "p", .text method, .absent, none, none⟩

namespace Host

def audited (log : Log) : Host :=
  (wrapProvider ⟨0⟩ ⟨0⟩ ⟨0⟩).after { furnished .builtIn .empty
      [⟨"mrpc", "127.0.0.1", 8100, "p", "", .ofList [(Url.filterKey, "accessLog")]⟩] with
    backends := Store.empty.add (.scriptedAt .ownPath ⟨0⟩)
    providers := Store.empty.add ⟨⟨0⟩, [], none⟩
    log }

def asked (h : Host) (method : String) : Host :=
  { h with requests := Store.empty.add (.asking method) }

def unkept : Log := { Log.start with sink := ⟨3⟩ }

end Host

end RpcHost
