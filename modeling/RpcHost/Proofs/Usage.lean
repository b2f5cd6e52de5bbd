import RpcHost.Proofs.Withdrawal
/-!
What becomes of an exporter that its owner uses in any order. Whether it exports, whether it lets
traffic through and which provider it holds follows from what was done to it, and from that what
an export comes to.
-/
namespace RpcHost

open Attempt Host

/-- What the owner of an exporter does to it, and the code that an export ends with. -/
inductive Deed where
  | attached (p : ProviderRef)
  | redirected (u : UrlRef)
  | tried (status : Status)
  | withdrew
  | switched (available : Bool)
  deriving DecidableEq, Repr

namespace Deed

def exports? : Deed → Option Bool
  | tried .ok => some true
  | withdrew => some false
  | _ => none

def opens? : Deed → Option Bool
  | tried .ok => some true
  | switched available => some available
  | _ => none

def provides? : Deed → Option (Option ProviderRef)
  | attached p => some (some p)
  | _ => none

/-- What the last of the deeds that bear on it makes of a value. -/
def latest {α : Type} (reads : Deed → Option α) (before : α) (deeds : List Deed) : α :=
  deeds.foldl (fun a deed => (reads deed).getD a) before

theorem latest_snoc {α : Type} (reads : Deed → Option α) (before : α) (deeds : List Deed)
    (deed : Deed) :
    latest reads before (deeds ++ [deed]) = (reads deed).getD (latest reads before deeds) := by
  unfold latest
  rw [List.foldl_append]
  rfl

theorem latest_append {α : Type} (reads : Deed → Option α) (a : α) (before after : List Deed) :
    latest reads a (before ++ after) = latest reads (latest reads a before) after :=
  List.foldl_append

theorem latest_exports {deeds : List Deed} (kept : withdrew ∉ deeds) :
    latest exports? true deeds = true := by
  induction deeds with
  | nil => rfl
  | cons deed rest ih =>
    have other : withdrew ≠ deed := List.ne_of_not_mem_cons kept
    have still : (exports? deed).getD true = true := by
      cases deed with
      | withdrew => exact absurd rfl other
      | tried status => cases status <;> rfl
      | _ => rfl
    show latest exports? ((exports? deed).getD true) rest = true
    rw [still]
    exact ih (List.not_mem_of_not_mem_cons kept)

end Deed

inductive Done (e : ExporterRef) : Deed → Host → Host → Prop
  | attached (h : Host) (p : ProviderRef) :
    Done e (.attached p) h ((setExporterProvider e (some p)).after h)
  | redirected (h : Host) (u : UrlRef) :
    Done e (.redirected u) h ((setExporterUrl e (some u)).after h)
  | tried {h h' : Host} {endpoint : Option EndpointRef} {x : ExtensionsRef}
    {c : ConfigurationRef} {status : Status} (ends : (exportBy e endpoint x c).Yields h status h') :
    Done e (.tried status) h h'
  | withdrew {h h' : Host} {status : Status} (ends : (unexport e).Yields h status h') :
    Done e .withdrew h h'
  | switched (h : Host) (available : Bool) :
    Done e (.switched available) h ((setAvailable e available).after h)

/-- An exporter from its making on. Between the deeds of its owner anything else may happen. -/
inductive Usage (e : ExporterRef) (start : Host) : List Deed → Host → Prop
  | start (new : start.exporters.get e = .fresh) : Usage e start [] start
  | elsewhere {deeds : List Deed} {h h' : Host} (before : Usage e start deeds h)
    (kept : h'.exporters.get e = h.exporters.get e) : Usage e start deeds h'
  | did {deeds : List Deed} {deed : Deed} {h h' : Host} (before : Usage e start deeds h)
    (done : Done e deed h h') : Usage e start (deeds ++ [deed]) h'

/-- The exporter is what the deeds make of a new one. -/
structure Host.Reflects (h : Host) (e : ExporterRef) (deeds : List Deed) : Prop where
  exported : (h.exporters.get e).exported = Deed.latest Deed.exports? false deeds
  available : (h.exporters.get e).available = Deed.latest Deed.opens? false deeds
  provider : (h.exporters.get e).provider = Deed.latest Deed.provides? none deeds
  url : (h.exporters.get e).exported = true → ∃ u, (h.exporters.get e).url = some u

variable {h h' start : Host} {e : ExporterRef} {deeds : List Deed} {deed : Deed}
  {endpoint : Option EndpointRef} {x : ExtensionsRef} {c : ConfigurationRef} {status : Status}

namespace Host

theorem Reflects.of_exporter (reflects : h.Reflects e deeds)
    (kept : h'.exporters.get e = h.exporters.get e) : h'.Reflects e deeds := by
  obtain ⟨exported, available, provider, url⟩ := reflects
  refine ⟨?_, ?_, ?_, ?_⟩ <;> rw [kept]
  · exact exported
  · exact available
  · exact provider
  · exact url

theorem Reflects.snoc {exporter : Exporter} (reflects : h.Reflects e deeds)
    (now : h'.exporters.get e = exporter)
    (exported : exporter.exported = deed.exports?.getD (h.exporters.get e).exported)
    (available : exporter.available = deed.opens?.getD (h.exporters.get e).available)
    (provider : exporter.provider = deed.provides?.getD (h.exporters.get e).provider)
    (url : exporter.exported = true → ∃ u, exporter.url = some u) :
    h'.Reflects e (deeds ++ [deed]) := by
  subst now
  refine ⟨?_, ?_, ?_, url⟩
  · rw [Deed.latest_snoc, exported, reflects.exported]
  · rw [Deed.latest_snoc, available, reflects.available]
  · rw [Deed.latest_snoc, provider, reflects.provider]

theorem Reflects.idle (reflects : h.Reflects e deeds)
    (kept : h'.exporters.get e = h.exporters.get e) (silent : deed.exports? = none)
    (closed : deed.opens? = none) (bare : deed.provides? = none) :
    h'.Reflects e (deeds ++ [deed]) := by
  refine reflects.snoc kept ?_ ?_ ?_ reflects.url
  · rw [silent]; rfl
  · rw [closed]; rfl
  · rw [bare]; rfl

end Host

theorem reflects_tried (reflects : h.Reflects e deeds)
    (ends : (exportBy e endpoint x c).Yields h status h') :
    h'.Reflects e (deeds ++ [.tried status]) := by
  have announcement := exportBy_announcement h e endpoint x c
  rw [ends] at announcement
  cases announcement with
  | already _ logged =>
    obtain ⟨_, _, rfl⟩ := logged
    exact reflects.idle rfl rfl rfl rfl
  | unattached _ _ logged =>
    obtain ⟨_, _, rfl⟩ := logged
    exact reflects.idle rfl rfl rfl rfl
  | nameless _ _ _ logged =>
    obtain ⟨_, _, rfl⟩ := logged
    exact reflects.idle rfl rfl rfl rfl
  | accepted _ _ _ _ announced _ =>
    have exporter := congrArg (Store.get · e) announced.exporters
    simp only [Host.announced, Store.get_modify_self] at exporter
    exact reflects.snoc exporter rfl rfl rfl fun _ => ⟨_, rfl⟩

theorem reflects_withdrew (reflects : h.Reflects e deeds)
    (ends : (unexport e).Yields h status h') : h'.Reflects e (deeds ++ [.withdrew]) := by
  cases exported : (h.exporters.get e).exported with
  | false =>
    obtain ⟨-, rfl⟩ := (unexport_idle exported).unique ends
    exact reflects.snoc rfl exported rfl rfl reflects.url
  | true =>
    obtain ⟨u, url⟩ := reflects.url exported
    rcases unexport_asks exported url with ⟨_, _, run, _, exporters, _⟩ | ⟨_, _, fails⟩
    · obtain ⟨-, rfl⟩ := ends.unique run
      have exporter := congrArg (Store.get · e) exporters
      simp only [Store.get_modify_self] at exporter
      exact reflects.snoc exporter rfl rfl rfl fun _ => ⟨u, url⟩
    · cases ends.symm.trans fails

theorem Done.reflects (done : Done e deed h h') (reflects : h.Reflects e deeds) :
    h'.Reflects e (deeds ++ [deed]) := by
  cases done with
  | attached => exact reflects.snoc (Store.get_modify_self ..) rfl rfl rfl reflects.url
  | redirected _ u => exact reflects.snoc (Store.get_modify_self ..) rfl rfl rfl fun _ => ⟨u, rfl⟩
  | tried ends => exact reflects_tried reflects ends
  | withdrew ends => exact reflects_withdrew reflects ends
  | switched => exact reflects.snoc (Store.get_modify_self ..) rfl rfl rfl reflects.url

namespace Usage

theorem reflects (usage : Usage e start deeds h) : h.Reflects e deeds := by
  induction usage with
  | start new =>
    refine ⟨?_, ?_, ?_, ?_⟩ <;> rw [new]
    · rfl
    · rfl
    · rfl
    · intro exported
      cases exported
  | elsewhere _ kept ih => exact ih.of_exporter kept
  | did _ done ih => exact done.reflects ih

theorem idle_before {before after : List Deed} (usage : Usage e start deeds h)
    (tried : deeds = before ++ .tried .ok :: after) :
    Deed.latest Deed.exports? false before = false := by
  induction usage generalizing after with
  | start => simp at tried
  | elsewhere _ _ ih => exact ih tried
  | @did deeds deed h h' usage done ih =>
    -- the successful try is the last deed, or one of those before it
    rcases List.eq_nil_or_concat after with rfl | ⟨rest, last, rfl⟩
    · obtain ⟨rfl, same⟩ := List.append_inj' tried rfl
      cases same
      cases done with
      | @tried _ _ endpoint x c _ ends =>
        have announcement := exportBy_announcement h e endpoint x c
        rw [ends] at announcement
        cases announcement with
        | accepted idle => rw [← usage.reflects.exported, idle]
    · refine @ih rest ?_
      rw [List.concat_eq_append, ← List.cons_append, ← List.append_assoc] at tried
      exact (List.append_inj' tried rfl).1

end Usage

namespace Host

def verdict (h : Host) (e : ExporterRef) : Status :=
  if (h.exporters.get e).exported then .alreadyExported
  else
    match (h.exporters.get e).provider with
    | none => .noProvider
    | some p => if h.namesRegistries p then .ok else .registryNotFound

theorem verdict_already (exported : (h.exporters.get e).exported = true) :
    h.verdict e = .alreadyExported := if_pos exported

theorem verdict_unattached (idle : (h.exporters.get e).exported = false)
    (detached : (h.exporters.get e).provider = none) : h.verdict e = .noProvider := by
  simp [verdict, idle, detached]

theorem verdict_attached {p : ProviderRef} (idle : (h.exporters.get e).exported = false)
    (attached : (h.exporters.get e).provider = some p) :
    h.verdict e = if h.namesRegistries p then .ok else .registryNotFound := by
  simp [verdict, idle, attached]

/-- What an export leaves that ends with a code. One that is refused leaves lines in the log at
most, and marks the URL where this names no registry: no registry is looked up, and none is asked.
One that succeeds keeps the registries that took the address, and asks each once. -/
def Concluded (h : Host) (e : ExporterRef) (endpoint : Option EndpointRef) (x : ExtensionsRef)
    (c : ConfigurationRef) (h' : Host) : Status → Prop
  | .ok => ∃ p, (h.exporters.get e).provider = some p ∧
    h'.exporters = h.exporters.modify e (fun exporter => { exporter with
      endpoint
      url := some (h.addressOf p)
      registries := (h.fatesOf x c p).filterMap Fate.taker?
      exported := true
      available := true }) ∧
    Consulted ((h.fatesOf x c p).filterMap (Fate.call? (h.announcedAs p))) h h'
  | .registryNotFound => ∃ p, (h.exporters.get e).provider = some p ∧
    Host.Logged { h with urls := h.urls.modify (h.addressOf p) Url.asService } h'
  | _ => h.Logged h'

end Host

/-- After any deeds of its owner the last of them that bear on it tell whether an exporter exports,
whether it lets traffic through and which provider it holds. An export then ends with the code of
the first check that fails, or with success, if no fault escapes from it. -/
theorem Usage.obeys (usage : Usage e start deeds h) :
    h.Reflects e deeds ∧ ∀ endpoint x c,
      (∃ h', (exportBy e endpoint x c).Yields h (h.verdict e) h' ∧
        h.Concluded e endpoint x c h' (h.verdict e)) ∨
      h.verdict e = .ok ∧ ∃ fault h', (exportBy e endpoint x c).Fails h fault h' := by
  refine ⟨usage.reflects, fun endpoint x c => ?_⟩
  have announcement := exportBy_announcement h e endpoint x c
  generalize ends : (exportBy e endpoint x c).ending h = ending at announcement
  cases announcement with
  | already exported logged =>
    rw [verdict_already exported]
    exact Or.inl ⟨_, ends, logged⟩
  | unattached idle detached logged =>
    rw [verdict_unattached idle detached]
    exact Or.inl ⟨_, ends, logged⟩
  | nameless idle attached lacks logged =>
    rw [verdict_attached idle attached, lacks]
    exact Or.inl ⟨_, ends, _, attached, logged⟩
  | accepted idle attached named _ announced asked =>
    rw [verdict_attached idle attached, named]
    exact Or.inl ⟨_, ends, _, attached, announced.exporters, asked⟩
  | broken idle attached named =>
    rw [verdict_attached idle attached, named]
    exact Or.inr ⟨rfl, _, _, ends⟩

def Host.newcomer : Host := { staged with exporters := Store.empty.add .fresh }

def Host.equipped : Host := (setExporterProvider ⟨0⟩ (some ⟨0⟩)).after newcomer

def Host.launched : Host := (exportBy ⟨0⟩ (some ⟨0⟩) ⟨0⟩ ⟨0⟩).after equipped

theorem Host.usage_launched : Usage ⟨0⟩ newcomer [.attached ⟨0⟩, .tried .ok] launched :=
  .did (.did (.start rfl) (.attached newcomer ⟨0⟩))
    (.tried (yields_of_toOption (by decide +kernel)))

theorem Usage.obeys_launched : ∃ h, Usage ⟨0⟩ Host.newcomer
      [.attached ⟨0⟩, .tried .ok, .switched false] h ∧
    (h.exporters.get ⟨0⟩).exported = true ∧ (h.exporters.get ⟨0⟩).available = false ∧
    ∃ h', (exportBy ⟨0⟩ none ⟨0⟩ ⟨0⟩).Yields h .alreadyExported h' ∧ h.Logged h' := by
  have usage := Usage.did Host.usage_launched (.switched launched false)
  obtain ⟨reflects, tries⟩ := Usage.obeys usage
  have exported := reflects.exported
  refine ⟨_, usage, exported, reflects.available, ?_⟩
  have ends := tries none ⟨0⟩ ⟨0⟩
  rw [verdict_already exported] at ends
  rcases ends with ends | ⟨absurd, _⟩
  · exact ends
  · cases absurd

/-- An exporter that succeeds twice was taken back in between. There is no more to it: what was
taken back exports again. -/
theorem Usage.exports_anew (usage : Usage e start deeds h) :
    (∀ before between after,
      deeds = before ++ .tried .ok :: between ++ .tried .ok :: after → .withdrew ∈ between) ∧
    ∀ endpoint x c h' p, (unexport e).Yields h .ok h' → (h.exporters.get e).provider = some p →
      h'.namesRegistries p = true →
      (∀ fate ∈ h'.fatesOf x c p, fate.Passes) →
      ∃ h'', (exportBy e endpoint x c).Yields h' .ok h'' ∧
        (h''.exporters.get e).exported = true := by
  constructor
  · intro before between after twice
    refine Decidable.byContradiction fun kept => ?_
    have idle := usage.idle_before twice
    rw [Deed.latest_append] at idle
    exact Bool.false_ne_true (idle.symm.trans (Deed.latest_exports kept))
  · intro endpoint x c h' p ends attached named passes
    have withdrawn := reflects_withdrew usage.reflects ends
    have idle : (h'.exporters.get e).exported = false := by
      rw [withdrawn.exported, Deed.latest_snoc]
      rfl
    have still : (h'.exporters.get e).provider = some p := by
      rw [withdrawn.provider, Deed.latest_snoc, ← attached, usage.reflects.provider]
      rfl
    obtain ⟨h'', again, announced, _⟩ := exportBy_passes endpoint idle still named passes
    have exporter := congrArg (Store.get · e) announced.exporters
    simp only [Host.announced, Store.get_modify_self] at exporter
    exact ⟨h'', again, by rw [exporter]⟩

theorem Usage.exports_anew_launched : ∃ h' h'',
    (unexport ⟨0⟩).Yields Host.launched .ok h' ∧
      (exportBy ⟨0⟩ none ⟨0⟩ ⟨0⟩).Yields h' .ok h'' := by
  have ends : (unexport ⟨0⟩).Yields launched .ok ((unexport ⟨0⟩).after launched) :=
    yields_of_toOption (by decide +kernel)
  obtain ⟨h'', again, _⟩ := (Usage.exports_anew Host.usage_launched).2 none ⟨0⟩ ⟨0⟩ _ ⟨0⟩ ends
    (by decide +kernel) (by decide +kernel) (by decide +kernel)
  exact ⟨_, h'', ends, again⟩

/-- An exporter that was taken back exports a second time. -/
theorem Usage.exports_twice : ∃ h,
    Usage ⟨0⟩ Host.newcomer [.attached ⟨0⟩, .tried .ok, .withdrew, .tried .ok] h ∧
      (h.exporters.get ⟨0⟩).exported = true := by
  have ends : (unexport ⟨0⟩).Yields launched .ok ((unexport ⟨0⟩).after launched) :=
    yields_of_toOption (by decide +kernel)
  have again : Done ⟨0⟩ (.tried .ok) ((unexport ⟨0⟩).after launched)
      ((exportBy ⟨0⟩ none ⟨0⟩ ⟨0⟩).after ((unexport ⟨0⟩).after launched)) :=
    .tried (yields_of_toOption (by decide +kernel))
  exact ⟨_, .did (.did Host.usage_launched (.withdrew ends)) again, by decide +kernel⟩

end RpcHost
