import RpcHost.Proofs.Fates
import RpcHost.Proofs.Ledger
/-!
An export that offers an address under several names. It passes over the registries that are not
there and those that fail for a reason, and keeps the ones that took the address. A fault that
nobody catches breaks it off, and then it keeps none of them.
-/
namespace RpcHost

open Attempt Host

variable {h : Host} {x : ExtensionsRef} {c : ConfigurationRef}

namespace Host

def announcing (h : Host) (e : ExporterRef) (endpoint : Option EndpointRef) (p : ProviderRef) :
    Host :=
  { h with
    urls := h.urls.modify (h.addressOf p) Url.asService
    exporters := h.exporters.modify e fun exporter =>
      { exporter with endpoint, url := some (h.addressOf p) } }

def announced (h : Host) (e : ExporterRef) (endpoint : Option EndpointRef) (p : ProviderRef)
    (registries : List RegistryRef) : Host :=
  { h.announcing e endpoint p with
    exporters := h.exporters.modify e fun exporter =>
      { exporter with
        endpoint, url := some (h.addressOf p), registries, exported := true, available := true } }

variable {e : ExporterRef} {endpoint : Option EndpointRef} {p : ProviderRef}

/-- What comes of the names that the address of a provider lists. -/
def fatesOf (h : Host) (x : ExtensionsRef) (c : ConfigurationRef) (p : ProviderRef) : List Fate :=
  h.fates x c (h.announcedAs p) (h.registryNames p)

theorem matches_announcing : h.Matches x (h.announcing e endpoint p) :=
  .of_eq rfl rfl rfl (Url.like_modify h.urls (h.addressOf p))

theorem identity_announcing :
    ((h.announcing e endpoint p).urls.get (h.addressOf p)).identity = h.announcedAs p :=
  (Url.like_modify h.urls (h.addressOf p) (h.addressOf p)).identity

theorem listParam_announcing (h : Host) (e : ExporterRef) (endpoint : Option EndpointRef)
    (p : ProviderRef) :
    ((h.announcing e endpoint p).urls.get (h.addressOf p)).listParam Url.registryKey =
      h.registryNames p := by
  unfold announcing registryNames
  rw [Store.get_modify_self, Url.listParam_asService]

theorem announced_eq (registries : List RegistryRef) :
    h.announced e endpoint p registries = { h.announcing e endpoint p with
      exporters := (h.announcing e endpoint p).exporters.modify e fun exporter =>
        { exporter with registries, exported := true, available := true } } := by
  unfold announced announcing
  rw [Store.modify_modify]
  rfl

theorem Registering.withExporters {h h' : Host} (registering : h.Registering h')
    (exporters : Store .exporter Exporter) :
    Registering { h with exporters } { h' with exporters } := by
  obtain ⟨⟨_, _, _, _, _, rfl⟩, makers⟩ := registering
  exact ⟨⟨_, _, _, _, _, rfl⟩, makers⟩

end Host

section Export

variable {e : ExporterRef} {endpoint : Option EndpointRef} {p : ProviderRef}

theorem exportBy_passes (endpoint : Option EndpointRef)
    (idle : (h.exporters.get e).exported = false)
    (attached : (h.exporters.get e).provider = some p) (named : h.namesRegistries p = true)
    (passes : ∀ fate ∈ h.fatesOf x c p, fate.Passes) :
    ∃ h', (exportBy e endpoint x c).Yields h .ok h' ∧
      Registering (h.announced e endpoint p
        ((h.fatesOf x c p).filterMap Fate.taker?)) h' ∧
      Consulted ((h.fatesOf x c p).filterMap (Fate.call? (h.announcedAs p)))
        h h' := by
  generalize fates : h.fatesOf x c p = all at passes
  have same : (h.announcing e endpoint p).fates x c (h.announcedAs p) (h.registryNames p) = all :=
    (matches_announcing.fates _ _).trans fates
  rw [← same] at passes
  obtain ⟨mid, ends, asked⟩ := registerAll_passes (h.addressOf p) identity_announcing passes
  rw [same, ← listParam_announcing h e endpoint] at ends
  rw [same] at asked
  have registering := (registerAll_within _ _ _ _).leaves ends.after_eq
  obtain ⟨h', announced, noted⟩ := announce_yields
    (h := { h with urls := h.urls.modify (h.addressOf p) Url.asService }) endpoint x c ends
  refine ⟨h', (exportBy_offered endpoint x c idle attached named).trans announced, ?_, ?_⟩
  · rw [announced_eq, ← registering.exporters]
    exact Course.trans (registering.withExporters _) noted.registering
  · exact (asked.frame rfl rfl).quiet noted.uneventful

/-- The first name that does not pass breaks an export off. Nothing is kept of what took the
address before. -/
theorem exportBy_breaks {before after : List Fate} {r : Option RegistryRef} {fault : Fault}
    (endpoint : Option EndpointRef) (idle : (h.exporters.get e).exported = false)
    (attached : (h.exporters.get e).provider = some p) (named : h.namesRegistries p = true)
    (breaks : h.fatesOf x c p = before ++ .broken r fault :: after)
    (passes : ∀ fate ∈ before, fate.Passes) :
    ∃ h', (exportBy e endpoint x c).Fails h fault h' ∧
      Registering (h.announcing e endpoint p) h' ∧
      Consulted ((before ++ [Fate.broken r fault]).filterMap (Fate.call? (h.announcedAs p)))
        h h' := by
  have same : (h.announcing e endpoint p).fates x c (h.announcedAs p) (h.registryNames p) =
      before ++ .broken r fault :: after :=
    (matches_announcing.fates _ _).trans breaks
  obtain ⟨h', ends, asked⟩ := registerAll_breaks (h.addressOf p) identity_announcing same passes
  rw [← listParam_announcing h e endpoint] at ends
  have registering := (registerAll_within _ _ _ _).leaves ends.after_eq
  refine ⟨h', ?_, registering, asked.frame rfl rfl⟩
  exact (exportBy_offered endpoint x c idle attached named).trans
    (announce_fails (h := { h with urls := h.urls.modify (h.addressOf p) Url.asService })
      endpoint x c ends)

theorem exportBy_already (endpoint : Option EndpointRef) (x : ExtensionsRef)
    (c : ConfigurationRef) (exported : (h.exporters.get e).exported = true) :
    ∃ h', (exportBy e endpoint x c).Yields h .alreadyExported h' ∧ h.Logged h' := by
  unfold Yields exportBy
  simp only [ending_get_bind, exported, if_true]
  cases (h.exporters.get e).url with
  | none => exact ⟨_, rfl, writeLog_logged _ _ h⟩
  | some u => exact ⟨_, rfl, writeLog_logged _ _ h⟩

theorem exportBy_unattached (endpoint : Option EndpointRef) (x : ExtensionsRef)
    (c : ConfigurationRef) (idle : (h.exporters.get e).exported = false)
    (detached : (h.exporters.get e).provider = none) :
    ∃ h', (exportBy e endpoint x c).Yields h .noProvider h' ∧ h.Logged h' := by
  unfold Yields exportBy
  simp only [ending_get_bind, idle, detached, Bool.false_eq_true, if_false]
  exact ⟨_, rfl, writeLog_logged _ _ h⟩

/-- How an export ends, and what it leaves. -/
inductive Announcement (h : Host) (e : ExporterRef) (endpoint : Option EndpointRef)
    (x : ExtensionsRef) (c : ConfigurationRef) : Except Fault Status × Host → Prop
  | already {h' : Host} (exported : (h.exporters.get e).exported = true) (logged : h.Logged h') :
    Announcement h e endpoint x c (.ok .alreadyExported, h')
  | unattached {h' : Host} (idle : (h.exporters.get e).exported = false)
    (detached : (h.exporters.get e).provider = none) (logged : h.Logged h') :
    Announcement h e endpoint x c (.ok .noProvider, h')
  | nameless {h' : Host} {p : ProviderRef} (idle : (h.exporters.get e).exported = false)
    (attached : (h.exporters.get e).provider = some p) (lacks : h.namesRegistries p = false)
    (logged : Host.Logged { h with urls := h.urls.modify (h.addressOf p) Url.asService } h') :
    Announcement h e endpoint x c (.ok .registryNotFound, h')
  | accepted {h' : Host} {p : ProviderRef} (idle : (h.exporters.get e).exported = false)
    (attached : (h.exporters.get e).provider = some p) (named : h.namesRegistries p = true)
    (passes : ∀ fate ∈ h.fatesOf x c p, fate.Passes)
    (announced : Registering (h.announced e endpoint p
      ((h.fatesOf x c p).filterMap Fate.taker?)) h')
    (asked : Consulted ((h.fatesOf x c p).filterMap (Fate.call? (h.announcedAs p)))
      h h') :
    Announcement h e endpoint x c (.ok .ok, h')
  | broken {h' : Host} {p : ProviderRef} {before after : List Fate} {r : Option RegistryRef}
    {fault : Fault} (idle : (h.exporters.get e).exported = false)
    (attached : (h.exporters.get e).provider = some p) (named : h.namesRegistries p = true)
    (breaks : h.fatesOf x c p = before ++ .broken r fault :: after)
    (passes : ∀ fate ∈ before, fate.Passes)
    (announcing : Registering (h.announcing e endpoint p) h')
    (asked : Consulted ((before ++ [Fate.broken r fault]).filterMap (Fate.call? (h.announcedAs p)))
      h h') :
    Announcement h e endpoint x c (.error fault, h')

theorem exportBy_announcement (h : Host) (e : ExporterRef) (endpoint : Option EndpointRef)
    (x : ExtensionsRef) (c : ConfigurationRef) :
    Announcement h e endpoint x c ((exportBy e endpoint x c).ending h) := by
  cases exported : (h.exporters.get e).exported with
  | true =>
    obtain ⟨h', ends, logged⟩ := exportBy_already endpoint x c exported
    rw [ends]
    exact .already exported logged
  | false =>
    cases attached : (h.exporters.get e).provider with
    | none =>
      obtain ⟨h', ends, logged⟩ := exportBy_unattached endpoint x c exported attached
      rw [ends]
      exact .unattached exported attached logged
    | some p =>
      cases named : h.namesRegistries p with
      | false =>
        obtain ⟨h', ends, logged⟩ := exportBy_refused endpoint x c exported attached named
        rw [ends]
        exact .nameless exported attached named logged
      | true =>
        rcases Fate.pass_or_break (h.fatesOf x c p) with
          passes | ⟨before, r, fault, after, breaks, passes⟩
        · obtain ⟨h', ends, announced, asked⟩ :=
            exportBy_passes endpoint exported attached named passes
          rw [ends]
          exact .accepted exported attached named passes announced asked
        · obtain ⟨h', ends, announcing, asked⟩ :=
            exportBy_breaks endpoint exported attached named breaks passes
          rw [ends]
          exact .broken exported attached named breaks passes announcing asked

theorem unexport_idle (idle : (h.exporters.get e).exported = false) :
    (unexport e).Yields h .ok h := by
  unfold Yields unexport
  simp only [ending_get_bind, idle, Bool.false_eq_true, if_false, ending_pure]

/-- An export passes over the registries that are not there and those that fail for a reason,
and keeps those that took the address. The first fault that nobody catches breaks it off. Then the
registries after it are not asked, and those before it still have the address, but the exporter
does not know them: taking the export back asks none of them. -/
theorem exportBy_fans_out (endpoint : Option EndpointRef) (x : ExtensionsRef)
    (c : ConfigurationRef) (idle : (h.exporters.get e).exported = false)
    (attached : (h.exporters.get e).provider = some p) (named : h.namesRegistries p = true) :
    ((∀ fate ∈ h.fatesOf x c p, fate.Passes) ∧
      ∃ h', (exportBy e endpoint x c).Yields h .ok h' ∧ (h'.exporters.get e).exported = true ∧
        (h'.exporters.get e).registries =
          (h.fatesOf x c p).filterMap Fate.taker? ∧
        Consulted ((h.fatesOf x c p).filterMap (Fate.call? (h.announcedAs p)))
          h h') ∨
    ∃ before r fault after, h.fatesOf x c p = before ++ .broken r fault :: after ∧
      (∀ fate ∈ before, fate.Passes) ∧
      ∃ h', (exportBy e endpoint x c).Fails h fault h' ∧ (h'.exporters.get e).exported = false ∧
        (h'.exporters.get e).registries = (h.exporters.get e).registries ∧
        (unexport e).Yields h' .ok h' ∧
        Consulted ((before ++ [Fate.broken r fault]).filterMap (Fate.call? (h.announcedAs p)))
          h h' := by
  rcases Fate.pass_or_break (h.fatesOf x c p) with
    passes | ⟨before, r, fault, after, breaks, passes⟩
  · left
    obtain ⟨h', ends, announced, asked⟩ :=
      exportBy_passes endpoint idle attached named passes
    have exporter := congrArg (Store.get · e) announced.exporters
    simp only [Host.announced, Store.get_modify_self] at exporter
    exact ⟨passes, h', ends, by rw [exporter], by rw [exporter], asked⟩
  · right
    obtain ⟨h', fails, announcing, asked⟩ :=
      exportBy_breaks endpoint idle attached named breaks passes
    have exporter := congrArg (Store.get · e) announcing.exporters
    simp only [Host.announcing, Store.get_modify_self] at exporter
    have still : (h'.exporters.get e).exported = false := by rw [exporter, idle]
    exact ⟨before, r, fault, after, breaks, passes, h', fails, still, by rw [exporter],
      unexport_idle still, asked⟩

end Export

def Host.threefold (spare : Option RegistryConstructor) : Host :=
  { furnished { Extensions.builtIn with
        registries := .ofList [(Registry.directName, some ⟨none, .direct⟩), ("spare", spare)] }
      (.ofList [("main", ⟨0⟩), ("spare", ⟨1⟩), ("last", ⟨2⟩)])
      [⟨"direct", "127.0.0.1", 9000, "", "", .empty⟩, ⟨"spare", "127.0.0.1", 9001, "", "", .empty⟩,
        ⟨"direct", "127.0.0.1", 9002, "", "", .empty⟩,
        Url.sample.putParam Url.registryKey "main,spare,last"] with
    backends := Store.empty.add (.standardAt ⟨3⟩)
    providers := Store.empty.add ⟨⟨0⟩, [], none⟩
    exporters := Store.empty.add (unready ⟨0⟩) }

/-- The second registry fails for a reason, and is passed over. -/
theorem exportBy_fans_out_threefold : ∃ h',
    (exportBy ⟨0⟩ none ⟨0⟩ ⟨0⟩).Yields (Host.threefold
      (some ⟨none, .scripted "spare" fun _ _ => some (.crash "closed today")⟩)) .ok h' ∧
    (h'.exporters.get ⟨0⟩).registries = [⟨0⟩, ⟨2⟩] := by
  generalize house : Host.threefold
    (some ⟨none, .scripted "spare" fun _ _ => some (.crash "closed today")⟩) = h
  have fates : h.fatesOf ⟨0⟩ ⟨0⟩ ⟨0⟩ = [.taken ⟨0⟩, .declined ⟨1⟩, .taken ⟨2⟩] := by
    rw [← house]
    decide +kernel
  have fansOut := exportBy_fans_out (h := h) (e := ⟨0⟩) (p := ⟨0⟩) none ⟨0⟩ ⟨0⟩
    (by rw [← house]; rfl) (by rw [← house]; rfl) (by rw [← house]; decide +kernel)
  rw [fates] at fansOut
  rcases fansOut with ⟨_, h', ends, _, registries, _⟩ | ⟨before, r, fault, after, breaks, _⟩
  · exact ⟨h', ends, registries⟩
  · have broken : Fate.broken r fault ∈ [.taken ⟨0⟩, .declined ⟨1⟩, .taken ⟨2⟩] := by
      rw [breaks]
      simp
    simp at broken

/-- No constructor stands behind the second registry. The first has taken the address by then. It
keeps it, and the third is never asked. -/
theorem exportBy_broken_off : ∃ fault h',
    (exportBy ⟨0⟩ none ⟨0⟩ ⟨0⟩).Fails (Host.threefold none) fault h' ∧
      (h'.exporters.get ⟨0⟩).exported = false ∧ (h'.exporters.get ⟨0⟩).registries = [] ∧
      (h'.registries.get ⟨0⟩).lists Url.sample.identity = true ∧ h'.registries.next = 1 := by
  obtain ⟨fault, fails⟩ : ∃ fault, (exportBy ⟨0⟩ none ⟨0⟩ ⟨0⟩).Fails (Host.threefold none) fault
      ((exportBy ⟨0⟩ none ⟨0⟩ ⟨0⟩).after (Host.threefold none)) :=
    fails_of_toOption (by decide +kernel)
  refine ⟨fault, _, fails, ?_, ?_, ?_, ?_⟩ <;> decide +kernel

end RpcHost
