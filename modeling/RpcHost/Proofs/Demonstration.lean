import RpcHost.Proofs.Calculating
import RpcHost.Proofs.Continuity
import RpcHost.Proofs.Loading
/-!
The demonstration as a whole. Whatever the configuration says, once it is accepted, names a service
and has all of its services exported, each of them is asked for a sum and for a quotient by zero and
answers as a calculator does; in the end no direct registry lists anything.
-/
namespace RpcHost

open Attempt Host

variable {h mid h' : Host} {s : ServerRef} {d : Directory} {u : UrlRef}

def Host.Reads (h h' : Host) : Prop :=
  ∃ urls configurations log screen files,
    h' = { h with urls, configurations, log, screen, files }

instance : Course Host.Reads where
  refl h := ⟨_, _, _, _, _, rfl⟩
  trans := by
    rintro h mid h' ⟨_, _, _, _, _, rfl⟩ ⟨_, _, _, _, _, rfl⟩
    exact ⟨_, _, _, _, _, rfl⟩

theorem Host.Gathered.reads (gathered : h.Gathered h') : h.Reads h' := by
  obtain ⟨⟨_, _, _, rfl⟩, _⟩ := gathered
  exact ⟨_, _, _, _, _, rfl⟩

theorem writeLog_reads (level : Level) (pieces : List String) :
    (writeLog level pieces).Within Reads := fun h => (writeLog_gathers level pieces h).reads

theorem inheritAll_reads (basics : Keyed UrlRef) (entries : List (String × UrlRef)) :
    (inheritAll basics entries).Within Reads := by
  intro h
  refine inheritAll_keeps basics ?_ ?_ (Course.refl h)
  · intro level pieces mid reads
    exact Course.trans reads (writeLog_reads level pieces mid)
  · intro entry _ f mid reads
    exact Course.trans reads ⟨_, _, _, _, _, rfl⟩

theorem loadDocument_reads (loader : Loader) (c : ConfigurationRef) (document : Json) :
    (loadDocument loader c document).Within Reads := by
  have sections : (readSections document).Within Reads :=
    fun h => (readSections_gathers document h).reads
  have applies (settings : Json) : (applyLogSettings settings).Within Reads :=
    fun h => ⟨_, _, _, _, _, rfl⟩
  have commits (f : Configuration → Configuration) : (modifyConfiguration c f).Within Reads :=
    fun h => ⟨_, _, _, _, _, rfl⟩
  refine Attempt.within_bind sections fun found => ?_
  cases found with
  | none => exact Attempt.within_pure _
  | some found =>
    refine Attempt.within_bind (within_lift (inheritAll_reads _ _)) fun done => ?_
    split
    · refine Attempt.within_bind (within_lift (applies _)) fun _ => ?_
      refine Attempt.within_bind (within_lift (commits _)) fun _ => ?_
      exact Attempt.within_bind (within_lift (writeLog_reads _ _)) fun _ => Attempt.within_pure _
    · exact Attempt.within_pure _

theorem loadText_reads (loader : Loader) (c : ConfigurationRef) (text : String) :
    (loadText loader c text).Within Reads := by
  unfold loadText
  split
  · exact loadDocument_reads _ _ _
  · exact Attempt.within_bind (within_lift (writeLog_reads _ _)) fun _ => Attempt.within_pure _
  · refine Attempt.within_bind (within_lift (writeLog_reads _ _)) fun _ => ?_
    exact Attempt.within_bind (within_lift (writeLog_reads _ _)) fun _ => Attempt.within_pure _

theorem loadFile_reads (loader : Loader) (c : ConfigurationRef) (name : String) :
    (loadFile loader c name).Within Reads := by
  intro h
  cases opens : h.files.read? name with
  | none =>
    obtain ⟨screen, files, ends⟩ := loadFile_missing opens c
    have leaves : (loadFile loader c name).after h = { h with screen, files } :=
      congrArg Prod.snd ends
    rw [leaves]
    exact ⟨_, _, _, _, _, rfl⟩
  | some text =>
    have leaves :
        (loadFile loader c name).after h = (loadText loader c text).after (h.named c name) :=
      congrArg Prod.snd (loadFile_opened opens c)
    rw [leaves]
    exact Course.trans ⟨_, _, _, _, _, rfl⟩ (loadText_reads loader c text (h.named c name))

namespace Demo

structure Exchange.Adds (x : Exchange) (path : String) (a b : Int) : Prop where
  service : x.service = path
  method : x.method = "Add"
  sums : x.answer.Sums x.rid a b

structure Exchange.Divides (x : Exchange) (path : String) : Prop where
  service : x.service = path
  method : x.method = "Div"
  refuses : x.answer.RefusesZero x.rid

/-- A sum and a quotient by zero for each path in turn, and nothing else. -/
inductive Transcript (a b : Int) : List String → List Exchange → Prop
  | nil : Transcript a b [] []
  | cons {path : String} {paths : List String} {sum quotient : Exchange}
    {exchanges : List Exchange} (adds : sum.Adds path a b) (divides : quotient.Divides path)
    (rest : Transcript a b paths exchanges) :
    Transcript a b (path :: paths) (sum :: quotient :: exchanges)

theorem showResponse_noted (r : Response) : (showResponse r).Within Noted := by
  unfold showResponse
  split <;> exact writeLog_within _ _

theorem ask_answers {path : String} (calculates : h.Calculates s d) (covers : d.Covers path)
    (method : String) (params : Json) :
    h.Asks ((ask s path method params).after h) ∧
      ∃ url table q, h.methods.get table = Calculator.methods ∧ q.method.value = method ∧
        q.parameters = params ∧
        (ask s path method params).value h = ⟨path, method, q.rid,
          Directory.serve .builtIn h.methods url (some (.methods table)) q⟩ := by
  let q : Request := { Request.empty with
    rid := Uuid.text (h.random h.sequence) h.sequence
    service := .text path
    method := .text method
    params := some params }
  have made : (request path method params).value h = h.requests.fresh := rfl
  have leaves : (request path method params).after h =
      { h with sequence := h.sequence + 1, requests := h.requests.add q } := rfl
  have asks : h.Asks ((request path method params).after h) := ⟨_, _, _, _, _, leaves⟩
  have ready := calculates.asks asks
  obtain ⟨answers, requests, screen, files, journal, onward⟩ :=
    ready.mirrors.shows.handle_gives Extensions.plain_builtIn.only (some h.requests.fresh)
  have found : ((request path method params).after h).requests.get h.requests.fresh = q :=
    Store.get_add_fresh _ _
  obtain ⟨⟨url, service⟩, there⟩ := Option.isSome_iff_exists.1 covers
  obtain ⟨table, rfl, calculator⟩ := calculates.tables path url service there
  have served : (handle s (some h.requests.fresh)).value ((request path method params).after h) =
      Directory.serve .builtIn h.methods url (some (.methods table)) q := by
    have called : q.service.value = path := rfl
    rw [answers, Option.map_some, found, Directory.answer_open calculates.isOpen, called, there]
    rfl
  have reads (mid : Host) : (requestRid (some h.requests.fresh)).value mid =
      (mid.requests.get h.requests.fresh).rid := rfl
  have looks (mid : Host) : (requestRid (some h.requests.fresh)).after mid = mid := rfl
  constructor
  · unfold ask
    simp only [Step.after_bind, made, looks, Step.after_pure]
    refine Course.trans asks (Course.trans ?_ (showResponse_noted _ _).asks)
    exact ⟨requests, _, screen, files, journal, onward⟩
  · refine ⟨url, table, q, calculator, rfl, rfl, ?_⟩
    unfold ask
    simp only [Step.value_bind, Step.value_pure, made, looks, reads, found, served]

theorem ask_adds {path : String} {a b : Int} (calculates : h.Calculates s d)
    (covers : d.Covers path) (left : Calculator.Fits a) (right : Calculator.Fits b) :
    ((ask s path "Add" (operands a b)).value h).Adds path a b := by
  obtain ⟨_, _, _, _, calculator, asks, given, exchange⟩ :=
    ask_answers calculates covers "Add" (operands a b)
  rw [exchange]
  exact ⟨rfl, rfl, Directory.serve_sum calculator left right asks given⟩

theorem ask_divides {path : String} {a : Int} (calculates : h.Calculates s d)
    (covers : d.Covers path) (fits : Calculator.Fits a) :
    ((ask s path "Div" (operands a 0)).value h).Divides path := by
  obtain ⟨_, _, _, _, calculator, asks, given, exchange⟩ :=
    ask_answers calculates covers "Div" (operands a 0)
  rw [exchange]
  exact ⟨rfl, rfl, Directory.serve_quotient calculator fits asks given⟩

theorem askAll_cons (s : ServerRef) (name : String) (u : UrlRef) (rest : List (String × UrlRef))
    (h : Host) : ∃ sum quotient,
      sum = ask s (h.urls.get u).path "Add" (operands 11 22) ∧
      quotient = ask s ((sum.after h).urls.get u).path "Div" (operands 11 0) ∧
      (askAll s ((name, u) :: rest)).after h =
        (askAll s rest).after (quotient.after (sum.after h)) ∧
      (askAll s ((name, u) :: rest)).value h = sum.value h :: quotient.value (sum.after h) ::
        (askAll s rest).value (quotient.after (sum.after h)) :=
  ⟨_, _, rfl, rfl, rfl, rfl⟩

theorem askAll_transcript {entries : List (String × UrlRef)} (calculates : h.Calculates s d)
    (covers : ∀ entry ∈ entries, d.Covers (h.urls.get entry.2).path) :
    h.Asks ((askAll s entries).after h) ∧
      Transcript 11 22 (entries.map fun entry => (h.urls.get entry.2).path)
        ((askAll s entries).value h) := by
  induction entries generalizing h with
  | nil => exact ⟨Course.refl h, .nil⟩
  | cons entry rest ih =>
    obtain ⟨name, u⟩ := entry
    obtain ⟨first, others⟩ := List.forall_mem_cons.1 covers
    have left : Calculator.Fits 11 := by decide
    have right : Calculator.Fits 22 := by decide
    obtain ⟨_, _, rfl, rfl, after, value⟩ := askAll_cons s name u rest h
    rw [after, value]
    have adds := ask_adds calculates first left right
    have sum := (ask_answers calculates first "Add" (operands 11 22)).1
    rw [sum.urls]
    have again := calculates.asks sum
    have divides := ask_divides again first left
    have quotient := (ask_answers again first "Div" (operands 11 0)).1
    -- asking changes no address, so that the services that are left are covered as before
    have both : h.Asks _ := Course.trans sum quotient
    obtain ⟨onward, transcript⟩ := ih (calculates.asks both) (by rwa [both.urls])
    rw [both.urls] at transcript
    exact ⟨Course.trans both onward, .cons adds divides transcript⟩

theorem calculators_made (entries : List (String × UrlRef)) (h : Host) :
    ∃ impls methods, (calculators entries).value h = impls ∧
      (calculators entries).after h = { h with methods } ∧ h.methods.Extends methods ∧
      (∀ entry ∈ entries, (impls.find? entry.1).isSome = true) ∧
      ∀ name service, impls.find? name = some service →
        ∃ table, service = some (.methods table) ∧ methods.get table = Calculator.methods := by
  -- the first table is made before the others, and what is made later leaves it
  induction entries generalizing h with
  | nil =>
    refine ⟨.empty, h.methods, rfl, rfl, .refl _, by simp, ?_⟩
    intro name service found
    cases found
  | cons entry rest ih =>
    obtain ⟨name, u⟩ := entry
    obtain ⟨impls, methods, value, after, grown, named, made⟩ :=
      ih { h with methods := h.methods.add Calculator.methods }
    have added : h.methods.Extends (h.methods.add Calculator.methods) :=
      (Store.Extends.refl h.methods).add _
    have known := h.methods.allocated_fresh_add Calculator.methods
    refine ⟨impls.insert name (some (.methods h.methods.fresh)), methods, ?_, ?_,
      added.trans grown, ?_, ?_⟩
    · rw [← value]
      rfl
    · exact after
    · refine List.forall_mem_cons.2 ⟨?_, fun entry member => ?_⟩
      · rw [Keyed.find?_insert_self]
        rfl
      · rw [Keyed.find?_insert]
        split
        · rfl
        · exact named entry member
    · intro other service found
      rw [Keyed.find?_insert] at found
      split at found
      · cases found
        refine ⟨_, rfl, ?_⟩
        rw [grown.get _ known, Store.get_add_fresh]
      · exact made other service found

variable {name : String} {rest : List (String × UrlRef)} {argument : Option String}
  {files : FileTree} {random : UInt64 → Fin 8 → UInt8} {elapsed : List Record → FileTree → Nat}
  {start : Host}

def context (start : Host) : ConfigurationRef := addConfiguration.value start

def loaded (setting : Setting) (argument : Option String) (start : Host) : Host :=
  (loadFile setting.loader (context start) (argument.getD defaultFile)).after
    (addConfiguration.after start)

def services (setting : Setting) (argument : Option String) (start : Host) :
    List (String × UrlRef) :=
  setting.asked.walk ((loaded setting argument start).configurations.get (context start)).services

def equip (c : ConfigurationRef) (u : UrlRef) : Step ServerRef := do
  let x ← addExtensions .builtIn
  newServer c x u

/-- All that comes before the questions: a server with a calculator for each service. -/
def prepare (order : Traversal UrlRef) (c : ConfigurationRef) (u : UrlRef)
    (services : List (String × UrlRef)) : Attempt Status := do
  let s ← equip c u
  let impls ← calculators services
  exportAll order s impls

theorem start_reads_loaded (setting : Setting) (argument : Option String) (start : Host) :
    start.Reads (loaded setting argument start) :=
  Course.trans ⟨_, _, _, _, _, rfl⟩ (loadFile_reads _ _ _ _)

theorem newServer_calculates {x : ExtensionsRef} (factory : h.extensions.get x = .builtIn)
    (terminated : h.Terminated) (registries : h.registries = .empty) (c : ConfigurationRef)
    (u : UrlRef) :
    ((newServer c x u).after h).Calculates ((newServer c x u).value h) .empty := by
  obtain ⟨made, screen, files, journal, leaves⟩ := newServer_spec c x u h
  have server : ((newServer c x u).after h).servers.get ((newServer c x u).value h) =
      ⟨c, x, h.endpoints.fresh, .empty⟩ := by
    rw [made, leaves]
    exact Store.get_add_fresh _ _
  have none : ((newServer c x u).after h).registries = .empty := by
    rw [leaves]
    exact registries
  have makers : ((newServer c x u).after h).extensions.get x = .builtIn := by
    rw [leaves]
    exact factory
  have direct : ((newServer c x u).after h).Direct x :=
    direct_builtIn makers fun r => by
      rw [none]
      exact ⟨_, rfl⟩
  have plain : ((newServer c x u).after h).Plain ((newServer c x u).value h) .builtIn := by
    constructor
    · rw [leaves]
      exact terminated.extended (.refl _)
    · rw [server]
      exact direct.civil
    · rw [server]
      exact ⟨_, makers⟩
  refine ⟨newServer_mirrors c x u plain, rfl, ?_, ?_, ?_⟩
  · intro path url service found
    cases found
  · rw [server]
    exact direct.known
  · intro r _ identity lists
    have unlisted : ((newServer c x u).after h).listsAt r identity = false := by
      apply listsAt_of_not_allocated
      rw [none]
      exact Nat.not_lt_zero r.index
    rw [unlisted] at lists
    cases lists

theorem equip_calculates (reads : (Host.start files random elapsed).Reads h) (c : ConfigurationRef)
    (u : UrlRef) : ((equip c u).after h).Calculates ((equip c u).value h) .empty := by
  have factory : ((addExtensions .builtIn).after h).extensions.get
      ((addExtensions .builtIn).value h) = .builtIn := Store.get_add_fresh _ _
  obtain ⟨urls, configurations, log, screen, files', rfl⟩ := reads
  unfold equip
  rw [Step.after_bind, Step.value_bind]
  exact newServer_calculates factory ⟨Nat.zero_lt_one, rfl⟩ rfl c u

theorem equip_configured (c : ConfigurationRef) (u : UrlRef) (h : Host) :
    ((equip c u).after h).configurations.get
        (((equip c u).after h).servers.get ((equip c u).value h)).configuration =
      h.configurations.get c ∧
    ((equip c u).after h).urls = h.urls := by
  unfold equip
  rw [Step.after_bind, Step.value_bind]
  obtain ⟨made, screen, files, journal, leaves⟩ := newServer_spec c
    ((addExtensions .builtIn).value h) u ((addExtensions .builtIn).after h)
  rw [made, leaves]
  refine ⟨?_, rfl⟩
  dsimp only
  rw [Store.get_add_fresh]
  rfl

theorem exportAll_calculates (order : Traversal UrlRef) {kept : Keyed UrlRef}
    {impls : Keyed (Option Service)} (calculates : h.Calculates s .empty)
    (configured : (h.configurations.get (h.servers.get s).configuration).services = kept)
    (named : ∀ entry ∈ kept.entries, (impls.find? entry.1).isSome = true)
    (made : ∀ name service, impls.find? name = some service →
      ∃ table, service = some (.methods table) ∧ h.methods.get table = Calculator.methods)
    (accepted : (exportAll order s impls).outcome h = .ok .ok) :
    ∃ h' d, (exportAll order s impls).Yields h .ok h' ∧ h'.Calculates s d ∧ h.Steady s h' ∧
      ∀ entry ∈ kept.entries, d.Covers (h.urls.get entry.2).path := by
  obtain ⟨codes, h', sweep, ends⟩ := exportEntries_sweeps calculates.mirrors.coherent
    calculates.mirrors.plain.terminated calculates.mirrors.plain.civil impls (order.walk kept) .ok
  have yields : (exportAll order s impls).Yields h (verdict .ok codes) h' := by
    unfold exportAll Yields
    rw [ending_get_bind]
    dsimp only
    rw [configured]
    exact ends
  have settled : verdict .ok codes = .ok :=
    Except.ok.inj ((yields_iff.1 yields).1.symm.trans accepted)
  obtain ⟨d, after, steady, _, covers⟩ := sweep.calculates calculates (fun entry member => by
    obtain ⟨⟨name, u⟩, _, planned⟩ := List.mem_filterMap.1 member
    obtain ⟨service, found, rfl⟩ := Option.map_eq_some_iff.1 planned
    exact made name service found) (verdict_eq_ok_iff.1 settled).2
  refine ⟨h', d, settled ▸ yields, after, steady, fun entry member => ?_⟩
  have walked := (order.walk_perm kept).symm.subset member
  obtain ⟨service, found⟩ := Option.isSome_iff_exists.1 (named entry member)
  exact covers (entry.2, service)
    (List.mem_filterMap.2 ⟨entry, walked, Option.map_eq_some_iff.2 ⟨service, found, rfl⟩⟩)

theorem serve_transcript {order asked : Traversal UrlRef} {kept : Keyed UrlRef}
    (calculates : h.Calculates s .empty)
    (configured : (h.configurations.get (h.servers.get s).configuration).services = kept)
    (accepted : (exportAll order s ((calculators (asked.walk kept)).value h)).outcome
      ((calculators (asked.walk kept)).after h) = .ok .ok) :
    ∃ exchanges h' d, (serve order s (asked.walk kept)).Yields h ⟨0, exchanges⟩ h' ∧
      h'.Calculates s d ∧
      Transcript 11 22 ((asked.walk kept).map fun entry => (h.urls.get entry.2).path)
        exchanges := by
  have listed := asked.walk_perm kept
  obtain ⟨impls, methods, value, after, _, named, made⟩ := calculators_made (asked.walk kept) h
  rw [value, after] at accepted
  have ready : { h with methods }.Calculates s .empty := by
    refine ⟨calculates.mirrors.aside methods (Course.refl h), rfl, ?_, calculates.stocked,
      calculates.tallied⟩
    intro path url service found
    cases found
  obtain ⟨exported, d, yields, serving, steady, covers⟩ :=
    exportAll_calculates order ready configured
      (fun entry member => named entry (listed.symm.subset member)) made accepted
  have paths (u : UrlRef) : (exported.urls.get u).path = (h.urls.get u).path := (steady.urls u).path
  have served : ∀ entry ∈ asked.walk kept, d.Covers (exported.urls.get entry.2).path := by
    intro entry member
    rw [paths]
    exact covers entry (listed.subset member)
  obtain ⟨asks, transcript⟩ := askAll_transcript serving served
  simp only [paths] at transcript
  refine ⟨_, _, d, ?_, serving.asks asks, transcript⟩
  unfold serve Yields
  rw [ending_lift_bind, value, after, yields.ending_bind, if_pos rfl, ending_lift_bind, ending_pure]

theorem serveAndDestroy_yields {setting : Setting} {entries : List (String × UrlRef)}
    {report : Report} (serves : (serve setting.exported s entries).Yields h report mid)
    (destroys : (destroyServer setting.retired s).Yields mid () h') :
    (serveAndDestroy setting s entries).Yields h report h' := by
  refine yields_bind.2 ⟨report, mid, yields_tryCatch.2 (Or.inl serves), ?_⟩
  exact yields_bind.2 ⟨(), h', destroys, yields_pure.2 ⟨rfl, rfl⟩⟩

/-- A configuration that is accepted and names a service is served by a server for that one. -/
theorem run_yields {setting : Setting} {report : Report}
    (loads : (loadFile setting.loader (context start) (argument.getD defaultFile)).outcome
      (addConfiguration.after start) = .ok .ok)
    (names : services setting argument start = (name, u) :: rest)
    (serves : (serveAndDestroy setting
      ((equip (context start) u).value (loaded setting argument start))
      ((name, u) :: rest)).Yields ((equip (context start) u).after (loaded setting argument start))
        report h') : (Demo.run setting argument).Yields start report h' := by
  have yields : (loadFile setting.loader (context start) (argument.getD defaultFile)).Yields
    (addConfiguration.after start) .ok (loaded setting argument start) := yields_iff.2 ⟨loads, rfl⟩
  unfold services at names
  unfold equip at serves
  rw [Step.value_bind, Step.after_bind] at serves
  generalize loaded setting argument start = mid at yields names serves
  have configured : setting.asked.walk (((addExtensions .builtIn).after mid).configurations.get
    (addConfiguration.value start)).services = (name, u) :: rest := names
  unfold Demo.run
  refine (ending_lift_bind _ _ _).trans ((yields.ending_bind _).trans ?_)
  rw [if_pos rfl, ending_lift_bind, ending_get_bind, configured]
  dsimp only
  rw [ending_lift_bind]
  exact serves

theorem empty_of_unlisted {r : RegistryRef} {listed : Keyed Unit}
    (unlisted : ∀ identity, h.listsAt r identity = false) (known : h.registries.Allocated r)
    (state : (h.registries.get r).state = .direct listed) : listed = .empty := by
  refine Keyed.ext_find? fun identity => ?_
  have absent := unlisted identity
  rw [listsAt_of_allocated known] at absent
  unfold Registry.lists at absent
  rw [state] at absent
  exact Option.not_isSome_iff_eq_none.1 (Bool.eq_false_iff.1 absent)

/-- Whatever file is loaded, where its text is accepted and names a service, and all services are
exported, the demonstration comes to an end without a failure, in whatever order the services are
read, exported, asked and taken back. Each service, under whatever path and with whatever filters,
registries and hint, has added 11 and 22 and refused to divide by zero, each under the id of the
request, and no direct registry has anything left. -/
theorem run_demonstrates (setting : Setting)
    (loads : (loadFile setting.loader (context (.start files random elapsed))
      (argument.getD defaultFile)).outcome
      (addConfiguration.after (.start files random elapsed)) = .ok .ok)
    (names : services setting argument (.start files random elapsed) = (name, u) :: rest)
    (exports : (prepare setting.exported (context (.start files random elapsed)) u
      ((name, u) :: rest)).outcome
      (loaded setting argument (.start files random elapsed)) = .ok .ok) :
    ∃ report h', (Demo.run setting argument).Yields (.start files random elapsed) report h' ∧
      report.exitCode = 0 ∧
      Transcript 11 22 (((name, u) :: rest).map fun entry =>
        ((loaded setting argument (.start files random elapsed)).urls.get entry.2).path)
        report.exchanges ∧
      ∀ r, h'.registries.Allocated r → ∀ listed,
        (h'.registries.get r).state = .direct listed → listed = .empty := by
  have reads := start_reads_loaded setting argument (.start files random elapsed)
  -- Only the calculators need to know where the process started.
  generalize made : Host.start files random elapsed = start at *
  have calculates : ((equip (context start) u).after (loaded setting argument start)).Calculates
      ((equip (context start) u).value (loaded setting argument start)) .empty := by
    subst made
    exact equip_calculates reads _ u
  obtain ⟨same, urls⟩ := equip_configured (context start) u (loaded setting argument start)
  have configured := congrArg Configuration.services same
  have accepted : _ = Except.ok Status.ok := exports
  unfold prepare outcome at accepted
  rw [ending_lift_bind, ending_lift_bind, ← names] at accepted
  obtain ⟨exchanges, served, d, serves, serving, transcript⟩ :=
    serve_transcript calculates configured accepted
  obtain ⟨h', destroys, unlisted⟩ := serving.destroyed setting.retired
  have walked := serveAndDestroy_yields serves destroys
  rw [urls] at transcript
  rw [← names]
  refine ⟨⟨0, exchanges⟩, h', ?_, rfl, transcript, ?_⟩
  · refine run_yields loads names ?_
    rw [← names]
    exact walked
  · intro r known listed state
    exact empty_of_unlisted (unlisted r fun _ => ⟨listed, state⟩) known state

def sampleText : String :=
  "\x7b\"registries\":\x7b\"r\":\x7b\"protocol\":\"direct\"\x7d\x7d," ++
    "\"services\":\x7b\"s\":\x7b\"path\":\"p\",\"registry\":\"r\"\x7d," ++
    "\"t\":\x7b\"path\":\"p\",\"registry\":\"r\"\x7d\x7d\x7d"

def sampleFiles : FileTree := (FileTree.workingIn []).write "c" sampleText

def sampleStart : Host := .start sampleFiles (fun _ _ => 0) fun _ _ => 0

theorem run_demonstrates_sample :
    ∃ report h', (Demo.run .standard (some "c")).Yields sampleStart report h' ∧
      report.exitCode = 0 ∧ Transcript 11 22 ["p", "p"] report.exchanges ∧
      ∀ r, h'.registries.Allocated r → ∀ listed,
        (h'.registries.get r).state = .direct listed → listed = .empty := by
  have loads : (loadFile Setting.standard.loader (context sampleStart)
      ((some "c").getD defaultFile)).Yields (addConfiguration.after sampleStart) .ok _ :=
    yields_of_toOption (by decide +kernel)
  obtain ⟨names, paths⟩ : services .standard (some "c") sampleStart = [("s", ⟨1⟩), ("t", ⟨2⟩)] ∧
    ([("s", ⟨1⟩), ("t", ⟨2⟩)] : List (String × UrlRef)).map (fun entry =>
      ((loaded .standard (some "c") sampleStart).urls.get entry.2).path) = ["p", "p"] := by
    decide +kernel
  have exports : (prepare Setting.standard.exported (context sampleStart) ⟨1⟩
      [("s", ⟨1⟩), ("t", ⟨2⟩)]).Yields (loaded .standard (some "c") sampleStart) .ok _ :=
    yields_of_toOption (by decide +kernel)
  obtain ⟨report, h', yields, code, transcript, emptied⟩ :=
    run_demonstrates .standard (yields_iff.1 loads).1 names (yields_iff.1 exports).1
  exact ⟨report, h', yields, code, paths ▸ transcript, emptied⟩

end Demo

end RpcHost
