import RpcHost.Proofs.Loading
/-!
Where what is in force comes from. It is what the last load brought that was accepted. The name of
the file that goes with it is another matter: it is that of the last file that could be opened, and
it stays when the text of that file is refused or when a text is accepted that no file gave.
-/
namespace RpcHost

open Attempt Host

variable {start h h' : Host} {c : ConfigurationRef} {name text : String} {document : Json}
  {files : FileTree} {loader : Loader}

inductive Load where
  | file (name : String)
  | text (text : String)
  deriving DecidableEq

namespace Load

def run (loader : Loader) (c : ConfigurationRef) : Load → Attempt Status
  | .file name => loadFile loader c name
  | .text text => loadText loader c text

def text? (files : FileTree) : Load → Option String
  | .file name => files.read? name
  | .text text => some text

def opened? (files : FileTree) : Load → Option String
  | .file name => (files.read? name).map fun _ => name
  | .text _ => none

/-- The name of the file that is asked for; a text has none. -/
def source : Load → String
  | .file name => name
  | .text _ => ""

end Load

theorem Host.named_upholds (h : Host) (c : ConfigurationRef) (name : String) :
    h.Upholds c (h.named c name) := by
  have own : (h.named c name).configurations.get c =
      { h.configurations.get c with file := name } := Store.get_modify_self _ _ _
  constructor
  all_goals first | exact .refl _ | rw [own]

theorem Host.Upholds.trans {mid : Host} (first : h.Upholds c mid) (second : mid.Upholds c h') :
    h.Upholds c h' where
  document := second.document.trans first.document
  registries := second.registries.trans first.registries
  basics := second.basics.trans first.basics
  services := second.services.trans first.services
  addresses := first.addresses.trans second.addresses

theorem Load.run_cases (load : Load) (loader : Loader) (c : ConfigurationRef) (h : Host) :
    (load.opened? h.files = none ∧
      ∃ screen files, (load.run loader c).ending h = (.ok .configError, { h with screen, files })) ∨
    ∃ text mid, load.text? h.files = some text ∧
      (load.run loader c).ending h = (loadText loader c text).ending mid ∧ h.Upholds c mid ∧
      (mid.configurations.get c).file =
        (load.opened? h.files).getD (h.configurations.get c).file := by
  cases load with
  | text text => exact Or.inr ⟨text, h, rfl, rfl, ⟨rfl, rfl, rfl, rfl, .refl _⟩, rfl⟩
  | file name =>
    unfold opened? text?
    cases opens : h.files.read? name with
    | none => exact Or.inl ⟨by simp [opens], loadFile_missing opens c⟩
    | some text =>
      have own : ((h.named c name).configurations.get c).file = name :=
        congrArg Configuration.file (Store.get_modify_self _ _ _)
      refine Or.inr ⟨text, h.named c name, opens, loadFile_opened opens c,
        h.named_upholds c name, ?_⟩
      simp [opens, own]

theorem Load.run_accepted {load : Load} (accepted : (load.run loader c).outcome h = .ok .ok) :
    ∃ text document, load.text? h.files = some text ∧ loader.read? text = some document ∧
      ((load.run loader c).after h).Configured c document ∧
      (((load.run loader c).after h).configurations.get c).document = keptDocument document ∧
      ((load.run loader c).after h).Rooted c := by
  rcases load.run_cases loader c h with ⟨_, screen, files, ends⟩ | ⟨text, mid, gives, ends, _⟩
  · have refused := (congrArg Prod.fst ends).symm.trans accepted
    cases refused
  · have accepted' : (loadText loader c text).outcome mid = .ok .ok :=
      (congrArg Prod.fst ends).symm.trans accepted
    have leaves : (load.run loader c).after h = (loadText loader c text).after mid :=
      congrArg Prod.snd ends
    obtain ⟨document, reads, adopts⟩ := loadText_accepts accepted'
    rw [leaves]
    exact ⟨text, document, gives, reads, adopts.configured, adopts.kept, adopts.rooted⟩

theorem Load.run_refused {load : Load} (refused : (load.run loader c).outcome h ≠ .ok .ok) :
    h.Upholds c ((load.run loader c).after h) := by
  rcases load.run_cases loader c h with ⟨_, screen, files, ends⟩ | ⟨text, mid, _, ends, upholds, _⟩
  · have leaves : (load.run loader c).after h = { h with screen, files } := congrArg Prod.snd ends
    rw [leaves]
    exact ⟨rfl, rfl, rfl, rfl, .refl _⟩
  · have refused' : (loadText loader c text).outcome mid ≠ .ok .ok := fun ok =>
      refused ((congrArg Prod.fst ends).trans ok)
    have leaves : (load.run loader c).after h = (loadText loader c text).after mid :=
      congrArg Prod.snd ends
    rw [leaves]
    exact upholds.trans ((loadText_retains refused').upholds c)

theorem loadText_file (loader : Loader) (c : ConfigurationRef) (text : String) (h : Host) :
    (((loadText loader c text).after h).configurations.get c).file =
      (h.configurations.get c).file := by
  by_cases accepted : (loadText loader c text).outcome h = .ok .ok
  · obtain ⟨document, _, adopts⟩ := loadText_accepts accepted
    exact adopts.file
  · rw [(loadText_retains accepted).configurations]

theorem Load.run_file (load : Load) (loader : Loader) (c : ConfigurationRef) (h : Host) :
    (((load.run loader c).after h).configurations.get c).file =
      (load.opened? h.files).getD (h.configurations.get c).file := by
  rcases load.run_cases loader c h with
    ⟨closed, screen, files, ends⟩ | ⟨text, mid, _, ends, _, file⟩
  · have leaves : (load.run loader c).after h = { h with screen, files } := congrArg Prod.snd ends
    rw [leaves, closed]
    rfl
  · have leaves : (load.run loader c).after h = (loadText loader c text).after mid :=
      congrArg Prod.snd ends
    rw [leaves, loadText_file, file]

structure Loaded where
  loader : Loader
  load : Load
  files : FileTree
  ending : Except Fault Status

namespace Loaded

def accepted (l : Loaded) : Bool :=
  match l.ending with
  | .ok .ok => true
  | _ => false

theorem accepted_iff (l : Loaded) : l.accepted = true ↔ l.ending = .ok .ok := by
  unfold accepted
  split <;> simp_all

end Loaded

/-- Loads of a configuration, the last of them first. Between them files may change, and so may all
else but what the configuration has. -/
inductive Loads (c : ConfigurationRef) (start : Host) : List Loaded → Host → Prop
  | start : Loads c start [] start
  | idled {past : List Loaded} {h h' : Host} (before : Loads c start past h)
    (upholds : h.Upholds c h')
    (file : (h'.configurations.get c).file = (h.configurations.get c).file) :
    Loads c start past h'
  | loaded {past : List Loaded} {h : Host} (before : Loads c start past h) (loader : Loader)
    (load : Load) :
    Loads c start (⟨loader, load, h.files, (load.run loader c).outcome h⟩ :: past)
      ((load.run loader c).after h)

def Host.Backed (h : Host) (c : ConfigurationRef) : Option Loaded → Prop
  | none => h.Configured c .null ∧ (h.configurations.get c).document = .null
  | some l => ∃ text document, l.load.text? l.files = some text ∧
      l.loader.read? text = some document ∧ h.Configured c document ∧
      (h.configurations.get c).document = keptDocument document

theorem Host.Upholds.backed {last : Option Loaded} (upholds : h.Upholds c h')
    (rooted : h.Rooted c) (backed : h.Backed c last) : h'.Backed c last := by
  cases last with
  | none =>
    obtain ⟨configured, kept⟩ := backed
    exact ⟨upholds.configured rooted configured, upholds.document.trans kept⟩
  | some l =>
    obtain ⟨text, document, gives, reads, configured, kept⟩ := backed
    exact ⟨text, document, gives, reads, upholds.configured rooted configured,
      upholds.document.trans kept⟩

/-- What all loads together come to. -/
structure Host.Sourced (h : Host) (c : ConfigurationRef) (past : List Loaded) : Prop where
  rooted : h.Rooted c
  backed : h.Backed c (past.find? Loaded.accepted)
  file : (h.configurations.get c).file =
    (past.findSome? fun l => l.load.opened? l.files).getD ""

theorem Host.sourced_new (h : Host) :
    (addConfiguration.after h).Sourced (addConfiguration.value h) [] := by
  have own : (addConfiguration.after h).configurations.get (addConfiguration.value h) = .empty :=
    Store.get_add_fresh _ _
  constructor
  · constructor
    all_goals
      intro name u found
      rw [own] at found
      cases found
  · refine ⟨⟨?_, ?_, ?_, ?_⟩, congrArg Configuration.document own⟩
    · intro name
      unfold registryUrl
      rw [own]
      rfl
    · intro name
      unfold basicUrl
      rw [own]
      rfl
    · intro name _
      unfold serviceUrl
      rw [own]
      rfl
    · intro name own tells
      cases tells
  · exact congrArg Configuration.file own

theorem Host.Sourced.loaded {past : List Loaded} (sourced : h.Sourced c past)
    (loader : Loader) (load : Load) :
    ((load.run loader c).after h).Sourced c
      (⟨loader, load, h.files, (load.run loader c).outcome h⟩ :: past) := by
  have file : (((load.run loader c).after h).configurations.get c).file =
      ((⟨loader, load, h.files, (load.run loader c).outcome h⟩ :: past).findSome? fun l : Loaded =>
        l.load.opened? l.files).getD "" := by
    rw [load.run_file loader, sourced.file, List.findSome?_cons]
    cases load.opened? h.files <;> rfl
  by_cases accepted : (load.run loader c).outcome h = .ok .ok
  · have first : Loaded.accepted ⟨loader, load, h.files, (load.run loader c).outcome h⟩ = true :=
      (Loaded.accepted_iff _).2 accepted
    obtain ⟨text, document, gives, reads, configured, kept, rooted⟩ := Load.run_accepted accepted
    refine ⟨rooted, ?_, file⟩
    rw [List.find?_cons_of_pos first]
    exact ⟨text, document, gives, reads, configured, kept⟩
  · have first : ¬Loaded.accepted ⟨loader, load, h.files, (load.run loader c).outcome h⟩ = true :=
      fun ok => accepted ((Loaded.accepted_iff _).1 ok)
    have upholds := Load.run_refused accepted
    refine ⟨upholds.rooted sourced.rooted, ?_, file⟩
    rw [List.find?_cons_of_neg first]
    exact upholds.backed sourced.rooted sourced.backed

theorem Loads.sourced {past : List Loaded} (loads : Loads c start past h)
    (new : start.Sourced c []) : h.Sourced c past := by
  -- on the loads, with what may happen between them
  induction loads with
  | start => exact new
  | idled before upholds file ih =>
    exact ⟨upholds.rooted ih.rooted, upholds.backed ih.rooted ih.backed, file.trans ih.file⟩
  | loaded before loader load ih => exact ih.loaded loader load

theorem FileTree.read?_empty (t : FileTree) : t.read? "" = none := rfl

theorem Load.opened?_eq_some {load : Load} (opened : load.opened? files = some name) :
    load = .file name ∧ name ≠ "" := by
  cases load with
  | text text => cases opened
  | file other =>
    obtain ⟨text, opens, rfl⟩ := Option.map_eq_some_iff.1 opened
    refine ⟨rfl, ?_⟩
    rintro rfl
    rw [files.read?_empty] at opens
    cases opens

theorem Load.opened?_file (gives : (Load.file name).text? files = some text) :
    (Load.file name).opened? files = some name := Option.map_eq_some_iff.2 ⟨text, gives, rfl⟩

theorem Load.source_of_closed {load : Load} (gives : load.text? files = some text)
    (closed : load.opened? files = none) : load.source = "" := by
  cases load with
  | text text => rfl
  | file name =>
    rw [Load.opened?_file gives] at closed
    cases closed

theorem Load.source_eq_iff {load : Load} (named : name ≠ "") :
    load.source = name ↔ load = .file name := by
  cases load with
  | text text => simp [source, named.symm]
  | file other => simp [source]

/-- After any loads the last one that was accepted is in force, and the name of the file is that of
the last file that was opened. It names the source of what is in force exactly where that file is
the one that was last accepted, or no file was opened at all. -/
theorem Loads.provenance {past : List Loaded}
    (loads : Loads h.configurations.fresh (addConfiguration.after h) past h') :
    h'.Backed h.configurations.fresh (past.find? Loaded.accepted) ∧
      (h'.configurations.get h.configurations.fresh).file =
        (past.findSome? fun l => l.load.opened? l.files).getD "" ∧
      ((h'.configurations.get h.configurations.fresh).file =
          ((past.find? Loaded.accepted).map fun l => l.load.source).getD "" ↔
        ∀ name, (past.findSome? fun l => l.load.opened? l.files) = some name →
          ∃ l, past.find? Loaded.accepted = some l ∧ l.load = .file name) := by
  obtain ⟨_, backed, file⟩ := loads.sourced (Host.sourced_new h)
  refine ⟨backed, file, ?_⟩
  rw [file]
  cases opened : past.findSome? fun l => l.load.opened? l.files with
  | none =>
    refine iff_of_true ?_ (fun _ found => by cases found)
    cases last : past.find? Loaded.accepted with
    | none => rfl
    | some l =>
      rw [last] at backed
      obtain ⟨text, _, gives, _⟩ := backed
      have closed := List.findSome?_eq_none_iff.1 opened l (List.mem_of_find?_eq_some last)
      exact (Load.source_of_closed gives closed).symm
  | some name =>
    obtain ⟨l, _, opens⟩ := List.exists_of_findSome?_eq_some opened
    have named := (Load.opened?_eq_some opens).2
    cases past.find? Loaded.accepted with
    | none => simp [named]
    | some l => simpa [eq_comm] using Load.source_eq_iff named

def FileTree.sample : FileTree :=
  ((FileTree.workingIn []).write "a" "\x7b\x7d").write "b" "["

theorem FileTree.read?_sample : sample.read? "a" = some "\x7b\x7d" ∧ sample.read? "b" = some "[" :=
  ⟨rfl, rfl⟩

theorem Loader.read?_bare : standard.read? "\x7b\x7d" = some (.obj []) := by
  rw [read?_standard]
  cbv

def Host.sampleFiled : Host := addConfiguration.after (.start .sample (fun _ _ => 0) fun _ _ => 0)

theorem Load.run_sample (c : ConfigurationRef) (filed : h.files = .sample) :
    ((Load.file "a").run .standard c).outcome h = .ok .ok ∧
      (Load.file "a").opened? h.files = some "a" := by
  have opens : h.files.read? "a" = some "\x7b\x7d" := by
    rw [filed]
    exact FileTree.read?_sample.1
  constructor
  · refine (congrArg Prod.fst (loadFile_opened opens c)).trans ?_
    unfold loadText
    rw [Loader.read?_bare]
    rfl
  · exact Load.opened?_file opens

theorem Load.run_sample_refused (c : ConfigurationRef) (filed : h.files = .sample) :
    ((Load.file "b").run .standard c).outcome h = .ok .configError ∧
      (Load.file "b").opened? h.files = some "b" := by
  have reads : Loader.standard.read? "[" = none := by
    rw [Loader.read?_standard]
    cbv
  have opens : h.files.read? "b" = some "[" := by
    rw [filed]
    exact FileTree.read?_sample.2
  constructor
  · refine (congrArg Prod.fst (loadFile_opened opens c)).trans ?_
    unfold loadText
    rw [reads]
    rfl
  · exact Load.opened?_file opens

theorem Loads.provenance_sample :
    ∃ past h', Loads ⟨0⟩ .sampleFiled past h' ∧ h'.Backed ⟨0⟩ (past.find? Loaded.accepted) ∧
      (past.find? Loaded.accepted).map (fun l => l.load) = some (.file "a") ∧
      (h'.configurations.get ⟨0⟩).file = "a" := by
  have loads : Loads ⟨0⟩ .sampleFiled _ _ := .loaded .start .standard (.file "a")
  obtain ⟨accepted, opened⟩ := Load.run_sample (h := .sampleFiled) ⟨0⟩ rfl
  obtain ⟨backed, file, _⟩ :=
    Loads.provenance (h := .start .sample (fun _ _ => 0) fun _ _ => 0) loads
  refine ⟨_, _, loads, backed, ?_, file.trans ?_⟩
  · rw [accepted]
    rfl
  · rw [List.findSome?_cons, opened]
    rfl

/-- A file that is refused gives its name all the same, and the name of a file stays when a text
takes the place of its document. -/
theorem Loads.misnamed :
    (∃ past h', Loads ⟨0⟩ .sampleFiled past h' ∧
      (past.find? Loaded.accepted).map (fun l => l.load) = some (.file "a") ∧
      (h'.configurations.get ⟨0⟩).file = "b") ∧
    ∃ past h', Loads ⟨0⟩ .sampleFiled past h' ∧
      (past.find? Loaded.accepted).map (fun l => l.load) = some (.text "\x7b\x7d") ∧
      (h'.configurations.get ⟨0⟩).file = "a" := by
  have first : Loads ⟨0⟩ .sampleFiled _ _ := .loaded .start .standard (.file "a")
  obtain ⟨accepted, opened⟩ := Load.run_sample (h := .sampleFiled) ⟨0⟩ rfl
  rw [accepted] at first
  have file := (Load.file "a").run_file .standard ⟨0⟩ .sampleFiled
  rw [opened] at file
  generalize ((Load.file "a").run .standard ⟨0⟩).after .sampleFiled = h at first file
  have again : Loads ⟨0⟩ .sampleFiled _ { h with files := .sample } :=
    .idled first ⟨rfl, rfl, rfl, rfl, .refl _⟩ rfl
  constructor
  · obtain ⟨refused, opened⟩ :=
      Load.run_sample_refused (h := { h with files := .sample }) ⟨0⟩ rfl
    refine ⟨_, _, .loaded again .standard (.file "b"), ?_, ?_⟩
    · rw [refused]
      rfl
    · rw [Load.run_file, opened]
      rfl
  · have bare : (loadText .standard ⟨0⟩ "\x7b\x7d").outcome { h with files := .sample } =
        .ok .ok := by
      unfold loadText
      rw [Loader.read?_bare]
      rfl
    refine ⟨_, _, .loaded again .standard (.text "\x7b\x7d"), ?_, ?_⟩
    · have ends : ((Load.text "\x7b\x7d").run .standard ⟨0⟩).outcome
          { h with files := .sample } = .ok .ok := bare
      rw [ends]
      rfl
    · rw [Load.run_file]
      exact file

end RpcHost
