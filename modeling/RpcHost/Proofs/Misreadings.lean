import RpcHost.Proofs.Inheritance
/-!
Where loading a configuration ends without a status. A field of an address that is an array or an
object, or a port outside 32 bits, stops the load with a fault, unless something that comes before
it in the order of reading refuses the document first. Nothing else stops a load.
-/
namespace RpcHost

open Attempt Host

variable {h : Host} {document v : Json} {fault : Fault} {heading name text : String}
  {members : List (String × Json)} {loader : Loader}

theorem Attempt.outcome_bind_eq_error {α β : Type} {m : Attempt α} {k : α → Attempt β} :
    (m >>= k).outcome h = .error fault ↔ m.outcome h = .error fault ∨
      ∃ a, m.outcome h = .ok a ∧ (k a).outcome (m.after h) = .error fault := by
  unfold outcome
  rw [ending_bind]
  unfold outcome
  cases (m.ending h).1 <;> simp

def Meets {α : Type} (good bad : α → Prop) (items : List α) : Prop :=
  ∃ before item after, items = before ++ item :: after ∧ (∀ other ∈ before, good other) ∧ bad item

section

variable {α : Type} {good bad : α → Prop} {item : α} {rest : List α}

theorem not_meets_nil : ¬Meets good bad [] := by
  rintro ⟨before, item, after, split, _⟩
  simp at split

theorem meets_cons :
    Meets good bad (item :: rest) ↔ bad item ∨ good item ∧ Meets good bad rest := by
  constructor
  · rintro ⟨before, other, after, split, goods, fails⟩
    cases before with
    | nil =>
      obtain ⟨rfl, rfl⟩ := List.cons.inj split
      exact Or.inl fails
    | cons first others =>
      obtain ⟨rfl, rfl⟩ := List.cons.inj split
      obtain ⟨fine, goods⟩ := List.forall_mem_cons.1 goods
      exact Or.inr ⟨fine, others, other, after, rfl, goods, fails⟩
  · rintro (fails | ⟨fine, before, other, after, rfl, goods, fails⟩)
    · exact ⟨[], item, rest, rfl, by simp, fails⟩
    · exact ⟨item :: before, other, after, rfl, List.forall_mem_cons.2 ⟨fine, goods⟩, fails⟩

end

/-- A field cannot hold an array or an object, nor the port an integer outside 32 bits. -/
def Url.Field.Unfit (field : Field) (v : Json) : Prop :=
  v.isComposite = true ∨ field = .port ∧ v.isIntegral = true ∧ v.int32? = none

def Url.Unfit (v : Json) : Prop :=
  ∃ members, v = .obj members ∧
    ∃ entry ∈ members, ∃ field, Field.ofName? entry.1 = some field ∧ field.Unfit entry.2

theorem Url.portOf?_eq_none_iff (v : Json) : portOf? v = none ↔ Field.port.Unfit v := by
  unfold portOf? Field.Unfit
  by_cases integral : v.isIntegral = true
  · have scalar : v.isComposite = false := by
      cases v <;> first | rfl | cases integral
    simp [integral, scalar]
  · simp [integral, Json.text?_eq_none_iff]

theorem Url.setField?_eq_none_iff (u : Url) (field : Field) (v : Json) :
    u.setField? field v = none ↔ field.Unfit v := by
  cases field with
  | port => rw [setField?, Option.map_eq_none_iff, portOf?_eq_none_iff]
  | _ => simp [setField?, Field.Unfit, Json.text?_eq_none_iff]

theorem Url.readMembers_url?_eq_none_iff (members : List (String × Json)) (u : Url) :
    (readMembers members u).url? = none ↔
      ∃ entry ∈ members, ∃ field, Field.ofName? entry.1 = some field ∧ field.Unfit entry.2 := by
  -- on the members, whose fields are set one after the other
  induction members generalizing u with
  | nil => simp [readMembers]
  | cons entry rest ih =>
    obtain ⟨name, v⟩ := entry
    simp only [List.mem_cons, exists_eq_or_imp]
    unfold readMembers
    cases names : Field.ofName? name with
    | none =>
      cases text : v.text? with
      | none => simpa [names] using ih u
      | some s => simpa [names] using ih (u.putParam name s)
    | some field =>
      have unfit_iff := u.setField?_eq_none_iff field v
      cases sets : u.setField? field v with
      | none => simp [sets, unfit_iff.1 sets]
      | some u' =>
        have fit : ¬field.Unfit v := fun unfit => by simp [unfit_iff.2 unfit] at sets
        simpa [names, sets, fit] using ih u'

theorem Url.of?_obj (members : List (String × Json)) :
    of? (.obj members) = (readMembers members empty).url? := rfl

theorem Url.unfit_obj_iff : Unfit (.obj members) ↔ of? (.obj members) = none := by
  have none_iff := readMembers_url?_eq_none_iff members empty
  rw [of?_obj, none_iff]
  constructor
  · rintro ⟨_, same, unfit⟩
    cases same
    exact unfit
  · intro unfit
    exact ⟨members, rfl, unfit⟩

theorem readUrl_fails_iff (v : Json) (h : Host) :
    (readUrl v).outcome h = .error fault ↔ Url.Unfit v ∧ fault = .conversion := by
  cases v with
  | obj members =>
    rw [Url.unfit_obj_iff, Url.of?_obj]
    unfold readUrl outcome
    dsimp only [Url.read?]
    rw [ending_lift_bind]
    cases (Url.readMembers members .empty).url? with
    | none =>
      show Except.error Fault.conversion = .error fault ↔ _
      simp [eq_comm]
    | some url =>
      show Except.ok (some _) = Except.error fault ↔ _
      simp
  | _ =>
    constructor
    · intro fails
      cases fails
    · rintro ⟨⟨members, same, _⟩, _⟩
      cases same

theorem readEntries_fails_iff (heading : String) (members : List (String × Json))
    (refs : Keyed UrlRef) (h : Host) :
    (readEntries heading members refs).outcome h = .error fault ↔
      Meets (fun entry => (Url.of? entry.2).isSome = true) (fun entry => Url.Unfit entry.2)
        members ∧ fault = .conversion := by
  -- on the members: reading goes on to the next of them only after an address
  induction members generalizing refs h with
  | nil => simp [not_meets_nil, readEntries, outcome]
  | cons entry rest ih =>
    obtain ⟨name, v⟩ := entry
    unfold readEntries
    rw [Attempt.outcome_bind_eq_error, readUrl_fails_iff, meets_cons, or_and_right, and_assoc]
    apply or_congr_right
    constructor
    · rintro ⟨found, reads, fails⟩
      cases found with
      | none => cases fails
      | some u => exact ⟨readUrl_found (yields_iff.2 ⟨reads, rfl⟩), (ih _ _).1 fails⟩
    · rintro ⟨tells, fails⟩
      obtain ⟨url, tells⟩ := Option.isSome_iff_exists.1 tells
      obtain ⟨mid, reads, _⟩ := readUrl_reads tells h
      exact ⟨_, (yields_iff.1 reads).1, (ih _ _).2 fails⟩

/-- The section ends the load: one of its addresses has an unfit field, and those before it can be
read. -/
def Json.Stuck (document : Json) (heading : String) : Prop :=
  ∃ members, document.section? heading = some members ∧
    Meets (fun entry => (Url.of? entry.2).isSome = true) (fun entry => Url.Unfit entry.2) members

theorem readSection_fails_iff (document : Json) (heading : String) (h : Host) :
    (readSection document heading).outcome h = .error fault ↔
      document.Stuck heading ∧ fault = .conversion := by
  unfold readSection Json.Stuck Json.section?
  cases document.member heading with
  | obj members => simp [readEntries_fails_iff]
  | null => simp [not_meets_nil, outcome]
  | _ =>
    constructor
    · intro fails
      cases fails
    · rintro ⟨⟨members, found, _⟩, _⟩
      cases found

def Configuration.sections : List String := [registrySection, basicSection, serviceSection]

/-- One of the sections ends the load, and those before it can be read. -/
def Json.BreaksOff (document : Json) : Prop :=
  Meets (fun heading => ∃ members, document.section? heading = some members ∧ Readable members)
    document.Stuck Configuration.sections

theorem readSection_bind_fails_iff {α : Type} {k : Option (Keyed UrlRef) → Attempt α}
    {headings : List String} (ordered : document.Ordered)
    (stops : ∀ h, ∃ a, (k none).outcome h = .ok a)
    (goes : ∀ refs h, (k (some refs)).outcome h = .error fault ↔
      Meets (fun heading => ∃ members, document.section? heading = some members ∧
        Readable members) document.Stuck headings ∧ fault = .conversion) (h : Host) :
    (readSection document heading >>= k).outcome h = .error fault ↔
      Meets (fun heading => ∃ members, document.section? heading = some members ∧
        Readable members) document.Stuck (heading :: headings) ∧ fault = .conversion := by
  rw [Attempt.outcome_bind_eq_error, readSection_fails_iff, meets_cons, or_and_right, and_assoc]
  apply or_congr_right
  constructor
  · rintro ⟨found, reads, fails⟩
    cases found with
    | none =>
      obtain ⟨a, ok⟩ := stops ((readSection document heading).after h)
      rw [ok] at fails
      cases fails
    | some refs => exact ⟨readSection_readable (yields_iff.2 ⟨reads, rfl⟩), (goes _ _).1 fails⟩
  · rintro ⟨⟨members, found, readable⟩, fails⟩
    obtain ⟨refs, mid, reads, _⟩ := readSection_reads ordered found readable h
    exact ⟨_, (yields_iff.1 reads).1, (goes _ _).2 fails⟩

theorem readSections_fails_iff (ordered : document.Ordered) (h : Host) :
    (readSections document).outcome h = .error fault ↔
      document.BreaksOff ∧ fault = .conversion := by
  unfold readSections Json.BreaksOff Configuration.sections
  apply readSection_bind_fails_iff ordered (fun _ => ⟨_, rfl⟩)
  intro registries
  apply readSection_bind_fails_iff ordered (fun _ => ⟨_, rfl⟩)
  intro basics
  apply readSection_bind_fails_iff ordered (fun _ => ⟨_, rfl⟩)
  intro services h
  simp [not_meets_nil, outcome]

theorem loadDocument_ends (loader : Loader) (ordered : document.Ordered) (c : ConfigurationRef)
    (h : Host) :
    (loadDocument loader c document).outcome h = .ok .ok ∨
      (loadDocument loader c document).outcome h = .ok .configError ∨
      document.BreaksOff ∧ (loadDocument loader c document).outcome h = .error .conversion := by
  rcases yields_or_fails (readSections document) h with ⟨found, reads⟩ | ⟨fault, fails⟩
  · have ends : (loadDocument loader c document).ending h = _ := reads.ending_bind _
    cases found with
    | none => exact Or.inr (Or.inl (congrArg Prod.fst ends))
    | some sections =>
      obtain ⟨registries, basics, services⟩ := sections
      obtain ⟨accepts, refuses⟩ := loadDocument_inherits reads c
      cases done : (inheritAll basics (loader.services.walk services)).value
          ((readSections document).after h) with
      | true =>
        obtain ⟨h', yields, _⟩ := accepts done
        exact Or.inl (yields_iff.1 yields).1
      | false => exact Or.inr (Or.inl (refuses done))
  · obtain ⟨breaks, rfl⟩ := (readSections_fails_iff ordered h).1 (fails_iff.1 fails).1
    exact Or.inr (Or.inr ⟨breaks, congrArg Prod.fst (fails.ending_bind _)⟩)

theorem loadDocument_fails (ordered : document.Ordered) (breaks : document.BreaksOff)
    (c : ConfigurationRef) (h : Host) :
    (loadDocument loader c document).outcome h = .error .conversion := by
  have fails := (readSections_fails_iff ordered h).2 ⟨breaks, rfl⟩
  exact Attempt.outcome_bind_eq_error.2 (Or.inl fails)

theorem Json.BreaksOff.isObject (breaks : document.BreaksOff) : document.isObject = true := by
  obtain ⟨_, heading, _, _, _, members, found, _, entry, _, split, _⟩ := breaks
  cases document with
  | obj members => rfl
  | _ =>
    cases found
    simp at split

theorem loadText_ends (loader : Loader) (c : ConfigurationRef) (text : String) (h : Host) :
    (loadText loader c text).outcome h = .ok .ok ∨
      (loadText loader c text).outcome h = .ok .configError ∨
      (∃ document, loader.read? text = some document ∧ document.BreaksOff) ∧
        (loadText loader c text).outcome h = .error .conversion := by
  rcases loadText_cases loader c text h with ⟨members, reads, loads⟩ | ⟨_, refused⟩
  · rw [loads]
    have ends := loadDocument_ends loader (loader.ordered reads) c h
    rcases ends with accepted | refused | ⟨breaks, fails⟩
    · exact Or.inl accepted
    · exact Or.inr (Or.inl refused)
    · exact Or.inr (Or.inr ⟨⟨_, reads, breaks⟩, fails⟩)
  · exact Or.inr (Or.inl refused)

theorem loadText_fails (reads : loader.read? text = some document) (breaks : document.BreaksOff)
    (c : ConfigurationRef) (h : Host) :
    (loadText loader c text).outcome h = .error .conversion := by
  have object := breaks.isObject
  cases document with
  | obj members =>
    unfold loadText
    rw [reads]
    exact loadDocument_fails (loader.ordered reads) breaks c h
  | _ => cases object

theorem loadText_fails_iff (loader : Loader) (c : ConfigurationRef) (text : String) (h : Host) :
    (loadText loader c text).outcome h = .error .conversion ↔
      ∃ document, loader.read? text = some document ∧ document.BreaksOff := by
  constructor
  · intro fails
    rcases loadText_ends loader c text h with ends | ends | ⟨breaks, _⟩
    · simp [ends] at fails
    · simp [ends] at fails
    · exact breaks
  · rintro ⟨document, reads, breaks⟩
    exact loadText_fails reads breaks c h

def Host.named (h : Host) (c : ConfigurationRef) (name : String) : Host :=
  (modifyConfiguration c fun configuration => { configuration with file := name }).after h

theorem loadFile_opened (opens : h.files.read? name = some text) (c : ConfigurationRef) :
    (loadFile loader c name).ending h = (loadText loader c text).ending (h.named c name) := by
  unfold loadFile
  rw [ending_get_bind, opens]
  dsimp only
  rw [ending_lift_bind]
  rfl

theorem loadFile_missing (missing : h.files.read? name = none) (c : ConfigurationRef) :
    ∃ screen files, (loadFile loader c name).ending h =
      (.ok .configError, { h with screen, files }) := by
  obtain ⟨screen, files, leaves⟩ := writeLog_logged .error ["打开配置文件 ", name, " 失败!\n"] h
  refine ⟨screen, files, ?_⟩
  unfold loadFile
  rw [ending_get_bind, missing]
  dsimp only
  rw [ending_lift_bind, leaves]
  rfl

/-- Loading ends with one of two statuses, or with a fault that says that a value has the wrong
shape. It does the latter exactly where a document breaks off, be it given as a text or in a
file. -/
theorem loading_breaks_off_iff (loader : Loader) (c : ConfigurationRef) (h : Host) :
    (∀ text, ((loadText loader c text).outcome h = .ok .ok ∨
        (loadText loader c text).outcome h = .ok .configError ∨
        (loadText loader c text).outcome h = .error .conversion) ∧
      ((loadText loader c text).outcome h = .error .conversion ↔
        ∃ document, loader.read? text = some document ∧ document.BreaksOff)) ∧
    ∀ name, ((loadFile loader c name).outcome h = .ok .ok ∨
        (loadFile loader c name).outcome h = .ok .configError ∨
        (loadFile loader c name).outcome h = .error .conversion) ∧
      ((loadFile loader c name).outcome h = .error .conversion ↔
        ∃ text document, h.files.read? name = some text ∧ loader.read? text = some document ∧
          document.BreaksOff) := by
  constructor
  · intro text
    exact ⟨(loadText_ends loader c text h).imp_right (Or.imp_right And.right),
      loadText_fails_iff loader c text h⟩
  · intro name
    cases opens : h.files.read? name with
    | none =>
      obtain ⟨screen, files, ends⟩ := loadFile_missing opens c
      have refused : (loadFile loader c name).outcome h = .ok .configError := congrArg Prod.fst ends
      simp [refused]
    | some text =>
      have same :
          (loadFile loader c name).outcome h = (loadText loader c text).outcome (h.named c name) :=
        congrArg Prod.fst (loadFile_opened opens c)
      rw [same]
      refine ⟨(loadText_ends loader c text _).imp_right (Or.imp_right And.right), ?_⟩
      simpa using loadText_fails_iff loader c text _

/-- Among the parameters an array is passed over, but in the path it stops the load. -/
theorem loadText_stopped_by_path :
    (loadText .standard ⟨0⟩ "\x7b\"services\":\x7b\"s\":\x7b\"filter\":[]\x7d\x7d\x7d").outcome
        (.start (.workingIn []) (fun _ _ => 0) fun _ _ => 0) = .ok .ok ∧
      (loadText .standard ⟨0⟩ "\x7b\"services\":\x7b\"s\":\x7b\"path\":[]\x7d\x7d\x7d").outcome
        (.start (.workingIn []) (fun _ _ => 0) fun _ _ => 0) = .error .conversion := by
  have passed : Loader.standard.read? "\x7b\"services\":\x7b\"s\":\x7b\"filter\":[]\x7d\x7d\x7d" =
      some (.obj [("services", .obj [("s", .obj [("filter", .arr [])])])]) := by
    rw [Loader.read?_standard]
    cbv
  have stopped : Loader.standard.read? "\x7b\"services\":\x7b\"s\":\x7b\"path\":[]\x7d\x7d\x7d" =
      some (.obj [("services", .obj [("s", .obj [("path", .arr [])])])]) := by
    rw [Loader.read?_standard]
    cbv
  constructor
  · unfold loadText
    rw [passed]
    rfl
  · unfold loadText
    rw [stopped]
    rfl

end RpcHost
