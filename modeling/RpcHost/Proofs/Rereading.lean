import RpcHost.Message.Access
import RpcHost.Proofs.Registration
/-!
Reading a message does not change what is read. A reading leaves marks where a member was absent,
and these read as the absent member did. So each answer is what it would be if nothing else had ever
been read, and what was set last is what is read.
-/
namespace RpcHost

open Step

/-- One use of a thing that things are set in and read from. -/
inductive Use (S R : Type) where
  | set (setting : S)
  | read (reading : R)

namespace Use

variable {S R : Type}

def isSetting : Use S R → Bool
  | set _ => true
  | read _ => false

def settings (uses : List (Use S R)) : List (Use S R) := uses.filter isSetting

def readings (uses : List (Use S R)) : Nat := uses.countP fun use => !use.isSetting

end Use

/-- What things are set in and read from, and what both leave. -/
structure Slate (σ S R A : Type) where
  put : S → σ → σ
  ask : R → σ → A × σ

namespace Slate

variable {σ S R A V : Type} (m : Slate σ S R A)

def answers : List (Use S R) → σ → List A
  | [], _ => []
  | .set w :: rest, s => answers rest (m.put w s)
  | .read r :: rest, s => (m.ask r s).1 :: answers rest (m.ask r s).2

def after : List (Use S R) → σ → σ
  | [], s => s
  | .set w :: rest, s => after rest (m.put w s)
  | .read r :: rest, s => after rest (m.ask r s).2

/-- A reading among other uses is answered as if there were no other reading. -/
def Unseen (s : σ) : Prop :=
  ∀ before r later, ∃ a, (m.answers (before ++ .read r :: later) s)[Use.readings before]? = some a ∧
    m.answers (Use.settings before ++ .read r :: Use.settings later) s = [a]

/-- What is set is what a reading of it gives, whatever else has been read since. `shown` tells the
reading and what it gives. -/
def Keeps (shown : S → R × A) (s : σ) : Prop :=
  ∀ before w (between : List R),
    (m.answers (before ++ .set w :: (between.map Use.read ++ [.read (shown w).1])) s).getLast? =
      some (shown w).2

theorem answers_append (before later : List (Use S R)) (s : σ) :
    m.answers (before ++ later) s = m.answers before s ++ m.answers later (m.after before s) := by
  induction before generalizing s with
  | nil => rfl
  | cons use rest ih => cases use <;> simp [answers, after, ih]

theorem length_answers (uses : List (Use S R)) (s : σ) :
    (m.answers uses s).length = Use.readings uses := by
  induction uses generalizing s with
  | nil => rfl
  | cons use rest ih => cases use <;> simp [answers, ih, Use.readings, Use.isSetting]

theorem answers_settings (uses : List (Use S R)) (s : σ) :
    m.answers (Use.settings uses) s = [] := by
  induction uses generalizing s with
  | nil => rfl
  | cons use rest ih =>
    cases use with
    | set w => exact ih (m.put w s)
    | read r => exact ih s

/-- The view is all that readings and settings go by, and readings leave it. -/
structure Shows (view : σ → V) : Prop where
  read : ∀ r s, view (m.ask r s).2 = view s
  put : ∀ w s s', view s = view s' → view (m.put w s) = view (m.put w s')
  answer : ∀ r s s', view s = view s' → (m.ask r s).1 = (m.ask r s').1

namespace Shows

variable {m} {view : σ → V} (shows : m.Shows view)

include shows

theorem after_settings (uses : List (Use S R)) {s s' : σ} (same : view s = view s') :
    view (m.after uses s) = view (m.after (Use.settings uses) s') := by
  -- a reading leaves the view that the settings have come to
  induction uses generalizing s s' with
  | nil => exact same
  | cons use rest ih =>
    cases use with
    | set w => exact ih (shows.put w s s' same)
    | read r => exact ih ((shows.read r s).trans same)

theorem after_readings (between : List R) (s : σ) :
    view (m.after (between.map .read) s) = view s := by
  have left := shows.after_settings (between.map .read) (rfl : view s = view s)
  have none : Use.settings (between.map (Use.read (S := S))) = [] := by
    simp [Use.settings, Use.isSetting]
  simpa [none, after] using left

theorem unseen (s : σ) : m.Unseen s := by
  intro before r later
  have left := shows.after_settings before (rfl : view s = view s)
  refine ⟨(m.ask r (m.after before s)).1, ?_, ?_⟩
  · rw [answers_append, ← m.length_answers before s]
    simp [answers]
  · rw [answers_append, answers_settings, shows.answer r _ _ left]
    simp [answers, answers_settings]

theorem keeps {shown : S → R × A}
    (given : ∀ w s, (m.ask (shown w).1 (m.put w s)).1 = (shown w).2) (s : σ) :
    m.Keeps shown s := by
  intro before w between
  have left := shows.after_readings between (m.put w (m.after before s))
  simp [answers_append, answers, shows.answer _ _ _ left, given]

end Shows

end Slate

/-! What readings leave in a body -/

def Json.at? : List String → Json → Option Json
  | [], v => some v
  | name :: rest, v => (v.member? name).bind (at? rest)

/-- What is at the paths is there, null where it was absent, and nothing else has changed. -/
structure Json.Marked (paths : List (List String)) (before after : Json) : Prop where
  seen : ∀ path ∈ paths, after.at? path = some ((before.at? path).getD .null)
  rest : ∀ path, (∀ other ∈ paths, ¬other <+: path ∧ ¬path <+: other) →
    after.at? path = before.at? path

namespace Json

variable {before after : Json}

theorem Marked.refl (v : Json) : Marked [] v v := ⟨nofun, fun _ _ => rfl⟩

def Looked (names : List String) (before after : Json) : Prop :=
  ∀ name, after.member? name =
    if name ∈ names then some (before.member name) else before.member? name

theorem Looked.trans {names others : List String} {v : Json} (first : Looked names before v)
    (second : Looked others v after) : Looked (names ++ others) before after := by
  intro name
  have kept : v.member name = before.member name := by
    unfold member
    rw [first name]
    split <;> rfl
  rw [second name, kept, first name]
  by_cases listed : name ∈ names <;> by_cases later : name ∈ others <;> simp [listed, later]

theorem Looked.marked {names : List String} (looked : Looked names before after)
    (some : names ≠ []) : Marked (names.map ([·])) before after := by
  constructor
  · intro path member
    obtain ⟨name, listed, rfl⟩ := List.mem_map.1 member
    simp [at?, looked name, listed, Json.member]
  · intro path apart
    have apart (name) (listed : name ∈ names) := apart [name] (List.mem_map.2 ⟨name, listed, rfl⟩)
    cases path with
    | nil =>
      obtain ⟨name, listed⟩ := List.exists_mem_of_ne_nil names some
      exact absurd List.nil_prefix (apart name listed).2
    | cons name rest =>
      have other : name ∉ names := fun listed => (apart name listed).1 (by simp)
      simp [at?, looked name, other]

end Json

def Entries.present {α : Type} (entries : List (String × Option α)) : List (String × α) :=
  entries.filterMap fun entry => entry.2.map fun a => (entry.1, a)

theorem Entries.find?_of_not_mem {α : Type} {name : String} {entries : List (String × α)}
    (absent : name ∉ entries.map Prod.fst) : find? name entries = none := by
  induction entries with
  | nil => rfl
  | cons entry rest ih => simp_all [find?, eq_comm]

theorem Entries.find?_present {α : Type} {entries : List (String × Option α)}
    (distinct : (entries.map Prod.fst).Nodup) (name : String) :
    find? name (present entries) = (find? name entries).join := by
  induction entries with
  | nil => rfl
  | cons entry rest ih =>
    obtain ⟨label, held⟩ := entry
    obtain ⟨new, others⟩ := List.nodup_cons.1 distinct
    have found := ih others
    cases held with
    | some a =>
      show find? name ((label, a) :: present rest) = _
      by_cases same : label = name <;> simp [find?, same, found]
    | none =>
      show find? name (present rest) = _
      by_cases same : label = name
      · subst same
        simp [find?, found, find?_of_not_mem new]
      · simp [find?, same, found]

theorem Json.member?_present (name : String) (members : List (String × Option Json)) :
    (match Entries.present members with
      | [] => null
      | present => obj present).member? name = Entries.find? name (Entries.present members) := by
  cases Entries.present members <;> rfl

def Entries.look (label : String) (members : List (String × Option Json)) :
    List (String × Option Json) :=
  members.map fun entry => (entry.1, if entry.1 = label then some (entry.2.getD .null) else entry.2)

theorem Entries.find?_look (label name : String) (members : List (String × Option Json)) :
    find? name (look label members) =
      if name = label then (find? name members).map fun v => some (v.getD .null)
      else find? name members := by
  induction members with
  | nil => simp [look, find?]
  | cons entry rest ih =>
    show find? name ((entry.1, _) :: look label rest) = _
    by_cases here : entry.1 = name
    · simp only [find?, here, if_true, Option.map_some]
      split <;> rfl
    · simp only [find?, here, if_false, ih]

theorem Json.looked_of_members {label : String} {members : List (String × Option Json)}
    {before after : Json} (listed : (Entries.find? label members).isSome = true)
    (had : ∀ name, before.member? name = (Entries.find? name members).join)
    (has : ∀ name, after.member? name = (Entries.find? name (Entries.look label members)).join) :
    Looked [label] before after := by
  intro name
  rw [has, Entries.find?_look, Json.member, had]
  by_cases here : name = label
  · subst here
    obtain ⟨v, found⟩ := Option.isSome_iff_exists.1 listed
    simp [found]
  · simp [here]

/-! Requests -/

namespace Request

variable {q : Request}

def members (q : Request) : List (String × Option Json) :=
  [("attachments", q.attachments.map attachmentsJson), ("method", q.method.json?),
    ("method_desc", q.methodDesc.json?), ("parameters", q.params), ("service", q.service.json?)]

theorem member?_body (q : Request) (name : String) :
    q.body.member? name = (Entries.find? name q.members).join := by
  have distinct : (q.members.map Prod.fst).Nodup := by simp [members]
  exact (Json.member?_present name q.members).trans (Entries.find?_present distinct name)

theorem member?_attachmentsJson (held : Keyed TextMember) (key : String) :
    (attachmentsJson held).member? key = (held.find? key).map fun m => m.json?.getD .null :=
  Entries.find?_map (fun m : TextMember => m.json?.getD .null) key held.entries

/-- What a request says to those who read it. A blank member says what an absent one does. -/
structure Content where
  rid : String
  service : TextMember
  method : TextMember
  methodDesc : TextMember
  params : Json
  attachment : String → TextMember

def attached (q : Request) (key : String) : TextMember :=
  ((q.attachments.getD .empty).find? key).getD .absent

def content (q : Request) : Content where
  rid := q.rid
  service := q.service.seen
  method := q.method.seen
  methodDesc := q.methodDesc.seen
  params := q.parameters
  attachment key := (q.attached key).seen

inductive Setting where
  | rid (s : String)
  | service (s : String)
  | method (s : String)
  | methodDesc (s : String)
  | params (v : Json)
  | attachment (key s : String)

def set (q : Request) : Setting → Request
  | .rid s => { q with rid := s }
  | .service s => { q with service := .text s }
  | .method s => { q with method := .text s }
  | .methodDesc s => { q with methodDesc := .text s }
  | .params v => { q with params := some v }
  | .attachment key s => q.setAttachment key s

inductive Reading where
  | rid
  | service
  | method
  | methodDesc
  | params
  | attachment (key : String)
  | info
  | check

namespace Reading

def ask (q : RequestRef) : Reading → Step Json
  | rid => return .str (← requestRid (some q))
  | service => return .str (← requestService (some q))
  | method => return .str (← requestMethod (some q))
  | methodDesc => return .str (← readRequest methodDescSeen (·.methodDesc.value) q)
  | params => requestParams (some q)
  | attachment key => return .str (← readRequest (·.attachmentSeen key) (·.attachment key) q)
  | info => return .str (← requestInfo (some q))
  | check => return .bool (← checkRequest q)

/-- The members that the reading looks at. A check ends at the first defect. -/
def looksAt (q : Request) : Reading → List (List String)
  | rid => []
  | service => [["service"]]
  | method => [["method"]]
  | methodDesc => [["method_desc"]]
  | params => [["parameters"]]
  | attachment key => [["attachments", key]]
  | info => [["service"], ["method"]]
  | check =>
    if !q.service.isText then [["service"]]
    else if !q.method.isText then [["service"], ["method"]]
    else [["service"], ["method"], ["parameters"]]

def left (q : Request) : Reading → Request
  | rid => q
  | service => q.serviceSeen
  | method => q.methodSeen
  | methodDesc => q.methodDescSeen
  | params => q.paramsSeen
  | attachment key => q.attachmentSeen key
  | info => q.infoSeen
  | check => q.check.2

end Reading

def Setting.shown : Setting → Reading × Json
  | rid s => (.rid, .str s)
  | service s => (.service, .str s)
  | method s => (.method, .str s)
  | methodDesc s => (.methodDesc, .str s)
  | params v => (.params, v)
  | attachment key s => (.attachment key, .str s)

def slate (q : RequestRef) : Slate Host Setting Reading Json where
  put w := (modifyRequest q (·.set w)).after
  ask r h := ((r.ask q).value h, (r.ask q).after h)

theorem isText_serviceSeen (q : Request) : q.serviceSeen.service.isText = q.service.isText :=
  q.service.isText_seen

theorem isText_methodSeen (q : Request) :
    q.serviceSeen.methodSeen.method.isText = q.method.isText :=
  q.method.isText_seen

theorem check_snd (q : Request) :
    q.check.2 = if !q.service.isText then q.serviceSeen
      else if !q.method.isText then q.serviceSeen.methodSeen
      else q.serviceSeen.methodSeen.paramsSeen := by
  unfold check
  simp only [isText_serviceSeen, isText_methodSeen]
  split
  · rfl
  · split
    · rfl
    · rw [apply_ite Prod.snd, ite_self]

theorem requests_checkRequest (q : RequestRef) (h : Host) :
    ((checkRequest q).after h).requests.get q = (h.requests.get q).check.2 := by
  unfold checkRequest modifyRequest
  cases defect : (h.requests.get q).check.1 with
  | none => simp [-bind_pure_comp, defect]
  | some found =>
    have logged (mid : Host) :
        ((writeLog .error [found.message]).after mid).requests = mid.requests := by
      obtain ⟨_, _, same⟩ := writeLog_logged .error [found.message] mid
      rw [same]
    simp [-bind_pure_comp, defect, logged]

theorem value_checkRequest (q : RequestRef) (h : Host) :
    (checkRequest q).value h = (h.requests.get q).check.1.isNone := by
  unfold checkRequest
  cases defect : (h.requests.get q).check.1 <;> simp [-bind_pure_comp, defect]

theorem Reading.requests_ask (r : Reading) (q : RequestRef) (h : Host) :
    ((r.ask q).after h).requests.get q = r.left (h.requests.get q) := by
  cases r with
  | rid => rfl
  | check => exact requests_checkRequest q h
  | _ => exact Store.get_modify_self h.requests q _

theorem attached_insert (held : Keyed TextMember) (q : Request) (key other : String)
    (m : TextMember) :
    attached { q with attachments := some (held.insert key m) } other =
      if other = key then m else (held.find? other).getD .absent := by
  unfold attached
  rw [Option.getD_some, Keyed.find?_insert]
  split <;> rfl

@[simp] theorem content_serviceSeen (q : Request) : q.serviceSeen.content = q.content := by
  simp [content, serviceSeen, parameters, attached]

@[simp] theorem content_methodSeen (q : Request) : q.methodSeen.content = q.content := by
  simp [content, methodSeen, parameters, attached]

@[simp] theorem content_methodDescSeen (q : Request) : q.methodDescSeen.content = q.content := by
  simp [content, methodDescSeen, parameters, attached]

@[simp] theorem content_paramsSeen (q : Request) : q.paramsSeen.content = q.content := by
  simp [content, paramsSeen, parameters, attached]

@[simp] theorem content_attachmentSeen (q : Request) (key : String) :
    (q.attachmentSeen key).content = q.content := by
  have same (other : String) :
      ((q.attachmentSeen key).attached other).seen = (q.attached other).seen := by
    unfold attachmentSeen
    rw [attached_insert]
    split
    · rename_i here
      rw [here, TextMember.seen_seen]
      rfl
    · rfl
  unfold content
  congr 1
  exact funext same

theorem Reading.content_left (r : Reading) (q : Request) : (r.left q).content = q.content := by
  cases r with
  | check =>
    rw [left, check_snd]
    split
    · simp
    · split <;> simp
  | info => simp [left, infoSeen]
  | _ => simp [left]

namespace Content

def set (c : Content) : Setting → Content
  | .rid s => { c with rid := s }
  | .service s => { c with service := .text s }
  | .method s => { c with method := .text s }
  | .methodDesc s => { c with methodDesc := .text s }
  | .params v => { c with params := v }
  | .attachment key s =>
    { c with attachment := fun other => if other = key then .text s else c.attachment other }

def isSound (c : Content) : Bool :=
  c.service.isText && c.method.isText && (c.params.isNull || c.params.isObject)

def answer (c : Content) : Reading → Json
  | .rid => .str c.rid
  | .service => .str c.service.value
  | .method => .str c.method.value
  | .methodDesc => .str c.methodDesc.value
  | .params => c.params
  | .attachment key => .str (c.attachment key).value
  | .info =>
    .str ("service=" ++ c.service.value ++ ", method=" ++ c.method.value ++ ", rid=" ++ c.rid)
  | .check => .bool c.isSound

end Content

theorem content_set (q : Request) (w : Setting) : (q.set w).content = q.content.set w := by
  cases w with
  | attachment key s =>
    have seen (other : String) : ((q.setAttachment key s).attached other).seen =
        if other = key then .text s else (q.attached other).seen := by
      unfold setAttachment
      rw [attached_insert]
      split <;> rfl
    unfold content Content.set
    congr 1
    exact funext seen
  | _ => rfl

theorem isNone_check (q : Request) : q.check.1.isNone = q.content.isSound := by
  have params : q.serviceSeen.methodSeen.paramsSeen.paramsFit = q.paramsFit := rfl
  have sound : q.content.isSound = (q.service.isText && q.method.isText && q.paramsFit) := by
    simp [Content.isSound, content, paramsFit]
  unfold check
  simp only [isText_serviceSeen, isText_methodSeen, params, sound]
  cases q.service.isText <;> cases q.method.isText <;> cases q.paramsFit <;> rfl

theorem Reading.value_ask (r : Reading) (q : RequestRef) (h : Host) :
    (r.ask q).value h = (h.requests.get q).content.answer r := by
  have reads (m : TextMember) : Json.str m.value = .str m.seen.value := by simp
  cases r with
  | rid => rfl
  | params => rfl
  | service => exact reads _
  | method => exact reads _
  | methodDesc => exact reads _
  | attachment key => exact reads _
  | info =>
    show Json.str (Request.info _) = _
    simp [Request.info, Content.answer, content]
  | check =>
    show Json.bool ((checkRequest q).value h) = _
    rw [value_checkRequest, isNone_check]
    rfl

theorem requests_put (q : RequestRef) (w : Setting) (h : Host) :
    ((slate q).put w h).requests.get q = (h.requests.get q).set w :=
  Store.get_modify_self h.requests q _

theorem shows (q : RequestRef) : (slate q).Shows fun h => (h.requests.get q).content where
  read r h := by
    show (((r.ask q).after h).requests.get q).content = _
    rw [r.requests_ask, r.content_left]
  put w h h' same := by
    rw [requests_put, requests_put, content_set, content_set, same]
  answer r h h' same := by
    show (r.ask q).value h = (r.ask q).value h'
    rw [r.value_ask, r.value_ask, same]

theorem slate_given (q : RequestRef) (w : Setting) (h : Host) :
    ((slate q).ask w.shown.1 ((slate q).put w h)).1 = w.shown.2 := by
  show (w.shown.1.ask q).value _ = _
  rw [Reading.value_ask, requests_put, content_set]
  cases w with
  | attachment key s => simp [Content.set, Content.answer, Setting.shown, TextMember.value]
  | _ => rfl

/-! What readings leave in the body of a request -/

theorem looked_of_members {q' : Request} {label : String}
    (listed : (Entries.find? label q.members).isSome = true)
    (looks : q'.members = Entries.look label q.members) :
    Json.Looked [label] q.body q'.body :=
  Json.looked_of_members listed q.member?_body fun name => by rw [member?_body, looks]

theorem looked_serviceSeen (q : Request) : Json.Looked ["service"] q.body q.serviceSeen.body :=
  looked_of_members rfl
    (by simp [members, serviceSeen, Entries.look, TextMember.json?_seen])

theorem looked_methodSeen (q : Request) : Json.Looked ["method"] q.body q.methodSeen.body :=
  looked_of_members rfl
    (by simp [members, methodSeen, Entries.look, TextMember.json?_seen])

theorem looked_methodDescSeen (q : Request) :
    Json.Looked ["method_desc"] q.body q.methodDescSeen.body :=
  looked_of_members rfl
    (by simp [members, methodDescSeen, Entries.look, TextMember.json?_seen])

theorem looked_paramsSeen (q : Request) : Json.Looked ["parameters"] q.body q.paramsSeen.body :=
  looked_of_members rfl
    (by simp [members, paramsSeen, parameters, Entries.look])

theorem at?_attachments (q : Request) (key : String) (rest : List String) :
    q.body.at? ("attachments" :: key :: rest) =
      ((q.attachments.getD .empty).find? key).bind fun m => (m.json?.getD .null).at? rest := by
  have held : (Entries.find? "attachments" q.members).join = q.attachments.map attachmentsJson :=
    rfl
  show (q.body.member? "attachments").bind (fun v => (v.member? key).bind (Json.at? rest)) = _
  rw [member?_body, held]
  cases q.attachments with
  | none => rfl
  | some held =>
    show ((attachmentsJson held).member? key).bind _ = _
    rw [member?_attachmentsJson, Option.bind_map]
    rfl

theorem marked_attachmentSeen (q : Request) (key : String) :
    Json.Marked [["attachments", key]] q.body (q.attachmentSeen key).body := by
  have held (other : String) : (((q.attachmentSeen key).attachments.getD .empty).find? other) =
      if other = key then some (q.attached key).seen
      else (q.attachments.getD .empty).find? other := Keyed.find?_insert _ _ _ _
  constructor
  · intro path looked
    obtain rfl := List.mem_singleton.1 looked
    simp only [at?_attachments, held, attached, if_true, TextMember.json?_seen, Option.bind_some]
    cases (q.attachments.getD .empty).find? key <;> rfl
  · intro path apart
    obtain ⟨below, above⟩ := apart _ (List.mem_singleton.2 rfl)
    match path with
    | [] => exact absurd List.nil_prefix above
    | name :: rest =>
      by_cases here : name = "attachments"
      · subst here
        match rest with
        | [] => simp at above
        | other :: rest =>
          have differ : other ≠ key := by
            rintro rfl
            simp at below
          rw [at?_attachments, at?_attachments, held, if_neg differ]
      · simp [Json.at?, member?_body, members, attachmentSeen, Entries.find?, Ne.symm here]

example : (empty.attachmentSeen "k").body = .obj [("attachments", .obj [("k", .null)])] := rfl

theorem Reading.marked_left (r : Reading) (q : Request) :
    Json.Marked (r.looksAt q) q.body (r.left q).body := by
  have both := q.looked_serviceSeen.trans q.serviceSeen.looked_methodSeen
  cases r with
  | rid => exact .refl _
  | service => exact q.looked_serviceSeen.marked (by simp)
  | method => exact q.looked_methodSeen.marked (by simp)
  | methodDesc => exact q.looked_methodDescSeen.marked (by simp)
  | params => exact q.looked_paramsSeen.marked (by simp)
  | attachment key => exact q.marked_attachmentSeen key
  | info => exact both.marked (by simp)
  | check =>
    rw [left, check_snd, looksAt]
    split
    · exact q.looked_serviceSeen.marked (by simp)
    · split
      · exact both.marked (by simp)
      · exact (both.trans q.serviceSeen.methodSeen.looked_paramsSeen).marked (by simp)

end Request

/-! Responses -/

namespace Response

variable {m : Response}

def members (m : Response) : List (String × Option Json) :=
  [("exception", failureJson? m.failure), ("result", m.result)]

theorem member?_body (m : Response) (name : String) :
    m.body.member? name = (Entries.find? name m.members).join := by
  have distinct : (m.members.map Prod.fst).Nodup := by simp [members]
  exact (Json.member?_present name m.members).trans (Entries.find?_present distinct name)

structure Content where
  result : Json
  failure : FailureMember

def content (m : Response) : Content := ⟨m.resultValue, m.failure.seen⟩

inductive Setting where
  | result (v : Json)
  | failure (f : Failure)

def set (m : Response) : Setting → Response
  | .result v => { m with result := some v }
  | .failure f => { m with failure := .failure f }

inductive Reading where
  | result
  | hasFailure
  | failure
  | check

namespace Reading

def ask (m : Response) : Reading → Step (Json × Response)
  | result => return (m.resultValue, m.resultSeen)
  | hasFailure => return (.bool m.hasFailure, m.failureSeen)
  | failure => return (m.failure.value.json, m.failureSeen)
  | check => do
    let (complete, m) ← checkResponse m
    return (.bool complete, m)

def looksAt (m : Response) : Reading → List (List String)
  | result => [["result"]]
  | hasFailure => [["exception"]]
  | failure => [["exception"]]
  | check => if m.resultValue.isNull then [["result"], ["exception"]] else [["result"]]

def left (m : Response) : Reading → Response
  | result => m.resultSeen
  | hasFailure => m.failureSeen
  | failure => m.failureSeen
  | check => m.checked

end Reading

def Setting.shown : Setting → Reading × Json
  | result v => (.result, v)
  | failure f => (.failure, f.json)

def slate : Slate (Response × Host) Setting Reading Json where
  put w s := (s.1.set w, s.2)
  ask r s :=
    let (answer, left) := (r.ask s.1).value s.2
    (answer, left, (r.ask s.1).after s.2)

def Content.set (c : Content) : Setting → Content
  | .result v => { c with result := v }
  | .failure f => { c with failure := .failure f }

def Content.answer (c : Content) : Reading → Json
  | .result => c.result
  | .hasFailure => .bool c.failure.isFailure
  | .failure => c.failure.value.json
  | .check => .bool (!c.result.isNull || c.failure.isFailure)

theorem content_set (m : Response) (w : Setting) : (m.set w).content = m.content.set w := by
  cases w <;> rfl

@[simp] theorem content_resultSeen (m : Response) : m.resultSeen.content = m.content := rfl

@[simp] theorem content_failureSeen (m : Response) : m.failureSeen.content = m.content := by
  simp [content, failureSeen, resultValue, FailureMember.seen_seen]

theorem Reading.content_left (r : Reading) (m : Response) : (r.left m).content = m.content := by
  cases r with
  | check =>
    show m.checked.content = _
    unfold checked
    split <;> simp
  | _ => simp [left]

theorem value_checkResponse (m : Response) (h : Host) :
    (checkResponse m).value h = (m.isComplete, m.checked) := by
  unfold checkResponse
  cases m.isComplete <;> rfl

theorem Reading.value_ask (r : Reading) (m : Response) (h : Host) :
    (r.ask m).value h = (m.content.answer r, r.left m) := by
  have failed : m.hasFailure = m.failure.seen.isFailure := m.failure.isFailure_seen.symm
  cases r with
  | result => rfl
  | hasFailure => simp [ask, left, Content.answer, content, failed]
  | failure => simp [ask, left, Content.answer, content]
  | check =>
    simp [-bind_pure_comp, ask, value_checkResponse, left, isComplete, failed, Content.answer,
      content]

theorem shows : slate.Shows fun s => s.1.content where
  read r s := by
    show ((r.ask s.1).value s.2).2.content = _
    rw [r.value_ask, r.content_left]
  put w s s' same := by
    show (s.1.set w).content = (s'.1.set w).content
    rw [content_set, content_set, same]
  answer r s s' same := by
    show ((r.ask s.1).value s.2).1 = ((r.ask s'.1).value s'.2).1
    rw [r.value_ask, r.value_ask, same]

theorem slate_given (w : Setting) (s : Response × Host) :
    (slate.ask w.shown.1 (slate.put w s)).1 = w.shown.2 := by
  show ((w.shown.1.ask (s.1.set w)).value s.2).1 = _
  rw [Reading.value_ask, content_set]
  cases w <;> rfl

theorem looked_of_members {m' : Response} {label : String}
    (listed : (Entries.find? label m.members).isSome = true)
    (looks : m'.members = Entries.look label m.members) :
    Json.Looked [label] m.body m'.body :=
  Json.looked_of_members listed m.member?_body fun name => by rw [member?_body, looks]

theorem looked_resultSeen (m : Response) : Json.Looked ["result"] m.body m.resultSeen.body :=
  looked_of_members rfl (by simp [members, resultSeen, resultValue, Entries.look])

theorem looked_failureSeen (m : Response) :
    Json.Looked ["exception"] m.body m.failureSeen.body := by
  have seen : failureJson? m.failure.seen = some ((failureJson? m.failure).getD .null) := by
    cases m.failure <;> rfl
  exact looked_of_members rfl (by simp [members, failureSeen, Entries.look, seen])

theorem Reading.marked_left (r : Reading) (m : Response) :
    Json.Marked (r.looksAt m) m.body (r.left m).body := by
  cases r with
  | result => exact m.looked_resultSeen.marked (by simp)
  | check =>
    show Json.Marked (if m.resultValue.isNull then _ else _) _ m.checked.body
    unfold checked
    split
    · exact (m.looked_resultSeen.trans m.resultSeen.looked_failureSeen).marked (by simp)
    · exact m.looked_resultSeen.marked (by simp)
  | _ => exact m.looked_failureSeen.marked (by simp)

end Response

/-- A reading of a request or a response is answered as if there were no other reading, and gives
what was set last; and all that it leaves in the body are nulls where it looked and nothing was. -/
theorem reading_is_unseen (h : Host) (q : RequestRef) (m : Response) :
    ((Request.slate q).Unseen h ∧ (Request.slate q).Keeps Request.Setting.shown h ∧
      ∀ r : Request.Reading, Json.Marked (r.looksAt (h.requests.get q)) (h.requests.get q).body
        (((Request.slate q).ask r h).2.requests.get q).body) ∧
    Response.slate.Unseen (m, h) ∧ Response.slate.Keeps Response.Setting.shown (m, h) ∧
      ∀ r : Response.Reading, Json.Marked (r.looksAt m) m.body
        (Response.slate.ask r (m, h)).2.1.body := by
  refine ⟨⟨(Request.shows q).unseen h, ?_, ?_⟩, Response.shows.unseen (m, h), ?_, ?_⟩
  · exact (Request.shows q).keeps (Request.slate_given q) h
  · intro r
    show Json.Marked _ _ (((r.ask q).after h).requests.get q).body
    rw [r.requests_ask]
    exact r.marked_left _
  · exact Response.shows.keeps Response.slate_given (m, h)
  · intro r
    show Json.Marked _ _ ((r.ask m).value h).2.body
    rw [r.value_ask]
    exact r.marked_left m

end RpcHost
