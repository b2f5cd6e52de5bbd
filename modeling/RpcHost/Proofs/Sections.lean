import RpcHost.Configuration.Load
import RpcHost.Proofs.Registration
/-!
Reading the sections of a configuration. A section is read exactly where it is absent, null or an
object of addresses, and then each of its names leads to an address of its own, made just now, that
reads as the member of that name does. Nothing else changes but the log.
-/
namespace RpcHost

open Attempt Host

variable {h h' mid start : Host} {v document : Json} {url : Url} {name heading : String}
  {members : List (String × Json)} {refs : Keyed UrlRef} {u : UrlRef}

def Url.of? (v : Json) : Option Url := (read? v).bind Reading.url?

def Json.urlAt (document : Json) (heading name : String) : Option Url :=
  Url.of? ((document.member heading).member name)

def Readable (members : List (String × Json)) : Prop :=
  ∀ entry ∈ members, (Url.of? entry.2).isSome = true

/-- The members of a section; one that is absent or null has none. -/
def Json.section? (document : Json) (heading : String) : Option (List (String × Json)) :=
  match document.member heading with
  | .null => some []
  | .obj members => some members
  | _ => none

structure Host.Gathered (h h' : Host) : Prop where
  rest : ∃ urls screen files, h' = { h with urls, screen, files }
  urls : h.urls.Extends h'.urls

instance : Course Host.Gathered where
  refl h := ⟨⟨_, _, _, rfl⟩, .refl _⟩
  trans := by
    rintro h mid h' ⟨⟨_, _, _, rfl⟩, first⟩ ⟨⟨_, _, _, rfl⟩, second⟩
    exact ⟨⟨_, _, _, rfl⟩, first.trans second⟩

theorem writeLog_gathers (level : Level) (pieces : List String) :
    (writeLog level pieces).Within Gathered := by
  intro h
  obtain ⟨screen, files, leaves⟩ := writeLog_logged level pieces h
  rw [leaves]
  exact ⟨⟨_, _, _, rfl⟩, .refl _⟩

theorem warnIgnored_gathers (names : List String) : (warnIgnored names).Within Gathered := by
  induction names with
  | nil => exact Step.within_pure _
  | cons name rest ih => exact Step.within_bind (writeLog_gathers _ _) fun _ => ih

theorem addUrl_gathers (url : Url) : (addUrl url).Within Gathered :=
  fun h => ⟨⟨_, _, _, rfl⟩, (Store.Extends.refl h.urls).add url⟩

theorem readUrl_gathers (v : Json) : (readUrl v).Within Gathered := by
  unfold readUrl
  split
  · exact Attempt.within_bind (within_lift (writeLog_gathers _ _)) fun _ => Attempt.within_pure _
  · refine Attempt.within_bind (within_lift (warnIgnored_gathers _)) fun _ => ?_
    split
    · exact Attempt.within_throw _
    · exact Attempt.within_bind (within_lift (addUrl_gathers _)) fun _ => Attempt.within_pure _

theorem warnIgnored_urls (names : List String) (h : Host) :
    ((warnIgnored names).after h).urls = h.urls := by
  induction names generalizing h with
  | nil => rfl
  | cons name rest ih =>
    obtain ⟨screen, files, leaves⟩ := writeLog_logged .warning
      ["URL参数 ", name, " 不是简单类型，已忽略\n"] h
    unfold warnIgnored
    rw [Step.after_bind, ih, leaves]

theorem readUrl_reads (tells : Url.of? v = some url) (h : Host) :
    ∃ h', (readUrl v).Yields h (some h.urls.fresh) h' ∧ h'.urls = h.urls.add url := by
  obtain ⟨reading, reads, gives⟩ := Option.bind_eq_some_iff.1 tells
  have urls := warnIgnored_urls reading.ignored h
  refine ⟨(addUrl url).after ((warnIgnored reading.ignored).after h), ?_,
    congrArg (Store.add · url) urls⟩
  rw [← urls]
  unfold readUrl Attempt.Yields
  rw [reads]
  dsimp only
  rw [ending_lift_bind, gives]
  rfl

theorem readUrl_found {found : UrlRef} (yields : (readUrl v).Yields h (some found) h') :
    (Url.of? v).isSome = true := by
  unfold Url.of? readUrl at *
  cases reads : Url.read? v with
  | none =>
    rw [reads] at yields
    obtain ⟨_, _, _, gives⟩ := yields_bind.1 yields
    cases (yields_pure.1 gives).1
  | some reading =>
    rw [reads] at yields
    obtain ⟨_, _, _, gives⟩ := yields_bind.1 yields
    cases url? : reading.url? with
    | none =>
      rw [url?] at gives
      cases gives
    | some url => exact congrArg Option.isSome url?

theorem readEntries_gathers (heading : String) (members : List (String × Json))
    (refs : Keyed UrlRef) : (readEntries heading members refs).Within Gathered := by
  induction members generalizing refs with
  | nil => exact Attempt.within_pure _
  | cons entry rest ih =>
    refine Attempt.within_bind (readUrl_gathers _) fun found => ?_
    cases found with
    | none =>
      exact Attempt.within_bind (within_lift (writeLog_gathers _ _)) fun _ => Attempt.within_pure _
    | some u => exact ih _

/-- The names of the members, and only they, lead to addresses that read as the members do: one for
each, made since `start`. -/
structure Host.Lists (start h : Host) (members : List (String × Json)) (refs : Keyed UrlRef) :
    Prop where
  named : ∀ name, (refs.find? name).map h.urls.get =
    (Entries.find? name members).bind Url.of?
  fresh : ∀ name u, refs.find? name = some u → ¬start.urls.Allocated u ∧ h.urls.Allocated u
  apart : ∀ name other u, refs.find? name = some u → refs.find? other = some u → name = other

namespace Host.Lists

theorem nil (h : Host) : h.Lists h [] .empty where
  named _ := rfl
  fresh := by
    intro name u found
    cases found
  apart := by
    intro name other u found
    cases found

theorem later (lists : start.Lists h members refs) (grown : h.Gathered h') :
    start.Lists h' members refs where
  named name := by
    rw [← lists.named]
    cases found : refs.find? name with
    | none => rfl
    | some u => exact congrArg some (grown.urls.get u (lists.fresh name u found).2)
  fresh name u found :=
    ⟨(lists.fresh name u found).1, grown.urls.allocated (lists.fresh name u found).2⟩
  apart := lists.apart

theorem cons (lists : mid.Lists h members refs)
    (tells : Url.of? v = some url) (made : mid.urls = start.urls.add url)
    (grown : mid.Gathered h) :
    start.Lists h ((name, v) :: members) (refs.insert name start.urls.fresh) := by
  have known : mid.urls.Allocated start.urls.fresh := by
    rw [made]
    exact start.urls.allocated_fresh_add url
  have reads : h.urls.get start.urls.fresh = url := by
    rw [grown.urls.get _ known, made, Store.get_add_fresh]
  have differ {other : String} {u : UrlRef} (found : refs.find? other = some u) :
      u ≠ start.urls.fresh := (known.ne_of_not (lists.fresh other u found).1).symm
  constructor
  · intro other
    rw [Keyed.find?_insert, Entries.find?]
    by_cases same : other = name
    · rw [if_pos same, if_pos same.symm, Option.map_some, reads]
      exact tells.symm
    · rw [if_neg same, if_neg (Ne.symm same)]
      exact lists.named other
  · intro other u found
    rw [Keyed.find?_insert] at found
    split at found
    · cases found
      exact ⟨start.urls.not_allocated_fresh, grown.urls.allocated known⟩
    · obtain ⟨new, old⟩ := lists.fresh other u found
      refine ⟨fun before => new ?_, old⟩
      rw [made]
      exact Nat.lt_succ_of_lt before
  · intro one other u found found'
    rw [Keyed.find?_insert] at found found'
    split at found
    · cases found
      split at found'
      · simp_all
      · exact absurd rfl (differ found')
    · split at found'
      · cases found'
        exact absurd rfl (differ found)
      · exact lists.apart one other u found found'

end Host.Lists

theorem readEntries_reads (heading : String) (sorted : Entries.Sorted members)
    (readable : Readable members) (before : Keyed UrlRef) (h : Host) :
    ∃ refs after h', (readEntries heading members before).Yields h (some after) h' ∧
      h.Gathered h' ∧ h.Lists h' members refs ∧
      ∀ name, after.find? name = (refs.find? name).or (before.find? name) := by
  -- on the members: the first of them has its address before the others
  induction members generalizing before h with
  | nil => exact ⟨.empty, before, h, rfl, Course.refl h, .nil h, fun _ => rfl⟩
  | cons entry rest ih =>
    obtain ⟨name, v⟩ := entry
    obtain ⟨smaller, sorted⟩ := List.pairwise_cons.1 sorted
    obtain ⟨tells, readable⟩ := List.forall_mem_cons.1 readable
    obtain ⟨url, tells⟩ := Option.isSome_iff_exists.1 tells
    obtain ⟨mid, first, made⟩ := readUrl_reads tells h
    have grown : h.Gathered mid := (readUrl_gathers v).leaves first.after_eq
    obtain ⟨refs, after, h', yields, later, lists, found⟩ :=
      ih sorted readable (before.insert name h.urls.fresh) mid
    have absent : Entries.find? name rest = none := Entries.find?_eq_none smaller
    refine ⟨refs.insert name h.urls.fresh, after, h', yields_bind.2 ⟨_, mid, first, yields⟩,
      Course.trans grown later, lists.cons tells made later, fun other => ?_⟩
    rw [found, Keyed.find?_insert, Keyed.find?_insert]
    by_cases same : other = name
    · have unlisted : refs.find? name = none := by
        have named := lists.named name
        rw [absent] at named
        exact Option.map_eq_none_iff.1 named
      rw [if_pos same, if_pos same, same, unlisted]
      rfl
    · rw [if_neg same, if_neg same]

theorem readEntries_readable {before after : Keyed UrlRef}
    (yields : (readEntries heading members before).Yields h (some after) h') :
    Readable members := by
  induction members generalizing before h with
  | nil => exact fun _ member => by cases member
  | cons entry rest ih =>
    obtain ⟨found, mid, first, yields⟩ := yields_bind.1 yields
    cases found with
    | none =>
      obtain ⟨_, _, _, gives⟩ := yields_bind.1 yields
      cases (yields_pure.1 gives).1
    | some u => exact List.forall_mem_cons.2 ⟨readUrl_found first, ih yields⟩

theorem readSection_reads (ordered : document.Ordered)
    (found : document.section? heading = some members) (readable : Readable members) (h : Host) :
    ∃ refs h', (readSection document heading).Yields h (some refs) h' ∧ h.Gathered h' ∧
      h.Lists h' members refs := by
  have values := ordered.member heading
  unfold Json.section? at found
  unfold readSection
  cases value : document.member heading with
  | null =>
    rw [value] at found
    cases found
    exact ⟨.empty, h, rfl, Course.refl h, .nil h⟩
  | obj entries =>
    rw [value] at found values
    cases found
    obtain ⟨refs, after, h', yields, grown, lists, same⟩ :=
      readEntries_reads heading values.sorted readable .empty h
    have whole : after = refs := Keyed.ext_find? fun name => by
      rw [same]
      exact Option.or_none
    exact ⟨refs, h', whole ▸ yields, grown, lists⟩
  | _ =>
    rw [value] at found
    cases found

theorem readSection_readable (yields : (readSection document heading).Yields h (some refs) h') :
    ∃ members, document.section? heading = some members ∧ Readable members := by
  unfold readSection at yields
  unfold Json.section?
  cases value : document.member heading with
  | null => exact ⟨[], rfl, fun _ member => by cases member⟩
  | obj members =>
    rw [value] at yields
    exact ⟨members, rfl, readEntries_readable yields⟩
  | _ =>
    rw [value] at yields
    obtain ⟨_, _, _, gives⟩ := yields_bind.1 yields
    cases (yields_pure.1 gives).1

theorem Json.find?_section (found : document.section? heading = some members) (name : String) :
    (Entries.find? name members).bind Url.of? = document.urlAt heading name := by
  unfold section? at found
  unfold urlAt
  have lacks : (none : Option Json).bind Url.of? = Url.of? .null := rfl
  cases value : document.member heading with
  | null =>
    rw [value] at found
    cases found
    rfl
  | obj entries =>
    rw [value] at found
    cases found
    show _ = Url.of? ((Entries.find? name members).getD .null)
    cases Entries.find? name members <;> rfl
  | _ =>
    rw [value] at found
    cases found

end RpcHost
