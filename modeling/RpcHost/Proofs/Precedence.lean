import RpcHost.Proofs.Addresses
import RpcHost.Proofs.Provenance
/-!
What a service sets itself comes before what it inherits. A parameter of its own stays, an empty one
too. A field of its own stays unless it is empty or zero; such a field counts as unset, so the base
service gives it, even where the entry of the service names it.
-/
namespace RpcHost

open Attempt Host

variable {h : Host} {c : ConfigurationRef} {name text : String} {document : Json}
  {members : List (String × Json)} {own base url : Url} {load : Load}
  {loader : Loader}

/-- The value of every scalar among the members is what the address has. -/
def Url.Follows (url : Url) (members : List (String × Json)) : Prop :=
  ∀ key v, Entries.find? key members = some v → v.isComposite = false →
    (key ∉ reserved → url.params.find? key = v.text?) ∧
    ∀ field : Field, field.name = key → field.read? v = some (field.held url)

/-- The value of every scalar among the members is what the address has, unless it is that of a
field that is not set. Such a field comes from the base if there is one; a path never does. -/
structure Url.Prefers (url : Url) (members : List (String × Json)) (base : Option Url) : Prop where
  params : ∀ key v, key ∉ reserved → Entries.find? key members = some v →
    v.isComposite = false → url.params.find? key = v.text?
  fields : ∀ (field : Field) v, Entries.find? field.name members = some v →
    ∃ made, field.read? v = some made ∧
      (made ≠ field.unset ∨ field = .path → field.held url = made) ∧
      (made = field.unset → field ≠ .path →
        field.held url = (base.map fun u => field.held u).getD field.unset)

def Json.baseOf (document : Json) (members : List (String × Json)) : Option Url :=
  let basic := Url.textAt members Url.basicServiceKey
  if basic = "" then none else document.urlAt Configuration.basicSection basic

namespace Url

theorem Inherits.held (inherits : own.Inherits base url) (field : Field) :
    (field.held own ≠ field.unset ∨ field = .path → field.held url = field.held own) ∧
      (field.held own = field.unset → field ≠ .path → field.held url = field.held base) := by
  cases field <;>
    simp only [Field.held, Field.unset, Json.str.injEq, Json.int.injEq, inherits.protocol,
      inherits.host, inherits.port, inherits.path, inherits.group] <;>
    grind

theorem Filled.param (filled : Filled members empty url) {key : String} (other : key ∉ reserved) :
    url.param key = textAt members key := by
  unfold Url.param paramOr textAt
  rw [filled.params]
  simp [paramIn, mt mem_reserved_iff.2 other, empty]

theorem Filled.prefers (filled : Filled members empty url) : url.Prefers members none where
  params := by
    intro key v other found _
    rw [filled.params]
    simp [paramIn, mt mem_reserved_iff.2 other, found, empty]
  fields := by
    intro field v found
    refine ⟨_, filled.given field v found, fun _ => rfl, ?_⟩
    intro unset _
    exact unset

theorem Filled.prefers_base (filled : Filled members empty own)
    (inherits : own.Inherits base url) : url.Prefers members (some base) where
  params := by
    intro key v other found scalar
    have kept := filled.prefers.params key v other found scalar
    obtain ⟨s, text⟩ : ∃ s, v.text? = some s := by
      rw [← Option.ne_none_iff_exists', ne_eq, Json.text?_eq_none_iff]
      simp [scalar]
    rw [inherits.params, kept, text, Option.some_or]
  fields := by
    intro field v found
    obtain ⟨stays, gives⟩ := inherits.held field
    exact ⟨_, filled.given field v found, stays, gives⟩

end Url

theorem loadText_complete (accepted : (loadText loader c text).outcome h = .ok .ok) :
    ∃ document, loader.read? text = some document ∧ document.Configures := by
  rcases loadText_cases loader c text h with ⟨members, reads, loads⟩ | ⟨-, refused⟩
  · rw [loads] at accepted
    exact ⟨_, reads, (loadDocument_configures (loader.ordered reads) c h).1.1 accepted⟩
  · rw [refused] at accepted
    cases accepted

theorem Load.run_complete (accepted : (load.run loader c).outcome h = .ok .ok) :
    ∃ text document, load.text? h.files = some text ∧ loader.read? text = some document ∧
      document.Configures ∧ ((load.run loader c).after h).Configured c document := by
  obtain ⟨text, document, gives, reads, configured, -⟩ := Load.run_accepted accepted
  refine ⟨text, document, gives, reads, ?_, configured⟩
  rcases load.run_cases loader c h with ⟨-, screen, files, ends⟩ | ⟨text', mid, gives', ends, -⟩
  · have refused := (congrArg Prod.fst ends).symm.trans accepted
    cases refused
  · have accepted' : (loadText loader c text').outcome mid = .ok .ok :=
      (congrArg Prod.fst ends).symm.trans accepted
    obtain ⟨document', reads', configures⟩ := loadText_complete accepted'
    rw [gives] at gives'
    cases gives'
    rw [reads] at reads'
    cases reads'
    exact configures

theorem Json.Configures.entry (configures : document.Configures) (ordered : document.Ordered)
    (entry : (document.member Configuration.serviceSection).member name = .obj members) :
    ∃ own, document.urlAt Configuration.serviceSection name = some own ∧
      Url.Filled members .empty own := by
  have sections := configures.sections Configuration.serviceSection (by simp)
  have values := ordered.member Configuration.serviceSection
  have value := values.member name
  rw [entry] at value
  rcases sections with none | ⟨entries, found, readable⟩
  · rw [none] at entry
    cases entry
  · rw [found] at values entry
    have listed : (name, Json.obj members) ∈ entries := by
      rw [← Entries.find?_eq_some_iff values.sorted]
      unfold Json.member member? at entry
      cases stands : Entries.find? name entries with
      | none => simp [stands] at entry
      | some v => simpa [stands] using entry
    obtain ⟨own, tells⟩ := Option.isSome_iff_exists.1 (readable _ listed)
    have told : document.urlAt Configuration.serviceSection name = some own := by
      unfold urlAt
      rw [found, entry]
      exact tells
    exact ⟨own, told, Url.readMembers_filled value.sorted tells⟩

/-- The address of a service that is loaded has what the entry sets, whatever the base service says.
Only a field that is set to an empty text or to port zero counts as unset: it has what the base
service gives. -/
theorem Load.prefers_own (accepted : (load.run loader c).outcome h = .ok .ok) :
    ∃ text document, load.text? h.files = some text ∧ loader.read? text = some document ∧
      ∀ name members,
        (document.member Configuration.serviceSection).member name = .obj members →
        ∃ url, ((load.run loader c).after h).serviceUrl c name = some url ∧
          url.Prefers members (document.baseOf members) := by
  obtain ⟨text, document, gives, reads, configures, configured⟩ := Load.run_complete accepted
  refine ⟨text, document, gives, reads, ?_⟩
  intro name members entry
  obtain ⟨own, told, filled⟩ := configures.entry (loader.ordered reads) entry
  have named : own.param Url.basicServiceKey = Url.textAt members Url.basicServiceKey :=
    filled.param (by decide)
  obtain ⟨url, serves, bare, inherits⟩ := configured.services name own told
  refine ⟨url, serves, ?_⟩
  unfold Json.baseOf
  by_cases alone : Url.textAt members Url.basicServiceKey = ""
  · rw [if_pos alone, bare (named.trans alone)]
    exact filled.prefers
  · have names : own.param Url.basicServiceKey ≠ "" := by rwa [named]
    obtain ⟨base, based⟩ := Option.isSome_iff_exists.1 (configures.based name own told names)
    rw [if_neg alone, ← named, based]
    exact filled.prefers_base (inherits base names based)

def Json.modestEntry : List (String × Json) :=
  [("basicService", .str "b"), ("filter", .str ""), ("group", .str ""), ("host", .str "own"),
    ("port", .str "0")]

def Json.modest : Json :=
  .obj [("basicServices", .obj [("b", .obj [("filter", .str "accessLog"), ("group", .str "g"),
      ("host", .str "h"), ("port", .str "8100")])]),
    ("services", .obj [("s", .obj modestEntry)])]

def Json.modestText : String :=
  "\x7b\"basicServices\":\x7b\"b\":\x7b\"filter\":\"accessLog\",\"group\":\"g\"," ++
    "\"host\":\"h\",\"port\":\"8100\"\x7d\x7d,\"services\":\x7b\"s\":\x7b\"basicService\":\"b\"," ++
    "\"filter\":\"\",\"group\":\"\",\"host\":\"own\",\"port\":\"0\"\x7d\x7d\x7d"

theorem Loader.read?_modestText : standard.read? Json.modestText = some Json.modest := by
  rw [read?_standard]
  cbv

theorem Load.run_modest : ∃ url,
    (Load.run .standard ⟨0⟩ (.text Json.modestText)).outcome
        (.start (.workingIn []) (fun _ _ => 0) fun _ _ => 0) = .ok .ok ∧
      ((Load.run .standard ⟨0⟩ (.text Json.modestText)).after
        (.start (.workingIn []) (fun _ _ => 0) fun _ _ => 0)).serviceUrl ⟨0⟩ "s" = some url ∧
      url.group = "g" := by
  show ∃ url, (loadText .standard ⟨0⟩ Json.modestText).outcome _ = _ ∧
    ((loadText .standard ⟨0⟩ Json.modestText).after _).serviceUrl ⟨0⟩ "s" = _ ∧ _
  unfold loadText
  rw [Loader.read?_modestText]
  exact ⟨_, rfl, rfl, rfl⟩

theorem Load.prefers_own_modest :
    (Load.run .standard ⟨0⟩ (.text Json.modestText)).outcome
        (.start (.workingIn []) (fun _ _ => 0) fun _ _ => 0) = .ok .ok ∧
      ∃ url, ((Load.run .standard ⟨0⟩ (.text Json.modestText)).after
          (.start (.workingIn []) (fun _ _ => 0) fun _ _ => 0)).serviceUrl ⟨0⟩ "s" = some url ∧
        url.params.find? "filter" = some "" ∧ url.host = "own" ∧ url.port = 8100 := by
  obtain ⟨_, accepted, _⟩ := Load.run_modest
  obtain ⟨text, document, gives, reads, prefers⟩ := Load.prefers_own accepted
  cases gives
  rw [Loader.read?_modestText] at reads
  cases reads
  obtain ⟨url, serves, own⟩ := prefers "s" Json.modestEntry rfl
  refine ⟨accepted, url, serves, ?_, ?_, ?_⟩
  · exact own.params "filter" (.str "") (by decide) rfl rfl
  · obtain ⟨made, reads, stays, -⟩ := own.fields .host (.str "own") rfl
    cases reads
    exact Json.str.inj (stays (.inl (by simp [Url.Field.unset])))
  · obtain ⟨made, reads, -, gives⟩ := own.fields .port (.str "0") rfl
    cases reads
    exact Json.int.inj (gives rfl (by decide))

/-- The entry sets its group to an empty text, and is loaded with that of the base service. -/
theorem own_blank_overridden :
    (Load.run .standard ⟨0⟩ (.text Json.modestText)).outcome
        (.start (.workingIn []) (fun _ _ => 0) fun _ _ => 0) = .ok .ok ∧
      Loader.standard.read? Json.modestText = some Json.modest ∧
      (Json.modest.member Configuration.serviceSection).member "s" = .obj Json.modestEntry ∧
      ∃ url, ((Load.run .standard ⟨0⟩ (.text Json.modestText)).after
          (.start (.workingIn []) (fun _ _ => 0) fun _ _ => 0)).serviceUrl ⟨0⟩ "s" = some url ∧
        ¬url.Follows Json.modestEntry := by
  obtain ⟨url, accepted, serves, group⟩ := Load.run_modest
  refine ⟨accepted, Loader.read?_modestText, rfl, url, serves, ?_⟩
  intro follows
  obtain ⟨-, fields⟩ := follows "group" (.str "") rfl rfl
  have kept : some (Json.str "") = some (.str url.group) := fields .group rfl
  simp [group] at kept

end RpcHost
