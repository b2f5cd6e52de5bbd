import RpcHost.Proofs.Misreadings
import RpcHost.Proofs.Ports
/-!
How an address is read from a structured value. The members named after its fields set those, the
other scalars become parameters with their texts, and nothing else does; a field that cannot hold
its member ends the reading. So an address is read back from the object of its fields and
parameters.
-/
namespace RpcHost

open Attempt Host

variable {h : Host} {label key : String} {v : Json} {members rest : List (String × Json)}
  {u u' url : Url} {field : Url.Field}

namespace Url

namespace Field

def name : Field → String
  | protocol => "protocol"
  | host => "host"
  | port => "port"
  | path => "path"
  | group => "group"

def held (u : Url) : Field → Json
  | protocol => .str u.protocol
  | host => .str u.host
  | port => .int u.port
  | path => .str u.path
  | group => .str u.group

def unset : Field → Json
  | port => .int 0
  | _ => .str ""

def read? (v : Json) : Field → Option Json
  | port => (portOf? v).map .int
  | _ => v.text?.map .str

theorem ofName?_eq_some_iff : ofName? key = some field ↔ field.name = key := by
  constructor
  · intro names
    unfold ofName? at names
    grind [name]
  · rintro rfl
    cases field <;> rfl

theorem name_inj {other : Field} : field.name = other.name ↔ field = other := by
  constructor
  · intro same
    have names := ofName?_eq_some_iff.2 same
    rw [ofName?_eq_some_iff.2 rfl] at names
    exact (Option.some.inj names).symm
  · rintro rfl
    rfl

theorem read?_eq_none_iff : field.read? v = none ↔ field.Unfit v := by
  cases field with
  | port => rw [read?, Option.map_eq_none_iff, portOf?_eq_none_iff]
  | _ => simp [read?, Unfit, Json.text?_eq_none_iff]

end Field

theorem setField?_eq_some (sets : u.setField? field v = some u') :
    field.read? v = some (field.held u') ∧ (∀ other, other ≠ field → other.held u' = other.held u) ∧
      u'.params = u.params := by
  cases field
  all_goals
    obtain ⟨a, reads, rfl⟩ := Option.map_eq_some_iff.1 sets
    refine ⟨by simp [Field.read?, Field.held, reads], ?_, rfl⟩
    intro other differ
    cases other <;> first | rfl | exact absurd rfl differ

def paramIn (members : List (String × Json)) (key : String) : Option String :=
  if (Field.ofName? key).isSome then none else (Entries.find? key members).bind Json.text?

/-- What the members make of an address. -/
structure Filled (members : List (String × Json)) (u u' : Url) : Prop where
  given : ∀ (field : Field) v, Entries.find? field.name members = some v →
    field.read? v = some (field.held u')
  lacking : ∀ field : Field, Entries.find? field.name members = none → field.held u' = field.held u
  params : ∀ key, u'.params.find? key = (paramIn members key).or (u.params.find? key)

theorem Filled.nil (u : Url) : Filled [] u u where
  given := by simp [Entries.find?]
  lacking := by simp
  params := by simp [paramIn, Entries.find?]

theorem Filled.set (names : field.name = label) (sets : u.setField? field v = some u')
    (absent : Entries.find? label rest = none) (filled : Filled rest u' url) :
    Filled ((label, v) :: rest) u url := by
  obtain ⟨reads, others, params⟩ := setField?_eq_some sets
  subst names
  constructor
  · intro other w found
    by_cases same : other = field
    · subst same
      simp only [Entries.find?, if_true, Option.some.injEq] at found
      rw [filled.lacking other absent, ← reads, found]
    · have differ : field.name ≠ other.name := fun names => same (Field.name_inj.1 names).symm
      simp only [Entries.find?, if_neg differ] at found
      exact filled.given other w found
  · intro other lacks
    by_cases same : field.name = other.name
    · simp [Entries.find?, same] at lacks
    · simp only [Entries.find?, if_neg same] at lacks
      rw [filled.lacking other lacks]
      exact others other fun eq => same (congrArg Field.name eq).symm
  · intro key
    rw [filled.params, params]
    by_cases same : field.name = key
    · have reserved := Field.ofName?_eq_some_iff.2 same
      simp [paramIn, reserved]
    · simp [paramIn, Entries.find?, same]

theorem Filled.other (names : Field.ofName? label = none)
    (held : ∀ field : Field, field.held u' = field.held u)
    (params : ∀ key, u'.params.find? key =
      (if key = label then v.text? else none).or (u.params.find? key))
    (absent : Entries.find? label rest = none) (filled : Filled rest u' url) :
    Filled ((label, v) :: rest) u url := by
  have differ (field : Field) : label ≠ field.name := by
    intro same
    rw [Field.ofName?_eq_some_iff.2 same.symm] at names
    cases names
  constructor
  · intro field w found
    simp only [Entries.find?, if_neg (differ field)] at found
    exact filled.given field w found
  · intro field lacks
    simp only [Entries.find?, if_neg (differ field)] at lacks
    rw [filled.lacking field lacks, held]
  · intro key
    rw [filled.params, params]
    by_cases same : key = label
    · subst same
      simp [paramIn, Entries.find?, names, absent]
    · simp [paramIn, Entries.find?, same, Ne.symm same]

theorem readMembers_filled (sorted : Entries.Sorted members)
    (reads : (readMembers members u).url? = some url) : Filled members u url := by
  -- on the members, each of which leaves what the later ones make
  induction members generalizing u with
  | nil =>
    obtain rfl : u = url := Option.some.inj reads
    exact .nil u
  | cons entry rest ih =>
    obtain ⟨label, v⟩ := entry
    obtain ⟨smaller, sorted⟩ := List.pairwise_cons.1 sorted
    have absent : Entries.find? label rest = none := Entries.find?_eq_none smaller
    unfold readMembers at reads
    cases names : Field.ofName? label with
    | some field =>
      cases sets : u.setField? field v with
      | some u' =>
        simp only [names, sets] at reads
        exact .set (Field.ofName?_eq_some_iff.1 names) sets absent (ih sorted reads)
      | none => simp [names, sets] at reads
    | none =>
      cases text : v.text? with
      | some s =>
        simp only [names, text] at reads
        refine .other names (fun field => ?_) (fun key => ?_) absent (ih sorted reads)
        · cases field <;> rfl
        · unfold putParam
          rw [Keyed.find?_insert]
          split <;> simp [text]
      | none =>
        simp only [names, text] at reads
        refine .other names (fun _ => rfl) (fun key => ?_) absent (ih sorted reads)
        simp [text]

def textAt (members : List (String × Json)) (key : String) : String :=
  ((Entries.find? key members).bind Json.text?).getD ""

def reserved : List String := ["protocol", "host", "port", "path", "group"]

def Misfit (members : List (String × Json)) : Prop :=
  (∃ key ∈ ["protocol", "host", "path", "group"], ∃ v,
    Entries.find? key members = some v ∧ v.isComposite = true) ∨
  ∃ v, Entries.find? "port" members = some v ∧ (v.isComposite = true ∨ v.OutOfRange)

/-- The address says what the members say, and nothing else. -/
structure Says (u : Url) (members : List (String × Json)) : Prop where
  protocol : u.protocol = textAt members "protocol"
  host : u.host = textAt members "host"
  path : u.path = textAt members "path"
  group : u.group = textAt members "group"
  port : ∀ v, Entries.find? "port" members = some v → v.GivesPort u.port
  noPort : Entries.find? "port" members = none → u.port = 0
  params : ∀ key, u.params.find? key =
    if key ∈ reserved then none else (Entries.find? key members).bind Json.text?

theorem Field.name_mem_reserved (field : Field) : field.name ∈ reserved := by
  cases field <;> decide

theorem mem_reserved_iff : key ∈ reserved ↔ (Field.ofName? key).isSome = true := by
  rw [Option.isSome_iff_exists]
  constructor
  · intro member
    simp only [reserved, List.mem_cons, List.not_mem_nil, or_false] at member
    rcases member with rfl | rfl | rfl | rfl | rfl <;> exact ⟨_, rfl⟩
  · rintro ⟨field, names⟩
    rw [← Field.ofName?_eq_some_iff.1 names]
    exact field.name_mem_reserved

theorem Filled.tells (filled : Filled members empty u) : u.Says members := by
  have text (field : Field) (other : field ≠ .port) :
      field.held u = .str (textAt members field.name) := by
    unfold textAt
    cases found : Entries.find? field.name members with
    | none =>
      rw [filled.lacking field found]
      cases field <;> first | rfl | exact absurd rfl other
    | some v =>
      have reads := filled.given field v found
      have made : field.read? v = v.text?.map .str := by
        cases field <;> first | rfl | exact absurd rfl other
      rw [made] at reads
      obtain ⟨s, scalar, same⟩ := Option.map_eq_some_iff.1 reads
      simp [← same, scalar]
  constructor
  · exact Json.str.inj (text .protocol (by decide))
  · exact Json.str.inj (text .host (by decide))
  · exact Json.str.inj (text .path (by decide))
  · exact Json.str.inj (text .group (by decide))
  · intro v found
    obtain ⟨n, reads, same⟩ := Option.map_eq_some_iff.1 (filled.given .port v found)
    rw [← Json.int.inj same]
    exact portOf?_eq_some reads
  · intro lacks
    exact Json.int.inj (filled.lacking .port lacks)
  · intro key
    rw [filled.params]
    simp [paramIn, mem_reserved_iff, empty]

theorem unfit_iff_misfit (sorted : Entries.Sorted members) :
    Unfit (.obj members) ↔ Misfit members := by
  constructor
  · rintro ⟨_, same, ⟨key, v⟩, member, field, names, unfit⟩
    cases same
    have found : Entries.find? key members = some v :=
      (Entries.find?_eq_some_iff sorted).2 member
    have named : field.name = key := Field.ofName?_eq_some_iff.1 names
    rw [← named] at found
    cases field with
    | port =>
      refine .inr ⟨v, found, unfit.imp id ?_⟩
      rintro ⟨-, integral, wide⟩
      exact (Json.int32?_eq_none_iff integral).1 wide
    | _ =>
      refine .inl ⟨_, by decide, v, found, ?_⟩
      simpa [Field.Unfit] using unfit
  · intro misfit
    obtain ⟨key, field, v, names, found, unfit⟩ : ∃ key field v, Field.ofName? key = some field ∧
        Entries.find? key members = some v ∧ field.Unfit v := by
      rcases misfit with ⟨key, member, v, found, composite⟩ | ⟨v, found, unfit⟩
      · have known : key ∈ reserved := by
          revert member
          simp only [reserved, List.mem_cons]
          tauto
        obtain ⟨field, names⟩ := Option.isSome_iff_exists.1 (mem_reserved_iff.1 known)
        exact ⟨key, field, v, names, found, .inl composite⟩
      · refine ⟨"port", .port, v, rfl, found, unfit.imp id ?_⟩
        intro wide
        exact ⟨rfl, wide.1, (Json.int32?_eq_none_iff wide.1).2 wide⟩
    exact ⟨members, rfl, (key, v), (Entries.find?_eq_some_iff sorted).1 found, field, names, unfit⟩

theorem eq_of_held (same : ∀ field : Field, field.held u = field.held u')
    (params : u.params = u'.params) : u = u' := by
  have protocol : u.protocol = u'.protocol := Json.str.inj (same .protocol)
  have host : u.host = u'.host := Json.str.inj (same .host)
  have port : u.port = u'.port := Json.int.inj (same .port)
  have path : u.path = u'.path := Json.str.inj (same .path)
  have group : u.group = u'.group := Json.str.inj (same .group)
  cases u
  cases u'
  simp_all

/-- The members of an object that says an address. Its port may be said in more than one way. -/
def written (u : Url) (port : Json) : List (String × Json) :=
  Entries.insert "protocol" (.str u.protocol) <| Entries.insert "host" (.str u.host) <|
    Entries.insert "port" port <| Entries.insert "path" (.str u.path) <|
      Entries.insert "group" (.str u.group) <|
        u.params.entries.map fun entry => (entry.1, .str entry.2)

theorem sorted_written (u : Url) (port : Json) : Entries.Sorted (u.written port) := by
  unfold written
  repeat apply Entries.sorted_insert
  exact List.pairwise_map.2 u.params.sorted

theorem find?_written_port (u : Url) (port : Json) :
    Entries.find? "port" (u.written port) = some port := by
  simp [written, Entries.find?_insert]

theorem find?_written_field (port : Json) (other : field ≠ .port) :
    Entries.find? field.name (u.written port) = some (field.held u) := by
  cases field <;> simp [written, Entries.find?_insert, Field.name, Field.held] at other ⊢

theorem find?_written_param (port : Json) (other : key ∉ reserved) :
    Entries.find? key (u.written port) = (u.params.find? key).map .str := by
  simp only [reserved, List.mem_cons, List.not_mem_nil, or_false, not_or] at other
  simp [written, Entries.find?_insert, other, Entries.find?_map, Keyed.find?]

theorem of?_written {port : Json} (fits : Calculator.Fits u.port)
    (plain : ∀ key ∈ reserved, u.params.find? key = none)
    (given : port = .int u.port ∨ port = .str (toString u.port)) :
    of? (.obj (u.written port)) = some u := by
  have reads : portOf? port = some u.port := portOf?_of_fits fits given
  -- every field has a member that reads as the field
  have given (field : Field) : ∃ v, Entries.find? field.name (u.written port) = some v ∧
      field.read? v = some (field.held u) := by
    by_cases same : field = .port
    · subst same
      exact ⟨port, u.find?_written_port port, by simp [Field.read?, reads, Field.held]⟩
    · refine ⟨_, find?_written_field port same, ?_⟩
      cases field <;> first | rfl | exact absurd rfl same
  have fit : ¬Unfit (.obj (u.written port)) := by
    rintro ⟨_, same, ⟨key, v⟩, member, field, names, unfit⟩
    cases same
    obtain ⟨w, found, reads⟩ := given field
    have named : field.name = key := Field.ofName?_eq_some_iff.1 names
    rw [named, (Entries.find?_eq_some_iff (u.sorted_written port)).2 member] at found
    obtain rfl : v = w := Option.some.inj found
    rw [Field.read?_eq_none_iff.2 unfit] at reads
    cases reads
  rw [unfit_obj_iff] at fit
  -- so the object says an address, which has the same fields and parameters
  obtain ⟨url, tells⟩ := Option.ne_none_iff_exists'.1 fit
  have filled := readMembers_filled (u.sorted_written port) tells
  rw [tells]
  congr 1
  apply eq_of_held
  · intro field
    obtain ⟨v, found, reads⟩ := given field
    have same := filled.given field v found
    rw [reads] at same
    exact (Option.some.inj same).symm
  · apply Keyed.ext_find?
    intro key
    rw [filled.params]
    show (paramIn (u.written port) key).or none = _
    rw [Option.or_none]
    unfold paramIn
    by_cases own : key ∈ reserved
    · rw [if_pos (mem_reserved_iff.1 own), plain key own]
    · rw [if_neg (mt mem_reserved_iff.2 own), find?_written_param port own]
      cases u.params.find? key <;> rfl

end Url

/-- What is read from a value. Only an object is an address. It cannot be read exactly where a field
cannot hold its member. Otherwise there is a new address that says what the members say. An address
whose parameters are not named after fields is read back from its object. -/
theorem readUrl_says (h : Host) :
    (∀ v : Json, v.isObject = false → (readUrl v).outcome h = .ok none) ∧
    (∀ members, Entries.Sorted members →
      (∀ fault, (readUrl (.obj members)).outcome h = .error fault ↔
        fault = .conversion ∧ Url.Misfit members) ∧
      (¬Url.Misfit members → ∃ u, (readUrl (.obj members)).outcome h = .ok (some u) ∧
        ¬h.urls.Allocated u ∧
        (((readUrl (.obj members)).after h).urls.get u).Says members)) ∧
    ∀ (url : Url) (port : Json), Json.minInt32 ≤ url.port ∧ url.port ≤ Json.maxInt32 →
      (∀ key ∈ Url.reserved, url.hasParam key = false) →
      port = .int url.port ∨ port = .str (toString url.port) →
      ∃ u, (readUrl (.obj (url.written port))).outcome h = .ok (some u) ∧
        ((readUrl (.obj (url.written port))).after h).urls.get u = url := by
  refine ⟨?_, ?_, ?_⟩
  · intro v other
    cases v with
    | obj members => cases other
    | _ => rfl
  · intro members sorted
    have misfit_iff := Url.unfit_iff_misfit sorted
    constructor
    · intro fault
      rw [readUrl_fails_iff, misfit_iff, and_comm]
    · intro fit
      rw [← misfit_iff, Url.unfit_obj_iff] at fit
      obtain ⟨url, tells⟩ := Option.ne_none_iff_exists'.1 fit
      obtain ⟨h', yields, urls⟩ := readUrl_reads tells h
      obtain ⟨found, leaves⟩ := yields_iff.1 yields
      refine ⟨h.urls.fresh, found, h.urls.not_allocated_fresh, ?_⟩
      rw [leaves, urls, Store.get_add_fresh]
      exact (Url.readMembers_filled sorted tells).tells
  · intro url port fits plain given
    have absent (key : String) (own : key ∈ Url.reserved) : url.params.find? key = none := by
      simpa [Url.hasParam, Keyed.contains] using plain key own
    have tells := Url.of?_written fits absent given
    obtain ⟨h', yields, urls⟩ := readUrl_reads tells h
    obtain ⟨found, leaves⟩ := yields_iff.1 yields
    refine ⟨h.urls.fresh, found, ?_⟩
    rw [leaves, urls, Store.get_add_fresh]

/-- A text gives the port that it begins with, and a name in another spelling is a parameter. -/
example : Url.of? (.obj [("Port", .int 1), ("port", .str " 80 a"), ("x", .null)]) =
    some { Url.empty with port := 80, params := .ofList [("Port", "1"), ("x", "")] } := by rfl

end RpcHost
