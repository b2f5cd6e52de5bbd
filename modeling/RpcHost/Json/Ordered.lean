import RpcHost.Json.Reader
/-!
What the reader of structured values gives. The members of each object stand in the order of their
names, so each name is there once and looking it up finds its value.
-/
namespace RpcHost

/-- In every object, however deep, each name stands once and in its place. -/
inductive Json.Ordered : Json → Prop
  | null : Ordered null
  | bool (b : Bool) : Ordered (bool b)
  | int (n : Int) : Ordered (int n)
  | real (x : Binary64) : Ordered (real x)
  | str (s : String) : Ordered (str s)
  | arr {items : List Json} (each : ∀ v ∈ items, Ordered v) : Ordered (arr items)
  | obj {members : List (String × Json)} (sorted : Entries.Sorted members)
      (each : ∀ entry ∈ members, Ordered entry.2) : Ordered (obj members)

namespace Json

variable {fuel : Nat} {cs rest : List Char} {v : Json} {items : List Json}
  {done members : List (String × Json)}

theorem Ordered.sorted (ordered : (Json.obj members).Ordered) : Entries.Sorted members := by
  cases ordered with
  | obj sorted _ => exact sorted

theorem Ordered.insert (ordered : (Json.obj members).Ordered) (name : String)
    (value : v.Ordered) : (Json.obj (Entries.insert name v members)).Ordered := by
  cases ordered with
  | obj sorted each =>
    refine .obj (Entries.sorted_insert name v sorted) fun entry member => ?_
    rcases Entries.mem_insert member with rfl | before
    · exact value
    · exact each entry before

theorem Ordered.member (ordered : v.Ordered) (name : String) : (v.member name).Ordered := by
  cases ordered with
  | @obj members sorted each =>
    show ((Entries.find? name members).getD .null).Ordered
    cases found : Entries.find? name members with
    | none => exact .null
    | some value => exact each _ ((Entries.find?_eq_some_iff sorted).1 found)
  | _ => exact .null

theorem numberOf_ordered (negative : Bool) (whole : List Char) (fraction : Option (List Char))
    (exponent : Option Int) : (numberOf negative whole fraction exponent).Ordered := by
  unfold numberOf
  dsimp only
  split
  · exact .real _
  · split
    · exact .int _
    · exact .real _

theorem readNumber?_ordered (reads : readNumber? cs = some (v, rest)) : v.Ordered := by
  unfold readNumber? at reads
  split at reads
  dsimp only at reads
  split at reads
  · cases reads
  · split at reads
    · cases reads
    · split at reads
      · cases reads
      · cases reads
        exact numberOf_ordered _ _ _ _

/-- What the readers give that may take `fuel` steps. -/
structure ReadsOrdered (fuel : Nat) : Prop where
  value : ∀ {cs v rest}, readValue fuel cs = some (v, rest) → v.Ordered
  items : ∀ {cs items rest}, readItems fuel cs = some (items, rest) → ∀ v ∈ items, v.Ordered
  members : ∀ {done cs members rest}, (Json.obj done).Ordered →
    readMembers fuel done cs = some (members, rest) → (Json.obj members).Ordered

theorem ReadsOrdered.value_succ (before : ReadsOrdered fuel)
    (reads : readValue (fuel + 1) cs = some (v, rest)) : v.Ordered := by
  unfold readValue at reads
  split at reads
  · cases reads
  · split at reads
    · obtain ⟨_, _, same⟩ := Option.map_eq_some_iff.1 reads
      cases same
      exact .str _
    · split at reads
      · split at reads
        · cases reads
          exact .arr fun _ member => by cases member
        · obtain ⟨_, found, same⟩ := Option.map_eq_some_iff.1 reads
          cases same
          exact .arr (before.items found)
      · split at reads
        · split at reads
          · cases reads
            exact .obj .nil fun _ member => by cases member
          · obtain ⟨_, found, same⟩ := Option.map_eq_some_iff.1 reads
            cases same
            exact before.members (.obj .nil fun _ member => by cases member) found
        · split at reads
          · obtain ⟨_, _, same⟩ := Option.map_eq_some_iff.1 reads
            cases same
            exact .bool _
          · split at reads
            · obtain ⟨_, _, same⟩ := Option.map_eq_some_iff.1 reads
              cases same
              exact .bool _
            · split at reads
              · obtain ⟨_, _, same⟩ := Option.map_eq_some_iff.1 reads
                cases same
                exact .null
              · exact readNumber?_ordered reads

theorem ReadsOrdered.items_succ (before : ReadsOrdered fuel)
    (reads : readItems (fuel + 1) cs = some (items, rest)) : ∀ v ∈ items, v.Ordered := by
  unfold readItems at reads
  split at reads
  · cases reads
  · rename_i item _ found
    have first := before.value found
    split at reads
    · obtain ⟨_, more, same⟩ := Option.map_eq_some_iff.1 reads
      cases same
      exact List.forall_mem_cons.2 ⟨first, before.items more⟩
    · cases reads
      exact List.forall_mem_singleton.2 first
    · cases reads

theorem ReadsOrdered.members_succ (before : ReadsOrdered fuel) (ordered : (Json.obj done).Ordered)
    (reads : readMembers (fuel + 1) done cs = some (members, rest)) :
    (Json.obj members).Ordered := by
  unfold readMembers at reads
  split at reads
  · split at reads
    · cases reads
    · split at reads
      · split at reads
        · cases reads
        · rename_i name _ _ _ _ _ _ _ _ found
          have grown := ordered.insert name (before.value found)
          split at reads
          · exact before.members grown reads
          · cases reads
            exact grown
          · cases reads
      · cases reads
  · cases reads

theorem readsOrdered (fuel : Nat) : ReadsOrdered fuel := by
  induction fuel with
  | zero =>
    constructor
    · intro cs v rest reads
      simp [readValue] at reads
    · intro cs items rest reads
      simp [readItems] at reads
    · intro done cs members rest _ reads
      simp [readMembers] at reads
  | succ fuel ih => exact ⟨ih.value_succ, ih.items_succ, ih.members_succ⟩

theorem read?_ordered {text : String} (reads : read? text = some v) : v.Ordered := by
  unfold read? at reads
  dsimp only at reads
  split at reads
  · cases reads
  · rename_i value _ found
    split at reads
    · cases reads
      exact (readsOrdered _).value found
    · cases reads

end Json

end RpcHost
