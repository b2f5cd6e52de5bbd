/-!
Values kept under text keys, one value a key, in the order of the keys. The functions on
bare lists also serve the members of a structured value; `Keyed` adds the order as a proof,
so that two collections with the same look-ups are equal.
-/
namespace RpcHost

abbrev Entries (α : Type) := List (String × α)

namespace Entries

variable {α : Type}

def find? (key : String) : List (String × α) → Option α
  | [] => none
  | (k, a) :: rest => if k = key then some a else find? key rest

def insert (key : String) (a : α) : List (String × α) → List (String × α)
  | [] => [(key, a)]
  | (k, b) :: rest =>
    if key < k then (key, a) :: (k, b) :: rest
    else if key = k then (key, a) :: rest
    else (k, b) :: insert key a rest

def erase (key : String) (entries : List (String × α)) : List (String × α) :=
  entries.filter fun entry => entry.1 != key

def Sorted (entries : List (String × α)) : Prop :=
  entries.Pairwise fun a b => a.1 < b.1

theorem find?_insert_self (key : String) (a : α) (entries : List (String × α)) :
    find? key (insert key a entries) = some a := by
  induction entries with
  | nil => simp [insert, find?]
  | cons entry rest ih => grind [insert, find?]

theorem find?_insert_ne {key other : String} (differ : other ≠ key) (a : α)
    (entries : List (String × α)) :
    find? other (insert key a entries) = find? other entries := by
  induction entries with
  | nil => simp [insert, find?, Ne.symm differ]
  | cons entry rest ih => grind [insert, find?]

theorem find?_insert (key other : String) (a : α) (entries : List (String × α)) :
    find? other (insert key a entries) = if other = key then some a else find? other entries := by
  split
  · rename_i same
    rw [same, find?_insert_self]
  · rename_i differ
    exact find?_insert_ne differ a entries

theorem find?_map {β : Type} (f : α → β) (key : String) (entries : List (String × α)) :
    find? key (entries.map fun entry => (entry.1, f entry.2)) = (find? key entries).map f := by
  induction entries with
  | nil => rfl
  | cons entry rest ih => grind [find?]

theorem find?_erase_self (key : String) (entries : List (String × α)) :
    find? key (erase key entries) = none := by
  induction entries with
  | nil => rfl
  | cons entry rest ih => grind [erase, find?]

theorem find?_erase_ne {key other : String} (differ : other ≠ key)
    (entries : List (String × α)) :
    find? other (erase key entries) = find? other entries := by
  induction entries with
  | nil => rfl
  | cons entry rest ih => grind [erase, find?]

theorem find?_eq_none {key : String} {entries : List (String × α)}
    (smaller : ∀ entry ∈ entries, key < entry.1) : find? key entries = none := by
  induction entries with
  | nil => rfl
  | cons entry rest ih =>
    have first := smaller entry (by simp)
    have differ : entry.1 ≠ key := fun same => String.lt_irrefl key (same ▸ first)
    simp only [find?, differ, if_false]
    exact ih fun entry member => smaller entry (by simp [member])

theorem find?_eq_some_iff {key : String} {a : α} {entries : List (String × α)}
    (sorted : Sorted entries) : find? key entries = some a ↔ (key, a) ∈ entries := by
  induction entries with
  | nil => simp [find?]
  | cons entry rest ih =>
    obtain ⟨k, b⟩ := entry
    obtain ⟨first, tail⟩ := List.pairwise_cons.1 sorted
    by_cases same : k = key
    · subst same
      have absent : (k, a) ∉ rest := fun member => String.lt_irrefl _ (first (k, a) member)
      simp [find?, absent, eq_comm]
    · simp [find?, same, ih tail, Ne.symm same]

theorem mem_insert {key : String} {a : α} {entry : String × α}
    {entries : List (String × α)} (member : entry ∈ insert key a entries) :
    entry = (key, a) ∨ entry ∈ entries := by
  induction entries with
  | nil => simpa [insert] using member
  | cons first rest ih => grind [insert]

theorem sorted_insert (key : String) (a : α) {entries : List (String × α)}
    (sorted : Sorted entries) : Sorted (insert key a entries) := by
  induction entries with
  | nil => simp [insert, Sorted]
  | cons entry rest ih =>
    obtain ⟨k, b⟩ := entry
    obtain ⟨first, tail⟩ := List.pairwise_cons.1 sorted
    rw [insert]
    split
    · rename_i before
      refine List.pairwise_cons.2 ⟨fun entry member => ?_, sorted⟩
      rcases List.mem_cons.1 member with rfl | later
      · exact before
      · exact String.lt_trans before (first entry later)
    · split
      · rename_i same
        subst same
        exact List.pairwise_cons.2 ⟨first, tail⟩
      · rename_i after differ
        refine List.pairwise_cons.2 ⟨fun entry member => ?_, ih tail⟩
        rcases mem_insert member with rfl | later
        · show k < key
          grind
        · exact first entry later

theorem sorted_erase (key : String) {entries : List (String × α)}
    (sorted : Sorted entries) : Sorted (erase key entries) :=
  sorted.filter _

theorem eq_of_find?_eq {left right : List (String × α)} (hl : Sorted left)
    (hr : Sorted right) (same : ∀ key, find? key left = find? key right) : left = right := by
  induction left generalizing right with
  | nil =>
    cases right with
    | nil => rfl
    | cons entry rest => simpa [find?] using same entry.1
  | cons entry rest ih =>
    cases right with
    | nil => simpa [find?] using same entry.1
    | cons other others =>
      obtain ⟨k, a⟩ := entry
      obtain ⟨m, b⟩ := other
      obtain ⟨firstl, taill⟩ := List.pairwise_cons.1 hl
      obtain ⟨firstr, tailr⟩ := List.pairwise_cons.1 hr
      have noneBelow {x : String} {c : α} {es : List (String × α)} {y : String}
          (h : ∀ e ∈ es, x < e.1) (lt : y < x) : find? y ((x, c) :: es) = none :=
        find?_eq_none fun e member => by
          rcases List.mem_cons.1 member with rfl | later
          · exact lt
          · exact String.lt_trans lt (h e later)
      have atk := same k
      have atm := same m
      -- the lesser of the two keys would be found on one side only
      have keys : k = m := by
        rcases (by grind : k < m ∨ k = m ∨ m < k) with lt | eq | gt
        · rw [noneBelow firstr lt] at atk
          simp [find?] at atk
        · exact eq
        · rw [noneBelow firstl gt] at atm
          simp [find?] at atm
      subst keys
      have values : a = b := by simpa [find?] using atk
      subst values
      refine congrArg _ (ih taill tailr fun key => ?_)
      by_cases here : k = key
      · subst here
        rw [find?_eq_none firstl, find?_eq_none firstr]
      · simpa [find?, here] using same key

end Entries

structure Keyed (α : Type) where
  entries : List (String × α)
  sorted : Entries.Sorted entries

namespace Keyed

variable {α : Type}

def empty : Keyed α := ⟨[], List.Pairwise.nil⟩

instance : Inhabited (Keyed α) := ⟨empty⟩

def find? (m : Keyed α) (key : String) : Option α := Entries.find? key m.entries

def contains (m : Keyed α) (key : String) : Bool := (m.find? key).isSome

def insert (m : Keyed α) (key : String) (a : α) : Keyed α :=
  ⟨Entries.insert key a m.entries, Entries.sorted_insert key a m.sorted⟩

def erase (m : Keyed α) (key : String) : Keyed α :=
  ⟨Entries.erase key m.entries, Entries.sorted_erase key m.sorted⟩

/-- A key that is there keeps its value. -/
def insertNew (m : Keyed α) (key : String) (a : α) : Keyed α :=
  if m.contains key then m else m.insert key a

def ofList (entries : List (String × α)) : Keyed α :=
  entries.foldl (fun m entry => m.insert entry.1 entry.2) empty

def keys (m : Keyed α) : List String := m.entries.map Prod.fst

def size (m : Keyed α) : Nat := m.entries.length

theorem ext_find? {left right : Keyed α} (same : ∀ key, left.find? key = right.find? key) :
    left = right := by
  cases left with
  | mk l hl =>
    cases right with
    | mk r hr =>
      have := Entries.eq_of_find?_eq hl hr same
      subst this
      rfl

@[simp] theorem find?_empty (key : String) : (empty : Keyed α).find? key = none := rfl

@[simp] theorem find?_insert_self (m : Keyed α) (key : String) (a : α) :
    (m.insert key a).find? key = some a :=
  Entries.find?_insert_self key a m.entries

theorem find?_insert_ne (m : Keyed α) {key other : String} (differ : other ≠ key) (a : α) :
    (m.insert key a).find? other = m.find? other :=
  Entries.find?_insert_ne differ a m.entries

theorem find?_insert (m : Keyed α) (key other : String) (a : α) :
    (m.insert key a).find? other = if other = key then some a else m.find? other :=
  Entries.find?_insert key other a m.entries

@[simp] theorem find?_erase_self (m : Keyed α) (key : String) :
    (m.erase key).find? key = none :=
  Entries.find?_erase_self key m.entries

theorem find?_erase_ne (m : Keyed α) {key other : String} (differ : other ≠ key) :
    (m.erase key).find? other = m.find? other :=
  Entries.find?_erase_ne differ m.entries

theorem find?_erase (m : Keyed α) (key other : String) :
    (m.erase key).find? other = if other = key then none else m.find? other := by
  split
  · rename_i same
    rw [same, find?_erase_self]
  · rename_i differ
    exact m.find?_erase_ne differ

theorem find?_insertNew (m : Keyed α) (key other : String) (a : α) :
    (m.insertNew key a).find? other =
      (m.find? other).or (if other = key then some a else none) := by
  unfold insertNew contains
  by_cases same : other = key
  · subst same
    cases found : m.find? other <;> simp [found]
  · cases found : m.find? key <;> simp [same, m.find?_insert_ne same]

end Keyed

/-- An order in which the entries of a collection come when they are gone through. -/
structure Traversal (α : Type) where
  order : List (String × α) → List (String × α)
  perm : ∀ entries, (order entries).Perm entries

namespace Traversal

variable {α : Type}

def byKey : Traversal α := ⟨id, List.Perm.refl⟩

def walk (t : Traversal α) (m : Keyed α) : List (String × α) := t.order m.entries

theorem walk_perm (t : Traversal α) (m : Keyed α) : (t.walk m).Perm m.entries := t.perm m.entries

theorem mem_walk_iff (t : Traversal α) {m : Keyed α} {key : String} {a : α} :
    (key, a) ∈ t.walk m ↔ m.find? key = some a :=
  (t.walk_perm m).mem_iff.trans (Entries.find?_eq_some_iff m.sorted).symm

theorem walk_apart (t : Traversal α) (m : Keyed α) :
    (t.walk m).Pairwise fun a b => a.1 ≠ b.1 := by
  have apart : m.entries.Pairwise fun a b => a.1 ≠ b.1 := by
    refine List.Pairwise.imp (fun less same => ?_) m.sorted
    rw [same] at less
    exact String.lt_irrefl _ less
  exact ((t.walk_perm m).pairwise_iff fun differ => differ.symm).2 apart

end Traversal

end RpcHost
