/-!
Stored things and what names them. A handle is an instance's identity: two handles are equal
exactly when they name the same instance. A store answers for every handle, so the look-up
after a write needs no bounds.
-/
namespace RpcHost

inductive Family where
  | url | backend | provider | filter | registry | methods | table | endpoint
  | exporter | configuration | extensions | server | request
  deriving DecidableEq, Repr

structure Handle (family : Family) where
  index : Nat
  deriving DecidableEq, Repr

instance (family : Family) : Inhabited (Handle family) := ⟨⟨0⟩⟩

/-- `next` is the index of the handle given out next. -/
structure Store (family : Family) (α : Type) where
  next : Nat
  cells : List (Nat × α)

namespace Store

variable {family : Family} {α : Type}

def empty : Store family α := ⟨0, []⟩

instance : Inhabited (Store family α) := ⟨empty⟩

def lookup (index : Nat) : List (Nat × α) → Option α
  | [] => none
  | (i, a) :: rest => if i = index then some a else lookup index rest

def replace (index : Nat) (a : α) : List (Nat × α) → List (Nat × α)
  | [] => [(index, a)]
  | (i, b) :: rest => if i = index then (i, a) :: rest else (i, b) :: replace index a rest

def get [Inhabited α] (s : Store family α) (h : Handle family) : α :=
  (lookup h.index s.cells).getD default

def set (s : Store family α) (h : Handle family) (a : α) : Store family α :=
  { s with cells := replace h.index a s.cells }

def modify [Inhabited α] (s : Store family α) (h : Handle family) (f : α → α) :
    Store family α :=
  s.set h (f (s.get h))

def fresh (s : Store family α) : Handle family := ⟨s.next⟩

def add (s : Store family α) (a : α) : Store family α :=
  { s.set s.fresh a with next := s.next + 1 }

def Allocated (s : Store family α) (h : Handle family) : Prop := h.index < s.next

theorem lookup_replace_self (index : Nat) (a : α) (cells : List (Nat × α)) :
    lookup index (replace index a cells) = some a := by
  induction cells with
  | nil => simp [replace, lookup]
  | cons cell rest ih => grind [replace, lookup]

theorem lookup_replace_ne {index other : Nat} (differ : other ≠ index) (a : α)
    (cells : List (Nat × α)) :
    lookup other (replace index a cells) = lookup other cells := by
  induction cells with
  | nil => simp [replace, lookup, Ne.symm differ]
  | cons cell rest ih => grind [replace, lookup]

theorem index_ne {a b : Handle family} (differ : a ≠ b) : a.index ≠ b.index := by
  cases a; cases b
  simpa using differ

@[simp] theorem get_set_self [Inhabited α] (s : Store family α) (h : Handle family) (a : α) :
    (s.set h a).get h = a := by
  simp [get, set, lookup_replace_self]

theorem get_set_ne [Inhabited α] (s : Store family α) {h other : Handle family}
    (differ : other ≠ h) (a : α) : (s.set h a).get other = s.get other := by
  simp [get, set, lookup_replace_ne (index_ne differ)]

theorem get_set [Inhabited α] (s : Store family α) (h other : Handle family) (a : α) :
    (s.set h a).get other = if other = h then a else s.get other := by
  split
  · rename_i same
    rw [same, get_set_self]
  · rename_i differ
    exact s.get_set_ne differ a

@[simp] theorem get_add_fresh [Inhabited α] (s : Store family α) (a : α) :
    (s.add a).get s.fresh = a :=
  get_set_self s s.fresh a

theorem get_add_ne [Inhabited α] (s : Store family α) {h : Handle family}
    (differ : h ≠ s.fresh) (a : α) : (s.add a).get h = s.get h :=
  s.get_set_ne differ a

theorem get_add [Inhabited α] (s : Store family α) (h : Handle family) (a : α) :
    (s.add a).get h = if h = s.fresh then a else s.get h :=
  get_set s s.fresh h a

@[simp] theorem next_modify [Inhabited α] (s : Store family α) (h : Handle family)
    (f : α → α) : (s.modify h f).next = s.next := rfl

@[simp] theorem get_modify_self [Inhabited α] (s : Store family α) (h : Handle family)
    (f : α → α) : (s.modify h f).get h = f (s.get h) :=
  get_set_self s h _

theorem get_modify_ne [Inhabited α] (s : Store family α) {h other : Handle family}
    (differ : other ≠ h) (f : α → α) : (s.modify h f).get other = s.get other :=
  s.get_set_ne differ _

theorem get_modify [Inhabited α] (s : Store family α) (h other : Handle family) (f : α → α) :
    (s.modify h f).get other = if other = h then f (s.get h) else s.get other :=
  get_set s h other _

theorem allocated_fresh_add (s : Store family α) (a : α) : (s.add a).Allocated s.fresh :=
  Nat.lt_succ_self _

theorem not_allocated_fresh (s : Store family α) : ¬s.Allocated s.fresh := Nat.lt_irrefl _

theorem Allocated.mono {s s' : Store family α} {h : Handle family} (old : s.Allocated h)
    (grown : s.next ≤ s'.next) : s'.Allocated h :=
  Nat.lt_of_lt_of_le old grown

theorem Allocated.ne_of_not {s : Store family α} {h other : Handle family}
    (old : s.Allocated h) (new : ¬s.Allocated other) : h ≠ other := by
  rintro rfl
  exact new old

theorem Allocated.ne_fresh {s : Store family α} {h : Handle family} (old : s.Allocated h) :
    h ≠ s.fresh :=
  old.ne_of_not s.not_allocated_fresh

theorem mem_of_lookup {index : Nat} {a : α} {cells : List (Nat × α)}
    (found : lookup index cells = some a) : (index, a) ∈ cells := by
  induction cells with
  | nil => simp [lookup] at found
  | cons cell rest ih => grind [lookup]

theorem replace_of_lookup {index : Nat} {a : α} {cells : List (Nat × α)}
    (found : lookup index cells = some a) : replace index a cells = cells := by
  induction cells with
  | nil => simp [lookup] at found
  | cons cell rest ih => grind [replace, lookup]

theorem replace_replace (index : Nat) (a b : α) (cells : List (Nat × α)) :
    replace index b (replace index a cells) = replace index b cells := by
  induction cells with
  | nil => simp [replace]
  | cons cell rest ih => grind [replace]

@[simp] theorem set_set (s : Store family α) (h : Handle family) (a b : α) :
    (s.set h a).set h b = s.set h b := by
  simp [set, replace_replace]

theorem modify_modify [Inhabited α] (s : Store family α) (h : Handle family) (f g : α → α) :
    (s.modify h f).modify h g = s.modify h (g ∘ f) := by
  simp [modify]

theorem modify_add_fresh [Inhabited α] (s : Store family α) (a : α) (f : α → α) :
    (s.add a).modify s.fresh f = s.add (f a) := by
  rw [modify, get_add_fresh]
  simp [add, set, replace_replace]

theorem set_of_lookup {s : Store family α} {h : Handle family} {a : α}
    (found : lookup h.index s.cells = some a) : s.set h a = s := by
  simp [set, replace_of_lookup found]

/-- What is in `s` is in `s'` too, unchanged; there may be more in `s'`. -/
structure Extends [Inhabited α] (s s' : Store family α) : Prop where
  next : s.next ≤ s'.next
  get : ∀ h, s.Allocated h → s'.get h = s.get h

namespace Extends

variable [Inhabited α] {s s' s'' : Store family α} {h : Handle family}

theorem refl (s : Store family α) : s.Extends s := ⟨Nat.le_refl _, fun _ _ => rfl⟩

theorem trans (first : s.Extends s') (second : s'.Extends s'') : s.Extends s'' where
  next := Nat.le_trans first.next second.next
  get h old := by rw [second.get h (old.mono first.next), first.get h old]

theorem allocated (grown : s.Extends s') (old : s.Allocated h) : s'.Allocated h :=
  old.mono grown.next

theorem add (grown : s.Extends s') (a : α) : s.Extends (s'.add a) where
  next := Nat.le_succ_of_le grown.next
  get h old := by rw [get_add_ne s' (grown.allocated old).ne_fresh, grown.get h old]

theorem modify (grown : s.Extends s') (new : ¬s.Allocated h) (f : α → α) :
    s.Extends (s'.modify h f) where
  next := grown.next
  get other old := by rw [get_modify_ne s' (old.ne_of_not new), grown.get other old]

end Extends

end Store

end RpcHost
