/-!
# Tables keyed by number

A small finite map from numbers to values, kept in order of first insertion. Reading after a write
gives what was written at that key and leaves every other key alone.
-/

namespace ActiveBattle

set_option autoImplicit false

/-- Entries in order of first insertion. -/
structure Table (α : Type) where
  entries : List (Int × α) := []
deriving DecidableEq

namespace Table

variable {α : Type}

/-- The value stored first under a key. -/
def lookup (key : Int) : List (Int × α) → Option α
  | [] => none
  | (k, v) :: rest => if k = key then some v else lookup key rest

/-- Overwrites the first entry of a key, or adds one at the end. -/
def store (key : Int) (value : α) : List (Int × α) → List (Int × α)
  | [] => [(key, value)]
  | (k, v) :: rest => if k = key then (k, value) :: rest else (k, v) :: store key value rest

def get? (t : Table α) (key : Int) : Option α := lookup key t.entries

def getD (t : Table α) (key : Int) (default : α) : α := (t.get? key).getD default

def insert (t : Table α) (key : Int) (value : α) : Table α := ⟨store key value t.entries⟩

/-- Modifies the value of a key, starting from `default` when there is none. -/
def update (t : Table α) (key : Int) (default : α) (f : α → α) : Table α :=
  t.insert key (f (t.getD key default))

theorem lookup_store (key other : Int) (value : α) (l : List (Int × α)) :
    lookup other (store key value l) = if other = key then some value else lookup other l := by
  induction l with
  | nil =>
    simp only [store, lookup, eq_comm]
  | cons e rest ih =>
    obtain ⟨k, v⟩ := e
    by_cases hk : k = key
    · subst hk
      by_cases ho : k = other
      · simp [store, lookup, ho]
      · simp [store, lookup, ho, Ne.symm ho]
    · by_cases ho : k = other
      · subst ho
        simp [store, lookup, hk]
      · simp [store, lookup, hk, ho, ih]

@[simp] theorem get?_insert_self (t : Table α) (key : Int) (value : α) :
    (t.insert key value).get? key = some value := by
  simp [get?, insert, lookup_store]

theorem get?_insert_of_ne (t : Table α) {key other : Int} (h : other ≠ key) (value : α) :
    (t.insert key value).get? other = t.get? other := by
  simp [get?, insert, lookup_store, h]

theorem getD_update (t : Table α) (key other : Int) (default : α) (f : α → α) :
    (t.update key default f).getD other default =
      if other = key then f (t.getD key default) else t.getD other default := by
  unfold update getD
  split
  · rename_i h
    rw [h, get?_insert_self]
    rfl
  · rename_i h
    rw [get?_insert_of_ne t h]

end Table

end ActiveBattle
