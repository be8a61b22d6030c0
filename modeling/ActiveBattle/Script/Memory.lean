import ActiveBattle.Basic

/-!
# Switches and variables

The numbered storage scripts share. Cells are numbered from one; reading outside the storage gives
the resting value and writing outside it does nothing. Variables hold values of at most seven
digits. The main statements are `Switches.get_set` and `Variables.get_set`: what is read after a
write.
-/

namespace ActiveBattle

set_option autoImplicit false

/-- The cell index of a one-based number, when the storage has it. -/
def cellIndex? (size : Nat) (id : Int) : Option Nat :=
  if 1 ≤ id ∧ id ≤ size then some (id - 1).toNat else none

theorem cellIndex?_eq_some {size i : Nat} {id : Int} :
    cellIndex? size id = some i ↔ id = i + 1 ∧ i < size := by
  unfold cellIndex?
  split
  · simp only [Option.some.injEq]; omega
  · simp only [reduceCtorEq, false_iff]; omega

theorem cellIndex?_eq_none {size : Nat} {id : Int} :
    cellIndex? size id = none ↔ ¬(1 ≤ id ∧ id ≤ size) := by
  unfold cellIndex?; split <;> simp_all

theorem cellIndex?_lt {size i : Nat} {id : Int} (h : cellIndex? size id = some i) : i < size :=
  (cellIndex?_eq_some.mp h).2

structure Switches where
  data : Array Bool
deriving DecidableEq

namespace Switches

def standardCount : Nat := 5000

def ofCount (count : Nat) : Switches := ⟨Array.replicate count false⟩

def size (s : Switches) : Nat := s.data.size

def isEmpty (s : Switches) : Bool := s.data.isEmpty

def get (s : Switches) (id : Int) : Bool :=
  match cellIndex? s.data.size id with
  | some i => s.data.getD i false
  | none => false

def set (s : Switches) (id : Int) (value : Bool) : Switches :=
  match cellIndex? s.data.size id with
  | some i => ⟨s.data.setIfInBounds i value⟩
  | none => s

def flip (s : Switches) (id : Int) : Switches := s.set id (!s.get id)

@[simp] theorem size_set (s : Switches) (id : Int) (value : Bool) :
    (s.set id value).size = s.size := by
  unfold set size; split <;> simp

/-- A write changes its own cell alone, and only when there is one. -/
theorem get_set (s : Switches) (id other : Int) (value : Bool) :
    (s.set id value).get other =
      if id = other ∧ 1 ≤ id ∧ id ≤ s.size then value else s.get other := by
  cases h : cellIndex? s.data.size id with
  | none =>
    have hid := cellIndex?_eq_none.mp h
    rw [if_neg fun c => hid c.2]
    simp [set, h]
  | some i =>
    obtain ⟨hid, hi⟩ := cellIndex?_eq_some.mp h
    cases ho : cellIndex? s.data.size other with
    | none =>
      have hother := cellIndex?_eq_none.mp ho
      rw [if_neg (by omega)]
      simp [set, get, h, ho]
    | some j =>
      obtain ⟨hother, hj⟩ := cellIndex?_eq_some.mp ho
      by_cases hij : i = j
      · subst hij
        rw [if_pos ⟨by omega, by omega, by unfold size; omega⟩]
        simp [set, get, h, ho, hi]
      · rw [if_neg (by omega)]
        simp [set, get, h, ho, hij]

end Switches

structure Variables where
  data : Array Int
deriving DecidableEq

namespace Variables

def standardCount : Nat := 5000

def minValue : Int := -9999999

def maxValue : Int := 9999999

def ofCount (count : Nat) : Variables := ⟨Array.replicate count 0⟩

def size (v : Variables) : Nat := v.data.size

def isEmpty (v : Variables) : Bool := v.data.isEmpty

def get (v : Variables) (id : Int) : Int :=
  match cellIndex? v.data.size id with
  | some i => v.data.getD i 0
  | none => 0

/-- Writes a value, held within the range of a variable. -/
def set (v : Variables) (id : Int) (value : Int) : Variables :=
  match cellIndex? v.data.size id with
  | some i => ⟨v.data.setIfInBounds i (clamp minValue maxValue value)⟩
  | none => v

@[simp] theorem size_set (v : Variables) (id : Int) (value : Int) :
    (v.set id value).size = v.size := by
  unfold set size; split <;> simp

/-- A write changes its own cell alone, and only when there is one. -/
theorem get_set (v : Variables) (id other : Int) (value : Int) :
    (v.set id value).get other =
      if id = other ∧ 1 ≤ id ∧ id ≤ v.size then clamp minValue maxValue value else v.get other := by
  cases h : cellIndex? v.data.size id with
  | none =>
    have hid := cellIndex?_eq_none.mp h
    rw [if_neg fun c => hid c.2]
    simp [set, h]
  | some i =>
    obtain ⟨hid, hi⟩ := cellIndex?_eq_some.mp h
    cases ho : cellIndex? v.data.size other with
    | none =>
      have hother := cellIndex?_eq_none.mp ho
      rw [if_neg (by omega)]
      simp [set, get, h, ho]
    | some j =>
      obtain ⟨hother, hj⟩ := cellIndex?_eq_some.mp ho
      by_cases hij : i = j
      · subst hij
        rw [if_pos ⟨by omega, by omega, by unfold size; omega⟩]
        simp [set, get, h, ho, hi]
      · rw [if_neg (by omega)]
        simp [set, get, h, ho, hij]

end Variables

end ActiveBattle
