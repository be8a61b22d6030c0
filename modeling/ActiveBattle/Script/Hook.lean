import ActiveBattle.Basic

/-!
# Hooks

Moments at which the scene calls out to a common event a script has bound. Each kind of moment has
one slot, and binding it again replaces the event.
-/

namespace ActiveBattle

set_option autoImplicit false

inductive HookKind where
  | atbIncrement
  | damagePop
  | targeting
  | setState
  | statChange
deriving DecidableEq

namespace HookKind

def all : List HookKind := [atbIncrement, damagePop, targeting, setState, statChange]

def slot : HookKind → Fin 5
  | atbIncrement => 0
  | damagePop => 1
  | targeting => 2
  | setState => 3
  | statChange => 4

def ofIndex? (index : Int) : Option HookKind :=
  if index < 0 then none else all[index.toNat]?

theorem slot_injective {j k : HookKind} (h : j.slot = k.slot) : j = k := by
  cases j <;> cases k <;> first | rfl | (exact absurd h (by decide))

theorem ofIndex?_slot (k : HookKind) : ofIndex? (k.slot.val : Int) = some k := by
  cases k <;> rfl

end HookKind

/-- The common event to run and the first variable that receives the arguments. -/
structure HookBinding where
  commonEventId : Int := 0
  variableStart : Int := 0
deriving DecidableEq

def HookBinding.isBound (b : HookBinding) : Bool := b.commonEventId > 0

/-- The six numbers a hook passes on. -/
abbrev HookArgs := Vector Int 6

structure HookTable where
  slots : Vector HookBinding 5 := Vector.replicate 5 {}
deriving DecidableEq

namespace HookTable

def bind (t : HookTable) (kind : HookKind) (commonEventId variableStart : Int) : HookTable :=
  ⟨t.slots.set kind.slot ⟨commonEventId, variableStart⟩⟩

def get (t : HookTable) (kind : HookKind) : HookBinding := t.slots[kind.slot]

/-- Some hook calls this common event. -/
def bindsEvent (t : HookTable) (commonEventId : Int) : Bool :=
  commonEventId > 0 && t.slots.toList.any (·.commonEventId = commonEventId)

theorem get_bind (t : HookTable) (k other : HookKind) (event start : Int) :
    (t.bind k event start).get other = if k = other then ⟨event, start⟩ else t.get other := by
  by_cases h : k = other
  · subst h
    simp [bind, get]
  · have hs : k.slot.val ≠ other.slot.val := fun e => h (HookKind.slot_injective (Fin.ext e))
    simp [bind, get, h, hs]

end HookTable

end ActiveBattle
