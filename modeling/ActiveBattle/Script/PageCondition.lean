import ActiveBattle.Basic

/-!
# Page conditions

The ten categories a troop page can react to, sets of them, and the operands of a condition. Only
the operands of flagged categories are consulted.
-/

namespace ActiveBattle

set_option autoImplicit false

inductive ConditionKind where
  | switchA
  | switchB
  | variableAtLeast
  | turn
  | turnEnemy
  | turnActor
  | fatigue
  | enemyHp
  | actorHp
  | commandActor
deriving DecidableEq

namespace ConditionKind

def all : List ConditionKind :=
  [switchA, switchB, variableAtLeast, turn, turnEnemy, turnActor, fatigue, enemyHp, actorHp,
    commandActor]

def place : ConditionKind → Nat
  | switchA => 0
  | switchB => 1
  | variableAtLeast => 2
  | turn => 3
  | turnEnemy => 4
  | turnActor => 5
  | fatigue => 6
  | enemyHp => 7
  | actorHp => 8
  | commandActor => 9

theorem mem_all (k : ConditionKind) : k ∈ all := by cases k <;> decide

theorem place_lt (k : ConditionKind) : k.place < 10 := by cases k <;> decide

theorem place_injective {j k : ConditionKind} (h : j.place = k.place) : j = k := by
  cases j <;> cases k <;> first | rfl | (exact absurd h (by decide))

end ConditionKind

/-- A set of categories, one bit each. -/
structure ConditionFlags where
  bits : BitVec 10 := 0
deriving DecidableEq

namespace ConditionFlags

def empty : ConditionFlags := ⟨0⟩

def all : ConditionFlags := ⟨BitVec.allOnes 10⟩

/-- The set with the low ten bits of a number. -/
def ofBits (n : Nat) : ConditionFlags := ⟨BitVec.ofNat 10 n⟩

def contains (f : ConditionFlags) (k : ConditionKind) : Bool := f.bits.getLsbD k.place

def insert (f : ConditionFlags) (k : ConditionKind) : ConditionFlags :=
  ⟨f.bits ||| BitVec.twoPow 10 k.place⟩

def isEmpty (f : ConditionFlags) : Bool := f.bits = 0

def intersects (f g : ConditionFlags) : Bool := f.bits &&& g.bits ≠ 0

def ofList (kinds : List ConditionKind) : ConditionFlags := kinds.foldl insert empty

/-- The members, in category order. -/
def toList (f : ConditionFlags) : List ConditionKind := ConditionKind.all.filter f.contains

@[simp] theorem contains_empty (k : ConditionKind) : empty.contains k = false := by
  simp [empty, contains]

@[simp] theorem contains_all (k : ConditionKind) : all.contains k = true := by
  cases k <;> decide

theorem contains_insert (f : ConditionFlags) (j k : ConditionKind) :
    (f.insert j).contains k = (decide (j = k) || f.contains k) := by
  by_cases h : j = k
  · subst h
    simp [insert, contains, j.place_lt]
  · have hp : j.place ≠ k.place := fun e => h (ConditionKind.place_injective e)
    simp [insert, contains, h, hp]

theorem mem_toList (f : ConditionFlags) (k : ConditionKind) :
    k ∈ f.toList ↔ f.contains k = true := by
  simp [toList, ConditionKind.mem_all]

end ConditionFlags

/-- The declared trigger of a troop page. -/
structure PageCondition where
  flags : ConditionFlags := {}
  switchAId : Int := 0
  switchBId : Int := 0
  variableId : Int := 0
  variableValue : Int := 0
  turnA : Int := 0
  turnB : Int := 0
  turnEnemyId : Int := 0
  turnEnemyA : Int := 0
  turnEnemyB : Int := 0
  turnActorId : Int := 0
  turnActorA : Int := 0
  turnActorB : Int := 0
  fatigueMin : Int := 0
  fatigueMax : Int := 0
  enemyId : Int := 0
  enemyHpMin : Int := 0
  enemyHpMax : Int := 0
  actorId : Int := 0
  actorHpMin : Int := 0
  actorHpMax : Int := 0
  commandActorId : Int := 0
  commandId : Int := 0
deriving DecidableEq

end ActiveBattle
