import ActiveBattle.Database
import ActiveBattle.Script.Program

/-!
# Battlers

A combatant and what happens to it: HP and SP changes, states coming and going, turns, combos, poses
and sprite timers.
-/

namespace ActiveBattle

set_option autoImplicit false

inductive Pose where
  | idle
  | attackLeft
  | attackRight
  | skill
  | item
  | defend
  | damage
  | dead
  | victory
  | walkLeft
  | walkRight
deriving DecidableEq

/-- Left and right change places for a flipped battler. -/
def Pose.adjusted (p : Pose) (flipped : Bool) : Pose :=
  if flipped then
    match p with
    | attackRight => attackLeft
    | attackLeft => attackRight
    | walkRight => walkLeft
    | walkLeft => walkRight
    | other => other
  else p

structure ActiveState where
  id : Int
  turns : Int
deriving DecidableEq

/-- A battle command that is carried out several times per action. -/
structure Combo where
  commandId : Int
  times : Int
deriving DecidableEq

structure Battler where
  id : BattlerId
  dbId : Int
  name : String
  stats : Stats
  hp : Int
  sp : Int
  states : List ActiveState := []
  hidden : Bool := false
  position : Point := {}
  flip : Bool := false
  gauge : Int := 0
  battleTurn : Int := 0
  /-- The battle command chosen last; -1 is none. -/
  lastBattleAction : Int := -1
  combo : Option Combo := none
  row : Row := .front
  controllable : Bool := false
  preemptive : Bool := false
  defending : Bool := false
  /-- An action of this battler waits in the queue. -/
  actionQueued : Bool := false
  skills : List Int := []
  commands : List Int := []
  deathTimer : Int := 0
  blinkTimer : Int := 0
  pose : Pose := .idle
  poseFrames : Int := 0
  /-- A value was to be held in a range that has no members. The battle stops there, and what is
  computed after that tells nothing about it. -/
  emptyRange : Bool := false
deriving DecidableEq

namespace Battler

/-- Frames a dying battler takes to fade. -/
def deathFadeFrames : Int := 36

/-- Frames a struck enemy blinks. -/
def blinkFrames : Int := 20

def ofActor (d : ActorDef) : Battler where
  id := .actor d.id
  dbId := d.id
  name := d.name
  stats := d.stats
  hp := d.stats.maxHp
  sp := d.stats.maxSp
  row := d.row
  controllable := d.controllable
  preemptive := d.preemptive
  skills := d.skills
  commands := d.commands

def ofEnemy (index : Nat) (d : EnemyDef) (member : TroopMember) : Battler where
  id := .enemy index
  dbId := d.id
  name := d.name
  stats := d.stats
  hp := d.stats.maxHp
  sp := d.stats.maxSp
  hidden := member.hidden
  position := member.position
  preemptive := d.preemptive

def side (b : Battler) : Side := b.id.side

def isAlly (b : Battler) : Bool := b.id.isAlly

def hasState (b : Battler) (state : Int) : Bool := b.states.any (·.id = state)

def isDead (b : Battler) : Bool := b.hasState deathState

/-- Visible and alive. -/
def isPresent (b : Battler) : Bool := !b.hidden && !b.isDead

def stateDefs (b : Battler) (db : Database) : List StateDef :=
  b.states.filterMap fun s => db.state? s.id

/-- The later of two definitions unless the earlier has the higher priority. -/
def moreSevere (best : Option StateDef) (d : StateDef) : Option StateDef :=
  match best with
  | some b => if b.priority ≤ d.priority then some d else some b
  | none => some d

/-- The restriction of the restricting state of highest priority, the latest of equals. -/
def restriction (b : Battler) (db : Database) : Restriction :=
  match ((b.stateDefs db).filter (·.restriction ≠ .normal)).foldl moreSevere none with
  | some d => d.restriction
  | none => .normal

def canAct (b : Battler) (db : Database) : Bool := b.isPresent && b.restriction db ≠ .doNothing

/-- Alive, and every state that forbids acting wears off by itself. -/
def canActOrRecoverable (b : Battler) (db : Database) : Bool :=
  !b.isDead && (b.stateDefs db).all fun d =>
    d.restriction ≠ .doNothing || decide (d.autoReleaseTurns > 0)

/-- HP in percent of the maximum, rounded toward zero. -/
def hpPercent (b : Battler) : Int :=
  if b.stats.maxHp ≤ 0 then 0 else (100 * b.hp).tdiv b.stats.maxHp

/-- Dead: no HP, no gauge, no guard, and the death state alone. -/
def kill (b : Battler) : Battler :=
  { b with hp := 0, states := [⟨deathState, 0⟩], gauge := 0, defending := false }

/-- The least HP a change can leave: a wound that is not lethal leaves one point. -/
def hpFloor (b : Battler) (delta : Int) (lethal : Bool) : Int :=
  if lethal || delta ≥ 0 then 0 else min 1 b.hp

/-- Changes HP and tells the change made. Reaching zero kills; the dead do not change. With a
maximum below the floor there is no HP to change to, which is flagged. -/
def changeHp (b : Battler) (delta : Int) (lethal : Bool) : Int × Battler :=
  if b.isDead then (0, b)
  else if b.stats.maxHp < b.hpFloor delta lethal then (0, { b with emptyRange := true })
  else
    let hp := clamp (b.hpFloor delta lethal) b.stats.maxHp (saturate (b.hp + delta))
    (hp - b.hp, if hp = 0 then b.kill else { b with hp := hp })

/-- Sets SP, held between zero and the maximum. With a maximum below zero that is flagged. -/
def setSp (b : Battler) (sp : Int) : Battler :=
  if b.stats.maxSp < 0 then { b with emptyRange := true }
  else { b with sp := clamp 0 b.stats.maxSp sp }

/-- Adds a state and tells whether it is new. The dead take no state, and death takes all others. -/
def addState (b : Battler) (state : Int) (db : Database) : Bool × Battler :=
  if b.isDead || b.hasState state then (false, b)
  else if state = deathState then (true, b.kill)
  else if (db.state? state).isNone then (false, b)
  else (true, { b with states := b.states ++ [⟨state, 0⟩] })

/-- Removes a state and tells whether it was there. Leaving death gives a point of HP. -/
def removeState (b : Battler) (state : Int) : Bool × Battler :=
  if b.hasState state then
    let rest := { b with states := b.states.filter (·.id ≠ state) }
    (true, if state = deathState then { rest with hp := max b.hp 1, deathTimer := 0 } else rest)
  else (false, b)

def expired (db : Database) (s : ActiveState) : Bool :=
  match db.state? s.id with
  | some d => decide (d.autoReleaseTurns > 0) && decide (s.turns ≥ d.autoReleaseTurns)
  | none => false

/-- Counts a turn on every state and releases those that have lasted theirs. That a count outgrows
the operands is left out. -/
def healStates (b : Battler) (db : Database) : List Int × Battler :=
  let counted := b.states.map fun s => { s with turns := s.turns + 1 }
  ((counted.filter (expired db)).map (·.id),
    { b with states := counted.filter fun s => !expired db s })

def conditionDelta (b : Battler) (db : Database) : Int :=
  wrapOperand (((b.stateDefs db).map (·.hpChange)).foldl (· + ·) 0)

/-- Applies the states' HP change, which is never lethal. -/
def applyConditions (b : Battler) (db : Database) : Int × Battler :=
  if b.conditionDelta db = 0 then (0, b) else b.changeHp (b.conditionDelta db) false

def isGaugeFull (b : Battler) (max : Int) : Bool := b.gauge ≥ max

/-- One more turn; the guard of the last one is down. That the count outgrows the operands is left
out. -/
def nextBattleTurn (b : Battler) : Battler :=
  { b with battleTurn := b.battleTurn + 1, defending := false }

def setCombo (b : Battler) (command times : Int) : Battler :=
  { b with combo := some ⟨command, times⟩ }

def startDeathFade (b : Battler) : Battler := { b with deathTimer := deathFadeFrames }

def startBlink (b : Battler) : Battler := { b with blinkTimer := blinkFrames }

def setPose (b : Battler) (pose : Pose) (frames : Int) : Battler :=
  { b with pose := pose, poseFrames := max frames 0 }

def isIdle (b : Battler) : Bool := b.poseFrames = 0

/-- One frame less, down to zero. -/
def countDown (frames : Int) : Int := if frames > 0 then frames - 1 else frames

/-- One frame of the sprite's timers; a pose that ends gives way to the resting one. -/
def updateTimers (b : Battler) : Battler :=
  let b := { b with deathTimer := countDown b.deathTimer, blinkTimer := countDown b.blinkTimer }
  if b.poseFrames > 0 then
    let rest := if b.isDead then Pose.dead else Pose.idle
    { b with
      poseFrames := b.poseFrames - 1
      pose := if b.poseFrames - 1 = 0 then rest else b.pose }
  else b

end Battler

end ActiveBattle
