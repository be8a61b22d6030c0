import ActiveBattle.Config
import ActiveBattle.Roster.Basic

/-!
# Formation

Where battlers stand, which way they face and how full their gauges start, for each condition a
battle can begin in.
-/

namespace ActiveBattle

set_option autoImplicit false

inductive BattleCondition where
  | none
  | initiative
  | back
  | surround
  | pincers
deriving DecidableEq

namespace Formation

def screenWidth : Int := 320

/-- How far the back row stands behind the front row. -/
def rowOffset : Int := 24

def partyBaseX : Int := 248

def partyBaseY : Int := 88

def partySpacingY : Int := 24

def across (x : Int) : Int := screenWidth - x

/-- Pincers needs two visible enemies and surround two visible party members, and neither works with
manual placement; they fall back to being attacked from behind and to the initiative. -/
def resolve (condition : BattleCondition) (placement : Placement) (r : Roster) : BattleCondition :=
  match condition with
  | .pincers => if placement = .manual ∨ r.visibleEnemyCount ≤ 1 then .back else .pincers
  | .surround => if placement = .manual ∨ r.visiblePartyCount ≤ 1 then .initiative else .surround
  | other => other

def actorPosition (index : Nat) (row : Row) (condition : BattleCondition) : Point :=
  let x := partyBaseX + if row = .back then rowOffset else 0
  let crossed := condition = .back ∨ (condition = .surround ∧ index % 2 = 1)
  { x := if crossed then across x else x
    y := partyBaseY + partySpacingY * wrapOperand index }

/-- Where an enemy stands, from the position of its troop slot and its layout index. -/
def enemyPosition (slot : Point) (index : Nat) (condition : BattleCondition) : Point :=
  let x := match condition with
    | .back => across slot.x
    | .surround => screenWidth / 4 + slot.x.tdiv 2
    | .pincers => if index % 2 = 0 then slot.x.tdiv 2 else across (slot.x.tdiv 2)
    | .none | .initiative => slot.x
  { x := x, y := slot.y }

/-- Layout indices: visible enemies are counted among themselves, hidden ones keep their place in
the troop. -/
def layoutFrom (place visible : Nat) : List Battler → List Nat
  | [] => []
  | e :: rest =>
    if e.hidden then place :: layoutFrom (place + 1) visible rest
    else visible :: layoutFrom (place + 1) (visible + 1) rest

def layoutIndices (enemies : List Battler) : List Nat := layoutFrom 0 0 enemies

/-- Where a battler belongs under a condition, from its party or troop slot. -/
def battlePosition (r : Roster) (id : BattlerId) (slots : List Point)
    (condition : BattleCondition) :
    Option Point :=
  match id with
  | .actor a => do
    let index ← r.partyIndex? a
    let actor ← r.actor? a
    return actorPosition index actor.row condition
  | .enemy place => do
    let enemy ← r.enemies[place]?
    let index ← (layoutIndices r.enemies)[place]?
    return enemyPosition (slots.getD place enemy.position) index condition

/-- How an enemy of some layout index faces at the start. -/
def enemyStartFlip (condition : BattleCondition) (index : Nat) : Bool :=
  match condition with
  | .none => false
  | .initiative | .back | .surround => true
  | .pincers => index % 2 = 0

def placeEnemies (r : Roster) (slots : List Point) (condition : BattleCondition) : Roster :=
  let indices := layoutIndices r.enemies
  { r with
    enemies := r.enemies.mapIdx fun place e =>
      let index := indices.getD place 0
      { e with
        position := enemyPosition (slots.getD place e.position) index condition
        flip := enemyStartFlip condition index } }

/-- Somebody in the front row can fight, now or later. -/
def frontCanFight (r : Roster) (db : Database) : Bool :=
  r.partyMembers.any fun a => a.row = .front && !a.hidden && a.canActOrRecoverable db

def closeRanks (r : Roster) : Roster :=
  r.party.foldl (fun r id => r.modifyActor id ({ · with row := .front })) r

def placeActorsFrom (condition : BattleCondition) (index : Nat) : List Int → Roster → Roster
  | [], r => r
  | id :: rest, r =>
    placeActorsFrom condition (index + 1) rest
      (r.modifyActor id fun a =>
        { a with
          position := actorPosition index a.row condition
          flip := condition = .surround && index % 2 = 1 })

/-- Places the party; the back row joins the front when nobody in front can fight. -/
def placeActors (r : Roster) (db : Database) (condition : BattleCondition) : Roster :=
  let r := if frontCanFight r db then r else closeRanks r
  placeActorsFrom condition 0 r.party r

/-- The gauge a battler starts with: `preempt` when its side is favoured, `ambush` when the other
is. -/
def startGauge (condition : BattleCondition) (firstStrike : Bool) (preempt ambush max : Int)
    (b : Battler) : Int :=
  match condition with
  | .initiative | .surround => preempt
  | .back | .pincers => ambush
  | .none => if firstStrike || b.preemptive then preempt else max.tdiv 2

/-- Sets the gauge of a battler that is visible and can act sooner or later. -/
def seedGauge (db : Database) (condition : BattleCondition) (firstStrike : Bool)
    (preempt ambush max : Int) (b : Battler) : Battler :=
  if b.hidden || !b.canActOrRecoverable db then b
  else { b with gauge := startGauge condition firstStrike preempt ambush max b }

/-- Sets all gauges: a favourable condition fills the party's and empties the enemies'. -/
def seedGauges (r : Roster) (db : Database) (condition : BattleCondition) (firstStrike : Bool)
    (max : Int) : Roster :=
  let r := { r with enemies := r.enemies.map (seedGauge db condition firstStrike 0 max max) }
  r.party.foldl (fun r id => r.modifyActor id (seedGauge db condition firstStrike max 0 max)) r

/-- `prefer` when some visible battler stands as `test` asks, else its opposite. -/
def lookToward (others : List Battler) (prefer : Bool) (test : Int → Bool) : Bool :=
  if others.any fun o => !o.hidden && test o.position.x then prefer else !prefer

/-- How an enemy faces once everyone is placed. -/
def enemyFlip (r : Roster) (condition : BattleCondition) (index : Nat) (x : Int) : Bool :=
  match condition with
  | .none | .initiative => lookToward r.partyMembers false (· ≥ x)
  | .back => lookToward r.partyMembers true (· ≤ x)
  | .surround | .pincers => index % 2 = 0

def turnEnemies (r : Roster) (condition : BattleCondition) : Roster :=
  let indices := layoutIndices r.enemies
  { r with
    enemies := r.enemies.mapIdx fun place e =>
      { e with flip := enemyFlip r condition (indices.getD place 0) e.position.x } }

/-- How the party member of an index faces once everyone is placed. -/
def actorFlip (r : Roster) (condition : BattleCondition) (index : Nat) (x : Int) : Bool :=
  match condition with
  | .none | .initiative => lookToward r.enemies false (· ≤ x)
  | .back => lookToward r.enemies true (· ≥ x)
  | .surround | .pincers => index % 2 = 1

def turnActorsFrom (before : Roster) (condition : BattleCondition) (index : Nat) :
    List Int → Roster → Roster
  | [], r => r
  | id :: rest, r =>
    let x := ((before.actor? id).map (·.position.x)).getD 0
    turnActorsFrom before condition (index + 1) rest
      (r.modifyActor id ({ · with flip := actorFlip before condition index x }))

def turnActors (r : Roster) (condition : BattleCondition) : Roster :=
  turnActorsFrom r condition 0 r.party r

/-- Turns a battler around when its target is behind it. -/
def faceTarget (b : Battler) (target : Point) : Battler :=
  if (b.flip && decide (target.x < b.position.x)) ||
      (!b.flip && decide (target.x > b.position.x)) then
    { b with flip := !b.flip }
  else b

end Formation

end ActiveBattle
