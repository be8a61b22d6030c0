import ActiveBattle.Battler.Basic
import ActiveBattle.Dice
import ActiveBattle.Table

/-!
# The roster

Everyone taking part in a battle, the order of the party, and the goods the party owns. Actors are
found by database id, the first of an id counting, and enemies by their place in the troop.
-/

namespace ActiveBattle

set_option autoImplicit false

structure Roster where
  /-- Every actor of the database, in or out of the party. -/
  actors : List Battler := []
  party : List Int := []
  enemies : List Battler := []
  items : Table Int := {}
  gold : Int := 0
  exp : Table Int := {}
  /-- Actions begun or lost so far, party-wide. -/
  turns : Int := 0
deriving DecidableEq

namespace Roster

/-- Members whose enemy the database has, numbered in order. -/
def enemiesOf (db : Database) (index : Nat) : List TroopMember → List Battler
  | [] => []
  | member :: rest =>
    match db.enemy? member.enemyId with
    | some d => Battler.ofEnemy index d member :: enemiesOf db (index + 1) rest
    | none => enemiesOf db index rest

/-- The roster at the start of a battle; unknown actors and enemies are left out. -/
def ofSetup (db : Database) (party : List Int) (troop : Troop) : Roster where
  actors := db.actors.map Battler.ofActor
  party := party.filter fun id => (db.actor? id).isSome
  enemies := enemiesOf db 0 troop.members

def actor? (r : Roster) (id : Int) : Option Battler := r.actors.find? (·.dbId = id)

/-- An enemy by its zero-based place; no negative place is one. -/
def enemy? (r : Roster) (index : Int) : Option Battler :=
  if index < 0 then none else r.enemies[index.toNat]?

def battler? (r : Roster) : BattlerId → Option Battler
  | .actor id => r.actor? id
  | .enemy index => r.enemies[index]?

def modifyActor (r : Roster) (id : Int) (f : Battler → Battler) : Roster :=
  { r with actors := r.actors.modify (r.actors.findIdx (·.dbId = id)) f }

/-- Modifies a battler, if the roster has it. -/
def modify (r : Roster) (id : BattlerId) (f : Battler → Battler) : Roster :=
  match id with
  | .actor a => r.modifyActor a f
  | .enemy index => { r with enemies := r.enemies.modify index f }

/-- Modifies the enemy at a place; no negative place is one. -/
def modifyEnemy (r : Roster) (index : Int) (f : Battler → Battler) : Roster :=
  if index < 0 then r else { r with enemies := r.enemies.modify index.toNat f }

def modifyParty (r : Roster) (f : Battler → Battler) : Roster :=
  { r with actors := r.actors.map fun a => if r.party.contains a.dbId then f a else a }

def isActorInParty (r : Roster) (id : Int) : Bool := r.party.contains id

def isInParty (r : Roster) : BattlerId → Bool
  | .actor id => r.isActorInParty id
  | .enemy _ => false

def partyIndex? (r : Roster) (id : Int) : Option Nat := r.party.findIdx? (· = id)

def partyIds (r : Roster) : List BattlerId := r.party.map .actor

def enemyIds (r : Roster) : List BattlerId := (List.range r.enemies.length).map .enemy

def sideIds (r : Roster) : Side → List BattlerId
  | .ally => r.partyIds
  | .enemy => r.enemyIds

def partyMembers (r : Roster) : List Battler := r.party.filterMap r.actor?

def combatants (r : Roster) : List Battler := r.partyMembers ++ r.enemies

def isPresent (r : Roster) (id : BattlerId) : Bool := (r.battler? id).any (·.isPresent)

def presentIds (r : Roster) : List BattlerId := (r.combatants.filter (·.isPresent)).map (·.id)

/-- The references of one side's battlers that are present. -/
def presentOn (r : Roster) (side : Side) : List BattlerId := (r.sideIds side).filter r.isPresent

def visibleEnemyCount (r : Roster) : Nat := (r.enemies.filter (!·.hidden)).length

def visiblePartyCount (r : Roster) : Nat := (r.partyMembers.filter (!·.hidden)).length

def isPartyDefeated (r : Roster) : Bool := !r.partyMembers.any (·.isPresent)

def areEnemiesDefeated (r : Roster) : Bool := !r.enemies.any (·.isPresent)

/-- The mean of a list of numbers, rounded toward zero, at least `least`; `least` of no numbers at
all. -/
def mean (least : Int) (values : List Int) : Int :=
  if values.isEmpty then least
  else max least ((wrapOperand (values.foldl (· + ·) 0)).tdiv values.length)

/-- A hundred less the mean HP percentage of the living party. -/
def fatigue (r : Roster) : Int :=
  let living := (r.partyMembers.filter (!·.isDead)).map (·.hpPercent)
  if living.isEmpty then 100
  else 100 - (wrapOperand (living.foldl (· + ·) 0)).tdiv living.length

/-- One more turn of the battle. That the count outgrows the operands is left out. -/
def incTurns (r : Roster) : Roster := { r with turns := r.turns + 1 }

/-- A uniformly chosen battler of one side among those present. -/
def randomPresent (r : Roster) (side : Side) (dice : Dice) : Option BattlerId × Dice :=
  let candidates := r.presentOn side
  if candidates.isEmpty then (none, dice)
  else
    let (i, dice) := dice.index candidates.length
    (candidates[i]?, dice)

/-- The purse never goes below zero. -/
def gainGold (r : Roster) (amount : Int) : Roster :=
  { r with gold := max (saturate (r.gold + amount)) 0 }

/-- A stack holds up to 99 of an item. -/
def addItem (r : Roster) (item count : Int) : Roster :=
  { r with items := r.items.update item 0 fun n => clamp 0 99 (n + count) }

def itemCount (r : Roster) (item : Int) : Int := r.items.getD item 0

/-- Experience outgrows the operands by wrapping. -/
def gainExp (r : Roster) (actor amount : Int) : Roster :=
  { r with exp := r.exp.update actor 0 fun n => wrapOperand (n + amount) }

/-- Some battler's value was to be held in a range without members. -/
def hasEmptyRange (r : Roster) : Bool := r.actors.any (·.emptyRange) || r.enemies.any (·.emptyRange)

end Roster

end ActiveBattle
