import ActiveBattle.Roster.Basic

/-!
# Gauges

Every gauge that can fill gains in proportion to its battler's agility against the average of all
combatants. A battler of average agility fills an empty gauge in the configured number of frames.
-/

namespace ActiveBattle.Roster

set_option autoImplicit false

/-- The mean agility of the combatants that are present, at least 1. -/
def averageAgility (r : Roster) : Int :=
  mean 1 ((r.combatants.filter (·.isPresent)).map fun b => max b.stats.agility 1)

def baseGain (max fillFrames : Int) : Int := Max.max (max.tdiv (Max.max fillFrames 1)) 1

/-- What a gauge gains in a frame. That the product outgrows the operands is left out. -/
def gaugeGain (base average agility : Int) : Int :=
  Max.max ((base * Max.max agility 1).tdiv average) 1

/-- Visible, able to act sooner or later, and with room in the gauge. -/
def canFill (db : Database) (max : Int) (b : Battler) : Bool :=
  !b.hidden && b.canActOrRecoverable db && !b.isGaugeFull max

/-- Fills the gauges of the named battlers one after the other and tells who gained how much. -/
def fillGauges (db : Database) (max base average : Int) :
    List BattlerId → Roster → List (BattlerId × Int) × Roster
  | [], r => ([], r)
  | id :: rest, r =>
    match r.battler? id with
    | none => fillGauges db max base average rest r
    | some b =>
      if canFill db max b then
        let gauge := min (b.gauge + gaugeGain base average b.stats.agility) max
        let (gains, r) :=
          fillGauges db max base average rest (r.modify id ({ · with gauge := gauge }))
        ((id, gauge - b.gauge) :: gains, r)
      else fillGauges db max base average rest r

/-- One frame of gauge filling, party first. -/
def updateGauges (r : Roster) (db : Database) (max fillFrames : Int) :
    List (BattlerId × Int) × Roster :=
  fillGauges db max (baseGain max fillFrames) r.averageAgility (r.partyIds ++ r.enemyIds) r

end ActiveBattle.Roster
