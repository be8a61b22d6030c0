import ActiveBattle.Scene.Basic

/-!
# Endings

Victory with its rewards, defeat, and escape with its roll.
-/

namespace ActiveBattle.Scene

set_option autoImplicit false

variable {σ : Type}

def defeatedDefs (s : Scene σ) : List EnemyDef :=
  (s.roster.enemies.filter (·.isDead)).filterMap fun e => s.database.enemy? e.dbId

def expReward (s : Scene σ) : Int :=
  wrapOperand ((s.defeatedDefs.map (·.exp)).foldl (· + ·) 0)

def goldReward (s : Scene σ) : Int :=
  wrapOperand ((s.defeatedDefs.map (·.gold)).foldl (· + ·) 0)

def dropReward (s : Scene σ) : List Int := s.defeatedDefs.filterMap (·.dropItem)

def dropName (s : Scene σ) (item : Int) : String :=
  ((s.database.item? item).map (·.name)).getD "??? BAD ITEM ???"

def rewardPages (s : Scene σ) : List String :=
  let terms := s.config.terms
  [terms.victory]
    ++ (if s.expReward > 0 then [toString s.expReward ++ " " ++ terms.expReceived] else [])
    ++ (if s.goldReward > 0 then [terms.goldReceived ++ " " ++ toString s.goldReward] else [])
    ++ s.dropReward.map fun item => s.dropName item ++ " " ++ terms.itemReceived

/-- Experience for every party member, gold, and one of each drop. -/
def grantRewards (s : Scene σ) : Scene σ :=
  let exp := s.expReward
  let gold := s.goldReward
  let drops := s.dropReward
  s.modifyRoster fun r =>
    let r := r.party.foldl (fun r id => r.gainExp id exp) r
    drops.foldl (fun r item => r.addItem item 1) (r.gainGold gold)

def poseParty (s : Scene σ) (pose : Battler → Pose) : Scene σ :=
  s.modifyRoster fun r =>
    r.party.foldl (fun r id => r.modifyActor id fun a => a.setPose (pose a) 0) r

/-- Victory: poses, then rewards, then the end. -/
def processVictory (s : Scene σ) : Pace × Scene σ :=
  match s.substate with
  | 0 => (((s.poseParty fun _ => .victory).setWait 30 30).setSubstate 1).goOn
  | 1 =>
    let pages := s.rewardPages
    let s := s.modifyGame fun g => pages.foldl (·.showMessage ·) g
    (s.grantRewards.setSubstate 2).goOn
  | _ => (s.endBattle .victory).goOn

/-- Defeat: a pause, a message, then the end. -/
def processDefeat (s : Scene σ) : Pace × Scene σ :=
  match s.substate with
  | 0 => ((s.setWait 60 60).setSubstate 1).goOn
  | 1 => ((s.modifyGame (·.showMessage s.config.terms.defeat)).setSubstate 2).goOn
  | _ => (s.endBattle .defeat).goOn

/-- The chance of the first attempt between equals is half of this less a hundred. -/
def escapeBaseChance : Int := 150

/-- What each failed attempt adds to the chance. -/
def escapeAttemptBonus : Int := 10

/-- The mean agility of the battlers of a list that are present, at least 1. -/
def presentAgility (battlers : List Battler) : Int :=
  Roster.mean 1 ((battlers.filter (·.isPresent)).map (·.stats.agility))

def escapeChance (r : Roster) (attempts : Int) : Int :=
  escapeBaseChance - (100 * presentAgility r.enemies).tdiv (presentAgility r.partyMembers)
    + escapeAttemptBonus * attempts

/-- Rolls for an escape; a failure makes the next attempt easier. -/
def tryEscape (s : Scene σ) : Bool × Scene σ :=
  let (roll, dice) := s.game.dice.percent
  let chance := escapeChance s.roster s.escapeAttempts
  let s := s.modifyGame ({ · with dice := dice })
  if roll < chance then (true, s) else (false, { s with escapeAttempts := s.escapeAttempts + 1 })

/-- A script's flight, or one from the option window, always succeeds; any other is rolled for. -/
def attemptEscape (s : Scene σ) : Bool × Scene σ :=
  let forced := s.director.script.forceFlee
  let s := if forced then s.modifyDirector (·.resetForceFlee) else s
  if forced || s.previousState = .selectOption then (true, s) else s.tryEscape

def runAway (s : Scene σ) : Scene σ :=
  let s := s.playSystem .escape
  { s.poseParty fun a => Pose.walkRight.adjusted a.flip with runningAway := true }

/-- Escape: the attempt (step 0), its failure (step 1), its success (step 2). -/
def processEscape (s : Scene σ) : Pace × Scene σ :=
  match s.substate with
  | 0 =>
    let s := match s.attemptEscape with
      | (true, s) => s.runAway.setSubstate 2
      | (false, s) => (s.setSubstate 1).showNotification s.config.terms.escapeFailure
    (s.setWait 10 30).goOn
  | 1 => (s.endNotification.setState .selectActor).goOn
  | _ => (s.endNotification.endBattle .escape).goOn

end ActiveBattle.Scene
