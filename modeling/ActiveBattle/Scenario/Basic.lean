import ActiveBattle.Scene.Frame

/-!
# Scenarios

Everything one battle needs, and how it is played without anybody at the buttons: decision is pushed
every so many frames and stays down, and a limit of frames ends a battle that does not end by
itself.
-/

namespace ActiveBattle

set_option autoImplicit false

structure Scenario where
  config : Option BattleConfig := none
  database : Database := {}
  setup : BattleSetup := {}

structure Pacing where
  maxFrames : Nat := 36000
  /-- Frames between pushes of decision; 0 is never. -/
  decisionEvery : Nat := 4
deriving DecidableEq

namespace Pacing

/-- The buttons of the frame that follows `frame` frames, from those of the one before. -/
def nextInput (p : Pacing) (frame : Nat) (input : InputState) : InputState :=
  if 0 < p.decisionEvery ∧ frame % p.decisionEvery = 0 then input.nextFrame.press .decision
  else input.nextFrame

variable {σ : Type} [AssetLoader σ]

/-- Plays at most `left` frames. Nothing follows the end of a battle. -/
def playFrom (p : Pacing) : Nat → InputState → Scene σ → Scene σ
  | 0, _, s => s
  | left + 1, input, s =>
    if s.isFinished || s.roster.hasEmptyRange then s
    else
      let input := p.nextInput s.frame input
      playFrom p left input (s.update input)

def play (p : Pacing) (s : Scene σ) : Scene σ := p.playFrom p.maxFrames {} s

end Pacing

structure MemberSummary where
  id : Int
  name : String
  hp : Int
  maxHp : Int
deriving DecidableEq

structure RunSummary where
  result : Option BattleResult
  frames : Nat
  turns : Int
  party : List MemberSummary
  enemiesAlive : Nat
  gold : Int
  soundsPlayed : Nat
  eventsLogged : Nat
  seed : UInt64
deriving DecidableEq

namespace RunSummary

def ofMember (b : Battler) : MemberSummary := ⟨b.dbId, b.name, b.hp, b.stats.maxHp⟩

def ofScene {σ : Type} (s : Scene σ) : RunSummary where
  result := s.result
  frames := s.frame
  turns := s.roster.turns
  party := s.roster.partyMembers.map ofMember
  enemiesAlive := (s.roster.enemies.filter (·.isPresent)).length
  gold := s.roster.gold
  soundsPlayed := s.world.sounds.size
  eventsLogged := s.log.size
  seed := s.config.rngSeed

end RunSummary

namespace Scenario

/-- The configuration of a run: one given for it goes before the scenario's own, and a seed before
either's. -/
def configFor (s : Scenario) (given : Option BattleConfig) (seed : Option UInt64) : BattleConfig :=
  let config := given.getD (s.config.getD {})
  { config with rngSeed := seed.getD config.rngSeed }

/-- The battle of a scenario before its first frame. -/
def scene (s : Scenario) (given : Option BattleConfig) (seed : Option UInt64) :
    Except ConfigError (Scene InstantAssets) :=
  Scene.create (s.configFor given seed) s.database s.setup {}

end Scenario

end ActiveBattle
