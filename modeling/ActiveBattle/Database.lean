/-!
# Static battle database

The read-only definitions a battle is built from: battlers, skills, items, states, animations,
battle commands and system sounds. A definition is found by its id; of several with one id the first
counts.
-/

namespace ActiveBattle

set_option autoImplicit false

/-- The state id that marks a battler as dead. -/
def deathState : Int := 1

structure SoundEffect where
  name : String
  volume : Int := 100
  tempo : Int := 100
deriving DecidableEq

inductive SystemSound where
  | decision
  | cancel
  | buzzer
  | escape
  | enemyKill
  | allyDamage
  | enemyDamage
  | evasion
deriving DecidableEq

structure SystemSounds where
  decision : SoundEffect := ⟨"Decision", 100, 100⟩
  cancel : SoundEffect := ⟨"Cancel", 100, 100⟩
  buzzer : SoundEffect := ⟨"Buzzer", 100, 100⟩
  escape : SoundEffect := ⟨"Escape", 100, 100⟩
  enemyKill : SoundEffect := ⟨"EnemyKill", 100, 100⟩
  allyDamage : SoundEffect := ⟨"AllyDamage", 100, 100⟩
  enemyDamage : SoundEffect := ⟨"EnemyDamage", 100, 100⟩
  evasion : SoundEffect := ⟨"Evasion", 100, 100⟩
deriving DecidableEq

def SystemSounds.get (s : SystemSounds) : SystemSound → SoundEffect
  | .decision => s.decision
  | .cancel => s.cancel
  | .buzzer => s.buzzer
  | .escape => s.escape
  | .enemyKill => s.enemyKill
  | .allyDamage => s.allyDamage
  | .enemyDamage => s.enemyDamage
  | .evasion => s.evasion

/-- Behaviour a state forces on its bearer. -/
inductive Restriction where
  | normal
  | doNothing
  | attackEnemy
  | attackAlly
deriving DecidableEq

structure StateDef where
  id : Int
  name : String
  restriction : Restriction := .normal
  /-- HP applied when an action begins; negative is damage. -/
  hpChange : Int := 0
  /-- Turns until the state wears off; 0 is permanent. -/
  autoReleaseTurns : Int := 0
  /-- Bounces reflectable skills back at their user. -/
  reflect : Bool := false
  priority : Int := 0
deriving DecidableEq

/-- Whom an effect can hit. -/
inductive Scope where
  | singleEnemy
  | allEnemies
  | singleAlly
  | allAllies
  | user
deriving DecidableEq

namespace Scope

def targetsAllies : Scope → Bool
  | singleAlly | allAllies | user => true
  | _ => false

def isSingle : Scope → Bool
  | singleEnemy | singleAlly => true
  | _ => false

end Scope

structure SkillDef where
  id : Int
  name : String
  spCost : Int := 0
  power : Int := 0
  scope : Scope := .singleEnemy
  /-- Restores HP instead of dealing damage. -/
  heals : Bool := false
  animationId : Int := 0
  hitRate : Int := 100
  addStates : List Int := []
  removeStates : List Int := []
  reflectable : Bool := false
  /-- Switch turned on once the skill resolved. -/
  switchOn : Option Int := none
  /-- The subskill command that lists the skill; 0 is any. -/
  subset : Int := 0
deriving DecidableEq

structure ItemDef where
  id : Int
  name : String
  hpRecovery : Int := 0
  scope : Scope := .singleAlly
  animationId : Int := 0
deriving DecidableEq

structure AnimationDef where
  id : Int
  name : String := ""
  frames : Int
  se : Option SoundEffect := none
deriving DecidableEq

inductive BattleCommandKind where
  | attack
  | defense
  | escape
  | item
  | skill
  | special
  | subskill
deriving DecidableEq

structure BattleCommandDef where
  id : Int
  name : String
  kind : BattleCommandKind
deriving DecidableEq

inductive EnemyActionKind where
  | attack
  | defend
  | skill (id : Int)
  | nothing
deriving DecidableEq

structure EnemyAction where
  kind : EnemyActionKind
  /-- Relative weight among the actions an enemy can choose. -/
  rating : Int
deriving DecidableEq

inductive Row where
  | front
  | back
deriving DecidableEq

def Row.swapped : Row → Row
  | front => back
  | back => front

structure Stats where
  maxHp : Int := 100
  maxSp : Int := 20
  attack : Int := 20
  defense : Int := 10
  spirit : Int := 10
  agility : Int := 20
  hitRate : Int := 100
  critRate : Int := 0
deriving DecidableEq

structure ActorDef where
  id : Int
  name : String
  stats : Stats := {}
  skills : List Int := []
  commands : List Int := []
  row : Row := .front
  controllable : Bool := true
  preemptive : Bool := false
deriving DecidableEq

structure EnemyDef where
  id : Int
  name : String
  stats : Stats := {}
  exp : Int := 0
  gold : Int := 0
  dropItem : Option Int := none
  actions : List EnemyAction := []
  preemptive : Bool := false
deriving DecidableEq

structure Database where
  actors : List ActorDef := []
  enemies : List EnemyDef := []
  skills : List SkillDef := []
  items : List ItemDef := []
  states : List StateDef := []
  animations : List AnimationDef := []
  commands : List BattleCommandDef := []
  systemSounds : SystemSounds := {}
deriving DecidableEq

namespace Database

def actor? (db : Database) (id : Int) : Option ActorDef := db.actors.find? (·.id = id)

def enemy? (db : Database) (id : Int) : Option EnemyDef := db.enemies.find? (·.id = id)

def skill? (db : Database) (id : Int) : Option SkillDef := db.skills.find? (·.id = id)

def item? (db : Database) (id : Int) : Option ItemDef := db.items.find? (·.id = id)

def state? (db : Database) (id : Int) : Option StateDef := db.states.find? (·.id = id)

def animation? (db : Database) (id : Int) : Option AnimationDef := db.animations.find? (·.id = id)

def command? (db : Database) (id : Int) : Option BattleCommandDef := db.commands.find? (·.id = id)

end Database

end ActiveBattle
