import ActiveBattle.Game

/-!
# Actions

What one queued action does to its targets. An action is started, then rolled and applied target by
target, and perhaps repeated. All arithmetic is on integers; quotients are rounded toward zero.
-/

namespace ActiveBattle

set_option autoImplicit false

inductive ActionKind where
  | normal
  | skill (id : Int)
  | item (id : Int)
  | defend
  /-- The battler does nothing. -/
  | none
deriving DecidableEq

/-- The text the scene log uses for a kind of action. -/
def ActionKind.describe : ActionKind → String
  | normal => "Normal"
  | skill id => s!"Skill({id})"
  | item id => s!"Item({id})"
  | defend => "Defend"
  | none => "None"

/-- What a roll against a target came to. -/
structure Outcome where
  success : Bool := false
  critical : Bool := false
  /-- The HP change; none when the action does not touch HP. -/
  hp : Option Int := none
deriving DecidableEq

structure Action where
  kind : ActionKind
  source : BattlerId
  targets : List BattlerId
  current : Nat := 0
  /-- How often the target list is gone through. -/
  repeats : Int := 1
  repeatsDone : Int := 0
  reflectTarget : Option BattlerId := none
  outcome : Outcome := {}
deriving DecidableEq

namespace Action

def criticalMultiplier : Int := 3

def damageVarianceDivisor : Int := 5

def attack (source target : BattlerId) : Action :=
  { kind := .normal, source := source, targets := [target] }

def skill (source : BattlerId) (id : Int) (targets : List BattlerId) : Action :=
  { kind := .skill id, source := source, targets := targets }

def item (source : BattlerId) (id : Int) (targets : List BattlerId) : Action :=
  { kind := .item id, source := source, targets := targets }

def defend (source : BattlerId) : Action :=
  { kind := .defend, source := source, targets := [source] }

def idle (source : BattlerId) : Action := { kind := .none, source := source, targets := [] }

def withRepeats (a : Action) (repeats : Int) : Action := { a with repeats := max repeats 1 }

/-- The targets of a scope; the single scopes need a pick. -/
def targetsFor (r : Roster) (source : BattlerId) (scope : Scope) (pick : Option BattlerId) :
    List BattlerId :=
  match scope with
  | .user => [source]
  | .allEnemies => r.presentOn source.side.opposite
  | .allAllies => r.presentOn source.side
  | .singleEnemy | .singleAlly => pick.toList

def target? (a : Action) : Option BattlerId := a.targets[a.current]?

def isSkill (a : Action) : Bool :=
  match a.kind with
  | .skill _ => true
  | _ => false

def scope (a : Action) (db : Database) : Scope :=
  match a.kind with
  | .normal => .singleEnemy
  | .skill id => ((db.skill? id).map (·.scope)).getD .singleEnemy
  | .item id => ((db.item? id).map (·.scope)).getD .singleAlly
  | .defend | .none => .user

def isTargetingParty (a : Action) (db : Database) : Bool := (a.scope db).targetsAllies

/-- Battlers of the source's side may be dead, to be revived; the others have to be present. -/
def isValidTarget (a : Action) (r : Roster) (id : BattlerId) : Bool :=
  match r.battler? id with
  | some b => if id.side = a.source.side then !b.hidden else b.isPresent
  | none => false

def isCurrentTargetValid (a : Action) (r : Roster) : Bool := a.target?.any (a.isValidTarget r)

/-- A first target across the field that is gone gives way to a random one of its side. -/
def retarget (a : Action) (g : GameState) : Action × GameState :=
  match a.targets with
  | [] => (a, g)
  | first :: rest =>
    if !a.isValidTarget g.roster first && first.side ≠ a.source.side then
      match g.randomPresent first.side with
      | (some replacement, g) => ({ a with targets := replacement :: rest }, g)
      | (none, g) => (a, g)
    else (a, g)

/-- The targets of a pass: a single one is aimed anew, the valid ones of several are kept. -/
def aim (a : Action) (g : GameState) : Action × GameState :=
  if (a.scope g.database).isSingle then a.retarget g
  else
    match a.kind with
    | .defend | .none => (a, g)
    | _ => ({ a with targets := a.targets.filter (a.isValidTarget g.roster) }, g)

/-- What a pass costs: a skill its SP, an ally's item one of the stock, the latter on the first pass
only. -/
def payCost (a : Action) (g : GameState) : GameState :=
  match a.kind with
  | .skill id =>
    let cost := ((g.database.skill? id).map (·.spCost)).getD 0
    g.modifyBattler a.source fun b => b.setSp (b.sp - cost)
  | .item id =>
    if a.repeatsDone = 0 ∧ a.source.isAlly then g.modifyRoster (·.addItem id (-1)) else g
  | _ => g

def start (a : Action) (g : GameState) : Action × GameState :=
  let (a, g) := { a with current := 0, outcome := {} }.aim g
  (a, a.payCost g)

def reflects (g : GameState) (id : BattlerId) : Bool :=
  (g.roster.battler? id).any fun b => (b.stateDefs g.database).any (·.reflect)

/-- A reflectable skill aimed across the field turns on its source when one of the targets reflects
it. Tells whether it did. -/
def reflect (a : Action) (g : GameState) : Bool × Action :=
  match a.kind with
  | .skill id =>
    if (g.database.skill? id).any (·.reflectable) && !a.isTargetingParty g.database then
      match a.targets.find? (reflects g) with
      | some target =>
        (true, { a with reflectTarget := some target, targets := [a.source], current := 0 })
      | none => (false, a)
    else (false, a)
  | _ => (false, a)

/-- A value spread by up to a fifth either way, not below zero. -/
def vary (value : Int) (dice : Dice) : Int × Dice :=
  let spread := value.tdiv damageVarianceDivisor
  if spread ≤ 0 then (value, dice)
  else
    let (roll, dice) := dice.between (-spread) spread
    (max (value + roll) 0, dice)

def attackPower (source target : Battler) : Int :=
  max (source.stats.attack.tdiv 2 - target.stats.defense.tdiv 4) 0

def finalDamage (damage : Int) (critical defending : Bool) : Int :=
  let damage := if critical then damage * criticalMultiplier else damage
  if defending then damage.tdiv 2 else damage

/-- An attack: hit roll, critical roll, then the damage. -/
def rollAttack (source target : Battler) (dice : Dice) : Outcome × Dice :=
  let (hit, dice) := dice.percent
  if hit ≥ source.stats.hitRate then ({}, dice)
  else
    let (roll, dice) := dice.percent
    let critical : Bool := roll < source.stats.critRate
    let (damage, dice) := vary (attackPower source target) dice
    ({ success := true
       critical := critical
       hp := some (-finalDamage damage critical target.defending) }, dice)

def healPower (skill : SkillDef) (source : Battler) : Int :=
  skill.power + source.stats.spirit.tdiv 2

def skillPower (skill : SkillDef) (source target : Battler) : Int :=
  max (healPower skill source - target.stats.spirit.tdiv 4) 0

/-- A skill: hit roll, then the HP change if the skill has power. -/
def rollSkill (skill : SkillDef) (source target : Battler) (dice : Dice) : Outcome × Dice :=
  let (hit, dice) := dice.percent
  if hit ≥ skill.hitRate then ({}, dice)
  else if skill.power = 0 then ({ success := true }, dice)
  else if skill.heals then
    let (hp, dice) := vary (healPower skill source) dice
    ({ success := true, hp := some hp }, dice)
  else
    let (damage, dice) := vary (skillPower skill source target) dice
    ({ success := true, hp := some (-damage) }, dice)

/-- An item helps unless it would restore the HP of the dead. -/
def itemOutcome (item : ItemDef) (target : Battler) : Outcome where
  success := !target.isDead || item.hpRecovery = 0
  hp := if item.hpRecovery ≠ 0 then some item.hpRecovery else none

def roll (kind : ActionKind) (db : Database) (source target : Battler) (dice : Dice) :
    Outcome × Dice :=
  match kind with
  | .normal => rollAttack source target dice
  | .skill id =>
    match db.skill? id with
    | some skill => rollSkill skill source target dice
    | none => ({}, dice)
  | .item id =>
    match db.item? id with
    | some item => (itemOutcome item target, dice)
    | none => ({}, dice)
  | .defend => ({ success := true }, dice)
  | .none => ({}, dice)

def execute (a : Action) (g : GameState) : Action × GameState :=
  match a.target?.bind g.roster.battler?, g.roster.battler? a.source with
  | some target, some source =>
    let (outcome, dice) := roll a.kind g.database source target g.dice
    ({ a with outcome := outcome }, { g with dice := dice })
  | _, _ => ({ a with outcome := {} }, g)

/-- The states a kind of action adds, and those it removes. -/
def stateChanges (kind : ActionKind) (db : Database) : List Int × List Int :=
  match kind with
  | .skill id =>
    match db.skill? id with
    | some skill => (skill.addStates, skill.removeStates)
    | none => ([], [])
  | _ => ([], [])

/-- Adds states one after the other and tells which were new. -/
def addStates (db : Database) : List Int → Battler → List Int × Battler
  | [], b => ([], b)
  | state :: rest, b =>
    let (added, b) := b.addState state db
    let (new, b) := addStates db rest b
    (if added then state :: new else new, b)

/-- An outcome taken by a target: HP, then states removed, then states added. Tells which are
new. -/
def affect (a : Action) (db : Database) (target : Battler) : List Int × Battler :=
  let (add, remove) := stateChanges a.kind db
  let hurt := match a.outcome.hp with
    | some hp => (target.changeHp hp true).2
    | none => target
  addStates db add (remove.foldl (fun b state => (b.removeState state).2) hurt)

/-- Applies the outcome of the last roll to the current target. Tells which states are new. -/
def apply (a : Action) (g : GameState) : List Int × GameState :=
  match a.target? with
  | none => ([], g)
  | some id =>
    if !a.outcome.success then ([], g)
    else if a.kind = .defend then ([], g.modifyBattler a.source ({ · with defending := true }))
    else
      match g.roster.battler? id with
      | none => ([], g)
      | some target =>
        let (added, target) := a.affect g.database target
        (added, g.modifyBattler id fun _ => target)

/-- The next target; false at the end of the list. -/
def nextTarget (a : Action) : Bool × Action :=
  if a.current + 1 < a.targets.length then (true, { a with current := a.current + 1 })
    else (false, a)

def nextRepeat (a : Action) : Bool × Action :=
  let a := { a with repeatsDone := a.repeatsDone + 1 }
  if a.repeatsDone < a.repeats then (true, { a with current := 0 }) else (false, a)

def isSuccess (a : Action) : Bool := a.outcome.success

def isCriticalHit (a : Action) : Bool := a.outcome.critical

def isAffectingHp (a : Action) : Bool := a.outcome.hp.isSome

def affectedHp (a : Action) : Int := a.outcome.hp.getD 0

/-- Healing or support rather than harm. -/
def isPositive (a : Action) : Bool :=
  match a.kind with
  | .item _ | .defend => true
  | .skill _ => a.outcome.hp.any (· > 0)
  | .normal | .none => false

def animationId (a : Action) (db : Database) : Int :=
  match a.kind with
  | .skill id => ((db.skill? id).map (·.animationId)).getD 0
  | .item id => ((db.item? id).map (·.animationId)).getD 0
  | _ => 0

def startMessage (a : Action) (db : Database) : String :=
  match a.kind with
  | .skill id => ((db.skill? id).map (·.name)).getD ""
  | .item id => ((db.item? id).map (·.name)).getD ""
  | _ => ""

def sourcePose (a : Action) : Pose :=
  match a.kind with
  | .normal => .attackRight
  | .skill _ => .skill
  | .item _ => .item
  | .defend => .defend
  | .none => .idle

def setSwitches (a : Action) (g : GameState) : GameState :=
  match a.kind with
  | .skill id =>
    match (g.database.skill? id).bind (·.switchOn) with
    | some switch => g.setSwitch switch true
    | none => g
  | _ => g

end Action

end ActiveBattle
