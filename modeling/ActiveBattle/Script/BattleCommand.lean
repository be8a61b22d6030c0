import ActiveBattle.Script.Command
import ActiveBattle.Script.Hook

/-!
# Battle commands

The commands that act on a battle, over the base ones: calls, flight, combos, changes to enemies,
animations, battle branches and hooks. A hook runs on an interpreter of its own, and a hook reached
while one is running is dropped: the commands come in two tables, of which the one that runs hooks
is not used inside them.
-/

namespace ActiveBattle

set_option autoImplicit false

/-- The state the battle commands share with the scene. -/
structure BattleScript where
  rpg2k3 : Bool := false
  /-- Hooks can be bound and run. -/
  maniac : Bool := false
  hooks : HookTable := {}
  hookRunner : Interpreter := {}
  forceFlee : Bool := false
  /-- The acting battler aims at one enemy. -/
  targetsSingleEnemy : Bool := false
  targetEnemyIndex : Int := 0
  currentActorId : Int := 0
deriving DecidableEq

namespace BattleScript

def ofConfig (c : BattleConfig) : BattleScript where
  rpg2k3 := c.isRpg2k3
  maniac := c.maniacPatch
  hookRunner := .ofConfig c

end BattleScript

/-- `percent` of a value, rounded toward zero and held within the operand range. -/
def percentOf (percent value : Int) : Int := saturate ((percent * value).tdiv 100)

/-- How a command reaches a hook: what it did, and whether it did anything. -/
abbrev HookCall (σ : Type) :=
  ProgramStore → HookKind → HookArgs → BattleScript → World σ → Bool × BattleScript × World σ

def noHooks {σ : Type} : HookCall σ := fun _ _ _ s w => (false, s, w)

namespace Enemies

def vanish (b : Battler) : Battler := { b with hidden := true }.startDeathFade

end Enemies

namespace Execution

variable {σ : Type}

def fire (x : Execution BattleScript σ) (hook : HookCall σ) (store : ProgramStore) (kind : HookKind)
    (args : HookArgs) : Execution BattleScript σ :=
  let (_, table, world) := hook store kind args x.table x.world
  { x with table := table, world := world }

/-- Makes the party flee unless it is caught in a pincer movement. -/
def fleeParty (x : Execution BattleScript σ) (check : Bool) : Execution BattleScript σ :=
  if !check || x.game.status.condition ≠ .pincers then
    x.modifyTable ({ · with forceFlee := true })
  else x

/-- Makes every enemy flee unless they are surrounded. -/
def fleeEnemies (x : Execution BattleScript σ) (check : Bool) : Execution BattleScript σ :=
  if (!check || x.game.status.condition ≠ .surround) && x.game.roster.enemies.any (·.isPresent) then
    (x.modifyGame (·.modifyRoster fun r =>
      { r with
        enemies := r.enemies.map fun e =>
          if e.isPresent then Enemies.vanish e else e })).modifyWorld (·.playSystem .escape)
  else x

/-- Makes one enemy flee unless the enemies are surrounded. -/
def fleeEnemy (x : Execution BattleScript σ) (check : Bool) (index : Int) :
    Execution BattleScript σ :=
  if (!check || x.game.status.condition ≠ .surround) &&
      (x.game.roster.enemy? index).any (·.isPresent) then
    (x.modifyGame (·.modifyEnemy index Enemies.vanish)).modifyWorld (·.playSystem .escape)
  else x

def forceFlee (x : Execution BattleScript σ) (inst : Instruction) : Execution BattleScript σ :=
  let check := inst.param 2 = 0
  match inst.param 0 with
  | 0 => x.fleeParty check
  | 1 => x.fleeEnemies check
  | 2 => x.fleeEnemy check (inst.param 1)
  | _ => x

def enableCombo (x : Execution BattleScript σ) (inst : Instruction) : Execution BattleScript σ :=
  if x.game.roster.isActorInParty (inst.param 0) then
    x.modifyGame (·.modifyRoster (·.modifyActor (inst.param 0)
      (·.setCombo (inst.param 1) (inst.param 2))))
  else x

/-- The signed operand of a command that changes an enemy, from the plain one. -/
def signedChange (inst : Instruction) (change : Int) : Int :=
  if inst.param 1 > 0 then saturate (-change) else change

/-- The HP change an instruction asks for: a number, a variable, or a percentage of the HP left. -/
def hpOperand (g : GameState) (inst : Instruction) (hp : Int) : Int :=
  match inst.param 2 with
  | 0 => inst.param 3
  | 1 => g.vars.get (inst.param 3)
  | 2 => percentOf (inst.param 3) hp
  | _ => 0

def spOperand (g : GameState) (inst : Instruction) : Int :=
  match inst.param 2 with
  | 0 => inst.param 3
  | 1 => g.vars.get (inst.param 3)
  | _ => 0

/-- Changes a living enemy's HP, shows it, and calls the hook for changed values. -/
def changeMonsterHp (x : Execution BattleScript σ) (hook : HookCall σ) (store : ProgramStore)
    (inst : Instruction) : Execution BattleScript σ :=
  let index := inst.param 0
  match x.game.roster.enemy? index with
  | none => x
  | some enemy =>
    if enemy.isDead then x
    else
      let change := signedChange inst (hpOperand x.game inst enemy.hp)
      let (_, changed) := enemy.changeHp change (inst.param 4 > 0)
      let x := x.modifyGame fun g =>
        (g.modifyEnemy index fun _ => changed).modifyStatus
          (·.pushNotice (.hpChanged changed.id change))
      let x :=
        if changed.isDead then
          (x.modifyWorld (·.playSystem .enemyKill)).modifyGame
            (·.modifyEnemy index (·.startDeathFade))
        else x
      x.fire hook store .statChange #v[index, 0, change, changed.hp, 0, 0]

/-- Changes an enemy's SP and calls the hook for changed values. -/
def changeMonsterMp (x : Execution BattleScript σ) (hook : HookCall σ) (store : ProgramStore)
    (inst : Instruction) : Execution BattleScript σ :=
  let index := inst.param 0
  let change := signedChange inst (spOperand x.game inst)
  match x.game.roster.enemy? index with
  | none => x
  | some enemy =>
    let changed := enemy.setSp (saturate (enemy.sp + change))
    (x.modifyGame (·.modifyEnemy index fun _ => changed)).fire hook store .statChange
      #v[index, 1, change, changed.sp, 0, 0]

/-- Adds a state to an enemy or removes one, and calls the hook for states if that changed anything.
A removed death state lets the enemy vanish without fading. -/
def changeMonsterCondition (x : Execution BattleScript σ) (hook : HookCall σ) (store : ProgramStore)
    (inst : Instruction) : Execution BattleScript σ :=
  let index := inst.param 0
  let remove := inst.param 1 > 0
  let state := inst.param 2
  match x.game.roster.enemy? index with
  | none => x
  | some enemy =>
    let (changed, enemy) :=
      if remove then enemy.removeState state else enemy.addState state x.game.database
    let x := x.modifyGame (·.modifyEnemy index fun _ => enemy)
    if changed then
      x.fire hook store .setState #v[index, state, if remove then 0 else 1, 0, 0, 0]
    else x

def showHiddenMonster (x : Execution BattleScript σ) (inst : Instruction) :
    Execution BattleScript σ :=
  x.modifyGame (·.modifyEnemy (inst.param 0) ({ · with hidden := false }))

/-- The battlers an animation plays over: all of a side for a negative number, else the one it
names. -/
def animationTargets (r : Roster) (target : Int) (allies : Bool) : List BattlerId :=
  if target < 0 then
    if allies then (r.partyMembers.filter fun a => a.isPresent || a.isDead).map (·.id)
    else (r.enemies.filter (·.isPresent)).map (·.id)
  else if allies then ((r.actor? target).map (·.id)).toList
  else ((r.enemy? target).map (·.id)).toList

/-- The battlers an instruction plays its animation over. Only the newer dialect plays it over the
party. -/
def animationScope (x : Execution BattleScript σ) (inst : Instruction) : List BattlerId :=
  let allies := x.table.rpg2k3 && decide (inst.params.length > 3) && decide (inst.param 3 ≠ 0)
  animationTargets x.game.roster (inst.param 1) allies

/-- The animation an instruction plays, if there is one and somebody to play it over. -/
def playedAnimation? (x : Execution BattleScript σ) (inst : Instruction) : Option AnimationDef :=
  if (x.animationScope inst).isEmpty then none else x.game.database.animation? (inst.param 0)

def showBattleAnimation (x : Execution BattleScript σ) (inst : Instruction) :
    Execution BattleScript σ :=
  let targets := x.animationScope inst
  let shown := x.playedAnimation? inst
  let x := match shown with
    | some animation =>
      let x := match animation.se with
        | some se => x.modifyWorld (·.play se)
        | none => x
      x.modifyGame (·.modifyStatus (·.showAnimation (inst.param 0) targets animation.frames))
    | none => x
  if inst.param 2 ≠ 0 then
    let frames := match shown with
      | some animation => animation.frames
      | none => 0
    x.modifyInterp (·.waitFor frames)
  else x

def battleTest (s : BattleScript) (g : GameState) (inst : Instruction) : Bool :=
  match inst.param 0 with
  | 0 => g.switchTest inst
  | 1 => g.variableTest inst
  | 2 => (g.roster.actor? (inst.param 1)).any (·.canAct g.database)
  | 3 => (g.roster.enemy? (inst.param 1)).any (·.canAct g.database)
  | 4 => s.rpg2k3 && s.targetsSingleEnemy && s.targetEnemyIndex = inst.param 1
  | 5 =>
    s.rpg2k3 && s.currentActorId = inst.param 1 &&
      (g.roster.actor? s.currentActorId).any (·.lastBattleAction = inst.param 2)
  | 6 => (g.roster.enemy? (inst.param 1)).any (·.hasState (inst.param 2))
  | _ => false

/-- Binds a hook, if hooks are enabled. -/
def controlBattleHooks (x : Execution BattleScript σ) (inst : Instruction) :
    Execution BattleScript σ :=
  if x.table.maniac then
    match HookKind.ofIndex? (inst.param 0) with
    | some kind =>
      x.modifyTable fun s => { s with hooks := s.hooks.bind kind (inst.param 1) (inst.param 2) }
    | none => x
  else x

end Execution

/-- Where a battle branch that did not hold goes on. -/
def battleBranchStops : List Opcode :=
  [.elseBranchBattle, .endBranchBattle, .elseBranch, .endBranch]

/-- The battle commands, reaching hooks by `hook`. -/
def battleCommands {σ : Type} (hook : HookCall σ) : CommandTable BattleScript σ :=
  fun store inst x =>
    match inst.opcode with
    | .callCommonEvent =>
      some (if x.table.rpg2k3 then x.modifyInterp (·.call store (inst.param 0)) else x).proceed
    | .forceFlee => some (if x.table.rpg2k3 then x.forceFlee inst else x).proceed
    | .enableCombo => some (if x.table.rpg2k3 then x.enableCombo inst else x).proceed
    | .changeMonsterHp => some (x.changeMonsterHp hook store inst).proceed
    | .changeMonsterMp => some (x.changeMonsterMp hook store inst).proceed
    | .changeMonsterCondition => some (x.changeMonsterCondition hook store inst).proceed
    | .showHiddenMonster => some (x.showHiddenMonster inst).proceed
    | .changeBattleBackground =>
      some (x.modifyGame (·.modifyStatus ({ · with background := inst.textOrEmpty }))).proceed
    | .showBattleAnimation => some (x.showBattleAnimation inst).proceed
    | .terminateBattle =>
      some (x.modifyInterp ({ · with asyncOp := .terminateBattle .abort })).stay
    | .conditionalBranchBattle =>
      some (x.viaInterp
        (·.branchOn inst (Execution.battleTest x.table x.game inst) battleBranchStops))
    | .elseBranchBattle =>
      some (x.viaInterp (·.chooseOption inst branchElse [.endBranchBattle, .endBranch]))
    | .endBranchBattle => some x.proceed
    | .controlBattleHooks => some (x.controlBattleHooks inst).proceed
    | _ => none

namespace BattleScript

variable {σ : Type} [AssetLoader σ]

/-- One update of the hook interpreter, inside which no hook runs. -/
def pump (store : ProgramStore) (s : BattleScript) (w : World σ) : BattleScript × World σ :=
  let x := Execution.update (battleCommands noHooks) store true
    ⟨s.hookRunner, { s with hookRunner := {} }, w⟩
  ({ x.table with hookRunner := x.interp }, x.world)

/-- The instructions that hand a hook its arguments, one variable each. -/
def handOver (start : Int) (args : HookArgs) : Program :=
  args.toList.mapIdx fun i value =>
    { opcode := .controlVariables, params := [0, start + i, start + i, 0, 0, value, 0] }

/-- Runs the event bound to a hook, after handing it its arguments, and pumps once so that the
caller sees its effects. Tells whether there was one to run. -/
def trigger : HookCall σ := fun store kind args s w =>
  let binding := s.hooks.get kind
  if s.maniac && binding.isBound then
    match store.event? binding.commonEventId with
    | some event =>
      let runner :=
        (s.hookRunner.pushEvent event).push (handOver binding.variableStart args) .synthetic
      (true, pump store { s with hookRunner := runner } w)
    | none => (false, s, w)
  else (false, s, w)

/-- Goes on with hooks that were suspended; tells whether there were any. -/
def continueHooks (store : ProgramStore) (s : BattleScript) (w : World σ) :
    Bool × BattleScript × World σ :=
  if s.maniac && s.hookRunner.isRunning then (true, pump store s w) else (false, s, w)

end BattleScript

/-- The battle commands outside a hook. -/
def sceneCommands {σ : Type} [AssetLoader σ] : CommandTable BattleScript σ :=
  battleCommands BattleScript.trigger

end ActiveBattle
