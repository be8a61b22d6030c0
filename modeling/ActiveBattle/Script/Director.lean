import ActiveBattle.Script.BattleCommand

/-!
# The director

The main interpreter of a battle with its ledger of troop pages: each page runs at most once per
turn, and the first page whose condition holds comes first.
-/

namespace ActiveBattle

set_option autoImplicit false

/-- A turn window: with a positive period every `period` turns from `start` on, else turn `start`
alone. -/
def turnMatches (turns period start : Int) : Bool :=
  if period > 0 then decide (turns ≥ start) && decide ((turns - start) % period = 0)
    else turns = start

namespace PageCondition

def inWindow (value lo hi : Int) : Bool := decide (lo ≤ value) && decide (value ≤ hi)

/-- A battler's own turn counter matches, and the battler acted if anyone did. -/
def ownTurn (source : Option BattlerId) (period start : Int) (b : Battler) : Bool :=
  source.all (· = b.id) && turnMatches b.battleTurn period start

/-- The categories only the newer dialect evaluates. -/
def isExtended : ConditionKind → Bool
  | .turnEnemy | .turnActor | .fatigue | .commandActor => true
  | _ => false

/-- Whether one category of a condition holds. `source` is the battler whose action raised the
question. -/
def holds (c : PageCondition) (g : GameState) (source : Option BattlerId) : ConditionKind → Bool
  | .switchA => g.switches.get c.switchAId
  | .switchB => g.switches.get c.switchBId
  | .variableAtLeast => g.vars.get c.variableId ≥ c.variableValue
  | .turn => turnMatches g.roster.turns c.turnB c.turnA
  | .turnEnemy => (g.roster.enemy? c.turnEnemyId).any (ownTurn source c.turnEnemyB c.turnEnemyA)
  | .turnActor => (g.roster.actor? c.turnActorId).any (ownTurn source c.turnActorB c.turnActorA)
  | .fatigue => inWindow g.roster.fatigue c.fatigueMin c.fatigueMax
  | .enemyHp =>
    (g.roster.enemy? c.enemyId).any fun b => inWindow b.hpPercent c.enemyHpMin c.enemyHpMax
  | .actorHp =>
    (g.roster.actor? c.actorId).any fun b => inWindow b.hpPercent c.actorHpMin c.actorHpMax
  | .commandActor =>
    source.any fun s => (g.roster.actor? c.commandActorId).any fun b =>
      s = b.id && b.lastBattleAction = c.commandId

/-- A condition is met when it flags something and every flagged category that the dialect evaluates
holds. -/
def isMet (c : PageCondition) (g : GameState) (source : Option BattlerId) (rpg2k3 : Bool) : Bool :=
  !c.flags.isEmpty &&
    c.flags.toList.all fun k => (isExtended k && !rpg2k3) || c.holds g source k

end PageCondition

structure Director where
  interp : Interpreter := {}
  script : BattleScript := {}
  /-- Which pages ran since the ledger was cleared. -/
  executed : List Bool := []
deriving DecidableEq

namespace Director

def ofConfig (c : BattleConfig) (pageCount : Nat) : Director where
  interp := .ofConfig c
  script := .ofConfig c
  executed := List.replicate pageCount false

def isRunning (d : Director) : Bool := d.interp.isRunning

/-- The ledger with an entry for each page. -/
def ledger (d : Director) (pageCount : Nat) : List Bool :=
  (d.executed ++ List.replicate pageCount false).take pageCount

/-- A page that has not run, reacts to one of the required categories, and whose condition is
met. -/
def isEligible (d : Director) (g : GameState) (required : ConditionFlags)
    (source : Option BattlerId) (page : TroopPage) (executed : Bool) : Bool :=
  !executed && page.condition.flags.intersects required &&
    page.condition.isMet g source d.script.rpg2k3

/-- The first eligible page with its index. -/
def nextPage? (d : Director) (pages : List TroopPage) (g : GameState) (required : ConditionFlags)
    (source : Option BattlerId) : Option (Nat × TroopPage) :=
  let candidates := pages.zip (d.ledger pages.length)
  (candidates.findIdx? fun (page, executed) => d.isEligible g required source page executed).bind
    fun index => (pages[index]?).map (index, ·)

/-- Starts the first eligible page and gives its one-based number; 0 when there is none or a script
runs. -/
def schedule (d : Director) (store : ProgramStore) (g : GameState) (required : ConditionFlags)
    (source : Option BattlerId) : Nat × Director :=
  if d.isRunning then (0, d)
  else
    let pages := store.troop.pages
    let executed := d.ledger pages.length
    match d.nextPage? pages g required source with
    | some (index, page) =>
      (index + 1,
        { d with
          interp := d.interp.clear.push page.instructions (.ofPage (index + 1))
          executed := executed.set index true })
    | none => (0, { d with executed := executed })

/-- Lets every page run again. -/
def resetPages (d : Director) : Director := { d with executed := d.executed.map fun _ => false }

def isPageExecuted (d : Director) (number : Nat) : Bool :=
  match number with
  | 0 => false
  | n + 1 => d.executed.getD n false

def modifyInterp (d : Director) (f : Interpreter → Interpreter) : Director :=
  { d with interp := f d.interp }

def modifyScript (d : Director) (f : BattleScript → BattleScript) : Director :=
  { d with script := f d.script }

def setTarget (d : Director) (single : Bool) (enemyIndex : Int) : Director :=
  d.modifyScript ({ · with targetsSingleEnemy := single, targetEnemyIndex := enemyIndex })

def setActor (d : Director) (actor : Int) : Director :=
  d.modifyScript ({ · with currentActorId := actor })

def resetForceFlee (d : Director) : Director := d.modifyScript ({ · with forceFlee := false })

def removeEvent (d : Director) (id : Int) : Director :=
  d.modifyInterp (·.retainFrames (·.ownerTag ≠ .ofCommonEvent id))

/-- Starts a common event unless it is on the stack already; one that a hook calls can be there
twice. -/
def startEvent (d : Director) (store : ProgramStore) (id : Int) : Bool × Director :=
  match store.event? id with
  | none => (false, d)
  | some event =>
    let onStack := d.interp.stack.any (·.ownerTag = .ofCommonEvent id)
    if onStack && !d.script.hooks.bindsEvent id then (false, d)
    else (true, d.modifyInterp (·.pushEvent event))

variable {σ : Type} [AssetLoader σ]

def update (d : Director) (store : ProgramStore) (allowSuspend : Bool) (w : World σ) :
    Director × World σ :=
  let x := Execution.update sceneCommands store allowSuspend ⟨d.interp, d.script, w⟩
  ({ d with interp := x.interp, script := x.table }, x.world)

def trigger (d : Director) (store : ProgramStore) (kind : HookKind) (args : HookArgs)
    (w : World σ) :
    Bool × Director × World σ :=
  let (ran, script, w) := BattleScript.trigger store kind args d.script w
  (ran, { d with script := script }, w)

def continueHooks (d : Director) (store : ProgramStore) (w : World σ) : Bool × Director × World σ :=
  let (ran, script, w) := BattleScript.continueHooks store d.script w
  (ran, { d with script := script }, w)

end Director

end ActiveBattle
