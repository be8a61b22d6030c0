import ActiveBattle.Action.Choice
import ActiveBattle.Scene.Menu
import ActiveBattle.Script.Director
import ActiveBattle.Script.EventRunner

/-!
# The battle scene

The state of a battle and the small operations its phases are made of: changing state, waiting,
showing things, queueing actions, calling hooks, and ending.
-/

namespace ActiveBattle

set_option autoImplicit false

structure BattleSetup where
  party : List Int := []
  troop : Troop := {}
  commonEvents : List CommonEvent := []
  condition : BattleCondition := .none
  firstStrike : Bool := false
  background : String := ""
  /-- Countdowns carried in from the map. -/
  timers : Timers := {}
deriving DecidableEq

/-- What goes on once an asset is there. -/
inductive Continuation where
  | finishStart
  | resumeDirector
  | resumeEvent (index : Nat)
deriving DecidableEq

structure PendingAsset where
  request : AssetRequest
  continuation : Continuation
deriving DecidableEq

/-- Whether the scene goes on in this frame. -/
inductive Pace where
  | sameFrame
  | nextFrame
deriving DecidableEq

structure Scene (σ : Type) where
  config : BattleConfig
  store : ProgramStore
  world : World σ
  director : Director
  runners : List EventRunner
  enemyChooser : Chooser := .enemy
  autoChooser : Chooser := .auto
  slots : List Point
  firstStrike : Bool
  state : SceneState := .start
  previousState : SceneState := .start
  /-- How far the current state has come; each state counts its own steps. -/
  substate : Nat := 0
  /-- A message that closed in this frame has used the input. -/
  inputConsumed : Bool := false
  actionState : ActionState := .begin
  queue : List Action := []
  pending : Option Action := none
  activeActor : Option Int := none
  comboRepeat : Int := 1
  wait : Int := 0
  minWait : Int := 0
  floatTexts : List FloatText := []
  notification : Option String := none
  runningAway : Bool := false
  escapeAttempts : Int := 0
  resumeFromDebug : Bool := false
  started : Bool := false
  pendingAsset : Option PendingAsset := none
  result : Option BattleResult := none
  frame : Nat := 0
  /-- What the last update did. -/
  steps : List FrameStep := []
  ui : Menus := {}
  log : Array LogEntry := #[]

namespace Scene

variable {σ : Type}

def ofSetup (config : BattleConfig) (database : Database) (setup : BattleSetup) (assets : σ) :
    Scene σ :=
  let roster := Roster.ofSetup database setup.party setup.troop
  let status : BattleStatus :=
    { condition := Formation.resolve setup.condition config.placement roster
      background := setup.background }
  let store := ProgramStore.ofEvents setup.commonEvents setup.troop
  { config := config
    store := store
    world :=
      { game := { GameState.ofRoster database roster config with
          timers := setup.timers, status := status }
        assets := assets }
    director := .ofConfig config store.pageCount
    runners := store.events.map .ofEvent
    slots := setup.troop.members.map (·.position)
    firstStrike := setup.firstStrike }

/-- A battle before its first frame, if its configuration is sound. -/
def create (config : BattleConfig) (database : Database) (setup : BattleSetup) (assets : σ) :
    Except ConfigError (Scene σ) :=
  match config.fault? with
  | some e => .error e
  | none => .ok (ofSetup config database setup assets)

def game (s : Scene σ) : GameState := s.world.game

def roster (s : Scene σ) : Roster := s.world.game.roster

def database (s : Scene σ) : Database := s.world.game.database

def condition (s : Scene σ) : BattleCondition := s.world.game.status.condition

def isFinished (s : Scene σ) : Bool := s.result.isSome

def modifyWorld (s : Scene σ) (f : World σ → World σ) : Scene σ := { s with world := f s.world }

def modifyGame (s : Scene σ) (f : GameState → GameState) : Scene σ := s.modifyWorld (·.modifyGame f)

def modifyRoster (s : Scene σ) (f : Roster → Roster) : Scene σ := s.modifyGame (·.modifyRoster f)

def modifyBattler (s : Scene σ) (id : BattlerId) (f : Battler → Battler) : Scene σ :=
  s.modifyGame (·.modifyBattler id f)

def modifyStatus (s : Scene σ) (f : BattleStatus → BattleStatus) : Scene σ :=
  s.modifyGame (·.modifyStatus f)

def modifyDirector (s : Scene σ) (f : Director → Director) : Scene σ :=
  { s with director := f s.director }

def modifyUi (s : Scene σ) (f : Menus → Menus) : Scene σ := { s with ui := f s.ui }

def play (s : Scene σ) (se : SoundEffect) : Scene σ := s.modifyWorld (·.play se)

def playSystem (s : Scene σ) (sound : SystemSound) : Scene σ := s.modifyWorld (·.playSystem sound)

def note (s : Scene σ) (e : SceneEvent) : Scene σ := { s with log := s.log.push ⟨s.frame, e⟩ }

def mark (s : Scene σ) (step : FrameStep) : Scene σ := { s with steps := s.steps ++ [step] }

/-- Enters a state at its first step. -/
def setState (s : Scene σ) (state : SceneState) : Scene σ :=
  { s.note (.stateChanged s.state state) with
    previousState := s.state
    state := state
    substate := 0 }

def setSubstate (s : Scene σ) (substate : Nat) : Scene σ := { s with substate := substate }

def goOn (s : Scene σ) : Pace × Scene σ := (.sameFrame, s)

def yield (s : Scene σ) : Pace × Scene σ := (.nextFrame, s)

/-- Holds the scene for `most` frames; decision or shift cut it short after `least`. -/
def setWait (s : Scene σ) (least most : Int) : Scene σ :=
  { s with wait := most, minWait := most - least }

/-- Counts a frame of the wait; tells whether it is over. Cancel holds it. -/
def checkWait (s : Scene σ) (input : InputState) : Bool × Scene σ :=
  if s.wait ≤ 0 then (true, s)
  else if input.isPressed .cancel then (false, s)
  else
    let left := s.wait - 1
    let hurried := input.isPressed .decision || input.isPressed .shift
    if left > s.minWait ∨ (!hurried ∧ left > 0) then (false, { s with wait := left })
    else (true, { s with wait := 0 })

/-- Shows a line of text, unless it is empty. -/
def showNotification (s : Scene σ) (text : String) : Scene σ :=
  if text.isEmpty then s else { s with notification := some text }

def endNotification (s : Scene σ) : Scene σ := { s with notification := none }

def addFloatText (s : Scene σ) (target : BattlerId) (text : String) (heal : Bool) : Scene σ :=
  let position := ((s.roster.battler? target).map (·.position)).getD {}
  { s with
    floatTexts := s.floatTexts ++
      [{ target := target, x := position.x, y := position.y, text := text, heal := heal
         remaining := s.config.floatTextFrames }] }

def addChangeText (s : Scene σ) (target : BattlerId) (change : Int) : Scene σ :=
  s.addFloatText target (toString change.natAbs) (change > 0)

/-- A fresh push of a button, unless a closed message has used the input. -/
def triggered (s : Scene σ) (input : InputState) (button : Button) : Bool :=
  !s.inputConsumed && input.isTriggered button

/-- Ends the battle: nothing is left in the queue or on the interpreter. Only the first ending
counts. -/
def endBattle (s : Scene σ) (result : BattleResult) : Scene σ :=
  if s.result.isSome then s
  else
    let idle (b : Battler) : Battler := { b with actionQueued := false }
    let s := s.modifyRoster fun r =>
      { r with actors := r.actors.map idle, enemies := r.enemies.map idle }
    { s.modifyDirector (·.modifyInterp (·.clear)) with
      result := some result
      queue := []
      pending := none }.note (.battleEnded result)

/-- A battler the player commands: under control and not restricted by a state. -/
def isControllable (s : Scene σ) (id : BattlerId) : Bool :=
  (s.roster.battler? id).any fun b => b.controllable && b.restriction s.database = .normal

def menuCommand (s : Scene σ) (actor : Int) : Int :=
  let entries := Menus.actorCommands s.roster s.database actor
  match entries[s.ui.commandIndex]? with
  | some (.command id _) => id
  | _ => if entries.length > 6 then -1 else 0

def isFromMenu (s : Scene σ) (a : Action) : Bool :=
  match a.source with
  | .actor id => s.activeActor = some id
  | .enemy _ => false

/-- Queues an action chosen in a menu or by a chooser. The gauge of its source starts over. -/
def enqueue (s : Scene σ) (a : Action) : Scene σ :=
  match s.roster.battler? a.source with
  | none => s
  | some _ =>
    let fromMenu := s.isFromMenu a
    let command := s.menuCommand (s.activeActor.getD 0)
    let s := s.modifyBattler a.source fun b =>
      { b with
        gauge := 0
        actionQueued := true
        lastBattleAction := if fromMenu then command else b.lastBattleAction }
    let s := s.note (.actionQueued a.source a.kind)
    let s :=
      { s with
        queue := s.queue ++ [a]
        firstStrike := s.firstStrike && !a.source.isAlly }
    if fromMenu then s.setState .selectActor else s

def nextTurn (s : Scene σ) (id : BattlerId) : Scene σ :=
  let s := s.modifyRoster fun r => r.incTurns.modify id (·.nextBattleTurn)
  (s.modifyDirector (·.resetPages)).note (.turnAdvanced id s.roster.turns)

/-- Goes to defeat or victory when a side is wiped out; tells whether one is. -/
def checkBattleEnd (s : Scene σ) : Bool × Scene σ :=
  if s.state = .defeat || s.roster.isPartyDefeated then
    (true, if s.state = .defeat then s else s.setState .defeat)
  else if s.state = .victory || s.roster.areEnemiesDefeated then
    (true, if s.state = .victory then s else s.setState .victory)
  else (false, s)

/-- Schedules a troop page unless a script runs or the battle is decided; tells whether the scene
may go on. -/
def checkEvents (s : Scene σ) (trigger : EventTrigger) (source : Option BattlerId) :
    Bool × Scene σ :=
  if s.director.isRunning then (false, s)
  else if trigger ≠ .afterAction ∧ (s.director.interp.isWaiting ∨ s.game.message.isActive) then
    (true, s)
  else
    match s.checkBattleEnd with
    | (true, s) => (false, s)
    | (false, s) =>
      let (page, director) := s.director.schedule s.store s.game trigger.flags source
      let s := { s with director := director }
      let s := if page > 0 then s.note (.pageScheduled page trigger) else s
      (!s.director.isRunning, s)

variable [AssetLoader σ]

/-- Calls a hook about a battler: its side code and number come first, then four numbers. -/
def fire (s : Scene σ) (kind : HookKind) (battler : BattlerId) (a b c d : Int) : Scene σ :=
  let (side, id) := battler.codes
  let (_, director, world) := s.director.trigger s.store kind #v[side, id, a, b, c, d] s.world
  { s with director := director, world := world }

end Scene

end ActiveBattle
