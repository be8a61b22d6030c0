import ActiveBattle.Roster.Gauge
import ActiveBattle.Scene.Ending
import ActiveBattle.Scene.Opening
import ActiveBattle.Scene.Turn
import ActiveBattle.Scene.Window

/-!
# The frame loop

One update of the scene: it advances what is shown, runs scripts, ticks the countdowns, fills gauges
and queues the actions of those nobody controls, then goes through the outer states until one of
them waits for the next frame.
-/

namespace ActiveBattle.Scene

set_option autoImplicit false

/-- Steps the outer states may take in one frame. -/
def maxActionsPerFrame : Nat := 1000

def runAwayStep : Int := 6

variable {σ : Type}

def updateBattlers (s : Scene σ) : Scene σ :=
  s.modifyRoster fun r =>
    { r.modifyParty (·.updateTimers) with enemies := r.enemies.map (·.updateTimers) }

def updateFloatTexts (s : Scene σ) : Scene σ :=
  { s with floatTexts := (s.floatTexts.map (·.later)).filter (·.remaining > 0) }

/-- One frame of the flight, toward the side the party member faces away from. -/
def updateRunningAway (s : Scene σ) : Scene σ :=
  if s.runningAway then
    s.modifyRoster (·.modifyParty fun a =>
      { a with
        position :=
          { a.position with x := a.position.x + if a.flip then -runAwayStep else runAwayStep } })
  else s

def menuLength (s : Scene σ) : Nat :=
  let r := s.roster
  let db := s.database
  let actor := s.activeActor.getD 0
  match s.state with
  | .selectOption => Menus.optionCount
  | .selectActor => r.party.length
  | .selectCommand => (Menus.actorCommands r db actor).length
  | .selectItem => (Menus.itemList r).length
  | .selectSkill => (Menus.skillList r db actor s.ui.skillSubset).length
  | .selectEnemyTarget => (Menus.enemyTargets r).length
  | .selectAllyTarget => (Menus.allyTargets r).length
  | _ => 0

/-- Dismisses the message on screen when decision is pushed. -/
def updateMessage (s : Scene σ) (input : InputState) : Scene σ :=
  if input.isTriggered .decision then
    { s.modifyGame fun g => { g with message := g.message.advance } with inputConsumed := true }
  else s

def updateCursor (s : Scene σ) (input : InputState) : Scene σ :=
  if input.isTriggered .down then s.modifyUi (·.moveCursor s.state s.menuLength true)
  else if input.isTriggered .up then s.modifyUi (·.moveCursor s.state s.menuLength false)
  else s

def updateUi (s : Scene σ) (input : InputState) : Scene σ :=
  let s := s.modifyUi (·.updateWindows)
  if s.game.message.isActive then s.updateMessage input
  else if s.ui.windowMove > 0 then s
  else s.updateCursor input

/-- Reacts to what the main interpreter is suspended on; tells whether the frame may go on. -/
def checkDirector (s : Scene σ) : Bool × Scene σ :=
  match s.director.interp.asyncOp with
  | .none => (true, s)
  | .terminateBattle result => (false, s.endBattle result)
  | .loadAsset request _ _ => (false, { s with pendingAsset := some ⟨request, .resumeDirector⟩ })

/-- Starts the first common event that starts by itself, if nothing runs. -/
def startForeground (s : Scene σ) : Scene σ :=
  if s.director.isRunning then s
  else
    match s.runners.find? (·.isForegroundReady s.game.switches) with
    | some runner => s.modifyDirector fun d => (d.startEvent s.store runner.id).2
    | none => s

def showNotices (s : Scene σ) : Scene σ :=
  let notices := s.game.status.notices
  notices.foldl (fun s n =>
    match n with | .hpChanged target change => s.addChangeText target change)
    (s.modifyStatus ({ · with notices := [] }))

/-- A script's flight takes over at once. -/
def checkForceFlee (s : Scene σ) : Scene σ :=
  if s.director.script.forceFlee ∧ s.state ≠ .escape then s.setState .escape else s

/-- One frame of the countdowns; tells whether one of them aborts the battle. -/
def updateTimers (s : Scene σ) : Bool × Scene σ :=
  let ((first, second), timers) := s.game.timers.update
  (first || second, s.modifyGame ({ · with timers := timers }))

/-- Gauges fill outside of animations, and in the menus of an actor only in active mode. -/
def isAccumulating (s : Scene σ) : Bool :=
  !s.game.status.isAnimationWaiting &&
    match s.state with
    | .selectEnemyTarget | .selectAllyTarget | .selectItem | .selectSkill | .selectCommand =>
      s.config.atbMode = .active
    | .autoBattle | .selectActor => true
    | _ => false

def isIdleAndFull (s : Scene σ) (id : BattlerId) : Bool :=
  (s.roster.battler? id).any fun b =>
    b.isPresent && b.isGaugeFull s.config.maxAtbGauge && !b.actionQueued

def enqueueChoice (s : Scene σ) (chooser : Chooser) (id : BattlerId) : Scene σ :=
  let (a, game) := chooser.chooseFor id s.game
  (s.modifyGame fun _ => game).enqueue a

def createEnemyActions (s : Scene σ) : Scene σ :=
  s.roster.enemyIds.foldl
    (fun s id => if s.isIdleAndFull id then s.enqueueChoice s.enemyChooser id else s) s

/-- Queues the actions of party members that are ready and act on their own. -/
def createAutoActions (s : Scene σ) : Scene σ :=
  let autoBattle : Bool := s.state = .autoBattle
  s.roster.partyIds.foldl
    (fun s id =>
      if s.isIdleAndFull id && !(s.isControllable id && !autoBattle) then
        s.enqueueChoice s.autoChooser id
      else s)
    s

variable [AssetLoader σ]

/-- Updates the parallel events from an index on, until one of them asks for an asset. -/
def updateRunnersFrom (s : Scene σ) (index : Nat) : Nat → Bool × Scene σ
  | 0 => (true, s)
  | left + 1 =>
    match s.runners[index]? with
    | none => (true, s)
    | some runner =>
      let u := runner.update sceneCommands s.store false s.director.script s.world
      let s :=
        { s with
          world := u.world
          director := { s.director with script := u.table }
          runners := s.runners.set index u.runner }
      match u.op with
      | .loadAsset request _ _ =>
        (false, { s with pendingAsset := some ⟨request, .resumeEvent index⟩ })
      | _ => updateRunnersFrom s (index + 1) left

def updateHooks (s : Scene σ) : Scene σ :=
  let (_, director, world) := s.director.continueHooks s.store s.world
  { s with director := director, world := world }

def updateDirector (s : Scene σ) (allowSuspend : Bool) : Scene σ :=
  let (director, world) := s.director.update s.store allowSuspend s.world
  { s with director := director, world := world }

/-- Runs hooks, the main interpreter and the parallel events; tells whether the frame may go on. -/
def updateEvents (s : Scene σ) : Bool × Scene σ :=
  let s := s.updateHooks.startForeground.updateDirector true
  match s.updateRunnersFrom 0 s.runners.length with
  | (false, s) => (false, s)
  | (true, s) =>
    match s.checkForceFlee.checkDirector with
    | (false, s) => (false, s)
    | (true, s) => (true, s.showNotices)

/-- Fills the gauges and calls the hook for each gain. -/
def fillGauges (s : Scene σ) : Scene σ :=
  let (gains, roster) :=
    s.roster.updateGauges s.database s.config.maxAtbGauge s.config.atbFillFrames
  gains.foldl
    (fun s (id, gain) =>
      s.fire .atbIncrement id gain (((s.roster.battler? id).map (·.gauge)).getD 0) 0 0)
    (s.modifyRoster fun _ => roster)

def updateAtb (s : Scene σ) : Scene σ :=
  if s.director.isRunning || s.game.message.isActive then s
  else (if s.isAccumulating then s.fillGauges else s).createEnemyActions.createAutoActions

def updatePresentation (s : Scene σ) (input : InputState) : Scene σ :=
  let s := (s.mark .screen).modifyStatus (·.update)
  let s := (s.mark .battlers).updateBattlers
  let s := (s.mark .floatText).updateFloatTexts
  let s := (s.mark .runningAway).updateRunningAway
  (s.mark .ui).updateUi input

def wantsDebugMenu (s : Scene σ) (input : InputState) : Bool :=
  s.config.debugMenuEnabled && input.isTriggered .debugMenu

/-- The end of the bookkeeping: the battle may be decided, and gauges fill. -/
def updateCourse (s : Scene σ) : Scene σ :=
  let (_, s) := (s.mark .endCheck).checkBattleEnd
  let s := (s.mark .atb).updateAtb
  (s.mark .cursors).modifyUi fun m => { m with cursorCycle := m.cursorCycle + 1 }

/-- The bookkeeping of a frame; tells whether the outer states follow. -/
def updateBattle (s : Scene σ) (input : InputState) : Bool × Scene σ :=
  if s.resumeFromDebug then (true, { s with resumeFromDebug := false }.mark .debugResume)
  else
    match ((s.updatePresentation input).mark .events).updateEvents with
    | (false, s) => (false, s)
    | (true, s) =>
      match (s.mark .timers).updateTimers with
      | (true, s) => (false, s.endBattle .abort)
      | (false, s) =>
        let s := s.mark .debugMenu
        if s.wantsDebugMenu input then (false, { s with resumeFromDebug := true })
        else (true, s.updateCourse)

/-- An actor that is gone leaves its windows at once. -/
def dropGoneActor (s : Scene σ) : Scene σ :=
  match s.activeActor with
  | none => s
  | some id =>
    let here := s.roster.isActorInParty id && (s.roster.actor? id).any (·.isPresent)
    if !here && s.state.isActorMenu then { s with activeActor := none }.setState .selectActor else s

def processState (s : Scene σ) (input : InputState) : Pace × Scene σ :=
  let s := s.dropGoneActor
  match s.state with
  | .start => s.processStart
  | .selectOption => s.processOption input
  | .selectActor => s.processActor input false
  | .autoBattle => s.processActor input true
  | .selectCommand => s.processCommand input
  | .selectItem => s.processItem input
  | .selectSkill => s.processSkill input
  | .selectEnemyTarget => s.processTarget input true
  | .selectAllyTarget => s.processTarget input false
  | .battle => s.processBattle
  | .victory => s.processVictory
  | .defeat => s.processDefeat
  | .escape => s.processEscape

/-- Something keeps the outer states from going on: the end, sliding windows, a message or a
script. -/
def isBlocked (s : Scene σ) : Bool :=
  s.result.isSome || decide (s.ui.windowMove > 0) || s.game.message.isActive || s.director.isRunning

def dispatchFrom (input : InputState) : Nat → Scene σ → Scene σ
  | 0, s => s
  | left + 1, s =>
    if s.isBlocked then s
    else
      match s.checkWait input with
      | (false, s) => s
      | (true, s) =>
        match s.processState input with
        | (.nextFrame, s) => s
        | (.sameFrame, s) => dispatchFrom input left s

/-- Goes through the outer states until one waits for the next frame. -/
def dispatch (s : Scene σ) (input : InputState) : Scene σ :=
  dispatchFrom input maxActionsPerFrame (s.mark .dispatch)

/-- What goes on once an asset is there. -/
def resume (s : Scene σ) : Continuation → Scene σ
  | .finishStart => s.finishStart
  | .resumeDirector => (s.updateDirector false).checkDirector.2
  | .resumeEvent index =>
    match s.runners[index]? with
    | none => s
    | some runner =>
      let u := runner.update sceneCommands s.store true s.director.script s.world
      let s :=
        { s with
          world := u.world
          director := { s.director with script := u.table }
          runners := s.runners.set index u.runner }
      match u.op with
      | .loadAsset request _ _ => { s with pendingAsset := some ⟨request, .resumeEvent index⟩ }
      | _ => s

def backdropName (s : Scene σ) : String :=
  if s.game.status.background.isEmpty then "battle" else s.game.status.background

/-- The very first frame asks for the backdrop. -/
def requestBackdrop (s : Scene σ) : Scene σ :=
  if s.started then s
  else
    let name := s.backdropName
    let (request, world) := s.world.request .backdrop name
    { s with
      started := true
      world := world
      pendingAsset := some ⟨request, .finishStart⟩ }.note (.battleStarted name)

/-- Polls the asset the scene waits for and goes on when it is there; tells whether the frame
follows. -/
def awaitAsset (s : Scene σ) : Bool × Scene σ :=
  match s.pendingAsset with
  | none => (true, s)
  | some p =>
    let (ready, world) := s.world.isReady p.request
    let s := { s with world := world }
    if ready then
      let s := ({ s with pendingAsset := none }.mark .assetContinuation).resume p.continuation
      (s.result.isNone && s.pendingAsset.isNone, s)
    else (false, s)

def updateFrame (s : Scene σ) (input : InputState) : Scene σ :=
  match s.updateBattle input with
  | (true, s) => s.dispatch input
  | (false, s) => s

/-- One frame of the battle; none follows its end. -/
def update (s : Scene σ) (input : InputState) : Scene σ :=
  let s := { s with steps := [], inputConsumed := false }
  if s.result.isSome then s
  else
    match { s with frame := s.frame + 1 }.requestBackdrop.awaitAsset with
    | (true, s) => s.updateFrame input
    | (false, s) => s

def saveEvents (s : Scene σ) : ExecutionSnapshot × List (Int × ExecutionSnapshot) :=
  (s.director.interp.saveState, s.runners.map fun r => (r.id, r.saveState))

def loadEvent (s : Scene σ) (id : Int) (kept : ExecutionSnapshot) : Scene σ :=
  let index := s.runners.findIdx (·.id = id)
  { s with runners := s.runners.modify index (·.loadState kept s.store) }

def loadEvents (s : Scene σ) (main : ExecutionSnapshot) (common : List (Int × ExecutionSnapshot)) :
    Scene σ :=
  let s := s.modifyDirector (·.modifyInterp (·.setState main s.store))
  common.foldl (fun s (id, kept) => s.loadEvent id kept) s

end ActiveBattle.Scene
