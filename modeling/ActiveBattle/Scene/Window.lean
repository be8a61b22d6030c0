import ActiveBattle.Scene.Basic

/-!
# Windows

The states in which the player chooses: an option, an actor, a command, an item or a skill, and a
target.
-/

namespace ActiveBattle.Scene

set_option autoImplicit false

variable {σ : Type}

/-- Fleeing from the option window needs the first strike or a favourable formation, before any
turn. -/
def canEscapeAtOnce (s : Scene σ) : Bool :=
  s.config.escapeAllowed && decide (s.roster.turns = 0) &&
    (s.firstStrike || s.condition = .initiative || s.condition = .surround)

/-- Fleeing by command is possible unless the party is caught in a pincer movement. -/
def canEscapeByCommand (s : Scene σ) : Bool := s.config.escapeAllowed && s.condition ≠ .pincers

/-- The option window: its first step slides it in. -/
def processOption (s : Scene σ) (input : InputState) : Pace × Scene σ :=
  if s.substate = 0 then
    if s.config.battleType = .traditional then (s.setState .selectActor).goOn
    else
      let s := if s.previousState ≠ .start then s.modifyUi (·.moveWindows) else s
      (s.setSubstate 1).goOn
  else if s.triggered input .decision && !s.game.message.isActive then
    match s.ui.optionIndex with
    | 0 => (((s.playSystem .decision).modifyUi (·.moveWindows)).setState .selectActor).yield
    | 1 => (((s.modifyUi (·.moveWindows)).setState .autoBattle).playSystem .decision).yield
    | _ =>
      if s.canEscapeAtOnce then ((s.playSystem .decision).setState .escape).yield
      else (s.playSystem .buzzer).yield
  else s.yield

def isReady (s : Scene σ) (id : Int) : Bool :=
  s.isControllable (.actor id) &&
    (s.roster.actor? id).any fun a =>
      a.isPresent && a.isGaugeFull s.config.maxAtbGauge && !a.actionQueued

def readyActors (s : Scene σ) : List Int := s.roster.party.filter s.isReady

def pointAtActor (s : Scene σ) (id : Int) : Scene σ :=
  s.modifyUi ({ · with actorIndex := (s.roster.partyIndex? id).getD 0 })

def openCommands (s : Scene σ) (id : Int) : Scene σ :=
  { s with activeActor := some id }.setState .selectCommand

/-- Without windows to choose in, the first ready party member is next. -/
def takeFirstReady (s : Scene σ) : Scene σ :=
  match s.readyActors with
  | [] => s
  | id :: _ => (s.pointAtActor id).openCommands id

/-- The ready party member under the cursor, which goes to the first ready one when it stands
elsewhere. -/
def readyAtCursor? (s : Scene σ) : Option (Int × Scene σ) :=
  match s.readyActors with
  | [] => none
  | first :: rest =>
    match s.roster.party[s.ui.actorIndex]? with
    | some id =>
      if (first :: rest).contains id then some (id, s) else some (first, s.pointAtActor first)
    | none => some (first, s.pointAtActor first)

/-- Waiting for an actor to be ready, or to act on its own. The first step settles whether the
windows are used (step 1) or not (step 2). -/
def processActor (s : Scene σ) (input : InputState) (autoBattle : Bool) : Pace × Scene σ :=
  if s.substate = 0 ∧ s.config.battleType = .traditional then (s.setSubstate 2).goOn
  else
    let s := if s.substate = 0 then s.setSubstate 1 else s
    if !s.queue.isEmpty then (s.setState .battle).goOn
    else if s.substate = 2 then s.takeFirstReady.yield
    else if s.triggered input .cancel then ((s.playSystem .cancel).setState .selectOption).yield
    else if autoBattle then s.yield
    else
      match s.readyAtCursor? with
      | none => s.yield
      | some (id, s) => if s.triggered input .decision then (s.openCommands id).yield else s.yield

/-- The back row can always move up, the front row only if somebody else stays in front. -/
def selectRow (s : Scene σ) (actor : Int) : Scene σ :=
  match s.roster.actor? actor with
  | none => s
  | some a =>
    let front := (s.roster.partyMembers.filter (·.row = .front)).length
    if a.row = .front ∧ front < 2 then s.playSystem .buzzer
    else
      let s := s.playSystem .decision
      let index := (s.roster.partyIndex? actor).getD 0
      let s := s.modifyRoster (·.modifyActor actor fun a =>
        { a with
          row := a.row.swapped
          position := Formation.actorPosition index a.row.swapped s.condition })
      s.enqueue (.idle (.actor actor))

def selectCommand (s : Scene σ) (actor id : Int) (kind : BattleCommandKind) : Scene σ :=
  let source := BattlerId.actor actor
  match kind with
  | .attack =>
    ((s.playSystem .decision).modifyUi ({ · with selection := some .attack })).setState
      .selectEnemyTarget
  | .defense => (s.playSystem .decision).enqueue (.defend source)
  | .escape =>
    if s.canEscapeByCommand then
      ((s.playSystem .decision).modifyRoster (·.modifyActor actor ({ · with gauge := 0 }))).setState
        .escape
    else s.playSystem .buzzer
  | .item => (s.playSystem .decision).setState .selectItem
  | .skill =>
    ((s.playSystem .decision).modifyUi ({ · with skillSubset := 0 })).setState .selectSkill
  | .special => (s.playSystem .decision).enqueue (.idle source)
  | .subskill =>
    ((s.playSystem .decision).modifyUi ({ · with skillSubset := id })).setState .selectSkill

def leaveCommands (s : Scene σ) (actor : Int) : Scene σ :=
  let s := (s.playSystem .cancel).modifyRoster
    (·.modifyActor actor ({ · with lastBattleAction := -1 }))
  { s with activeActor := none }.setState .selectActor

/-- The command window: its first step resets the cursor for a new actor. -/
def processCommand (s : Scene σ) (input : InputState) : Pace × Scene σ :=
  let s :=
    if s.substate = 0 then
      let fresh := s.previousState = .selectActor ∨ s.previousState = .autoBattle
      (if fresh then s.modifyUi ({ · with commandIndex := 0 }) else s).setSubstate 1
    else s
  if s.config.atbMode = .active ∧ !s.queue.isEmpty then (s.setState .battle).goOn
  else
    match s.activeActor with
    | none => (s.setState .selectActor).goOn
    | some actor =>
      if s.triggered input .decision then
        match (Menus.actorCommands s.roster s.database actor)[s.ui.commandIndex]? with
        | some (.command id kind) => (s.selectCommand actor id kind).yield
        | some .row => (s.selectRow actor).yield
        | none => s.yield
      else if s.triggered input .cancel then (s.leaveCommands actor).yield
      else s.yield

def actionOf? (selection : Selection) (source : BattlerId) (targets : List BattlerId) :
    Option Action :=
  match selection with
  | .attack => targets.head?.map (.attack source)
  | .skill id => some (.skill source id targets)
  | .item id => some (.item source id targets)

/-- Single scopes open a target window; the others are queued at once. -/
def chooseTargets (s : Scene σ) (selection : Selection) (scope : Scope) (source : BattlerId) :
    Scene σ :=
  match scope with
  | .singleEnemy =>
    (s.modifyUi ({ · with selection := some selection })).setState .selectEnemyTarget
  | .singleAlly => (s.modifyUi ({ · with selection := some selection })).setState .selectAllyTarget
  | _ =>
    match actionOf? selection source (Action.targetsFor s.roster source scope none) with
    | some a => s.enqueue a
    | none => s

/-- An item or a skill is chosen, or the choice is refused. -/
def chooseEffect (s : Scene σ) (choice : Option (Selection × Scope)) (source : BattlerId) :
    Scene σ :=
  match choice with
  | some (selection, scope) => (s.playSystem .decision).chooseTargets selection scope source
  | none => s.playSystem .buzzer

def backToCommands (s : Scene σ) : Scene σ := (s.playSystem .cancel).setState .selectCommand

/-- The item under the cursor, if the party has it and the database knows it. -/
def usableItem? (s : Scene σ) : Option (Selection × Scope) := do
  let id ← (Menus.itemList s.roster)[s.ui.itemIndex]?
  let d ← s.database.item? id
  if s.roster.itemCount id > 0 then some (.item d.id, d.scope) else none

/-- The item window: its first step brings the cursor back into the list. -/
def processItem (s : Scene σ) (input : InputState) : Pace × Scene σ :=
  let s :=
    if s.substate = 0 then
      let count := (Menus.itemList s.roster).length
      (s.modifyUi fun m => { m with itemIndex := min m.itemIndex (count - 1) }).setSubstate 1
    else s
  match s.activeActor with
  | none => (s.setState .selectActor).goOn
  | some actor =>
    if s.triggered input .decision then (s.chooseEffect s.usableItem? (.actor actor)).yield
    else if s.triggered input .cancel then s.backToCommands.yield
    else s.yield

/-- The skill under the cursor, if the actor can pay for it. -/
def usableSkill? (s : Scene σ) (actor : Int) : Option (Selection × Scope) := do
  let id ← (Menus.skillList s.roster s.database actor s.ui.skillSubset)[s.ui.skillIndex]?
  let d ← s.database.skill? id
  let sp := ((s.roster.actor? actor).map (·.sp)).getD 0
  if d.spCost ≤ sp then some (.skill d.id, d.scope) else none

/-- The skill window: its first step brings the cursor back into the list. -/
def processSkill (s : Scene σ) (input : InputState) : Pace × Scene σ :=
  match s.activeActor with
  | none => (s.setState .selectActor).goOn
  | some actor =>
    let s :=
      if s.substate = 0 then
        let count := (Menus.skillList s.roster s.database actor s.ui.skillSubset).length
        (s.modifyUi fun m => { m with skillIndex := min m.skillIndex (count - 1) }).setSubstate 1
      else s
    if s.triggered input .decision then (s.chooseEffect (s.usableSkill? actor) (.actor actor)).yield
    else if s.triggered input .cancel then s.backToCommands.yield
    else s.yield

/-- A target is chosen for the selection; an actor turns to an enemy it aims at. -/
def selectTarget (s : Scene σ) (actor : Int) (target : BattlerId) (selection : Selection)
    (enemies : Bool) : Scene σ :=
  let s := s.playSystem .decision
  let s :=
    match enemies, s.roster.battler? target with
    | true, some b => s.modifyRoster (·.modifyActor actor (Formation.faceTarget · b.position))
    | _, _ => s
  match actionOf? selection (.actor actor) [target] with
  | some a => s.enqueue a
  | none => s

/-- The cursor of a target window: at the top when it opens or when it stands past the end. -/
def settleTargetCursor (s : Scene σ) (count : Nat) : Scene σ :=
  let s :=
    if s.substate = 0 then (s.modifyUi ({ · with targetIndex := 0 })).setSubstate 1 else s
  if count ≤ s.ui.targetIndex then s.modifyUi ({ · with targetIndex := 0 }) else s

def processTarget (s : Scene σ) (input : InputState) (enemies : Bool) : Pace × Scene σ :=
  let targets := if enemies then Menus.enemyTargets s.roster else Menus.allyTargets s.roster
  let s := s.settleTargetCursor targets.length
  match s.activeActor with
  | none => (s.setState .selectActor).goOn
  | some actor =>
    if s.triggered input .decision then
      match targets[s.ui.targetIndex]?, s.ui.selection with
      | some target, some selection => (s.selectTarget actor target selection enemies).yield
      | _, _ => (s.playSystem .buzzer).yield
    else if s.triggered input .cancel then
      ((s.playSystem .cancel).setState s.previousState).yield
    else s.yield

end ActiveBattle.Scene
