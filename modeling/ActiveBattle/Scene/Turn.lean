import ActiveBattle.Scene.Resolution

/-!
# Turns

The state in which queued actions are resolved, one after the other: stale actions are discarded,
the next one is prepared, events before it are checked, it is resolved, and events after it are
checked.
-/

namespace ActiveBattle.Scene

set_option autoImplicit false

variable {σ : Type}

@[match_pattern] abbrev preAction : Nat := 1

@[match_pattern] abbrev preEvents : Nat := 2

@[match_pattern] abbrev battleAction : Nat := 3

@[match_pattern] abbrev postEvents : Nat := 4

@[match_pattern] abbrev afterBattle : Nat := 5

/-- A battler whose queued action can be resolved: present, and in the party if it is an actor. -/
def canStillAct (s : Scene σ) (source : BattlerId) : Bool :=
  s.roster.isPresent source && (!source.isAlly || s.roster.isInParty source)

/-- Drops the action of a battler that can no longer act. A party member loses its turn. -/
def discard (s : Scene σ) (source : BattlerId) : Scene σ :=
  let s := if s.roster.isInParty source then s.nextTurn source else s
  (s.modifyBattler source ({ · with actionQueued := false })).note (.actionDiscarded source)

/-- Drops actions from the front of a queue until one can be resolved. -/
def discardStale (s : Scene σ) : List Action → Scene σ
  | [] => { s with queue := [] }
  | a :: rest =>
    if s.canStillAct a.source then { s with queue := a :: rest }
    else discardStale (s.discard a.source) rest

/-- Swaps an action for what the states of its source allow by now. -/
def prepare (s : Scene σ) (a : Action) : Action × Scene σ :=
  match s.roster.battler? a.source with
  | none => (a, s)
  | some b =>
    if a.kind ≠ .none ∧ !b.canAct s.database then (.idle a.source, s)
    else
      match b.restriction s.database with
      | .attackAlly | .attackEnemy =>
        match Action.restricted a.source s.game with
        | some (forced, game) => (forced, s.modifyGame fun _ => game)
        | none => (a, s)
      | _ => (a, s)

/-- Takes the next action that can be resolved; with none left the state is to be left. -/
def takeAction (s : Scene σ) : Scene σ :=
  let s := s.discardStale s.queue
  match s.queue with
  | [] => s.setSubstate afterBattle
  | a :: rest =>
    let (a, s) := { s with queue := rest }.prepare a
    ({ s with pending := some a, actionState := .begin }.setSubstate preEvents).nextTurn a.source

/-- Tells the director who acts and at whom. -/
def announceActor (s : Scene σ) (a : Action) : Scene σ :=
  let actor := match a.source with
    | .actor id => id
    | .enemy _ => 0
  let (single, index) : Bool × Int := match a.targets with
    | [.enemy index] => (true, wrapOperand index)
    | _ => (false, -1)
  s.modifyDirector fun d => (d.setActor actor).setTarget single index

/-- The step is done; go on at another one in this call, or stop. -/
inductive Progress (σ : Type) where
  | next (scene : Scene σ)
  | stop (pace : Pace) (scene : Scene σ)

def beforeAction (s : Scene σ) : Progress σ :=
  match s.pending with
  | none => .stop .sameFrame (s.setSubstate preAction)
  | some a =>
    match (s.announceActor a).checkEvents .beforeAction (some a.source) with
    | (true, s) => .next (s.setSubstate battleAction)
    | (false, s) => .stop .sameFrame s

/-- Checks for events after an enemy's action. -/
def enemyActionDone (s : Scene σ) : Bool × Scene σ :=
  match s.pending with
  | none => (true, s)
  | some a => if a.source.isAlly then (true, s) else s.checkEvents .afterAction (some a.source)

/-- The pending action is over; its source can be given another one. -/
def releasePending (s : Scene σ) : Scene σ :=
  match s.pending with
  | none => s
  | some a =>
    let activeActor := if s.isFromMenu a then none else s.activeActor
    { s with activeActor := activeActor, pending := none }.modifyBattler a.source
      ({ · with actionQueued := false })

/-- Checks for events after the action and goes on with the next one. -/
def afterAction (s : Scene σ) : Pace × Scene σ :=
  match s.enemyActionDone with
  | (false, s) => s.goOn
  | (true, s) =>
    match s.releasePending.checkBattleEnd with
    | (true, s) => s.goOn
    | (false, s) => (s.setSubstate preAction).goOn

/-- Where the scene goes when the queue is empty: back to the window of an actor that is still
there. -/
def stateAfterBattle (s : Scene σ) : SceneState :=
  if s.activeActor.any fun id => (s.roster.actor? id).any (·.isPresent) then s.previousState
  else if s.previousState = .autoBattle then .autoBattle
  else .selectActor

variable [AssetLoader σ]

def duringAction (s : Scene σ) : Progress σ :=
  match s.resolvePending with
  | (.sameFrame, s) => .stop .sameFrame s
  | (.nextFrame, s) => .stop .nextFrame s
  | (.finished, s) => .next (s.setSubstate postEvents)

def processAction (s : Scene σ) : Pace × Scene σ :=
  match s.duringAction with
  | .stop pace s => (pace, s)
  | .next s => s.afterAction

def processPrepared (s : Scene σ) : Pace × Scene σ :=
  match s.beforeAction with
  | .stop pace s => (pace, s)
  | .next s => s.processAction

def processBattle (s : Scene σ) : Pace × Scene σ :=
  match s.substate with
  | preEvents => s.processPrepared
  | battleAction => s.processAction
  | postEvents => s.afterAction
  | afterBattle => (s.setState s.stateAfterBattle).yield
  | 0 | preAction =>
    let s := s.takeAction
    if s.substate = preEvents then s.processPrepared else s.goOn
  | _ => s.yield

end ActiveBattle.Scene
