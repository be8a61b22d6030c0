import ActiveBattle.Action.Basic
import ActiveBattle.Script.PageCondition

/-!
# Scene states and the scene log

The outer states of a battle scene, the progress of the action being resolved, the steps of a frame,
and the entries of the log.
-/

namespace ActiveBattle

set_option autoImplicit false

inductive SceneState where
  | start
  | selectOption
  | selectActor
  | autoBattle
  | selectCommand
  | selectItem
  | selectSkill
  | selectEnemyTarget
  | selectAllyTarget
  | battle
  | victory
  | defeat
  | escape
deriving DecidableEq

namespace SceneState

def describe : SceneState → String
  | start => "Start"
  | selectOption => "SelectOption"
  | selectActor => "SelectActor"
  | autoBattle => "AutoBattle"
  | selectCommand => "SelectCommand"
  | selectItem => "SelectItem"
  | selectSkill => "SelectSkill"
  | selectEnemyTarget => "SelectEnemyTarget"
  | selectAllyTarget => "SelectAllyTarget"
  | battle => "Battle"
  | victory => "Victory"
  | defeat => "Defeat"
  | escape => "Escape"

/-- The windows a single actor's command is put together in. -/
def isActorMenu : SceneState → Bool
  | selectCommand | selectItem | selectSkill | selectEnemyTarget | selectAllyTarget => true
  | _ => false

end SceneState

inductive ActionState where
  | begin
  | startAlgo
  | animation
  | animationReflect
  | apply
  | finished
deriving DecidableEq

/-- What a frame did, step by step. -/
inductive FrameStep where
  | assetContinuation
  | debugResume
  | screen
  | battlers
  | floatText
  | runningAway
  | ui
  | events
  | timers
  | debugMenu
  | endCheck
  | atb
  | cursors
  | dispatch
deriving DecidableEq

/-- Which page categories a check for events can fire. -/
inductive EventTrigger where
  | beforeAction
  | afterAction
  | all
deriving DecidableEq

namespace EventTrigger

def flags : EventTrigger → ConditionFlags
  | beforeAction => .ofList [.turn, .turnActor, .turnEnemy, .commandActor]
  | afterAction => .ofList [.switchA, .switchB, .variableAtLeast, .fatigue, .enemyHp, .actorHp]
  | all => .all

def describe : EventTrigger → String
  | beforeAction => "BeforeAction"
  | afterAction => "AfterAction"
  | all => "All"

end EventTrigger

inductive SceneEvent where
  | battleStarted (backdrop : String)
  | stateChanged (before after : SceneState)
  | actionQueued (source : BattlerId) (kind : ActionKind)
  | actionDiscarded (source : BattlerId)
  | actionStarted (source : BattlerId) (kind : ActionKind) (combo : Int)
  | turnAdvanced (battler : BattlerId) (turn : Int)
  | pageScheduled (page : Nat) (trigger : EventTrigger)
  | battleEnded (result : BattleResult)
deriving DecidableEq

def SceneEvent.describe : SceneEvent → String
  | battleStarted backdrop => s!"battle started on {backdrop}"
  | stateChanged before after => before.describe ++ " -> " ++ after.describe
  | actionQueued source kind => source.describe ++ " queued " ++ kind.describe
  | actionDiscarded source => source.describe ++ " can no longer act"
  | actionStarted source kind combo =>
    source.describe ++ " starts " ++ kind.describe ++ s!" (combo {combo})"
  | turnAdvanced battler turn => s!"turn {turn} for " ++ battler.describe
  | pageScheduled page trigger => s!"troop page {page} scheduled (" ++ trigger.describe ++ ")"
  | battleEnded result => "battle ended with " ++ result.describe

structure LogEntry where
  frame : Nat
  event : SceneEvent
deriving DecidableEq

/-- A number or a word popping up over a battler. -/
structure FloatText where
  target : BattlerId
  x : Int
  y : Int
  text : String
  heal : Bool
  remaining : Int
deriving DecidableEq

namespace FloatText

/-- How far a text moves in an even frame: up at first, then not, then down. -/
def drift (remaining : Int) : Int :=
  if remaining ≤ 10 then 1 else if remaining < 20 then 0 else -1

def later (t : FloatText) : FloatText :=
  { t with
    y := if t.remaining % 2 = 0 then t.y + drift t.remaining else t.y
    remaining := t.remaining - 1 }

end FloatText

end ActiveBattle
