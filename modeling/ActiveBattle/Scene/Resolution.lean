import ActiveBattle.Scene.Basic

/-!
# Resolving an action

The pending action passes through its states: it begins, starts, shows its animation, perhaps
reflects, is applied to its targets, and finishes. Repeated hits and combos start again.
-/

namespace ActiveBattle

set_option autoImplicit false

/-- What a step of the pending action asks for. -/
inductive ActionPace where
  | sameFrame
  | nextFrame
  | finished
deriving DecidableEq

namespace Scene

def actionPoseFrames : Int := 12

def damagePoseFrames : Int := 15

def criticalFlash : ScreenFlash := ⟨28, 28, 28, 20, 8⟩

variable {σ : Type}

def setActionState (s : Scene σ) (state : ActionState) : Scene σ := { s with actionState := state }

def healStates (s : Scene σ) (ids : List BattlerId) : Scene σ :=
  ids.foldl (fun s id => s.modifyBattler id fun b => (b.healStates s.database).2) s

def applyConditions (s : Scene σ) (ids : List BattlerId) : Scene σ :=
  ids.foldl
    (fun s id =>
      match s.roster.battler? id with
      | none => s
      | some b =>
        let (change, b) := b.applyConditions s.database
        let s := s.modifyBattler id fun _ => b
        if change ≠ 0 then s.addChangeText id change else s)
    s

def announce (s : Scene σ) (a : Action) : Scene σ :=
  let message := a.startMessage s.database
  if message.isEmpty then s
  else
    let s := s.showNotification message
    if a.isSkill then s.setWait 15 50 else s.setWait 10 40

/-- The action begins: states wear off, and before the first pass they take their toll. -/
def beginAction (s : Scene σ) (a : Action) : Scene σ :=
  let ids := s.roster.presentIds
  let s := s.healStates ids
  let s := if s.comboRepeat = 1 then (s.announce a).applyConditions ids else s
  s.setActionState .startAlgo

def faceOpponent (s : Scene σ) (a : Action) : Scene σ :=
  match a.source, a.target? with
  | .actor _, some (.enemy index) =>
    match s.roster.battler? (.enemy index) with
    | some target => s.modifyBattler a.source (Formation.faceTarget · target.position)
    | none => s
  | _, _ => s

def strikePose (s : Scene σ) (a : Action) : Scene σ :=
  s.modifyBattler a.source fun b =>
    let pose := a.sourcePose.adjusted b.flip
    if pose = .idle then b else b.setPose pose actionPoseFrames

def playAnimation (s : Scene σ) (a : Action) (targets : List BattlerId) : Scene σ :=
  let id := a.animationId s.database
  if id = 0 then s
  else
    match s.database.animation? id with
    | none => s
    | some animation =>
      let s := match animation.se with
        | some se => s.play se
        | none => s
      s.modifyStatus (·.showAnimation id targets animation.frames)

def animateAction (s : Scene σ) (a : Action) : Scene σ × Action :=
  let s := s.playAnimation a a.targets
  let (reflected, a) := a.reflect s.game
  (s.setActionState (if reflected then .animationReflect else .apply), a)

def animateReflection (s : Scene σ) (a : Action) : Scene σ :=
  let id := a.animationId s.database
  let s :=
    if id = 0 then s
    else
      let frames := match s.database.animation? id with
        | some animation => animation.frames
        | none => 1
      s.modifyStatus (·.showAnimation id a.reflectTarget.toList frames)
  s.setActionState .apply

/-- What a wound looks like: enemies blink, and fade when they die; actors take a pose. -/
def showWound (s : Scene σ) (target : BattlerId) (wasDead : Bool) : Scene σ :=
  match target with
  | .enemy _ =>
    let s := s.modifyBattler target (·.startBlink)
    if !wasDead && (s.roster.battler? target).any (·.isDead) then
      (s.playSystem .enemyKill).modifyBattler target (·.startDeathFade)
    else s
  | .actor _ => s.modifyBattler target (·.setPose .damage damagePoseFrames)

def addSound (sounds : List SoundEffect) (se : SoundEffect) : List SoundEffect :=
  if sounds.contains se then sounds else sounds ++ [se]

variable [AssetLoader σ]

/-- A pass begins: the action is aimed and paid for, and the hook for targets is called. -/
def startAction (s : Scene σ) (a : Action) : Scene σ × Action :=
  let targetsParty := a.isTargetingParty s.database
  let (a, game) := a.start s.game
  let s := s.modifyGame fun _ => game
  let s := if targetsParty then s else s.faceOpponent a
  let s := s.strikePose a
  let (side, id) := match a.target? with
    | some target => target.codes
    | none => (-1, 0)
  let s := s.fire .targeting a.source side id 0 0
  let s := s.note (.actionStarted a.source a.kind s.comboRepeat)
  (s.setActionState .animation, a)

/-- What a successful outcome looks like, with the hook for numbers. Returns the sounds still to be
played. -/
def showSuccess (s : Scene σ) (a : Action) (target : BattlerId) (sounds : List SoundEffect) :
    Scene σ × List SoundEffect :=
  let s := if a.isCriticalHit then s.modifyStatus (·.flashOnce criticalFlash) else s
  if a.isAffectingHp then
    let hp := a.affectedHp
    let s := if hp ≠ 0 ∨ !a.isPositive then s.addChangeText target hp else s
    let sound := if target.isAlly then SystemSound.allyDamage else .enemyDamage
    let sounds :=
      if a.isPositive then sounds else addSound sounds (s.database.systemSounds.get sound)
    (s.fire .damagePop target hp (if a.isCriticalHit then 1 else 0) 0 0, sounds)
  else (s, sounds)

/-- A miss: a word pops up, with a sound to be played. -/
def showMiss (s : Scene σ) (target : BattlerId) (sounds : List SoundEffect) :
    Scene σ × List SoundEffect :=
  (s.addFloatText target s.config.terms.miss false,
    addSound sounds (s.database.systemSounds.get .evasion))

/-- Rolls and applies the action against one target and shows what came of it. -/
def applyToTarget (s : Scene σ) (a : Action) (target : BattlerId) (sounds : List SoundEffect) :
    Scene σ × Action × List SoundEffect :=
  let wasDead := (s.roster.battler? target).any (·.isDead)
  let (a, game) := a.execute s.game
  let (added, game) := a.apply game
  let s := s.modifyGame fun _ => game
  let s := if a.isSuccess && decide (a.affectedHp < 0) then s.showWound target wasDead else s
  let (s, sounds) := if a.isSuccess then s.showSuccess a target sounds else s.showMiss target sounds
  let s := added.foldl (fun s state => s.fire .setState target state 0 0 0) s
  (s, a, sounds)

/-- Applies the action to its targets from the current one on, `left` of them at most. -/
def applyToTargets (s : Scene σ) (a : Action) (sounds : List SoundEffect) :
    Nat → Scene σ × Action × List SoundEffect
  | 0 => (s, a, sounds)
  | left + 1 =>
    match a.target? with
    | none => (s, a, sounds)
    | some target =>
      let (s, a, sounds) := s.applyToTarget a target sounds
      match a.nextTarget with
      | (true, a) => applyToTargets s a sounds left
      | (false, a) => (s, a, sounds)

def comboGoesOn (s : Scene σ) (source : BattlerId) : Bool :=
  (s.roster.battler? source).any fun b =>
    b.combo.any fun combo =>
      b.lastBattleAction = combo.commandId && decide (combo.times > s.comboRepeat)

/-- After a pass: another hit, another round of a combo, or the end. -/
def afterPass (s : Scene σ) (a : Action) : Scene σ × Action :=
  match a.nextRepeat with
  | (true, a) => (s.setActionState .startAlgo, a)
  | (false, a) =>
    if s.comboGoesOn a.source then
      ({ s with comboRepeat := s.comboRepeat + 1 }.setActionState .startAlgo, a)
    else (s.setActionState .finished, a)

/-- Applies the action to all of its targets; equal sounds play once. -/
def applyAction (s : Scene σ) (a : Action) : Scene σ × Action :=
  if a.isCurrentTargetValid s.roster then
    let (s, a, sounds) := s.applyToTargets a [] a.targets.length
    let s := sounds.foldl (fun s se => s.play se) s
    (s.setWait 30 30).afterPass a
  else (s.setActionState .finished, a)

/-- The action is over; what it switches on is switched on. -/
def finishAction (s : Scene σ) (a : Action) : Scene σ :=
  ({ s.setWait 30 30 with comboRepeat := 1 }).modifyGame a.setSwitches

def isSourceDead (s : Scene σ) (a : Action) : Bool := (s.roster.battler? a.source).all (·.isDead)

/-- An animation plays or the source holds a pose. -/
def isShowing (s : Scene σ) (a : Action) : Bool :=
  s.game.status.isAnimationWaiting || (s.roster.battler? a.source).any (!·.isIdle)

def stepAction (s : Scene σ) (a : Action) : ActionPace × Scene σ × Action :=
  if a.kind = .none && s.isSourceDead a then (.finished, s, a)
  else if s.isShowing a then (.nextFrame, s, a)
  else
    match s.actionState with
    | .begin => (.sameFrame, s.beginAction a, a)
    | .startAlgo => (.sameFrame, s.startAction a)
    | .animation => (.sameFrame, s.animateAction a)
    | .animationReflect => (.sameFrame, s.animateReflection a, a)
    | .apply => (.sameFrame, s.applyAction a)
    | .finished => (.finished, s.finishAction a, a)

def resolvePending (s : Scene σ) : ActionPace × Scene σ :=
  let s := s.endNotification
  match s.pending with
  | none => (.finished, s)
  | some a =>
    let (pace, s, a) := s.stepAction a
    (pace, if s.result.isNone then { s with pending := some a } else { s with pending := none })

end Scene

end ActiveBattle
