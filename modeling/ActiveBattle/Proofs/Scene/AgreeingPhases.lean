import ActiveBattle.Proofs.Scene.Agreement
import ActiveBattle.Scene.Ending
import ActiveBattle.Scene.Opening
import ActiveBattle.Scene.Turn
import ActiveBattle.Scene.Window

/-!
# The phases of battles that agree

Every phase of the battle does the same to two scenes that agree in everything but what is set
aside: it goes on at the same pace and leaves scenes that agree again.
-/

namespace ActiveBattle.Scene

set_option autoImplicit false

variable {σ : Type} {a : Difference}

/-- Both go on, or both stop at the same pace, with scenes that differ only in what is set aside. -/
inductive Progress.Concurs (a : Difference) : Progress σ → Progress σ → Prop where
  | next {s t : Scene σ} (h : Agrees a s t) : Concurs a (.next s) (.next t)
  | stop {s t : Scene σ} (pace : Pace) (h : Agrees a s t) : Concurs a (.stop pace s) (.stop pace t)

theorem Progress.Concurs.andThen {p q : Progress σ} {f : Scene σ → Pace × Scene σ}
    (hf : ∀ {u v : Scene σ}, Agrees a u v → Scene.Concurs a (f u) (f v)) :
    p.Concurs a q → Scene.Concurs a (match p with | .stop pace u => (pace, u) | .next u => f u)
      (match q with | .stop pace u => (pace, u) | .next u => f u)
  | .next h => hf h
  | .stop _ h => ⟨rfl, h⟩

namespace Agrees

variable {s t : Scene σ}

section Opening

@[gcongr] theorem finishStart (h : Agrees a s t) : Agrees a s.finishStart t.finishStart := by
  unfold Scene.finishStart
  rw [show t.slots = s.slots from h.read (·.slots), show t.firstStrike = s.firstStrike from
    h.read (·.firstStrike),
    show t.config.maxAtbGauge = s.config.maxAtbGauge from h.read (·.config.maxAtbGauge)]
  exact h.ignoresMessage fun _ _ => rfl

@[gcongr] theorem announceBattle (h : Agrees a s t) :
    Agrees a s.announceBattle t.announceBattle := by
  unfold Scene.announceBattle
  dsimp only
  rw [h.battleStart]
  split
  · exact h
  · exact (h.showNotification fun ha => by rw [h.config ha]).setWait 10 80

@[gcongr] theorem announceFormation (h : Agrees a s t) :
    Agrees a s.announceFormation t.announceFormation := by
  have hfavourable : t.isFavourable = s.isFavourable := h.read (·.isFavourable)
  unfold Scene.announceFormation
  dsimp only
  rw [h.specialCombat, h.condition,
    show t.firstStrike = s.firstStrike from h.read (·.firstStrike), hfavourable]
  split
  · split
    · exact (h.showNotification fun ha => by rw [h.config ha]).setWait 30 70
    · exact h.setWait 30 70
  · exact h

@[gcongr] theorem turnBattlers (h : Agrees a s t) : Agrees a s.turnBattlers t.turnBattlers := by
  unfold Scene.turnBattlers
  rw [h.condition]
  gcongr

theorem processStart (h : Agrees a s t) : Concurs a s.processStart t.processStart := by
  unfold Scene.processStart
  rw [h.substate]
  split
  · gcongr
  · gcongr
  · gcongr
  · obtain ⟨on, u, v, hu, hv, huv⟩ := (h.checkEvents .all none).elim
    rw [hu, hv]
    cases on with
    | true => exact (huv.setState .selectOption).goOn
    | false => exact huv.goOn

end Opening

section Ending

theorem rewardPages_length (h : Agrees a s t) : t.rewardPages.length = s.rewardPages.length := by
  unfold Scene.rewardPages
  rw [show t.expReward = s.expReward from h.read (·.expReward),
    show t.goldReward = s.goldReward from h.read (·.goldReward),
    show t.dropReward = s.dropReward from h.read (·.dropReward)]
  simp only [List.length_append, List.length_cons, List.length_map, apply_ite List.length]

@[gcongr] theorem grantRewards (h : Agrees a s t) : Agrees a s.grantRewards t.grantRewards := by
  unfold Scene.grantRewards
  rw [show t.expReward = s.expReward from h.read (·.expReward),
    show t.goldReward = s.goldReward from h.read (·.goldReward),
    show t.dropReward = s.dropReward from h.read (·.dropReward)]
  exact h.modifyRoster _

@[gcongr] theorem poseParty (h : Agrees a s t) (pose : Battler → Pose) :
    Agrees a (s.poseParty pose) (t.poseParty pose) :=
  h.modifyRoster _

theorem processVictory (h : Agrees a s t) : Concurs a s.processVictory t.processVictory := by
  unfold Scene.processVictory
  rw [h.substate]
  split
  · gcongr
  · have hshown : Agrees a (s.modifyGame fun g => s.rewardPages.foldl (·.showMessage ·) g)
        (t.modifyGame fun g => t.rewardPages.foldl (·.showMessage ·) g) := by
      cases a with
      | words => exact h.modifyGame (h.game.paraphrases.showMessages h.rewardPages_length)
      | clock =>
        exact h.apart fun u => u.modifyGame fun g => u.rewardPages.foldl (·.showMessage ·) g
    exact (hshown.grantRewards.setSubstate 2).goOn
  · gcongr

theorem processDefeat (h : Agrees a s t) : Concurs a s.processDefeat t.processDefeat := by
  unfold Scene.processDefeat
  rw [h.substate]
  split
  · gcongr
  · have hshown : Agrees a (s.modifyGame (·.showMessage s.config.terms.defeat))
        (t.modifyGame (·.showMessage t.config.terms.defeat)) := by
      cases a with
      | words => exact h.modifyGame (h.game.paraphrases.showMessage _ _)
      | clock => exact h.apart fun u => u.modifyGame (·.showMessage u.config.terms.defeat)
    exact (hshown.setSubstate 2).goOn
  · gcongr

theorem tryEscape (h : Agrees a s t) : Concurs a s.tryEscape t.tryEscape := by
  have hmissed {u v : Scene σ} (huv : Agrees a u v) :
      Agrees a { u with escapeAttempts := u.escapeAttempts + 1 }
        { v with escapeAttempts := v.escapeAttempts + 1 } := by
    cases a <;> exact huv.apart fun u => { u with escapeAttempts := u.escapeAttempts + 1 }
  unfold Scene.tryEscape
  rw [show t.game.dice.percent = s.game.dice.percent from h.read (·.game.dice.percent), h.roster,
    show t.escapeAttempts = s.escapeAttempts from h.read (·.escapeAttempts)]
  have hrolled := h.ignoresMessage (f := ({ · with dice := s.game.dice.percent.2 })) fun _ _ => rfl
  dsimp only
  split
  · exact ⟨rfl, hrolled⟩
  · exact ⟨rfl, hmissed hrolled⟩

theorem attemptEscape (h : Agrees a s t) : Concurs a s.attemptEscape t.attemptEscape := by
  unfold Scene.attemptEscape
  dsimp only
  rw [h.director]
  cases s.director.script.forceFlee with
  | true =>
    simp only [Bool.true_or, if_true]
    exact ⟨rfl, h.modifyDirector (·.resetForceFlee)⟩
  | false =>
    simp only [Bool.false_or, Bool.false_eq_true, if_false, decide_eq_true_eq, h.previousState]
    split
    · exact ⟨rfl, h⟩
    · exact h.tryEscape

@[gcongr] theorem runAway (h : Agrees a s t) : Agrees a s.runAway t.runAway := by
  have hposed := (h.playSystem .escape).poseParty fun b => Pose.walkRight.adjusted b.flip
  cases a <;> exact hposed.apart fun u => { u with runningAway := true }

theorem processEscape (h : Agrees a s t) : Concurs a s.processEscape t.processEscape := by
  unfold Scene.processEscape
  rw [h.substate]
  split
  · obtain ⟨away, u, v, hu, hv, huv⟩ := h.attemptEscape.elim
    dsimp only
    rw [hu, hv]
    cases away with
    | true => exact ((huv.runAway.setSubstate 2).setWait 10 30).goOn
    | false =>
      exact (((huv.setSubstate 1).showNotification fun ha => by rw [huv.config ha]).setWait 10
        30).goOn
  · gcongr
  · gcongr

end Ending

section Resolution

theorem withPending (h : Agrees a s t) (pending : Option Action) :
    Agrees a { s with pending := pending } { t with pending := pending } := by
  cases a <;> exact h.apart fun u => { u with pending := pending }

@[gcongr] theorem setActionState (h : Agrees a s t) (state : ActionState) :
    Agrees a (s.setActionState state) (t.setActionState state) := by
  cases a <;> exact h.apart (·.setActionState state)

@[gcongr] theorem healStates (h : Agrees a s t) (ids : List BattlerId) :
    Agrees a (s.healStates ids) (t.healStates ids) :=
  h.foldl (fun id _ _ huv => by rw [huv.database]; exact huv.modifyBattler id _) ids

@[gcongr] theorem applyConditions (h : Agrees a s t) (ids : List BattlerId) :
    Agrees a (s.applyConditions ids) (t.applyConditions ids) := by
  apply h.foldl
  intro id u v huv
  rw [huv.roster, huv.database]
  split
  · exact huv
  · dsimp only
    split
    · exact (huv.modifyBattler id _).addChangeText id _
    · exact huv.modifyBattler id _

@[gcongr] theorem announce (h : Agrees a s t) (x : Action) :
    Agrees a (s.announce x) (t.announce x) := by
  unfold Scene.announce
  dsimp only
  rw [h.database]
  split
  · exact h
  · have hshown : Agrees a (s.showNotification (x.startMessage s.database))
        (t.showNotification (x.startMessage s.database)) :=
      h.showNotification fun _ => rfl
    split
    · exact hshown.setWait 15 50
    · exact hshown.setWait 10 40

@[gcongr] theorem beginAction (h : Agrees a s t) (x : Action) :
    Agrees a (s.beginAction x) (t.beginAction x) := by
  have hhealed := h.healStates s.roster.presentIds
  unfold Scene.beginAction
  dsimp only
  rw [h.roster,
    show (t.healStates s.roster.presentIds).comboRepeat =
        (s.healStates s.roster.presentIds).comboRepeat from
      hhealed.read (·.comboRepeat)]
  split
  · gcongr
  · gcongr

@[gcongr] theorem faceOpponent (h : Agrees a s t) (x : Action) :
    Agrees a (s.faceOpponent x) (t.faceOpponent x) := by
  unfold Scene.faceOpponent
  rw [h.roster]
  split
  · split
    · gcongr
    · exact h
  · exact h

@[gcongr] theorem strikePose (h : Agrees a s t) (x : Action) :
    Agrees a (s.strikePose x) (t.strikePose x) :=
  h.modifyBattler x.source _

@[gcongr] theorem playAnimation (h : Agrees a s t) (x : Action) (targets : List BattlerId) :
    Agrees a (s.playAnimation x targets) (t.playAnimation x targets) := by
  unfold Scene.playAnimation
  dsimp only
  rw [h.database]
  split
  · exact h
  · split
    · exact h
    · split
      · gcongr
      · gcongr

theorem animateAction (h : Agrees a s t) (x : Action) :
    ConcursWith a (s.animateAction x) (t.animateAction x) := by
  have hplayed := h.playAnimation x x.targets
  unfold Scene.animateAction
  dsimp only
  rw [show x.reflect (t.playAnimation x x.targets).game =
      x.reflect (s.playAnimation x x.targets).game from
    hplayed.read fun u => x.reflect u.game]
  exact ⟨rfl, hplayed.setActionState _⟩

@[gcongr] theorem animateReflection (h : Agrees a s t) (x : Action) :
    Agrees a (s.animateReflection x) (t.animateReflection x) := by
  unfold Scene.animateReflection
  dsimp only
  rw [h.database]
  split
  · gcongr
  · gcongr

@[gcongr] theorem showWound (h : Agrees a s t) (target : BattlerId) (wasDead : Bool) :
    Agrees a (s.showWound target wasDead) (t.showWound target wasDead) := by
  unfold Scene.showWound
  cases target with
  | actor id => exact h.modifyBattler _ _
  | enemy index =>
    have hblinking := h.modifyBattler (.enemy index) (·.startBlink)
    dsimp only
    rw [hblinking.roster]
    split
    · gcongr
    · exact hblinking

theorem comboGoesOn (h : Agrees a s t) (source : BattlerId) :
    t.comboGoesOn source = s.comboGoesOn source :=
  h.read (·.comboGoesOn source)

theorem afterPass (h : Agrees a s t) (x : Action) :
    ConcursWith a (s.afterPass x) (t.afterPass x) := by
  have hcounted : Agrees a { s with comboRepeat := s.comboRepeat + 1 }
      { t with comboRepeat := t.comboRepeat + 1 } := by
    cases a <;> exact h.apart fun u => { u with comboRepeat := u.comboRepeat + 1 }
  unfold Scene.afterPass
  split
  · exact ⟨rfl, h.setActionState _⟩
  · rw [h.comboGoesOn]
    split
    · exact ⟨rfl, hcounted.setActionState _⟩
    · exact ⟨rfl, h.setActionState _⟩

@[gcongr] theorem finishAction (h : Agrees a s t) (x : Action) :
    Agrees a (s.finishAction x) (t.finishAction x) := by
  have hreset : Agrees a { s.setWait 30 30 with comboRepeat := 1 }
      { t.setWait 30 30 with comboRepeat := 1 } := by
    cases a <;> exact (h.setWait 30 30).apart fun u => { u with comboRepeat := 1 }
  exact hreset.ignoresMessage x.setSwitches_ignoresMessage

theorem showMiss (h : Agrees a s t) (target : BattlerId) (sounds : List SoundEffect) :
    ConcursWith a (s.showMiss target sounds) (t.showMiss target sounds) := by
  unfold Scene.showMiss
  rw [h.database]
  exact ⟨rfl, h.addFloatText target (fun ha => by rw [h.config ha]) false⟩

variable [AssetLoader σ]

theorem startAction (h : Agrees a s t) (x : Action) :
    ConcursWith a (s.startAction x) (t.startAction x) := by
  obtain ⟨hsame, hstarted⟩ := h.game.resultIgnoresMessage x.start_resultIgnoresMessage
  have hgame := h.withGame hstarted
  unfold Scene.startAction
  dsimp only
  rw [hsame, h.database]
  have hnoted {u v : Scene σ} (huv : Agrees a u v) : Agrees a
      (u.note (.actionStarted (x.start s.game).1.source (x.start s.game).1.kind u.comboRepeat))
      (v.note (.actionStarted (x.start s.game).1.source (x.start s.game).1.kind
        v.comboRepeat)) := by
    rw [show v.comboRepeat = u.comboRepeat from huv.read (·.comboRepeat)]
    gcongr
  split
  · exact ⟨rfl, (hnoted ((hgame.strikePose _).fire _ _ _ _ _ _)).setActionState _⟩
  · exact ⟨rfl, (hnoted (((hgame.faceOpponent _).strikePose _).fire _ _ _ _ _ _)).setActionState _⟩

theorem showSuccess (h : Agrees a s t) (x : Action) (target : BattlerId)
    (sounds : List SoundEffect) :
    ConcursWith a (s.showSuccess x target sounds) (t.showSuccess x target sounds) := by
  have hflashed :=
    (h.modifyStatus (·.flashOnce criticalFlash)).either (p := x.isCriticalHit = true) h
  have hcounted := (hflashed.addChangeText target x.affectedHp).either (p := x.affectedHp ≠ 0 ∨
    (!x.isPositive) = true) hflashed
  unfold Scene.showSuccess
  dsimp only
  rw [hcounted.database]
  split
  · exact ⟨rfl, hcounted.fire _ _ _ _ _ _⟩
  · exact ⟨rfl, hflashed⟩

theorem applyToTarget (h : Agrees a s t) (x : Action) (target : BattlerId)
    (sounds : List SoundEffect) :
    ConcursWith a (s.applyToTarget x target sounds) (t.applyToTarget x target sounds) := by
  obtain ⟨hexecuted, hgame⟩ := h.game.resultIgnoresMessage x.execute_resultIgnoresMessage
  obtain ⟨hadded, happlied⟩ :=
    hgame.resultIgnoresMessage (x.execute s.game).1.apply_resultIgnoresMessage
  have hdone := h.withGame happlied
  unfold Scene.applyToTarget
  dsimp only
  rw [hexecuted, hadded, h.roster]
  generalize (x.execute s.game).1 = x' at hdone ⊢
  have hwounded := (hdone.showWound target ((s.roster.battler? target).any (·.isDead))).either
    (p := (x'.isSuccess && decide (x'.affectedHp < 0)) = true) hdone
  obtain ⟨u, v, sounds', hu, hv, huv⟩ :=
    ((hwounded.showSuccess x' target sounds).either (p := x'.isSuccess = true)
    (hwounded.showMiss target sounds)).elim
  rw [hu, hv]
  exact ⟨rfl, huv.foldl (fun state _ _ hfired => hfired.fire .setState target state 0 0 0) _⟩

theorem applyToTargets (h : Agrees a s t) (x : Action) (sounds : List SoundEffect) (left : Nat) :
    ConcursWith a (s.applyToTargets x sounds left) (t.applyToTargets x sounds left) := by
  induction left generalizing s t x sounds with
  | zero => exact ⟨rfl, h⟩
  | succ left ih =>
    unfold Scene.applyToTargets
    split
    · exact ⟨rfl, h⟩
    · rename_i target _
      obtain ⟨u, v, ⟨x', sounds'⟩, hu, hv, huv⟩ := (h.applyToTarget x target sounds).elim
      rw [hu, hv]
      dsimp only
      split
      · exact ih huv _ sounds'
      · exact ⟨rfl, huv⟩

theorem applyAction (h : Agrees a s t) (x : Action) :
    ConcursWith a (s.applyAction x) (t.applyAction x) := by
  unfold Scene.applyAction
  rw [h.roster]
  split
  · obtain ⟨u, v, ⟨x', sounds⟩, hu, hv, huv⟩ := (h.applyToTargets x [] x.targets.length).elim
    rw [hu, hv]
    exact ((huv.foldl (fun se _ _ hplayed => hplayed.play se) sounds).setWait 30 30).afterPass x'
  · exact ⟨rfl, h.setActionState _⟩

theorem stepAction (h : Agrees a s t) (x : Action) :
    (t.stepAction x).1 = (s.stepAction x).1 ∧
      ConcursWith a (s.stepAction x).2 (t.stepAction x).2 := by
  unfold Scene.stepAction
  rw [show t.isSourceDead x = s.isSourceDead x from h.read (·.isSourceDead x),
    show t.isShowing x = s.isShowing x from h.read (·.isShowing x),
      show t.actionState = s.actionState from h.read (·.actionState)]
  split
  · exact ⟨rfl, rfl, h⟩
  · split
    · exact ⟨rfl, rfl, h⟩
    · split
      · exact ⟨rfl, rfl, h.beginAction x⟩
      · exact ⟨rfl, h.startAction x⟩
      · exact ⟨rfl, h.animateAction x⟩
      · exact ⟨rfl, rfl, h.animateReflection x⟩
      · exact ⟨rfl, h.applyAction x⟩
      · exact ⟨rfl, rfl, h.finishAction x⟩

theorem resolvePending (h : Agrees a s t) : Concurs a s.resolvePending t.resolvePending := by
  have hended := h.endNotification
  unfold Scene.resolvePending
  dsimp only
  rw [hended.pending]
  split
  · exact ⟨rfl, hended⟩
  · rename_i x _
    have hstepped := hended.stepAction x
    revert hstepped
    rcases s.endNotification.stepAction x with ⟨pace, u, x'⟩
    rcases t.endNotification.stepAction x with ⟨_, v, _⟩
    rintro ⟨rfl, rfl, huv⟩
    dsimp only at huv ⊢
    rw [ite_congr (congrArg (·.isNone = true) huv.result) (fun _ => rfl) (fun _ => rfl)]
    refine ⟨rfl, ?_⟩
    split
    · exact Agrees.withPending huv _
    · exact Agrees.withPending huv _

end Resolution

section Turn

theorem canStillAct (h : Agrees a s t) (source : BattlerId) :
    t.canStillAct source = s.canStillAct source :=
  h.read (·.canStillAct source)

theorem withQueue (h : Agrees a s t) (queue : List Action) :
    Agrees a { s with queue := queue } { t with queue := queue } := by
  cases a <;> exact h.apart fun u => { u with queue := queue }

@[gcongr] theorem discard (h : Agrees a s t) (source : BattlerId) :
    Agrees a (s.discard source) (t.discard source) := by
  unfold Scene.discard
  dsimp only
  rw [h.roster]
  have hturned := (h.nextTurn source).either (p := s.roster.isInParty source = true) h
  gcongr

@[gcongr] theorem discardStale (h : Agrees a s t) (queue : List Action) :
    Agrees a (s.discardStale queue) (t.discardStale queue) := by
  induction queue generalizing s t with
  | nil => exact h.withQueue []
  | cons x queue ih =>
    unfold Scene.discardStale
    rw [h.canStillAct]
    exact (h.withQueue (x :: queue)).either (ih (h.discard x.source))

theorem prepareForced (h : Agrees a s t) (x : Action) : Concurs a
    (match Action.restricted x.source s.game with
      | some (forced, game) => (forced, s.modifyGame fun _ => game)
      | none => (x, s))
    (match Action.restricted x.source t.game with
      | some (forced, game) => (forced, t.modifyGame fun _ => game)
      | none => (x, t)) := by
  have hpicked := h.game.restricted x.source
  revert hpicked
  generalize Action.restricted x.source s.game = p
  generalize Action.restricted x.source t.game = q
  rintro (hpicked | _)
  · exact ⟨hpicked.1, h.withGame hpicked.2⟩
  · exact ⟨rfl, h⟩

theorem prepare (h : Agrees a s t) (x : Action) : Concurs a (s.prepare x) (t.prepare x) := by
  unfold Scene.prepare
  rw [h.roster, h.database]
  split
  · exact ⟨rfl, h⟩
  · split
    · exact ⟨rfl, h⟩
    · split
      · exact h.prepareForced x
      · exact h.prepareForced x
      · exact ⟨rfl, h⟩

@[gcongr] theorem takeAction (h : Agrees a s t) : Agrees a s.takeAction t.takeAction := by
  unfold Scene.takeAction
  dsimp only
  rw [h.queue]
  have hleft := h.discardStale s.queue
  rw [hleft.queue]
  split
  · gcongr
  · rename_i x queue _
    obtain ⟨x', u, v, hu, hv, huv⟩ := ((hleft.withQueue queue).prepare x).elim
    rw [hu, hv]
    have hpicked : Agrees a { u with pending := some x', actionState := .begin }
        { v with pending := some x', actionState := .begin } :=
      (huv.withPending (some x')).setActionState .begin
    gcongr

@[gcongr] theorem announceActor (h : Agrees a s t) (x : Action) :
    Agrees a (s.announceActor x) (t.announceActor x) := by
  unfold Scene.announceActor
  exact h.modifyDirector _

theorem beforeAction (h : Agrees a s t) : s.beforeAction.Concurs a t.beforeAction := by
  unfold Scene.beforeAction
  rw [h.pending]
  split
  · exact .stop .sameFrame (h.setSubstate preAction)
  · rename_i x _
    obtain ⟨on, u, v, hu, hv, huv⟩ :=
      ((h.announceActor x).checkEvents .beforeAction (some x.source)).elim
    rw [hu, hv]
    cases on with
    | true => exact .next (huv.setSubstate battleAction)
    | false => exact .stop .sameFrame huv

theorem enemyActionDone (h : Agrees a s t) : Concurs a s.enemyActionDone t.enemyActionDone := by
  unfold Scene.enemyActionDone
  rw [h.pending]
  split
  · exact ⟨rfl, h⟩
  · split
    · exact ⟨rfl, h⟩
    · exact h.checkEvents _ _

theorem withActiveActor (h : Agrees a s t) (activeActor : Option Int) :
    Agrees a { s with activeActor := activeActor } { t with activeActor := activeActor } := by
  cases a <;> exact h.apart fun u => { u with activeActor := activeActor }

@[gcongr] theorem releasePending (h : Agrees a s t) :
    Agrees a s.releasePending t.releasePending := by
  unfold Scene.releasePending
  rw [h.pending]
  split
  · exact h
  · rename_i x _
    dsimp only
    rw [show t.isFromMenu x = s.isFromMenu x from h.read (·.isFromMenu x), h.activeActor]
    exact ((h.withActiveActor (if s.isFromMenu x then none else s.activeActor)).withPending
      none).modifyBattler x.source ({ · with actionQueued := false })

theorem afterAction (h : Agrees a s t) : Concurs a s.afterAction t.afterAction := by
  obtain ⟨done, u, v, hu, hv, huv⟩ := h.enemyActionDone.elim
  unfold Scene.afterAction
  rw [hu, hv]
  cases done with
  | false => exact huv.goOn
  | true =>
    obtain ⟨decided, u, v, hu, hv, huv⟩ := huv.releasePending.checkBattleEnd.elim
    dsimp only
    rw [hu, hv]
    cases decided with
    | true => exact huv.goOn
    | false => exact (huv.setSubstate preAction).goOn

variable [AssetLoader σ]

theorem duringAction (h : Agrees a s t) : s.duringAction.Concurs a t.duringAction := by
  obtain ⟨pace, u, v, hu, hv, huv⟩ := h.resolvePending.elim
  unfold Scene.duringAction
  rw [hu, hv]
  cases pace with
  | sameFrame => exact .stop .sameFrame huv
  | nextFrame => exact .stop .nextFrame huv
  | finished => exact .next (huv.setSubstate postEvents)

theorem processAction (h : Agrees a s t) : Concurs a s.processAction t.processAction :=
  Progress.Concurs.andThen (fun huv => huv.afterAction) h.duringAction

theorem processPrepared (h : Agrees a s t) : Concurs a s.processPrepared t.processPrepared :=
  Progress.Concurs.andThen (fun huv => huv.processAction) h.beforeAction

theorem processBattle (h : Agrees a s t) : Concurs a s.processBattle t.processBattle := by
  have htaken := h.takeAction
  have hprepared : Concurs a
      (if s.takeAction.substate = preEvents then s.takeAction.processPrepared
        else s.takeAction.goOn)
      (if t.takeAction.substate = preEvents then t.takeAction.processPrepared
        else t.takeAction.goOn) := by
    rw [htaken.substate]
    split
    · exact htaken.processPrepared
    · exact htaken.goOn
  unfold Scene.processBattle
  rw [h.substate]
  split
  · exact h.processPrepared
  · exact h.processAction
  · exact h.afterAction
  · rw [show t.stateAfterBattle = s.stateAfterBattle from h.read (·.stateAfterBattle)]
    gcongr
  · exact hprepared
  · exact hprepared
  · exact h.yield

end Turn

section Windows

theorem processOption (h : Agrees a s t) (input : InputState) :
    Concurs a (s.processOption input) (t.processOption input) := by
  have hslid := h.modifyUi (f := (·.moveWindows)) fun _ => rfl
  have hchosen := h.playSystem .decision
  unfold Scene.processOption
  rw [h.substate, show t.config.battleType = s.config.battleType from h.read (·.config.battleType),
    h.previousState,
    h.triggered, h.isActive, show t.ui.optionIndex = s.ui.optionIndex from
      h.read (·.ui.optionIndex),
    show t.canEscapeAtOnce = s.canEscapeAtOnce from h.read (·.canEscapeAtOnce)]
  split
  · split
    · exact (h.setState .selectActor).goOn
    · exact ((hslid.either h).setSubstate 1).goOn
  · split
    · split
      · exact ((hchosen.modifyUi (f := (·.moveWindows)) fun _ => rfl).setState .selectActor).yield
      · exact ((hslid.setState .autoBattle).playSystem .decision).yield
      · split
        · exact (hchosen.setState .escape).yield
        · exact (h.playSystem .buzzer).yield
    · exact h.yield

theorem readyActors (h : Agrees a s t) : t.readyActors = s.readyActors := h.read (·.readyActors)

@[gcongr] theorem pointAtActor (h : Agrees a s t) (id : Int) :
    Agrees a (s.pointAtActor id) (t.pointAtActor id) := by
  unfold Scene.pointAtActor
  rw [h.roster]
  exact h.modifyUi fun _ => rfl

@[gcongr] theorem openCommands (h : Agrees a s t) (id : Int) :
    Agrees a (s.openCommands id) (t.openCommands id) :=
  (h.withActiveActor (some id)).setState .selectCommand

@[gcongr] theorem takeFirstReady (h : Agrees a s t) :
    Agrees a s.takeFirstReady t.takeFirstReady := by
  unfold Scene.takeFirstReady
  rw [h.readyActors]
  split
  · exact h
  · gcongr

theorem readyAtCursor? (h : Agrees a s t) :
    Option.Rel (Concurs a) s.readyAtCursor? t.readyAtCursor? := by
  unfold Scene.readyAtCursor?
  rw [h.readyActors, h.roster, show t.ui.actorIndex = s.ui.actorIndex from h.read (·.ui.actorIndex)]
  split
  · exact .none
  · split
    · split
      · exact .some ⟨rfl, h⟩
      · exact .some ⟨rfl, h.pointAtActor _⟩
    · exact .some ⟨rfl, h.pointAtActor _⟩

theorem processActor (h : Agrees a s t) (input : InputState) (autoBattle : Bool) :
    Concurs a (s.processActor input autoBattle) (t.processActor input autoBattle) := by
  have hentered := (h.setSubstate 1).either (p := s.substate = 0) h
  unfold Scene.processActor
  rw [h.substate, show t.config.battleType = s.config.battleType from h.read (·.config.battleType)]
  dsimp only
  generalize (if s.substate = 0 then s.setSubstate 1 else s) = u at hentered ⊢
  generalize (if s.substate = 0 then t.setSubstate 1 else t) = v at hentered ⊢
  rw [hentered.queue, hentered.substate, hentered.triggered]
  split
  · gcongr
  · split
    · gcongr
    · split
      · gcongr
      · split
        · gcongr
        · split
          · gcongr
          · have hcursor := hentered.readyAtCursor?
            revert hcursor
            generalize u.readyAtCursor? = p
            generalize v.readyAtCursor? = q
            rintro (hpointed | _)
            · obtain ⟨id, u, v, rfl, rfl, huv⟩ := hpointed.elim
              dsimp only
              rw [huv.triggered]
              split
              · gcongr
              · gcongr
            · exact hentered.yield

@[gcongr] theorem selectRow (h : Agrees a s t) (actor : Int) :
    Agrees a (s.selectRow actor) (t.selectRow actor) := by
  have hchosen := h.playSystem .decision
  unfold Scene.selectRow
  rw [h.roster]
  split
  · exact h
  · dsimp only
    split
    · gcongr
    · rw [hchosen.roster,
        show (t.playSystem .decision).condition = (s.playSystem .decision).condition from
          hchosen.condition]
      gcongr

@[gcongr] theorem selectCommand (h : Agrees a s t) (actor id : Int) (kind : BattleCommandKind) :
    Agrees a (s.selectCommand actor id kind) (t.selectCommand actor id kind) := by
  have hchosen := h.playSystem .decision
  have hsubset (n : Int) := hchosen.modifyUi (f := ({ · with skillSubset := n })) fun _ => rfl
  unfold Scene.selectCommand
  rw [show t.canEscapeByCommand = s.canEscapeByCommand from h.read (·.canEscapeByCommand)]
  dsimp only
  split
  · exact (hchosen.modifyUi (f := ({ · with selection := some .attack })) fun _ => rfl).setState
      .selectEnemyTarget
  · gcongr
  · exact ((hchosen.modifyRoster _).setState .escape).either (h.playSystem .buzzer)
  · gcongr
  · exact (hsubset 0).setState .selectSkill
  · gcongr
  · exact (hsubset id).setState .selectSkill

@[gcongr] theorem leaveCommands (h : Agrees a s t) (actor : Int) :
    Agrees a (s.leaveCommands actor) (t.leaveCommands actor) :=
  (((h.playSystem .cancel).modifyRoster _).withActiveActor none).setState .selectActor

@[gcongr] theorem chooseTargets (h : Agrees a s t) (selection : Selection) (scope : Scope)
    (source : BattlerId) :
    Agrees a (s.chooseTargets selection scope source) (t.chooseTargets selection scope source) := by
  have hselected := h.modifyUi (f := ({ · with selection := some selection })) fun _ => rfl
  unfold Scene.chooseTargets
  rw [h.roster]
  split
  · exact hselected.setState .selectEnemyTarget
  · exact hselected.setState .selectAllyTarget
  · split
    · gcongr
    · exact h

@[gcongr] theorem chooseEffect (h : Agrees a s t) (choice : Option (Selection × Scope))
    (source : BattlerId) :
    Agrees a (s.chooseEffect choice source) (t.chooseEffect choice source) := by
  unfold Scene.chooseEffect
  split
  · gcongr
  · gcongr

@[gcongr] theorem backToCommands (h : Agrees a s t) : Agrees a s.backToCommands t.backToCommands :=
  (h.playSystem .cancel).setState .selectCommand

@[gcongr] theorem selectTarget (h : Agrees a s t) (actor : Int) (target : BattlerId)
    (selection : Selection) (enemies : Bool) :
    Agrees a (s.selectTarget actor target selection enemies)
      (t.selectTarget actor target selection enemies) := by
  have hchosen := h.playSystem .decision
  unfold Scene.selectTarget
  dsimp only
  rw [hchosen.roster]
  split
  · split
    · gcongr
    · gcongr
  · split
    · gcongr
    · exact hchosen

theorem processCommand (h : Agrees a s t) (input : InputState) :
    Concurs a (s.processCommand input) (t.processCommand input) := by
  have hreset := (h.modifyUi (f := ({ · with commandIndex := 0 })) fun _ => rfl).either
    (p := s.previousState = .selectActor ∨ s.previousState = .autoBattle) h
  have hentered := (hreset.setSubstate 1).either (p := s.substate = 0) h
  unfold Scene.processCommand
  rw [h.substate, h.previousState]
  dsimp only
  revert hentered
  generalize (if s.substate = 0 then (_ : Scene σ) else s) = u
  generalize (if s.substate = 0 then (_ : Scene σ) else t) = v
  intro hentered
  rw [hentered.queue, hentered.activeActor, show v.config.atbMode = u.config.atbMode from
    hentered.read (·.config.atbMode)]
  split
  · gcongr
  · split
    · gcongr
    · rw [hentered.triggered, hentered.triggered, hentered.roster, hentered.database,
        show v.ui.commandIndex = u.ui.commandIndex from hentered.read (·.ui.commandIndex)]
      split
      · split
        · gcongr
        · gcongr
        · exact hentered.yield
      · split
        · gcongr
        · exact hentered.yield

theorem processItem (h : Agrees a s t) (input : InputState) :
    Concurs a (s.processItem input) (t.processItem input) := by
  have hentered :=
    ((h.modifyUi (f := fun m =>
      { m with itemIndex := min m.itemIndex ((Menus.itemList s.roster).length - 1) })
    fun _ => rfl).setSubstate 1).either (p := s.substate = 0) h
  unfold Scene.processItem
  rw [h.substate, h.roster]
  dsimp only
  revert hentered
  generalize (if s.substate = 0 then (_ : Scene σ) else s) = u
  generalize (if s.substate = 0 then (_ : Scene σ) else t) = v
  intro hentered
  rw [hentered.activeActor, hentered.triggered, hentered.triggered,
    show v.usableItem? = u.usableItem? from hentered.read (·.usableItem?)]
  split
  · gcongr
  · split
    · gcongr
    · split
      · gcongr
      · exact hentered.yield

theorem processSkill (h : Agrees a s t) (input : InputState) :
    Concurs a (s.processSkill input) (t.processSkill input) := by
  unfold Scene.processSkill
  rw [h.substate, h.roster, h.database, h.activeActor, show t.ui.skillSubset = s.ui.skillSubset from
    h.read (·.ui.skillSubset)]
  split
  · gcongr
  · rename_i actor _
    have hentered := ((h.modifyUi
      (f := fun m =>
        { m with
          skillIndex := min m.skillIndex
            ((Menus.skillList s.roster s.database actor s.ui.skillSubset).length - 1) })
      fun _ => rfl).setSubstate 1).either (p := s.substate = 0) h
    dsimp only
    revert hentered
    generalize (if s.substate = 0 then (_ : Scene σ) else s) = u
    generalize (if s.substate = 0 then (_ : Scene σ) else t) = v
    intro hentered
    rw [hentered.triggered, hentered.triggered,
      show v.usableSkill? actor = u.usableSkill? actor from
        hentered.read (·.usableSkill? actor)]
    split
    · gcongr
    · split
      · gcongr
      · exact hentered.yield

@[gcongr] theorem settleTargetCursor (h : Agrees a s t) (count : Nat) :
    Agrees a (s.settleTargetCursor count) (t.settleTargetCursor count) := by
  have htop {u v : Scene σ} (huv : Agrees a u v) :=
    huv.modifyUi (f := ({ · with targetIndex := 0 })) fun _ => rfl
  have hentered := ((htop h).setSubstate 1).either (p := s.substate = 0) h
  unfold Scene.settleTargetCursor
  rw [h.substate]
  dsimp only
  revert hentered
  generalize (if s.substate = 0 then (_ : Scene σ) else s) = u
  generalize (if s.substate = 0 then (_ : Scene σ) else t) = v
  intro hentered
  rw [show v.ui.targetIndex = u.ui.targetIndex from hentered.read (·.ui.targetIndex)]
  exact (htop hentered).either hentered

theorem processTarget (h : Agrees a s t) (input : InputState) (enemies : Bool) :
    Concurs a (s.processTarget input enemies) (t.processTarget input enemies) := by
  unfold Scene.processTarget
  rw [h.roster]
  dsimp only
  have hsettled := h.settleTargetCursor
    (if enemies then Menus.enemyTargets s.roster else Menus.allyTargets s.roster).length
  revert hsettled
  generalize (if enemies then Menus.enemyTargets s.roster else Menus.allyTargets s.roster) = targets
  generalize s.settleTargetCursor targets.length = u
  generalize t.settleTargetCursor targets.length = v
  intro hsettled
  rw [hsettled.activeActor, hsettled.triggered, hsettled.triggered, hsettled.previousState,
    show v.ui.targetIndex = u.ui.targetIndex from hsettled.read (·.ui.targetIndex),
    show v.ui.selection = u.ui.selection from hsettled.read (·.ui.selection)]
  split
  · gcongr
  · split
    · split
      · gcongr
      · gcongr
    · split
      · gcongr
      · exact hsettled.yield

end Windows

end Agrees

end ActiveBattle.Scene
