import ActiveBattle.Proofs.Scene.Course
import ActiveBattle.Proofs.Scene.Pumps

/-!
# The updates of a frame

The outer states update nothing but the hooks they call, so the updates of a frame are those before
them and these calls (`framePumps`). With them the plot of a battle unfolds (`update_unfolds`),
since whoever an asset is fetched for has asked for it (`update_linked`).
-/

namespace ActiveBattle.Scene

set_option autoImplicit false

open Scripts Plot

variable {σ : Type} [AssetLoader σ]

/-- A page is scheduled only when nothing runs. -/
theorem checkEvents_calls (s : Scene σ) (trigger : EventTrigger) (source : Option BattlerId) :
    Calls s [] (s.checkEvents trigger source).2 := by
  unfold checkEvents
  split
  · exact .of_plot rfl
  · rename_i hidle
    split
    · exact .of_plot rfl
    · have hchecked := s.checkBattleEnd_plot
      split
      · rename_i t ht
        rw [ht] at hchecked
        exact .of_plot hchecked
      · rename_i t ht
        obtain rfl := checkBattleEnd_of_false ht
        have hempty : t.director.interp.stack = [] := by
          simpa [Director.isRunning, Interpreter.isRunning] using hidle
        have hscheduled :
            Calls t []
              { t with
                director := (t.director.schedule t.store t.game trigger.flags source).2 } := by
          have hflight : (t.director.schedule t.store t.game trigger.flags source).2.script.flight =
              t.director.script.flight := by
            unfold Director.schedule
            rw [if_neg hidle]
            dsimp only
            split <;> rfl
          refine Plays.of_beats rfl (.of_eq hflight) fun hopen => ?_
          unfold Director.schedule
          rw [if_neg hidle]
          dsimp only
          split
          · rename_i index page hpage
            obtain ⟨index', -, hfound⟩ := Option.bind_eq_some_iff.mp hpage
            obtain ⟨page', hpage', hsame⟩ := Option.map_eq_some_iff.mp hfound
            obtain ⟨rfl, rfl⟩ := Prod.mk.inj hsame
            exact .single (.page hopen hempty hpage')
          · exact .refl
        dsimp only
        split <;> exact hscheduled

section Action

/-- A pass begins: the action is aimed, up to the call of the hook. -/
def aimed (s : Scene σ) (a : Action) : Scene σ × Action :=
  let targetsParty := a.isTargetingParty s.database
  let (a, game) := a.start s.game
  let s := s.modifyGame fun _ => game
  ((if targetsParty then s else s.faceOpponent a).strikePose a, a)

def startCalls (s : Scene σ) (a : Action) : List (List (Line σ)) :=
  let (s, a) := s.aimed a
  let (side, id) := match a.target? with
    | some target => target.codes
    | none => (-1, 0)
  s.fireCalls .targeting a.source side id 0 0

omit [AssetLoader σ] in
theorem aimed_plot (s : Scene σ) (a : Action) : (s.aimed a).1.plot = s.plot := by
  have hfaced (s : Scene σ) (a : Action) : (s.faceOpponent a).plot = s.plot := by
    unfold faceOpponent
    split
    · split <;> rfl
    · rfl
  unfold aimed
  dsimp only
  split
  · rfl
  · exact hfaced _ _

theorem startAction_calls (s : Scene σ) (a : Action) :
    Calls s (s.startCalls a) (s.startAction a).1 :=
  .after (s.aimed_plot a) ((fire_calls _ _ _ _ _ _ _).before rfl)

/-- The number of a successful outcome, up to the call of the hook. -/
def popped (s : Scene σ) (a : Action) (target : BattlerId) : Scene σ :=
  let s := if a.isCriticalHit then s.modifyStatus (·.flashOnce criticalFlash) else s
  if a.affectedHp ≠ 0 ∨ !a.isPositive then s.addChangeText target a.affectedHp else s

def successCalls (s : Scene σ) (a : Action) (target : BattlerId) : List (List (Line σ)) :=
  if a.isAffectingHp then
    (s.popped a target).fireCalls .damagePop target a.affectedHp
      (if a.isCriticalHit then 1 else 0) 0 0
  else []

theorem showSuccess_calls (s : Scene σ) (a : Action) (target : BattlerId)
    (sounds : List SoundEffect) :
    Calls s (s.successCalls a target) (s.showSuccess a target sounds).1 := by
  have hflashed : (if a.isCriticalHit then s.modifyStatus (·.flashOnce criticalFlash) else s).plot =
      s.plot := by
    split <;> rfl
  have hpopped : (s.popped a target).plot = s.plot := by
    unfold popped
    dsimp only
    generalize (if a.isCriticalHit then s.modifyStatus (·.flashOnce criticalFlash) else s) =
      t at hflashed
    split <;> exact hflashed
  unfold successCalls showSuccess
  dsimp only
  split
  · exact .after hpopped (fire_calls _ _ _ _ _ _ _)
  · exact .of_plot hflashed

/-- The action as it is rolled against a target, with the wound it makes and the states it adds. -/
def struck (s : Scene σ) (a : Action) (target : BattlerId) : Scene σ × Action × List Int :=
  let wasDead := (s.roster.battler? target).any (·.isDead)
  let (a, game) := a.execute s.game
  let (added, game) := a.apply game
  let s := s.modifyGame fun _ => game
  (if a.isSuccess && decide (a.affectedHp < 0) then s.showWound target wasDead else s, a, added)

def shown (s : Scene σ) (a : Action) (target : BattlerId) (sounds : List SoundEffect) :
    Scene σ × List SoundEffect :=
  if a.isSuccess then s.showSuccess a target sounds else s.showMiss target sounds

def targetCalls (s : Scene σ) (a : Action) (target : BattlerId) (sounds : List SoundEffect) :
    List (List (Line σ)) :=
  let (s, a, added) := s.struck a target
  (if a.isSuccess then s.successCalls a target else []) ++
    cueCalls (fun _ state => ⟨.setState, target, state, 0, 0, 0⟩) (s.shown a target sounds).1 added

omit [AssetLoader σ] in
theorem struck_plot (s : Scene σ) (a : Action) (target : BattlerId) :
    (s.struck a target).1.plot = s.plot := by
  have hwound (s : Scene σ) (wasDead : Bool) : (s.showWound target wasDead).plot = s.plot := by
    unfold showWound
    split
    · dsimp only
      split <;> rfl
    · rfl
  unfold struck
  dsimp only
  split
  · exact hwound _ _
  · rfl

theorem applyToTarget_calls (s : Scene σ) (a : Action) (target : BattlerId)
    (sounds : List SoundEffect) :
    Calls s (s.targetCalls a target sounds) (s.applyToTarget a target sounds).1 := by
  have hshown (s : Scene σ) (a : Action) :
      Calls s (if a.isSuccess then s.successCalls a target else [])
        (s.shown a target sounds).1 := by
    unfold shown
    split
    · exact s.showSuccess_calls a target sounds
    · exact .of_plot rfl
  exact .after (s.struck_plot a target) ((hshown _ _).trans (cues_calls _ _ _))

def targetsCalls (s : Scene σ) (a : Action) (sounds : List SoundEffect) : Nat → List (List (Line σ))
  | 0 => []
  | left + 1 =>
    match a.target? with
    | none => []
    | some target =>
      let applied := s.applyToTarget a target sounds
      s.targetCalls a target sounds ++
        match applied.2.1.nextTarget with
        | (true, a) => targetsCalls applied.1 a applied.2.2 left
        | (false, _) => []

theorem applyToTargets_calls (s : Scene σ) (a : Action) (sounds : List SoundEffect) (left : Nat) :
    Calls s (s.targetsCalls a sounds left) (s.applyToTargets a sounds left).1 := by
  induction left generalizing s a sounds with
  | zero => exact .of_plot rfl
  | succ left ih =>
    unfold targetsCalls applyToTargets
    cases a.target? with
    | none => exact .of_plot rfl
    | some target =>
      refine (s.applyToTarget_calls a target sounds).trans ?_
      dsimp only
      generalize s.applyToTarget a target sounds = applied
      cases applied.2.1.nextTarget with
      | mk goes next =>
        cases goes with
        | true => exact ih _ _ _
        | false => exact .of_plot rfl

def stepCalls (s : Scene σ) (a : Action) : List (List (Line σ)) :=
  if a.kind = .none && s.isSourceDead a then []
  else if s.isShowing a then []
  else
    match s.actionState with
    | .startAlgo => s.startCalls a
    | .apply => if a.isCurrentTargetValid s.roster then s.targetsCalls a [] a.targets.length else []
    | _ => []

omit [AssetLoader σ] in
theorem beginAction_plot (s : Scene σ) (a : Action) : (s.beginAction a).plot = s.plot := by
  have hhealed (s : Scene σ) (ids : List BattlerId) : (s.healStates ids).plot = s.plot := by
    refine foldl_plot _ (fun s id => ?_) _ _
    rfl
  have hannounced (s : Scene σ) : (s.announce a).plot = s.plot := by
    unfold announce
    dsimp only
    split
    · rfl
    · split <;> exact showNotification_plot _ _
  have hhurt (s : Scene σ) (ids : List BattlerId) : (s.applyConditions ids).plot = s.plot := by
    refine foldl_plot _ (fun s id => ?_) _ _
    split
    · rfl
    · dsimp only
      split <;> rfl
  unfold beginAction
  dsimp only
  refine Eq.trans ?_ (hhealed s s.roster.presentIds)
  split
  · exact (hhurt _ _).trans (hannounced _)
  · rfl

omit [AssetLoader σ] in
theorem animateAction_plot (s : Scene σ) (a : Action) : (s.animateAction a).1.plot = s.plot := by
  have hplayed : (s.playAnimation a a.targets).plot = s.plot := by
    unfold playAnimation
    dsimp only
    split
    · rfl
    · split
      · rfl
      · rename_i animation _
        cases animation.se <;> rfl
  exact hplayed

omit [AssetLoader σ] in
theorem animateReflection_plot (s : Scene σ) (a : Action) :
    (s.animateReflection a).plot = s.plot := by
  unfold animateReflection
  dsimp only
  split <;> rfl

omit [AssetLoader σ] in
theorem afterPass_plot (s : Scene σ) (a : Action) : (s.afterPass a).1.plot = s.plot := by
  unfold afterPass
  split
  · rfl
  · split <;> rfl

theorem applyAction_calls (s : Scene σ) (a : Action) :
    Calls s (if a.isCurrentTargetValid s.roster then s.targetsCalls a [] a.targets.length else [])
      (s.applyAction a).1 := by
  unfold applyAction
  split
  · have hplayed (sounds : List SoundEffect) (s : Scene σ) :
        (sounds.foldl (fun s se => s.play se) s).plot = s.plot := by
      refine foldl_plot _ (fun s se => ?_) _ _
      rfl
    refine (s.applyToTargets_calls a [] a.targets.length).before ?_
    exact (afterPass_plot _ _).trans (hplayed _ _)
  · exact .of_plot rfl

theorem stepAction_calls (s : Scene σ) (a : Action) :
    Calls s (s.stepCalls a) (s.stepAction a).2.1 := by
  unfold stepCalls stepAction
  split
  · exact .of_plot rfl
  · split
    · exact .of_plot rfl
    · cases s.actionState with
      | «begin» => exact .of_plot (s.beginAction_plot a)
      | startAlgo => exact s.startAction_calls a
      | animation => exact .of_plot (s.animateAction_plot a)
      | animationReflect => exact .of_plot (s.animateReflection_plot a)
      | apply => exact s.applyAction_calls a
      | finished => exact .of_plot rfl

/-- The hooks that are called while the pending action is resolved. -/
def actionCalls (s : Scene σ) : List (List (Line σ)) :=
  match s.pending with
  | none => []
  | some a => s.endNotification.stepCalls a

theorem duringAction_calls (s : Scene σ) :
    (∃ pace t, s.duringAction = .stop pace t ∧ Calls s s.actionCalls t) ∨
      ∃ t, s.duringAction = .next t ∧ Calls s s.actionCalls t := by
  have hresolved : Calls s s.actionCalls s.resolvePending.2 := by
    unfold actionCalls resolvePending
    dsimp only
    change Calls s _ (match s.pending with
      | none => _
      | some a => _ : ActionPace × Scene σ).2
    cases s.pending with
    | none => exact .of_plot rfl
    | some a =>
      have hstepped := s.endNotification.stepAction_calls a
      dsimp only
      split
      · exact .after rfl (hstepped.before rfl)
      · exact .after rfl (hstepped.before rfl)
  unfold duringAction
  generalize s.resolvePending = resolved at hresolved ⊢
  obtain ⟨pace, t⟩ := resolved
  cases pace with
  | sameFrame => exact .inl ⟨_, _, rfl, hresolved⟩
  | nextFrame => exact .inl ⟨_, _, rfl, hresolved⟩
  | finished => exact .inr ⟨_, rfl, hresolved.before rfl⟩

theorem afterAction_calls (s : Scene σ) : Calls s [] s.afterAction.2 := by
  have hdone : Calls s [] s.enemyActionDone.2 := by
    unfold enemyActionDone
    split
    · exact .of_plot rfl
    · split
      · exact .of_plot rfl
      · exact s.checkEvents_calls _ _
  unfold afterAction
  generalize s.enemyActionDone = done at hdone ⊢
  obtain ⟨_ | _, t⟩ := done
  · exact hdone
  · have hreleased : t.releasePending.plot = t.plot := by
      unfold releasePending
      split <;> rfl
    have hchecked := t.releasePending.checkBattleEnd_plot
    dsimp only
    generalize t.releasePending.checkBattleEnd = checked at hchecked ⊢
    obtain ⟨_ | _, u⟩ := checked <;> exact hdone.before (hchecked.trans hreleased)

theorem processAction_calls (s : Scene σ) : Calls s s.actionCalls s.processAction.2 := by
  unfold processAction
  rcases s.duringAction_calls with ⟨pace, t, ht, hplays⟩ | ⟨t, ht, hplays⟩
  · rw [ht]
    exact hplays
  · rw [ht, ← List.append_nil s.actionCalls]
    exact hplays.trans t.afterAction_calls

def preparedCalls (s : Scene σ) : List (List (Line σ)) :=
  match s.beforeAction with
  | .stop .. => []
  | .next s => s.actionCalls

theorem processPrepared_calls (s : Scene σ) : Calls s s.preparedCalls s.processPrepared.2 := by
  unfold preparedCalls processPrepared beforeAction
  cases s.pending with
  | none => exact .of_plot rfl
  | some a =>
    have hchecked := (s.announceActor a).checkEvents_calls .beforeAction (some a.source)
    have hannounced : Calls s [] (s.announceActor a) := .of_plot rfl
    dsimp only
    generalize (s.announceActor a).checkEvents .beforeAction (some a.source) = checked at hchecked ⊢
    obtain ⟨_ | _, t⟩ := checked
    · exact hannounced.trans hchecked
    · have hacted := (t.setSubstate battleAction).processAction_calls
      exact (hannounced.trans hchecked).trans (.after rfl hacted)

def turnCalls (s : Scene σ) : List (List (Line σ)) :=
  match s.substate with
  | preEvents => s.preparedCalls
  | battleAction => s.actionCalls
  | 0 | preAction =>
    let s := s.takeAction
    if s.substate = preEvents then s.preparedCalls else []
  | _ => []

theorem processBattle_calls (s : Scene σ) : Calls s s.turnCalls s.processBattle.2 := by
  have htaken : Calls s
      (if s.takeAction.substate = preEvents then s.takeAction.preparedCalls else [])
      (if s.takeAction.substate = preEvents then s.takeAction.processPrepared
        else s.takeAction.goOn).2 := by
    refine .after s.takeAction_plot ?_
    split
    · exact processPrepared_calls _
    · exact .of_plot rfl
  unfold turnCalls processBattle
  match s.substate with
  | 0 => exact htaken
  | 1 => exact htaken
  | 2 => exact s.processPrepared_calls
  | 3 => exact s.processAction_calls
  | 4 => exact s.afterAction_calls
  | 5 => exact .of_plot rfl
  | n + 6 => exact .of_plot rfl

end Action

section Ending

theorem processStart_calls (s : Scene σ) : Calls s [] s.processStart.2 := by
  have hformed (s : Scene σ) : s.announceFormation.plot = s.plot := by
    unfold announceFormation
    dsimp only
    split
    · split
      · exact showNotification_plot _ _
      · rfl
    · rfl
  unfold processStart
  split
  · refine .of_plot ?_
    change s.announceBattle.plot = s.plot
    unfold announceBattle
    dsimp only
    split
    · rfl
    · exact showNotification_plot _ _
  · exact .of_plot (hformed s.endNotification)
  · exact .of_plot rfl
  · have hchecked := s.checkEvents_calls .all none
    generalize s.checkEvents .all none = checked at hchecked ⊢
    obtain ⟨_ | _, t⟩ := checked
    · exact hchecked
    · exact hchecked.before rfl

theorem processVictory_unfolds (s : Scene σ) (hopen : s.result = none) :
    Unfolds σ s.plot [] s.processVictory.2.plot := by
  unfold processVictory
  split
  · exact .refl
  · exact .refl
  · exact s.endBattle_unfolds .victory hopen

theorem processDefeat_unfolds (s : Scene σ) (hopen : s.result = none) :
    Unfolds σ s.plot [] s.processDefeat.2.plot := by
  unfold processDefeat
  split
  · exact .refl
  · exact .refl
  · exact s.endBattle_unfolds .defeat hopen

theorem processEscape_unfolds (s : Scene σ) (hopen : s.result = none) :
    Unfolds σ s.plot [] s.processEscape.2.plot := by
  have hattempted : Unfolds σ s.plot [] s.attemptEscape.2.plot := by
    -- a flight that was forced is used up
    have hreset : Unfolds σ s.plot []
        (if s.director.script.forceFlee then s.modifyDirector (·.resetForceFlee) else s).plot := by
      split
      · exact ⟨.refl, rfl, nofun⟩
      · exact .refl
    unfold attemptEscape
    dsimp only
    generalize (if s.director.script.forceFlee then s.modifyDirector (·.resetForceFlee) else s) =
      t at hreset ⊢
    split
    · exact hreset
    · unfold tryEscape
      dsimp only
      split <;> exact hreset
  unfold processEscape
  split
  · dsimp only
    generalize s.attemptEscape = attempted at hattempted ⊢
    obtain ⟨_ | _, t⟩ := attempted
    · exact hattempted.trans (.of_eq (showNotification_plot _ _))
    · exact hattempted
  · exact .refl
  · exact s.endNotification.endBattle_unfolds .escape hopen

end Ending

def stateCalls (s : Scene σ) : List (List (Line σ)) :=
  match s.dropGoneActor.state with
  | .battle => s.dropGoneActor.turnCalls
  | _ => []

theorem processState_unfolds (s : Scene σ) (input : InputState) (hopen : s.result = none) :
    Unfolds σ s.plot (Pump.ofCalls s.stateCalls) (s.processState input).2.plot := by
  have hdropped := s.dropGoneActor_plot
  have hgone : Calls s [] s.dropGoneActor := .of_plot hdropped
  unfold stateCalls processState
  dsimp only
  generalize s.dropGoneActor = t at hdropped hgone ⊢
  cases t.state with
  | start => exact (hgone.trans t.processStart_calls hopen).2
  | battle => exact (hgone.trans t.processBattle_calls hopen).2
  | victory => exact hgone.unfolds t.processVictory_unfolds hopen
  | defeat => exact hgone.unfolds t.processDefeat_unfolds hopen
  | escape => exact hgone.unfolds t.processEscape_unfolds hopen
  | selectOption => exact .of_eq ((t.processOption_plot input).trans hdropped)
  | selectActor => exact .of_eq ((t.processActor_plot input false).trans hdropped)
  | autoBattle => exact .of_eq ((t.processActor_plot input true).trans hdropped)
  | selectCommand => exact .of_eq ((t.processCommand_plot input).trans hdropped)
  | selectItem => exact .of_eq ((t.processItem_plot input).trans hdropped)
  | selectSkill => exact .of_eq ((t.processSkill_plot input).trans hdropped)
  | selectEnemyTarget => exact .of_eq ((t.processTarget_plot input true).trans hdropped)
  | selectAllyTarget => exact .of_eq ((t.processTarget_plot input false).trans hdropped)

/-- The hooks that the outer states call in a frame. -/
def dispatchCalls (input : InputState) : Nat → Scene σ → List (List (Line σ))
  | 0, _ => []
  | left + 1, s =>
    if s.isBlocked then []
    else
      match s.checkWait input with
      | (false, _) => []
      | (true, s) =>
        s.stateCalls ++
          match s.processState input with
          | (.nextFrame, _) => []
          | (.sameFrame, s) => dispatchCalls input left s

theorem dispatchFrom_unfolds (s : Scene σ) (input : InputState) (left : Nat) :
    Unfolds σ s.plot (Pump.ofCalls (dispatchCalls input left s))
      (dispatchFrom input left s).plot := by
  induction left generalizing s with
  | zero => exact .refl
  | succ left ih =>
    unfold dispatchCalls dispatchFrom
    split
    · exact .refl
    · rename_i hblocked
      have hopen := (s.checkWait_effects input).result_eq.trans (result_of_isBlocked hblocked)
      have hwaited := s.checkWait_plot input
      generalize s.checkWait input = waited at hopen hwaited ⊢
      obtain ⟨_ | _, t⟩ := waited
      · exact .of_eq hwaited
      · have hprocessed := Unfolds.eq_trans hwaited (t.processState_unfolds input hopen)
        dsimp only
        generalize t.processState input = processed at hprocessed ⊢
        obtain ⟨_ | _, u⟩ := processed
        · rw [Pump.ofCalls_append]
          exact hprocessed.trans (ih u)
        · rw [List.append_nil]
          exact hprocessed

/-- The updates of a frame. -/
def framePumps (s : Scene σ) (input : InputState) : List Pump :=
  s.preludePumps input ++
    match s.prelude input with
    | (true, s) => Pump.ofCalls (dispatchCalls input maxActionsPerFrame s)
    | (false, _) => []

/-- With these updates the plot unfolds in a frame. -/
theorem update_unfolds {s : Scene σ} (hs : s.Linked) (input : InputState) :
    Unfolds σ s.plot (s.framePumps input) (s.update input).plot := by
  have hbegun := (prelude_unfolds hs input).1
  rw [update_eq]
  unfold framePumps
  generalize s.prelude input = begun at hbegun ⊢
  obtain ⟨_ | _, t⟩ := begun
  · rw [List.append_nil]
    exact hbegun
  · exact hbegun.trans (t.dispatchFrom_unfolds input maxActionsPerFrame)

/-- What happens to the scripts in a frame are these updates. -/
theorem update_beats {s : Scene σ} (hs : s.Linked) (input : InputState) :
    Beats σ s.scripts (s.framePumps input) (s.update input).scripts :=
  (update_unfolds hs input).beats

/-! ### Whom an asset is asked for -/

omit [AssetLoader σ] in
theorem Linked.of_none {s : Scene σ} (h : s.pendingAsset = none) : s.Linked :=
  fun _ p hp => by simp [h] at hp

omit [AssetLoader σ] in
theorem Linked.of_isSome {s : Scene σ} (h : s.result.isSome = true) : s.Linked :=
  fun hopen => by simp [hopen] at h

omit [AssetLoader σ] in
theorem checkDirector_linked {s : Scene σ} (hs : s.pendingAsset = none) :
    s.checkDirector.2.Linked := by
  unfold checkDirector
  cases hop : s.director.interp.asyncOp with
  | none => exact .of_none hs
  | terminateBattle result => exact .of_isSome (s.endBattle_isSome result)
  | loadAsset request kind name =>
    intro _ p hp
    obtain rfl := Option.some.inj hp
    change s.director.interp.asyncOp.isLoad = true
    rw [hop]
    rfl

theorem updateRunner_linked {s : Scene σ} {runner : EventRunner} {index : Nat} {resume : Bool}
    {request : AssetRequest} {kind : AssetKind} {name : String}
    (hop : (runner.update sceneCommands s.store resume s.director.script s.world).op =
      .loadAsset request kind name) :
    ({ s.updateRunner runner index resume with
        pendingAsset := some ⟨request, .resumeEvent index⟩ } : Scene σ).Linked := by
  have hrunner :
      (runner.update sceneCommands s.store resume s.director.script s.world).runner.op.isLoad =
        true := by
    rcases runner.update_op s.store resume s.director.script s.world with hsame | ⟨hnone, -⟩
    · rw [← hsame, hop]
      rfl
    · exact absurd (hop.symm.trans hnone) nofun
  intro _ p hp
  obtain rfl := Option.some.inj hp
  intro other hother
  change (s.runners.set index _)[index]? = some other at hother
  have hlt := (List.getElem?_eq_some_iff.mp hother).1
  rw [List.length_set] at hlt
  rw [List.getElem?_set_self hlt] at hother
  obtain rfl := Option.some.inj hother
  exact hrunner

omit [AssetLoader σ] in
theorem startForeground_pendingAsset (s : Scene σ) :
    s.startForeground.pendingAsset = s.pendingAsset := by
  unfold startForeground
  split
  · rfl
  · split <;> rfl

theorem updateRunnersFrom_linked {s : Scene σ} (hs : s.pendingAsset = none) (index left : Nat) :
    (s.updateRunnersFrom index left).2.Linked := by
  induction left generalizing s index with
  | zero => exact .of_none hs
  | succ left ih =>
    unfold updateRunnersFrom
    cases hrunner : s.runners[index]? with
    | none => exact .of_none hs
    | some runner =>
      dsimp only
      cases hop : (runner.update sceneCommands s.store false s.director.script s.world).op with
      | loadAsset request kind name => exact updateRunner_linked hop
      | none => exact ih (s := s.updateRunner runner index false) hs (index + 1)
      | terminateBattle result => exact ih (s := s.updateRunner runner index false) hs (index + 1)

theorem resume_linked {s : Scene σ} (hs : s.pendingAsset = none) (k : Continuation) :
    (s.resume k).Linked := by
  cases k with
  | finishStart => exact .of_none hs
  | resumeDirector => exact checkDirector_linked (s := s.updateDirector false) hs
  | resumeEvent index =>
    dsimp only [resume]
    cases hrunner : s.runners[index]? with
    | none => exact .of_none hs
    | some runner =>
      dsimp only
      cases hop : (runner.update sceneCommands s.store true s.director.script s.world).op with
      | loadAsset request kind name => exact updateRunner_linked hop
      | none => exact .of_none hs
      | terminateBattle result => exact .of_none hs

theorem enter_linked {s : Scene σ} (hs : s.Linked) : s.enter.2.Linked := by
  unfold enter
  dsimp only
  split
  · rename_i hended
    exact .of_isSome hended
  · have hrequested := requestBackdrop_linked
      (s := { s with steps := [], inputConsumed := false, frame := s.frame + 1 }) hs
    unfold awaitAsset
    split
    · exact hrequested
    · dsimp only
      split
      · exact resume_linked rfl _
      · exact hrequested

omit [AssetLoader σ] in
theorem checkEnds_linked {s : Scene σ} (hs : s.pendingAsset = none) (input : InputState) :
    (s.checkEnds input).2.Linked := by
  have hdirector := checkDirector_linked hs
  unfold checkEnds
  split
  · rename_i t ht
    rw [ht] at hdirector
    exact hdirector
  · rename_i t ht
    obtain rfl := (checkDirector_of_true ht).1
    have hticked : (t.showNotices.mark .timers).updateTimers.2.pendingAsset = none :=
      (congrArg Standing.asset t.showNotices_standing).trans hs
    split
    · exact .of_isSome (endBattle_isSome _ _)
    · rename_i u hu
      rw [hu] at hticked
      dsimp only
      split <;> exact .of_none hticked

theorem updateBattle_linked {s : Scene σ} (hs : s.standing.Ready) (input : InputState)
    (hstops : (s.updateBattle input).1 = false) : (s.updateBattle input).2.Linked := by
  rw [updateBattle_eq] at hstops ⊢
  split at hstops
  · contradiction
  · rename_i hdebug
    rw [if_neg hdebug]
    have hshown : ((s.updatePresentation input).mark .events).standing = s.standing :=
      s.updatePresentation_standing input
    have hready : ((s.updatePresentation input).mark .events).standing.Ready := by rwa [hshown]
    have hran := runScripts_goesOn hready (by rw [hshown]; exact Bool.eq_false_iff.mpr hdebug)
    have hlinked : ((s.updatePresentation input).mark .events).runScripts.2.Linked := by
      apply updateRunnersFrom_linked
      exact (startForeground_pendingAsset (updateHooks _)).trans hready.asset
    generalize ((s.updatePresentation input).mark .events).runScripts = ran at hran hlinked hstops ⊢
    obtain ⟨_ | _, t⟩ := ran
    · exact hlinked
    · have hchecked := checkEnds_linked (s := t.checkForceFlee)
        ((congrArg Standing.asset t.checkForceFlee_standing).trans hran.1.asset) input
      dsimp only at hstops ⊢
      generalize t.checkForceFlee.checkEnds input = checked at hchecked hstops ⊢
      obtain ⟨_ | _, u⟩ := checked
      · exact hchecked
      · contradiction

/-- After every frame, whoever an asset is asked for waits for it. -/
theorem update_linked {s : Scene σ} (hs : s.Linked) (hattended : s.Attended)
    (hpaired : ∀ r ∈ s.runners, r.Paired) (input : InputState) : (s.update input).Linked := by
  have hentered := enter_goesOn hattended hpaired
  have hlinked := enter_linked hs
  have hbegun := prelude_goesOn hattended hpaired input
  rw [update_eq]
  unfold prelude at hbegun ⊢
  generalize s.enter = entered at hentered hlinked hbegun ⊢
  obtain ⟨_ | _, t⟩ := entered
  · exact hlinked
  · have hupdated := updateBattle_linked hentered input
    dsimp only at hbegun ⊢
    generalize t.updateBattle input = updated at hbegun hupdated ⊢
    obtain ⟨_ | _, u⟩ := updated
    · exact hupdated rfl
    · rcases dispatchFrom_attended input maxActionsPerFrame (.inr hbegun) with hended | hfree
      · exact .of_isSome hended
      · exact .of_none hfree.asset

/-- A scene between frames: what is suspended is attended to, and assets are asked for by those who
wait for them. -/
structure Tended (s : Scene σ) : Prop where
  linked : s.Linked
  attended : s.Attended
  paired : ∀ r ∈ s.runners, r.Paired

theorem Tended.update {s : Scene σ} (hs : s.Tended) (input : InputState) :
    (s.update input).Tended :=
  ⟨update_linked hs.linked hs.attended hs.paired input, update_attended hs.attended hs.paired input,
    (s.update_path input).persists.paired hs.paired⟩

omit [AssetLoader σ] in
theorem ofSetup_tended (config : BattleConfig) (database : Database) (setup : BattleSetup)
    (assets : σ) :
    (ofSetup config database setup assets).Tended :=
  have h := ofSetup_attended config database setup assets
  ⟨.of_none rfl, h.1, h.2⟩

/-- The updates of a run, each with the number of its frame. -/
def pumpsFrom (s : Scene σ) (frame : Nat) : List InputState → List (Nat × Pump)
  | [] => []
  | input :: rest =>
    (s.framePumps input).map (frame, ·) ++ (s.update input).pumpsFrom (frame + 1) rest

/-- What happens to the scripts in a run are its updates. -/
theorem after_beats {s : Scene σ} (hs : s.Tended) (frame : Nat) (inputs : List InputState) :
    Beats σ s.scripts ((s.pumpsFrom frame inputs).map (·.2)) (s.after inputs).scripts ∧
      (s.after inputs).Tended := by
  induction inputs generalizing s frame with
  | nil => exact ⟨.refl, hs⟩
  | cons input rest ih =>
    have hupdated := update_beats hs.linked input
    obtain ⟨hrest, htended⟩ := ih (hs.update input) (frame + 1)
    refine ⟨?_, htended⟩
    have hnumbered : ((s.framePumps input).map (frame, ·)).map (·.2) = s.framePumps input := by
      rw [List.map_map]
      exact List.map_id _
    rw [pumpsFrom, List.map_append, hnumbered]
    exact hupdated.trans hrest

end ActiveBattle.Scene
