import ActiveBattle.Proofs.Action.Source
import ActiveBattle.Proofs.Scene.Step

/-!
# Resolving an action

Whatever a pending action does between two of its states is a chain of effects. A step of it is
effects around one passage (`Passing`), or ends with a pass that starts (`stepAction_treated`).
-/

namespace ActiveBattle.Scene

set_option autoImplicit false

variable {σ : Type}

theorem modifyBattler_posed (s : Scene σ) (id : BattlerId) (f : Battler → Battler)
    (h : ∀ b, Battler.Posed b (f b)) : Effects s (s.modifyBattler id f) :=
  .single (.pose (.modify Battler.Posed.refl _ _ _ fun b _ => h b) rfl)

theorem modifyBattler_struck (s : Scene σ) (hstate : s.state = .battle)
    (hstage : s.actionState = .apply) (id : BattlerId) (f : Battler → Battler)
    (h : ∀ b, s.roster.battler? id = some b → Battler.Struck s.database b (f b)) :
    Effects s (s.modifyBattler id f) :=
  .single (.strike hstate hstage (.modify Battler.Struck.refl _ _ _ h) rfl)

/-- Rolling dice is no more than a quiet step. -/
theorem modifyGame_rolled (s : Scene σ) (g : GameState) (h : GameState.Rolled s.game g) :
    Effects s (s.modifyGame fun _ => g) := by
  refine .quiet ?_
  rw [show g = { s.game with dice := g.dice } from h]
  rfl

theorem setWait_effects (s : Scene σ) (least most : Int) : Effects s (s.setWait least most) :=
  .quiet rfl

theorem announce_effects (s : Scene σ) (a : Action) : Effects s (s.announce a) := by
  dsimp only [announce, showNotification]
  split
  · exact .refl s
  · split <;> exact .quiet rfl

theorem addChangeText_effects (s : Scene σ) (target : BattlerId) (change : Int) :
    Effects s (s.addChangeText target change) :=
  .quiet rfl

theorem applyConditions_effects (s : Scene σ) (hstate : s.state = .battle) (ids : List BattlerId) :
    Effects s (s.applyConditions ids) := by
  refine .foldl_of_course _ ids s ?_
  intro t id hcourse
  split
  · exact .refl t
  · rename_i b hb
    have hhurt : b.HurtByStates (b.applyConditions t.database).2 := by
      unfold Battler.applyConditions
      split
      · exact .refl b
      · exact .inr ⟨_, rfl⟩
    have hchanged : Effects t (t.modifyBattler id fun _ => (b.applyConditions t.database).2) := by
      refine .single (.ache ((congrArg Course.state hcourse).trans hstate)
        (.modify Battler.HurtByStates.refl _ _ _ ?_) rfl)
      intro c hc
      obtain rfl : b = c := Option.some.inj (hb.symm.trans hc)
      exact hhurt
    dsimp only
    split
    · exact hchanged.trans (addChangeText_effects _ _ _)
    · exact hchanged

/-- Effects around one passage of the pending action. -/
def Passing (s t : Scene σ) : Prop := ∃ u v, Effects s u ∧ Passes u v ∧ Effects v t

theorem Passes.course_eq {s t : Scene σ} (h : Passes s t) :
    t.course = { s.course with actionState := t.actionState, comboRepeat := t.comboRepeat } := by
  cases h <;> rfl

namespace Passing

variable {s t u : Scene σ}

theorem of_passes (h : Effects s t) (h' : Passes t u) : Passing s u := ⟨t, u, h, h', .refl u⟩

theorem course_eq (h : Passing s t) :
    t.course = { s.course with actionState := t.actionState, comboRepeat := t.comboRepeat } := by
  obtain ⟨u, v, hbefore, hpasses, hafter⟩ := h
  have hstage : t.actionState = v.actionState := hafter.actionState_eq
  have hcombo : t.comboRepeat = v.comboRepeat := congrArg Course.comboRepeat hafter.course_eq
  rw [hafter.course_eq, hpasses.course_eq, hbefore.course_eq, hstage, hcombo]

theorem chores (h : Passing s t) (hstate : s.state = .battle) (hsub : s.substate = battleAction) :
    Chores s t := by
  obtain ⟨u, v, hbefore, hpasses, hafter⟩ := h
  have hpassed :=
    Chores.single (.pass (hbefore.state_eq.trans hstate) (hbefore.substate_eq.trans hsub) hpasses)
    (congrArg Course.state hpasses.course_eq) (congrArg Course.previousState hpasses.course_eq)
  exact (hbefore.chores.trans hpassed).trans hafter.chores

end Passing

theorem beginAction_passing (s : Scene σ) (a : Action) (hstate : s.state = .battle)
    (hstage : s.actionState = .begin) : Passing s (s.beginAction a) := by
  have hworn : Effects s (s.healStates s.roster.presentIds) := .single (.wear hstate)
  have hbegun {t : Scene σ} (h : Effects s t) : Passing s (t.setActionState .startAlgo) :=
    .of_passes h (.begun (h.actionState_eq.trans hstage))
  dsimp only [beginAction]
  split
  · have hannounced := hworn.trans (announce_effects _ a)
    exact hbegun (hannounced.trans (applyConditions_effects _ (hannounced.state_eq.trans hstate) _))
  · exact hbegun hworn

theorem faceTarget_posed (b : Battler) (target : Point) :
    b.Posed (Formation.faceTarget b target) := by
  unfold Formation.faceTarget
  split <;> rfl

theorem faceOpponent_effects (s : Scene σ) (a : Action) : Effects s (s.faceOpponent a) := by
  unfold faceOpponent
  split
  · split
    · exact modifyBattler_posed s _ _ fun b => faceTarget_posed b _
    · exact .refl s
  · exact .refl s

theorem strikePose_effects (s : Scene σ) (a : Action) : Effects s (s.strikePose a) := by
  apply modifyBattler_posed s _ _
  intro b
  dsimp only
  split <;> rfl

theorem playAnimation_effects (s : Scene σ) (a : Action) (targets : List BattlerId) :
    Effects s (s.playAnimation a targets) := by
  dsimp only [playAnimation]
  split
  · exact .refl s
  · split
    · exact .refl s
    · split <;> exact .quiet rfl

theorem animateAction_passing (s : Scene σ) (a : Action) (hstage : s.actionState = .animation) :
    Passing s (s.animateAction a).1 ∧ a.SamePass (s.animateAction a).2 := by
  have hplayed := playAnimation_effects s a a.targets
  have hsame := a.reflect_samePass (s.playAnimation a a.targets).game
  dsimp only [animateAction]
  generalize a.reflect (s.playAnimation a a.targets).game = reflected at hsame ⊢
  refine ⟨.of_passes hplayed (.shown (.inl (hplayed.actionState_eq.trans hstage)) ?_), hsame⟩
  cases reflected.1 with
  | true => exact .inl rfl
  | false => exact .inr rfl

theorem animateReflection_passing (s : Scene σ) (a : Action)
    (hstage : s.actionState = .animationReflect) :
    Passing s (s.animateReflection a) := by
  have hshown {t : Scene σ} (h : Effects s t) : Passing s (t.setActionState .apply) :=
    .of_passes h (.shown (.inr (h.actionState_eq.trans hstage)) (.inr rfl))
  dsimp only [animateReflection]
  split
  · exact hshown (.refl s)
  · exact hshown (.quiet rfl)

theorem showWound_effects (s : Scene σ) (target : BattlerId) (wasDead : Bool) :
    Effects s (s.showWound target wasDead) := by
  cases target with
  | enemy index =>
    have hblink : Effects s (s.modifyBattler (.enemy index) (·.startBlink)) :=
      modifyBattler_posed s _ _ fun _ => rfl
    dsimp only [showWound]
    split
    · have hsound :
          Effects s ((s.modifyBattler (.enemy index) (·.startBlink)).playSystem .enemyKill) :=
        hblink.trans (.quiet rfl)
      exact hsound.trans (modifyBattler_posed _ _ (·.startDeathFade) fun _ => rfl)
    · exact hblink
  | actor id => exact modifyBattler_posed s _ _ fun _ => rfl

theorem showMiss_effects (s : Scene σ) (target : BattlerId) (sounds : List SoundEffect) :
    Effects s (s.showMiss target sounds).1 :=
  .quiet rfl

theorem playAll_effects (s : Scene σ) (sounds : List SoundEffect) :
    Effects s (sounds.foldl (fun s se => s.play se) s) :=
  .foldl (fun s se => s.play se) (fun _ _ => .quiet rfl) sounds s

/-- After a pass there is another one while hits of the action or rounds of a combo are left. -/
theorem afterPass_passes (s : Scene σ) (a a' : Action) (hstage : s.actionState = .apply)
    (hpending : s.pending = some a) (hsame : a.SamePass a') :
    Passes s (s.afterPass a').1 ∧ a.Continues (s.afterPass a').2 := by
  obtain ⟨hleft, hsource, hrepeats, hdone⟩ := a'.nextRepeat_eq
  have hcontinues : a.Continues a'.nextRepeat.2 := by
    refine ⟨hsource.trans hsame.source, hrepeats.trans hsame.repeats, ?_⟩
    rw [hdone, hsame.repeatsDone]
    omega
  have hcomboSource : a'.nextRepeat.2.source = a.source := hcontinues.source
  rw [hsame.repeatsDone, hsame.repeats] at hleft
  unfold afterPass
  generalize a'.nextRepeat = next at hleft hcontinues hcomboSource
  obtain ⟨_ | _, b⟩ := next
  · dsimp only at hcomboSource ⊢
    split
    · rename_i hcombo
      rw [hcomboSource] at hcombo
      exact ⟨.combo a hpending hstage hcombo, hcontinues⟩
    · exact ⟨.passed hstage, hcontinues⟩
  · exact ⟨.again a hpending hstage (hleft.mp rfl), hcontinues⟩

theorem finishAction_passing (s : Scene σ) (a : Action) (hstage : s.actionState = .finished) :
    Passing s (s.finishAction a) := by
  refine ⟨s.setWait 30 30, { s.setWait 30 30 with comboRepeat := 1 }, .quiet rfl,
    .finished hstage, .quiet ?_⟩
  unfold finishAction Action.setSwitches
  dsimp only [modifyGame, modifyWorld, World.modifyGame]
  split
  · split <;> rfl
  · rfl

theorem startGame_effects (s : Scene σ) (a : Action) :
    Effects s (s.modifyGame fun _ => (a.start s.game).2) := by
  obtain ⟨-, -, hrolled⟩ := { a with current := 0, outcome := {} }.aim_rolled s.game
  refine .trans (modifyGame_rolled s _ hrolled) ?_
  generalize haimed : { a with current := 0, outcome := {} }.aim s.game = aimed at hrolled
  have hpaid : s.modifyGame (fun _ => (a.start s.game).2) =
      (s.modifyGame fun _ => aimed.2).modifyGame fun _ => aimed.1.payCost aimed.2 := by
    unfold Action.start
    rw [haimed]
    rfl
  rw [hpaid]
  rcases aimed.1.payCost_cases aimed.2 with hcost | ⟨cost, hcost⟩ | ⟨item, hcost⟩
  · rw [hcost]
    exact .quiet rfl
  · rw [hcost]
    exact .single (.pay (.modify Battler.Paid.refl _ aimed.1.source _ fun b _ => .inr ⟨_, rfl⟩) rfl)
  · rw [hcost]
    exact .single (.consume (s := s.modifyGame fun _ => aimed.2) item)

theorem applyGame_effects (s : Scene σ) (a : Action) (hstate : s.state = .battle)
    (hstage : s.actionState = .apply) :
    Effects s (s.modifyGame fun _ => ((a.execute s.game).1.apply (a.execute s.game).2).2) := by
  obtain ⟨-, hrolled⟩ := a.execute_rolled s.game
  generalize (a.execute s.game).1 = a'
  generalize (a.execute s.game).2 = g at hrolled
  refine .trans (modifyGame_rolled s g hrolled) ?_
  rcases a'.apply_cases g with happlied | ⟨id, f, hf, happlied⟩
  · rw [happlied]
    exact .quiet rfl
  · rw [happlied]
    exact modifyBattler_struck (s.modifyGame fun _ => g) hstate hstage id f hf

variable [AssetLoader σ]

theorem fire_ran (s : Scene σ) (kind : HookKind) (battler : BattlerId) (a b c d : Int) :
    Ran s (s.fire kind battler a b c d) := by
  obtain ⟨hgame, hkept⟩ := s.director.trigger_follows s.store kind
    #v[battler.codes.1, battler.codes.2, a, b, c, d] s.world
  refine .of_runners_eq hgame hkept rfl rfl fun P hs => ?_
  have hbound := BattleScript.trigger_bound hs.events kind
    #v[battler.codes.1, battler.codes.2, a, b, c, d] s.director.script s.world hs.director.script
  exact ⟨⟨hs.events, hs.pages, ⟨hs.director.interp, hbound.within⟩, hs.runners⟩, hbound⟩

theorem fire_effects (s : Scene σ) (kind : HookKind) (battler : BattlerId) (a b c d : Int) :
    Effects s (s.fire kind battler a b c d) :=
  .single (.hook (s.fire_ran kind battler a b c d) rfl)

/-- A pass starts with the note about it. -/
theorem startAction_effects (s : Scene σ) (a : Action) : ∃ u, Effects s u ∧
    s.startAction a = ((u.note (.actionStarted (a.start s.game).1.source (a.start s.game).1.kind
      u.comboRepeat)).setActionState .animation, (a.start s.game).1) := by
  have hstarted := s.startGame_effects a
  unfold startAction
  dsimp only
  generalize (a.start s.game).2 = g at hstarted
  generalize (a.start s.game).1 = a'
  have haimed : Effects s (if a.isTargetingParty s.database then s.modifyGame fun _ => g
      else (s.modifyGame fun _ => g).faceOpponent a') := by
    split
    · exact hstarted
    · exact hstarted.trans (faceOpponent_effects _ a')
  exact ⟨_, (haimed.trans (strikePose_effects _ a')).trans (fire_effects _ _ _ _ _ _ _), rfl⟩

theorem showSuccess_effects (s : Scene σ) (a : Action) (target : BattlerId)
    (sounds : List SoundEffect) : Effects s (s.showSuccess a target sounds).1 := by
  dsimp only [showSuccess]
  have hflashed : Effects s
      (if a.isCriticalHit then s.modifyStatus (·.flashOnce criticalFlash) else s) := by
    split
    · exact .quiet rfl
    · exact .refl s
  generalize (if a.isCriticalHit then s.modifyStatus (·.flashOnce criticalFlash) else s) =
    s' at hflashed
  split
  · refine .trans ?_ (fire_effects _ _ _ _ _ _ _)
    split
    · exact hflashed.trans (addChangeText_effects _ _ _)
    · exact hflashed
  · exact hflashed

theorem applyToTarget_effects (s : Scene σ) (a : Action) (target : BattlerId)
    (sounds : List SoundEffect) (hstate : s.state = .battle) (hstage : s.actionState = .apply) :
    Effects s (s.applyToTarget a target sounds).1 ∧
      a.SamePass (s.applyToTarget a target sounds).2.1 := by
  refine ⟨?_, (a.execute_rolled s.game).1⟩
  have happlied := s.applyGame_effects a hstate hstage
  dsimp only [applyToTarget]
  generalize (a.execute s.game).1 = a' at happlied ⊢
  generalize a'.apply (a.execute s.game).2 = applied at happlied ⊢
  refine .trans ?_ (.foldl _ (fun s _ => fire_effects s _ _ _ _ _ _) _ _)
  generalize (s.roster.battler? target).any (·.isDead) = wasDead
  have hwounded : Effects s
      (if a'.isSuccess && decide (a'.affectedHp < 0) then
        (s.modifyGame fun _ => applied.2).showWound target wasDead
      else s.modifyGame fun _ => applied.2) := by
    split
    · exact happlied.trans (showWound_effects _ _ _)
    · exact happlied
  split
  · exact hwounded.trans (showSuccess_effects _ _ _ _)
  · exact hwounded.trans (showMiss_effects _ _ _)

theorem applyToTargets_effects (s : Scene σ) (a : Action) (sounds : List SoundEffect) (left : Nat)
    (hstate : s.state = .battle) (hstage : s.actionState = .apply) :
    Effects s (s.applyToTargets a sounds left).1 ∧
      a.SamePass (s.applyToTargets a sounds left).2.1 := by
  induction left generalizing s a sounds with
  | zero => exact ⟨.refl s, .refl a⟩
  | succ left ih =>
    unfold applyToTargets
    cases a.target? with
    | none => exact ⟨.refl s, .refl a⟩
    | some target =>
      obtain ⟨heffects, hsame⟩ := s.applyToTarget_effects a target sounds hstate hstage
      dsimp only
      generalize s.applyToTarget a target sounds = applied at heffects hsame ⊢
      have hnext := applied.2.1.nextTarget_samePass
      split
      · rename_i a' hgoes
        rw [hgoes] at hnext
        obtain ⟨hrest, hrestSame⟩ := ih applied.1 a' applied.2.2 (heffects.state_eq.trans hstate)
          (heffects.actionState_eq.trans hstage)
        exact ⟨heffects.trans hrest, (hsame.trans hnext).trans hrestSame⟩
      · rename_i a' hgoes
        rw [hgoes] at hnext
        exact ⟨heffects, hsame.trans hnext⟩

theorem applyAction_passing (s : Scene σ) (a : Action) (hstate : s.state = .battle)
    (hstage : s.actionState = .apply) (hpending : s.pending = some a) :
    Passing s (s.applyAction a).1 ∧ a.Continues (s.applyAction a).2 := by
  unfold applyAction
  split
  · obtain ⟨heffects, hsame⟩ := s.applyToTargets_effects a [] a.targets.length hstate hstage
    dsimp only
    generalize s.applyToTargets a [] a.targets.length = applied at heffects hsame ⊢
    have happlied :=
      (heffects.trans (playAll_effects _ applied.2.2)).trans (setWait_effects _ 30 30)
    obtain ⟨hpasses, hcontinues⟩ := afterPass_passes _ a applied.2.1
      (happlied.actionState_eq.trans hstage) (happlied.pending_eq.trans hpending) hsame
    exact ⟨.of_passes happlied hpasses, hcontinues⟩
  · exact ⟨.of_passes (.refl s) (.passed hstage), (Action.SamePass.refl a).continues⟩

/-- What one step makes of the pending action and the scene: nothing yet, a passage, or a pass that
starts. -/
inductive Treated (s : Scene σ) (a : Action) : ActionPace → Scene σ → Action → Prop
  | waits (pace : ActionPace) : Treated s a pace s a
  | passes {pace : ActionPace} {t : Scene σ} {a' : Action} (h : Passing s t)
    (hcontinues : a.Continues a') :
      Treated s a pace t a'
  | launches {u : Scene σ} {a' : Action} (h : Effects s u) (hstage : s.actionState = .startAlgo)
      (hsame : a.SamePass a') :
      Treated s a .sameFrame
        ((u.note (.actionStarted a'.source a'.kind u.comboRepeat)).setActionState .animation) a'

theorem stepAction_treated (s : Scene σ) (a : Action) (hstate : s.state = .battle)
    (hpending : s.pending = some a) :
    Treated s a (s.stepAction a).1 (s.stepAction a).2.1 (s.stepAction a).2.2 := by
  have hkept := (Action.SamePass.refl a).continues
  unfold stepAction
  split
  · exact .waits .finished
  · split
    · exact .waits .nextFrame
    · split
      · rename_i hstage
        exact .passes (s.beginAction_passing a hstate hstage) hkept
      · rename_i hstage
        obtain ⟨u, heffects, hstarted⟩ := s.startAction_effects a
        rw [hstarted]
        exact .launches heffects hstage (a.start_samePass s.game)
      · rename_i hstage
        obtain ⟨hpassing, hsame⟩ := s.animateAction_passing a hstage
        exact .passes hpassing hsame.continues
      · rename_i hstage
        exact .passes (s.animateReflection_passing a hstage) hkept
      · rename_i hstage
        obtain ⟨hpassing, hcontinues⟩ := s.applyAction_passing a hstate hstage hpending
        exact .passes hpassing hcontinues
      · rename_i hstage
        exact .passes (s.finishAction_passing a hstage) hkept

end ActiveBattle.Scene
