import ActiveBattle.Proofs.Scene.Turning

/-!
# The frame before the outer states

A frame waits for the asset that is asked for, advances what is shown, runs scripts, and then asks
one thing after the other that can change the course of the battle: whether a script flees, whether
the main script ends the battle, whether a countdown does, whether a side is wiped out, and who acts
on its own. Up to the first of these questions, and between them, there is background alone.
-/

namespace ActiveBattle.Scene

set_option autoImplicit false

variable {σ : Type}

theorem modifyParty_posed (r : Roster) (f : Battler → Battler) (h : ∀ b, Battler.Posed b (f b)) :
    r.Differs Battler.Posed (r.modifyParty f) := by
  refine ⟨⟨forall₂_map _ _ ?_, List.forall₂_same.mpr fun b _ => .refl b, rfl⟩, rfl⟩
  intro b _
  split
  · exact h b
  · exact .refl b

theorem updateTimers_posed (b : Battler) : Battler.Posed b b.updateTimers := by
  unfold Battler.updateTimers
  dsimp only
  split <;> rfl

theorem modifyRoster_const (s : Scene σ) (f : Roster → Roster) :
    s.modifyRoster (fun _ => f s.roster) = s.modifyRoster f := rfl

theorem updateBattlers_backgrounds (s : Scene σ) : Backgrounds s s.updateBattlers := by
  have henemies (r : Roster) :
      r.Differs Battler.Posed { r with enemies := r.enemies.map (·.updateTimers) } :=
    ⟨⟨List.forall₂_same.mpr fun b _ => .refl b,
      forall₂_map _ _ fun b _ => updateTimers_posed b, rfl⟩, rfl⟩
  exact .single (.pose (.trans Battler.Posed.trans
    (modifyParty_posed s.roster (·.updateTimers) updateTimers_posed) (henemies _)) rfl)

theorem updateFloatTexts_backgrounds (s : Scene σ) : Backgrounds s s.updateFloatTexts := .quiet rfl

theorem updateRunningAway_backgrounds (s : Scene σ) : Backgrounds s s.updateRunningAway := by
  unfold updateRunningAway
  split
  · exact .single (.pose (modifyParty_posed _ _ fun _ => rfl) rfl)
  · exact .refl s

theorem updateUi_backgrounds (s : Scene σ) (input : InputState) :
    Backgrounds s (s.updateUi input) := by
  dsimp only [updateUi, updateMessage, updateCursor]
  split
  · split <;> exact .quiet rfl
  · split
    · exact .quiet rfl
    · split
      · exact .quiet rfl
      · split <;> exact .quiet rfl

theorem mark_backgrounds (s : Scene σ) (step : FrameStep) : Backgrounds s (s.mark step) :=
  .quiet rfl

theorem updatePresentation_backgrounds (s : Scene σ) (input : InputState) :
    Backgrounds s (s.updatePresentation input) := by
  have hscreen : Backgrounds s ((s.mark .screen).modifyStatus (·.update)) := .quiet rfl
  have hbattlers :=
    hscreen.trans ((mark_backgrounds _ .battlers).trans (updateBattlers_backgrounds _))
  have htexts :=
    hbattlers.trans ((mark_backgrounds _ .floatText).trans (updateFloatTexts_backgrounds _))
  have hflight :=
    htexts.trans ((mark_backgrounds _ .runningAway).trans (updateRunningAway_backgrounds _))
  exact hflight.trans ((mark_backgrounds _ .ui).trans (updateUi_backgrounds _ input))

theorem checkForceFlee_interludes (s : Scene σ) : Interludes s s.checkForceFlee := by
  unfold checkForceFlee
  split
  · rename_i h
    exact .single (.flee h.1 h.2)
  · exact .refl s

theorem showNotices_backgrounds (s : Scene σ) : Backgrounds s s.showNotices := by
  have hcleared : Backgrounds s (s.modifyStatus ({ · with notices := [] })) := .quiet rfl
  unfold showNotices
  refine hcleared.trans (.foldl _ (fun s n => ?_) _ _)
  exact .quiet rfl

theorem updateTimers_backgrounds (s : Scene σ) : Backgrounds s s.updateTimers.2 := .single .tick

theorem checkBattleEnd_interludes (s : Scene σ) : Interludes s s.checkBattleEnd.2 := by
  cases hopen : s.state.isDecided with
  | false =>
    rcases s.checkBattleEnd_cases hopen with h | h
    · rw [h]
      exact .refl s
    · exact .single (.decided h)
  | true =>
    unfold checkBattleEnd
    by_cases hdefeat : s.state = .defeat
    · simp only [hdefeat, decide_true, Bool.true_or, if_true]
      exact .refl s
    · have hvictory : s.state = .victory := by
        cases hstate : s.state <;> simp_all [SceneState.isDecided]
      simp only [hvictory, reduceCtorEq, decide_false, decide_true, Bool.false_or, Bool.true_or,
        if_false, if_true]
      split
      · rename_i hparty
        exact .single (.overturn hvictory hparty)
      · exact .refl s

/-- To choose is to roll the dice and queue an action. -/
theorem enqueueChoice_eq (s : Scene σ) (chooser : Chooser) (id : BattlerId) :
    ∃ a dice, a.Fresh id ∧ s.enqueueChoice chooser id =
      (s.modifyGame ({ · with dice := dice })).enqueue a := by
  obtain ⟨hfresh, hrolled⟩ := chooser.chooseFor_fresh id s.game
  dsimp only [enqueueChoice]
  generalize chooser.chooseFor id s.game = choice at hfresh hrolled ⊢
  obtain ⟨a, g⟩ := choice
  have hgame : s.modifyGame (fun _ => g) = s.modifyGame ({ · with dice := g.dice }) := by
    rw [show g = { s.game with dice := g.dice } from hrolled]
    rfl
  exact ⟨a, g.dice, hfresh, congrArg (·.enqueue a) hgame⟩

/-- A choice queued for a battler that is ready and left to itself. -/
theorem enqueueChoice_interludes (s : Scene σ) (chooser : Chooser) (id : BattlerId)
    (hready : s.isIdleAndFull id = true) (hleft : id.isAlly = true →
      s.isControllable id = false ∨ s.state = .autoBattle ∨ s.state = .selectActor) :
    Interludes s (s.enqueueChoice chooser id) := by
  obtain ⟨a, dice, hfresh, heq⟩ := s.enqueueChoice_eq chooser id
  obtain rfl := hfresh.source
  have hrolled : Backgrounds s (s.modifyGame ({ · with dice := dice })) := .quiet rfl
  rw [heq]
  exact hrolled.interludes.trans (.single (.choose a hready hleft hfresh))

/-- Queueing a choice opens no window but that of the actors. -/
theorem enqueueChoice_state (s : Scene σ) (chooser : Chooser) (id : BattlerId) :
    (s.enqueueChoice chooser id).state = s.state ∨
      (s.enqueueChoice chooser id).state = .selectActor := by
  dsimp only [enqueueChoice, enqueue]
  split
  · exact .inl rfl
  · split
    · exact .inr rfl
    · exact .inl rfl

theorem createEnemyActions_interludes (s : Scene σ) : Interludes s s.createEnemyActions := by
  have ally_of_mem (id : BattlerId) (h : id ∈ s.roster.enemyIds) : id.isAlly = false := by
    obtain ⟨index, -, rfl⟩ := List.mem_map.mp h
    rfl
  unfold createEnemyActions
  generalize s.roster.enemyIds = ids at ally_of_mem
  induction ids generalizing s with
  | nil => exact .refl s
  | cons id rest ih =>
    have hid := ally_of_mem id List.mem_cons_self
    have hrest := fun id h => ally_of_mem id (List.mem_cons_of_mem _ h)
    rw [List.foldl_cons]
    refine .trans ?_ (ih _ hrest)
    split
    · rename_i hready
      exact s.enqueueChoice_interludes _ id hready fun h => absurd h (by simp [hid])
    · exact .refl s

theorem createAutoActions_interludes (s : Scene σ) : Interludes s s.createAutoActions := by
  unfold createAutoActions
  dsimp only
  generalize hauto : decide (s.state = .autoBattle) = autoBattle
  have hstate : autoBattle = true → s.state = .autoBattle ∨ s.state = .selectActor := by
    rintro rfl
    exact .inl (of_decide_eq_true hauto)
  clear hauto
  generalize s.roster.partyIds = ids
  induction ids generalizing s with
  | nil => exact .refl s
  | cons id rest ih =>
    rw [List.foldl_cons]
    split
    · rename_i h
      obtain ⟨hready, hleft⟩ := Bool.and_eq_true_iff.mp h
      refine .trans (s.enqueueChoice_interludes _ id hready ?_) (ih _ ?_)
      · intro _
        cases hcontrolled : s.isControllable id
        · exact .inl rfl
        · rw [hcontrolled] at hleft
          exact .inr (hstate (by simpa using hleft))
      · intro hon
        rcases s.enqueueChoice_state s.autoChooser id with h | h
        · rw [h]
          exact hstate hon
        · exact .inr h
    · exact ih s hstate

/-- Background, after which the battle may have ended. -/
def Concludes (s t : Scene σ) : Prop :=
  ∃ u, Backgrounds s u ∧ (t = u ∨ ∃ result, u.Halts result ∧ t = u.endBattle result)

namespace Concludes

variable {s t u : Scene σ}

theorem of_backgrounds (h : Backgrounds s t) : Concludes s t := ⟨t, h, .inl rfl⟩

theorem after (h : Backgrounds s t) (h' : Concludes t u) : Concludes s u := by
  obtain ⟨v, hv, hend⟩ := h'
  exact ⟨v, h.trans hv, hend⟩

theorem interludes (h : Concludes s t) : Interludes s t := by
  obtain ⟨u, hu, rfl | ⟨result, hhalts, rfl⟩⟩ := h
  · exact hu.interludes
  · exact hu.interludes.trans (.single (.finish result hhalts))

end Concludes

/-- A script asks for an asset. -/
theorem ask_backgrounds (s : Scene σ) (request : AssetRequest) {k : Continuation}
    (hk : k ≠ .finishStart) :
    Backgrounds s { s with pendingAsset := some ⟨request, k⟩ } := by
  refine .await rfl fun hplaced => ?_
  simp only [isPlaced, Bool.and_eq_true] at hplaced ⊢
  simp [hplaced.1, hk]

/-- Everyone is placed while the backdrop is still noted as asked for; only then is it there. -/
theorem place_backgrounds (s : Scene σ) (hplaced : s.isPlaced = false) :
    Backgrounds s ({ s with pendingAsset := none } : Scene σ).finishStart := by
  have hhere : Backgrounds s.finishStart ({ s with pendingAsset := none } : Scene σ).finishStart :=
    .await rfl fun h => absurd (hplaced.symm.trans h) Bool.false_ne_true
  exact (Backgrounds.single (.placed hplaced)).trans hhere

theorem checkDirector_concludes (s : Scene σ) : Concludes s s.checkDirector.2 := by
  unfold checkDirector
  split
  · exact .of_backgrounds (.refl s)
  · rename_i result hop
    exact ⟨s, .refl s, .inr ⟨result, .inr hop, rfl⟩⟩
  · exact .of_backgrounds (s.ask_backgrounds _ (by simp))

/-- The main script lets the frame go on when it is not suspended. -/
theorem checkDirector_of_true {s t : Scene σ} (h : s.checkDirector = (true, t)) :
    t = s ∧ s.director.interp.asyncOp = .none := by
  unfold checkDirector at h
  split at h
  · rename_i hop
    exact ⟨(congrArg Prod.snd h).symm, hop⟩
  · simp at h
  · simp at h

/-- Asks the main script and the countdowns whether the battle ends, and the player for the debug
menu; tells whether the frame goes on. -/
def checkEnds (s : Scene σ) (input : InputState) : Bool × Scene σ :=
  match s.checkDirector with
  | (false, s) => (false, s)
  | (true, s) =>
    match (s.showNotices.mark .timers).updateTimers with
    | (true, s) => (false, s.endBattle .abort)
    | (false, s) =>
      let s := s.mark .debugMenu
      if s.wantsDebugMenu input then (false, { s with resumeFromDebug := true }) else (true, s)

theorem checkEnds_concludes (s : Scene σ) (input : InputState) :
    Concludes s (s.checkEnds input).2 := by
  have hchecked := s.checkDirector_concludes
  unfold checkEnds
  split
  · rename_i t ht
    rw [ht] at hchecked
    exact hchecked
  · rename_i t ht
    obtain rfl := (checkDirector_of_true ht).1
    have hnoticed := t.showNotices_backgrounds.trans (mark_backgrounds _ .timers)
    have hticked := hnoticed.trans (updateTimers_backgrounds _)
    split
    · rename_i u hu
      rw [hu] at hticked
      exact ⟨u, hticked, .inr ⟨.abort, .inl rfl, rfl⟩⟩
    · rename_i u hu
      rw [hu] at hticked
      have hmarked := hticked.trans (u.mark_backgrounds .debugMenu)
      dsimp only
      split
      · exact .of_backgrounds (hmarked.trans (.quiet rfl))
      · exact .of_backgrounds hmarked

/-- Up to the last question nothing but background has happened, if the frame goes on. -/
theorem checkEnds_of_true {s t : Scene σ} {input : InputState} (h : s.checkEnds input = (true, t)) :
    Backgrounds s t := by
  unfold checkEnds at h
  split at h
  · simp at h
  · rename_i u hu
    obtain rfl := (checkDirector_of_true hu).1
    have hticked := (u.showNotices_backgrounds.trans (mark_backgrounds _ .timers)).trans
      (updateTimers_backgrounds _)
    split at h
    · simp at h
    · rename_i v hv
      rw [hv] at hticked
      dsimp only at h
      split at h
      · simp at h
      · obtain rfl := (Prod.mk.inj h).2
        exact hticked.trans (v.mark_backgrounds .debugMenu)

theorem startForeground_ran (s : Scene σ) : Ran s s.startForeground := by
  unfold startForeground
  split
  · exact .refl s
  · split
    · rename_i runner _
      obtain ⟨hscript, hledger⟩ := s.director.startEvent_kept s.store runner.id
      refine .of_runners_eq (.refl _) ?_ hledger rfl fun P hs => ?_
      · rw [show (s.modifyDirector fun d => (d.startEvent s.store runner.id).2).director.script =
          s.director.script from hscript]
        exact .refl _
      · have hstarted := Director.startEvent_within hs.events hs.director runner.id
        refine ⟨⟨hs.events, hs.pages, hstarted, hs.runners⟩, ?_⟩
        exact .of_eq hstarted.script rfl (congrArg BattleScript.forceFlee hscript)
    · exact .refl s

theorem startForeground_backgrounds (s : Scene σ) : Backgrounds s s.startForeground := by
  refine .single (.script s.startForeground_ran ?_)
  unfold startForeground
  split
  · rfl
  · split <;> rfl

variable [AssetLoader σ]

theorem updateHooks_backgrounds (s : Scene σ) : Backgrounds s s.updateHooks := by
  obtain ⟨hgame, hkept⟩ := s.director.continueHooks_follows s.store s.world
  refine .single (.script (.of_runners_eq hgame hkept rfl rfl fun P hs => ?_) rfl)
  have hbound := BattleScript.continueHooks_bound hs.events s.world hs.director.script
  exact ⟨⟨hs.events, hs.pages, ⟨hs.director.interp, hbound.within⟩, hs.runners⟩, hbound⟩

theorem updateDirector_backgrounds (s : Scene σ) (allowSuspend : Bool) :
    Backgrounds s (s.updateDirector allowSuspend) := by
  obtain ⟨hgame, hkept⟩ := s.director.update_follows s.store allowSuspend s.world
  refine .single (.script (.of_runners_eq hgame hkept rfl rfl fun P hs => ?_) rfl)
  obtain ⟨hwithin, hbound⟩ := Director.update_bound hs.events hs.director allowSuspend s.world
  exact ⟨⟨hs.events, hs.pages, hwithin, hs.runners⟩, hbound⟩

/-- The scene after an update of a parallel event. -/
def updateRunner (s : Scene σ) (runner : EventRunner) (index : Nat) (resume : Bool) : Scene σ :=
  let u := runner.update sceneCommands s.store resume s.director.script s.world
  { s with
    world := u.world
    director := { s.director with script := u.table }
    runners := s.runners.set index u.runner }

theorem updateRunner_backgrounds (s : Scene σ) {runner : EventRunner} {index : Nat}
    (hrunner : s.runners[index]? = some runner) (resume : Bool) :
    Backgrounds s (s.updateRunner runner index resume) := by
  obtain ⟨hgame, hkept, hupdated⟩ := runner.update_follows s.store resume s.director.script s.world
  have hrunners : List.Forall₂ EventRunner.Kept s.runners
      (s.updateRunner runner index resume).runners := by
    dsimp only [updateRunner]
    rw [List.set_eq_modify]
    refine forall₂_modify EventRunner.Kept.refl s.runners index _ fun r hr => ?_
    obtain rfl : runner = r := Option.some.inj (hrunner.symm.trans hr)
    exact hupdated
  refine .single (.script ⟨hgame, hkept, rfl, hrunners, fun P hs => ?_⟩ rfl)
  obtain ⟨hwithin, hbound⟩ := EventRunner.update_bound hs.events
    (hs.runners runner (List.mem_of_getElem? hrunner)) hs.director.script resume s.world
  refine ⟨⟨hs.events, hs.pages, ⟨hs.director.interp, hbound.within⟩, ?_⟩, hbound⟩
  intro r hr
  rcases List.mem_or_eq_of_mem_set hr with hr | rfl
  · exact hs.runners r hr
  · exact hwithin

theorem updateRunnersFrom_backgrounds (s : Scene σ) (index left : Nat) :
    Backgrounds s (s.updateRunnersFrom index left).2 := by
  induction left generalizing s index with
  | zero => exact .refl s
  | succ left ih =>
    unfold updateRunnersFrom
    split
    · exact .refl s
    · rename_i runner hrunner
      have hran := s.updateRunner_backgrounds hrunner false
      dsimp only
      split
      · exact hran.trans (ask_backgrounds _ _ (by simp))
      · exact hran.trans (ih _ _)

/-- Runs every script of a frame; tells whether none of the parallel events asks for an asset. -/
def runScripts (s : Scene σ) : Bool × Scene σ :=
  let s := s.updateHooks.startForeground.updateDirector true
  s.updateRunnersFrom 0 s.runners.length

theorem runScripts_backgrounds (s : Scene σ) : Backgrounds s s.runScripts.2 := by
  have hmain := (s.updateHooks_backgrounds.trans (startForeground_backgrounds _)).trans
    (updateDirector_backgrounds _ true)
  exact hmain.trans (updateRunnersFrom_backgrounds _ 0 _)

theorem fillGauges_backgrounds (s : Scene σ) : Backgrounds s s.fillGauges := by
  have hroster := s.modifyRoster_const fun r =>
    (r.updateGauges s.database s.config.maxAtbGauge s.config.atbFillFrames).2
  beta_reduce at hroster
  unfold fillGauges
  dsimp only
  rw [hroster]
  exact .trans (.single .fill)
    (.foldl _ (fun s gain => .single (.script (s.fire_ran _ _ _ _ _ _) rfl)) _ _)

theorem updateAtb_interludes (s : Scene σ) : Interludes s s.updateAtb := by
  unfold updateAtb
  split
  · exact .refl s
  · have hfilled : Interludes s (if s.isAccumulating then s.fillGauges else s) := by
      split
      · exact s.fillGauges_backgrounds.interludes
      · exact .refl s
    exact (hfilled.trans (createEnemyActions_interludes _)).trans (createAutoActions_interludes _)

theorem updateCourse_backgrounds (s : Scene σ) :
    Backgrounds ((s.mark .endCheck).checkBattleEnd.2.mark .atb).updateAtb s.updateCourse := by
  unfold updateCourse
  dsimp only
  generalize ((s.mark .endCheck).checkBattleEnd.2.mark .atb).updateAtb = t
  exact (t.mark_backgrounds .cursors).trans (.quiet rfl)

theorem updateCourse_interludes (s : Scene σ) : Interludes s s.updateCourse := by
  have hended := (s.mark_backgrounds .endCheck).interludes.trans (checkBattleEnd_interludes _)
  have hfilled := (hended.trans (mark_backgrounds _ .atb).interludes).trans (updateAtb_interludes _)
  exact hfilled.trans s.updateCourse_backgrounds.interludes

theorem updateBattle_eq (s : Scene σ) (input : InputState) : s.updateBattle input =
    if s.resumeFromDebug then (true, { s with resumeFromDebug := false }.mark .debugResume)
    else
      match ((s.updatePresentation input).mark .events).runScripts with
      | (false, s) => (false, s)
      | (true, s) =>
        match s.checkForceFlee.checkEnds input with
        | (false, s) => (false, s)
        | (true, s) => (true, s.updateCourse) := by
  unfold updateBattle updateEvents runScripts checkEnds
  split
  · rfl
  · dsimp only
    generalize updateRunnersFrom (σ := σ) _ _ _ = ran
    obtain ⟨_ | _, t⟩ := ran
    · rfl
    · dsimp only
      generalize t.checkForceFlee.checkDirector = checked
      obtain ⟨_ | _, u⟩ := checked
      · rfl
      · dsimp only
        generalize (u.showNotices.mark .timers).updateTimers = ticked
        obtain ⟨_ | _, v⟩ := ticked
        · dsimp only
          split <;> rfl
        · rfl

theorem updateBattle_interludes (s : Scene σ) (input : InputState) :
    Interludes s (s.updateBattle input).2 := by
  rw [updateBattle_eq]
  split
  · exact Backgrounds.interludes (.quiet rfl)
  · have hshown := (s.updatePresentation_backgrounds input).trans (mark_backgrounds _ .events)
    have hran := hshown.trans (runScripts_backgrounds _)
    split
    · rename_i t ht
      rw [ht] at hran
      exact hran.interludes
    · rename_i t ht
      rw [ht] at hran
      have hchecked := (hran.interludes.trans t.checkForceFlee_interludes).trans
        (checkEnds_concludes _ input).interludes
      split
      · rename_i u hu
        rw [hu] at hchecked
        exact hchecked
      · rename_i u hu
        rw [hu] at hchecked
        exact hchecked.trans u.updateCourse_interludes

/-- A script goes on. -/
theorem resume_concludes (s : Scene σ) {continuation : Continuation}
    (hscript : continuation ≠ .finishStart) :
    Concludes s (s.resume continuation) := by
  cases continuation with
  | finishStart => contradiction
  | resumeDirector => exact .after (s.updateDirector_backgrounds false) (checkDirector_concludes _)
  | resumeEvent index =>
    unfold resume
    dsimp only
    split
    · exact .of_backgrounds (.refl s)
    · rename_i runner hrunner
      have hran := s.updateRunner_backgrounds hrunner true
      split
      · exact .of_backgrounds (hran.trans (ask_backgrounds _ _ (by simp)))
      · exact .of_backgrounds hran

theorem requestBackdrop_backgrounds (s : Scene σ) : Backgrounds s s.requestBackdrop := by
  unfold requestBackdrop
  split
  · exact .refl s
  · rename_i hfirst
    have hopened := Backgrounds.single (.opened (s := s) s.backdropName)
    refine hopened.trans (.await rfl fun hplaced => ?_)
    simp only [isPlaced, Bool.and_eq_true] at hplaced
    exact absurd hplaced.1 hfirst

theorem awaitAsset_concludes (s : Scene σ) : Concludes s s.awaitAsset.2 := by
  unfold awaitAsset
  split
  · exact .of_backgrounds (.refl s)
  · rename_i p hpending
    dsimp only
    split
    · by_cases hbackdrop : p.continuation = .finishStart
      · have hpolled :
            Backgrounds s (({ s with world := (s.world.isReady p.request).2 } : Scene σ).mark
            .assetContinuation) := .quiet rfl
        rw [hbackdrop]
        refine .of_backgrounds (hpolled.trans (place_backgrounds _ ?_))
        change s.isPlaced = false
        simp [isPlaced, hpending, hbackdrop]
      · have hfound : Backgrounds s (({ s with
            world := (s.world.isReady p.request).2
            pendingAsset := none } : Scene σ).mark .assetContinuation) := by
          refine .await rfl fun hplaced => ?_
          simp only [isPlaced, Bool.and_eq_true] at hplaced ⊢
          exact ⟨hplaced.1, rfl⟩
        exact .after hfound (resume_concludes _ hbackdrop)
    · exact .of_backgrounds (.quiet rfl)

/-- A frame begins, unless the battle is over, and waits for the asset that is asked for; tells
whether it goes on. -/
def enter (s : Scene σ) : Bool × Scene σ :=
  let s := { s with steps := [], inputConsumed := false }
  if s.result.isSome then (false, s) else { s with frame := s.frame + 1 }.requestBackdrop.awaitAsset

theorem enter_concludes (s : Scene σ) : Concludes s s.enter.2 := by
  unfold enter
  dsimp only
  split
  · exact .of_backgrounds (.quiet rfl)
  · have hcounted :
        Backgrounds s { s with steps := [], inputConsumed := false, frame := s.frame + 1 } :=
      .quiet rfl
    exact .after (hcounted.trans (requestBackdrop_backgrounds _)) (awaitAsset_concludes _)

/-- A frame goes on only in a battle that is not over. -/
theorem enter_of_true {s t : Scene σ} (h : s.enter = (true, t)) : t.result = none := by
  unfold enter at h
  dsimp only at h
  split at h
  · simp at h
  · rename_i hopen
    have hresult : ({ s with steps := [], inputConsumed := false, frame := s.frame + 1 } : Scene
        σ).result = none :=
      Option.not_isSome_iff_eq_none.mp hopen
    have hrequested := congrArg Course.result (requestBackdrop_backgrounds
      { s with steps := [], inputConsumed := false, frame := s.frame + 1 }).course_eq
    unfold awaitAsset at h
    split at h
    · obtain rfl := (Prod.mk.inj h).2
      exact hrequested.trans hresult
    · dsimp only at h
      split at h
      · obtain ⟨hflag, rfl⟩ := Prod.mk.inj h
        exact Option.isNone_iff_eq_none.mp (Bool.and_eq_true_iff.mp hflag).1
      · simp at h

/-- A frame up to the outer states; tells whether they follow. -/
def prelude (s : Scene σ) (input : InputState) : Bool × Scene σ :=
  match s.enter with
  | (true, s) =>
    match s.updateBattle input with
    | (true, s) => (true, s.mark .dispatch)
    | (false, s) => (false, s)
  | (false, s) => (false, s)

theorem prelude_interludes (s : Scene σ) (input : InputState) :
    Interludes s (s.prelude input).2 := by
  have hentered := s.enter_concludes.interludes
  unfold prelude
  generalize s.enter = entered at hentered ⊢
  obtain ⟨_ | _, t⟩ := entered
  · exact hentered
  · have hupdated := hentered.trans (t.updateBattle_interludes input)
    dsimp only
    generalize t.updateBattle input = updated at hupdated ⊢
    obtain ⟨_ | _, u⟩ := updated
    · exact hupdated
    · exact hupdated.trans (u.mark_backgrounds .dispatch).interludes

/-- A frame is its prelude and, if that lets them, the outer states. -/
theorem update_eq (s : Scene σ) (input : InputState) : s.update input =
    match s.prelude input with
    | (true, t) => dispatchFrom input maxActionsPerFrame t
    | (false, t) => t := by
  unfold update prelude enter updateFrame dispatch
  dsimp only
  split
  · rfl
  · generalize awaitAsset (σ := σ) _ = awaited
    obtain ⟨_ | _, t⟩ := awaited
    · rfl
    · dsimp only
      generalize t.updateBattle input = updated
      obtain ⟨_ | _, u⟩ := updated <;> rfl

end ActiveBattle.Scene
