import ActiveBattle.Proofs.Scene.Course
import ActiveBattle.Proofs.Scene.AgreeingPhases

/-!
# The frames of battles that agree

Two scenes that agree in everything but what is set aside agree again after every frame with the
same input (`Scene.Agrees.update`), and so after any number of frames.
-/

namespace ActiveBattle

set_option autoImplicit false

theorem Menus.updateWindows_still (m : Menus) : m.updateWindows.still = m.still.updateWindows := by
  unfold Menus.updateWindows
  split
  · exact (if_pos ‹_›).symm
  · exact (if_neg ‹_›).symm

theorem Menus.moveCursor_still (state : SceneState) (len : Nat) (down : Bool) (m : Menus) :
    (m.moveCursor state len down).still = m.still.moveCursor state len down := by
  unfold Menus.moveCursor
  split
  · rfl
  · cases state <;> rfl

namespace Scene.Agrees

variable {σ : Type} {a : Difference} {s t : Scene σ}

section Presentation

@[gcongr] theorem updateBattlers (h : Agrees a s t) : Agrees a s.updateBattlers t.updateBattlers :=
  h.modifyRoster _

@[gcongr] theorem updateFloatTexts (h : Agrees a s t) :
    Agrees a s.updateFloatTexts t.updateFloatTexts := by
  cases a with
  | words => exact h
  | clock => exact h.apart (·.updateFloatTexts)

@[gcongr] theorem updateRunningAway (h : Agrees a s t) :
    Agrees a s.updateRunningAway t.updateRunningAway := by
  unfold Scene.updateRunningAway
  rw [show t.runningAway = s.runningAway from h.read (·.runningAway)]
  exact (h.modifyRoster _).either h

@[gcongr] theorem updateMessage (h : Agrees a s t) (input : InputState) :
    Agrees a (s.updateMessage input) (t.updateMessage input) := by
  have hadvanced : Agrees a (s.modifyGame fun g => { g with message := g.message.advance })
      (t.modifyGame fun g => { g with message := g.message.advance }) := by
    cases a with
    | words => exact h.modifyGame h.game.paraphrases.advance
    | clock => exact h.apart fun u => u.modifyGame fun g => { g with message := g.message.advance }
  unfold Scene.updateMessage
  split
  · cases a <;> exact hadvanced.apart fun u => { u with inputConsumed := true }
  · exact h

@[gcongr] theorem updateCursor (h : Agrees a s t) (input : InputState) :
    Agrees a (s.updateCursor input) (t.updateCursor input) := by
  unfold Scene.updateCursor
  rw [h.state, show t.menuLength = s.menuLength from h.read (·.menuLength)]
  exact (h.modifyUi (Menus.moveCursor_still _ _ _)).either
    ((h.modifyUi (Menus.moveCursor_still _ _ _)).either h)

@[gcongr] theorem updateUi (h : Agrees a s t) (input : InputState) :
    Agrees a (s.updateUi input) (t.updateUi input) := by
  have hslid := h.modifyUi Menus.updateWindows_still
  unfold Scene.updateUi
  dsimp only
  rw [hslid.isActive,
    show (t.modifyUi (·.updateWindows)).ui.windowMove =
        (s.modifyUi (·.updateWindows)).ui.windowMove from
      hslid.read (·.ui.windowMove)]
  exact (hslid.updateMessage input).either (hslid.either (hslid.updateCursor input))

@[gcongr] theorem updatePresentation (h : Agrees a s t) (input : InputState) :
    Agrees a (s.updatePresentation input) (t.updatePresentation input) := by
  unfold Scene.updatePresentation
  dsimp only
  gcongr

end Presentation

section Events

theorem withPendingAsset (h : Agrees a s t) (pendingAsset : Option PendingAsset) :
    Agrees a { s with pendingAsset := pendingAsset } { t with pendingAsset := pendingAsset } := by
  cases a <;> exact h.apart fun u => { u with pendingAsset := pendingAsset }

theorem checkDirector (h : Agrees a s t) : Concurs a s.checkDirector t.checkDirector := by
  unfold Scene.checkDirector
  rw [show t.director.interp.asyncOp = s.director.interp.asyncOp from
    h.read (·.director.interp.asyncOp)]
  split
  · exact ⟨rfl, h⟩
  · exact ⟨rfl, h.endBattle _⟩
  · exact ⟨rfl, h.withPendingAsset _⟩

@[gcongr] theorem startForeground (h : Agrees a s t) :
    Agrees a s.startForeground t.startForeground := by
  unfold Scene.startForeground
  rw [h.director, h.runners, h.store,
    show t.game.switches = s.game.switches from h.read (·.game.switches)]
  split
  · exact h
  · split
    · gcongr
    · exact h

@[gcongr] theorem showNotices (h : Agrees a s t) : Agrees a s.showNotices t.showNotices := by
  unfold Scene.showNotices
  rw [show t.game.status.notices = s.game.status.notices from h.read (·.game.status.notices)]
  refine (h.modifyStatus _).foldl (fun notice u v huv => ?_) _
  cases notice with
  | hpChanged target change => exact huv.addChangeText target change

@[gcongr] theorem checkForceFlee (h : Agrees a s t) :
    Agrees a s.checkForceFlee t.checkForceFlee := by
  unfold Scene.checkForceFlee
  rw [h.director, h.state]
  exact (h.setState .escape).either h

theorem updateTimers (h : Agrees a s t) : Concurs a s.updateTimers t.updateTimers := by
  unfold Scene.updateTimers
  rw [show t.game.timers = s.game.timers from h.read (·.game.timers)]
  exact ⟨rfl, h.ignoresMessage fun _ _ => rfl⟩

variable [AssetLoader σ]

@[gcongr] theorem updateHooks (h : Agrees a s t) : Agrees a s.updateHooks t.updateHooks := by
  obtain ⟨hdirector, hworld⟩ :=
    h.world.concurs (f := fun w => (s.director.continueHooks s.store w).2)
    fun hw => Director.continueHooks_concurs hw s.director s.store
  have hrun := (h.withWorld hworld).withDirector (s.director.continueHooks s.store s.world).2.1
  unfold Scene.updateHooks
  dsimp only
  rw [show t.director.continueHooks t.store =
    s.director.continueHooks s.store by rw [h.director, h.store], hdirector]
  exact hrun

@[gcongr] theorem updateDirector (h : Agrees a s t) (allowSuspend : Bool) :
    Agrees a (s.updateDirector allowSuspend) (t.updateDirector allowSuspend) := by
  obtain ⟨hdirector, hworld⟩ := h.world.concurs (f := s.director.update s.store allowSuspend)
    fun hw => Director.update_concurs hw s.director s.store allowSuspend
  have hrun := (h.withWorld hworld).withDirector (s.director.update s.store allowSuspend s.world).1
  unfold Scene.updateDirector
  dsimp only
  rw [show t.director.update t.store = s.director.update s.store by rw [h.director, h.store],
    hdirector]
  exact hrun

/-- A parallel event asks for the same in both. -/
theorem updateRunner (h : Agrees a s t) (r : EventRunner) (index : Nat) (resume : Bool) :
    (r.update sceneCommands t.store resume t.director.script t.world).op =
        (r.update sceneCommands s.store resume s.director.script s.world).op ∧
      Agrees a (s.updateRunner r index resume) (t.updateRunner r index resume) := by
  obtain ⟨hsame, hworld⟩ := h.world.concurs
    (f := fun w =>
      let u := r.update sceneCommands s.store resume s.director.script w
      ((u.op, u.runner, u.table), u.world))
    fun hw => by
      have hdone := EventRunner.update_concurs hw r s.store resume s.director.script
      exact ⟨by dsimp only; rw [hdone.op, hdone.runner, hdone.table], hdone.world⟩
  unfold Scene.updateRunner
  dsimp only at hsame hworld ⊢
  rw [show r.update sceneCommands t.store resume t.director.script =
    r.update sceneCommands s.store resume s.director.script by rw [h.store, h.director]]
  generalize r.update sceneCommands s.store resume s.director.script s.world = u at hsame hworld ⊢
  generalize r.update sceneCommands s.store resume s.director.script t.world = v at hsame hworld ⊢
  obtain ⟨hop, hput⟩ := Prod.mk.inj hsame
  obtain ⟨hrunner, htable⟩ := Prod.mk.inj hput
  have hdone := (h.withWorld hworld).withDirector { s.director with script := u.table }
  rw [hrunner, htable,
    show ({ t.director with script := u.table } : Director) =
        { s.director with script := u.table } from
      h.read fun x => { x.director with script := u.table }]
  exact ⟨hop,
    by cases a <;> exact hdone.apart fun x => { x with runners := x.runners.set index u.runner }⟩

theorem updateRunnersFrom (h : Agrees a s t) (index left : Nat) :
    Concurs a (s.updateRunnersFrom index left) (t.updateRunnersFrom index left) := by
  induction left generalizing index s t with
  | zero => exact ⟨rfl, h⟩
  | succ left ih =>
    unfold Scene.updateRunnersFrom
    rw [show t.runners[index]? = s.runners[index]? from h.read (·.runners[index]?)]
    split
    · exact ⟨rfl, h⟩
    · rename_i r _
      obtain ⟨hop, hput⟩ := h.updateRunner r index false
      dsimp only
      rw [hop]
      split
      · exact ⟨rfl, hput.withPendingAsset _⟩
      · exact ih hput _

theorem updateEvents (h : Agrees a s t) : Concurs a s.updateEvents t.updateEvents := by
  have hrun := h.updateHooks.startForeground.updateDirector true
  unfold Scene.updateEvents
  dsimp only
  rw [show (t.updateHooks.startForeground.updateDirector true).runners.length =
    (s.updateHooks.startForeground.updateDirector true).runners.length from
      congrArg List.length hrun.runners]
  obtain ⟨on, u, v, hu, hv, huv⟩ := (hrun.updateRunnersFrom 0 _).elim
  rw [hu, hv]
  cases on with
  | false => exact ⟨rfl, huv⟩
  | true =>
    obtain ⟨on, u, v, hu, hv, huv⟩ := huv.checkForceFlee.checkDirector.elim
    dsimp only
    rw [hu, hv]
    cases on with
    | false => exact ⟨rfl, huv⟩
    | true => exact ⟨rfl, huv.showNotices⟩

end Events

section Course

@[gcongr] theorem enqueueChoice (h : Agrees a s t) (chooser : Chooser) (id : BattlerId) :
    Agrees a (s.enqueueChoice chooser id) (t.enqueueChoice chooser id) := by
  obtain ⟨hsame, hchosen⟩ :=
    h.game.resultIgnoresMessage (Action.chooseFor_resultIgnoresMessage id chooser)
  unfold Scene.enqueueChoice
  dsimp only
  rw [hsame]
  exact (h.withGame hchosen).enqueue _

theorem isIdleAndFull (h : Agrees a s t) (id : BattlerId) :
    t.isIdleAndFull id = s.isIdleAndFull id :=
  h.read (·.isIdleAndFull id)

@[gcongr] theorem createEnemyActions (h : Agrees a s t) :
    Agrees a s.createEnemyActions t.createEnemyActions := by
  unfold Scene.createEnemyActions
  rw [h.roster]
  refine h.foldl (fun id u v huv => ?_) _
  rw [huv.isIdleAndFull, show v.enemyChooser = u.enemyChooser from huv.read (·.enemyChooser)]
  exact (huv.enqueueChoice _ id).either huv

@[gcongr] theorem createAutoActions (h : Agrees a s t) :
    Agrees a s.createAutoActions t.createAutoActions := by
  unfold Scene.createAutoActions
  dsimp only
  rw [h.roster, h.state]
  refine h.foldl (fun id u v huv => ?_) _
  rw [huv.isIdleAndFull, show v.isControllable id = u.isControllable id from
    huv.read (·.isControllable id),
    show v.autoChooser = u.autoChooser from huv.read (·.autoChooser)]
  exact (huv.enqueueChoice _ id).either huv

theorem wantsDebugMenu (h : Agrees a s t) (input : InputState) :
    t.wantsDebugMenu input = s.wantsDebugMenu input :=
  h.read (·.wantsDebugMenu input)

variable [AssetLoader σ]

@[gcongr] theorem fillGauges (h : Agrees a s t) : Agrees a s.fillGauges t.fillGauges := by
  unfold Scene.fillGauges
  rw [h.roster, h.database, show t.config.maxAtbGauge = s.config.maxAtbGauge from
    h.read (·.config.maxAtbGauge),
    show t.config.atbFillFrames = s.config.atbFillFrames from h.read (·.config.atbFillFrames)]
  refine (h.modifyRoster _).foldl (fun gain u v huv => ?_) _
  dsimp only
  rw [huv.roster]
  gcongr

@[gcongr] theorem updateAtb (h : Agrees a s t) : Agrees a s.updateAtb t.updateAtb := by
  have hfilled := h.fillGauges.either (p := s.isAccumulating = true) h
  unfold Scene.updateAtb
  rw [h.director, h.isActive, show t.isAccumulating = s.isAccumulating from
    h.read (·.isAccumulating)]
  exact h.either hfilled.createEnemyActions.createAutoActions

@[gcongr] theorem updateCourse (h : Agrees a s t) : Agrees a s.updateCourse t.updateCourse := by
  obtain ⟨decided, u, v, hu, hv, huv⟩ := (h.mark .endCheck).checkBattleEnd.elim
  have hfilled := ((huv.mark .atb).updateAtb).mark .cursors
  unfold Scene.updateCourse
  rw [hu, hv]
  cases a with
  | words => exact hfilled.apart (·.modifyUi fun m => { m with cursorCycle := m.cursorCycle + 1 })
  | clock => exact hfilled

end Course

section Dispatch

@[gcongr] theorem dropGoneActor (h : Agrees a s t) : Agrees a s.dropGoneActor t.dropGoneActor := by
  unfold Scene.dropGoneActor
  rw [h.activeActor, h.roster, show t.state.isActorMenu = s.state.isActorMenu from
    h.read (·.state.isActorMenu)]
  split
  · exact h
  · dsimp only
    split
    · exact (h.withActiveActor none).setState .selectActor
    · exact h

theorem isBlocked (h : Agrees a s t) : t.isBlocked = s.isBlocked := by
  unfold Scene.isBlocked
  rw [h.result, h.isActive, h.director, show t.ui.windowMove = s.ui.windowMove from
    h.read (·.ui.windowMove)]

variable [AssetLoader σ]

theorem processState (h : Agrees a s t) (input : InputState) :
    Concurs a (s.processState input) (t.processState input) := by
  have hstaying := h.dropGoneActor
  unfold Scene.processState
  dsimp only
  rw [hstaying.state]
  split
  · exact hstaying.processStart
  · exact hstaying.processOption input
  · exact hstaying.processActor input false
  · exact hstaying.processActor input true
  · exact hstaying.processCommand input
  · exact hstaying.processItem input
  · exact hstaying.processSkill input
  · exact hstaying.processTarget input true
  · exact hstaying.processTarget input false
  · exact hstaying.processBattle
  · exact hstaying.processVictory
  · exact hstaying.processDefeat
  · exact hstaying.processEscape

theorem dispatchFrom (h : Agrees a s t) (input : InputState) (left : Nat) :
    Agrees a (s.dispatchFrom input left) (t.dispatchFrom input left) := by
  induction left generalizing s t with
  | zero => exact h
  | succ left ih =>
    unfold Scene.dispatchFrom
    rw [h.isBlocked]
    split
    · exact h
    · obtain ⟨ended, u, v, hu, hv, huv⟩ := (h.checkWait input).elim
      rw [hu, hv]
      cases ended with
      | false => exact huv
      | true =>
        obtain ⟨pace, u, v, hu, hv, huv⟩ := (huv.processState input).elim
        dsimp only
        rw [hu, hv]
        cases pace with
        | nextFrame => exact huv
        | sameFrame => exact ih huv

@[gcongr] theorem dispatch (h : Agrees a s t) (input : InputState) :
    Agrees a (s.dispatch input) (t.dispatch input) :=
  (h.mark .dispatch).dispatchFrom input maxActionsPerFrame

end Dispatch

section Frame

variable [AssetLoader σ]

theorem updateBattle (h : Agrees a s t) (input : InputState) :
    Concurs a (s.updateBattle input) (t.updateBattle input) := by
  have hflagged {u v : Scene σ} (huv : Agrees a u v) (flag : Bool) :
      Agrees a { u with resumeFromDebug := flag } { v with resumeFromDebug := flag } := by
    cases a <;> exact huv.apart fun u => { u with resumeFromDebug := flag }
  unfold Scene.updateBattle
  rw [show t.resumeFromDebug = s.resumeFromDebug from h.read (·.resumeFromDebug)]
  split
  · exact ⟨rfl, (hflagged h false).mark .debugResume⟩
  · obtain ⟨on, u, v, hu, hv, huv⟩ := ((h.updatePresentation input).mark .events).updateEvents.elim
    rw [hu, hv]
    cases on with
    | false => exact ⟨rfl, huv⟩
    | true =>
      obtain ⟨out, u, v, hu, hv, huv⟩ := (huv.mark .timers).updateTimers.elim
      dsimp only
      rw [hu, hv]
      cases out with
      | true => exact ⟨rfl, huv.endBattle .abort⟩
      | false =>
        have hmarked := huv.mark .debugMenu
        dsimp only
        rw [hmarked.wantsDebugMenu]
        split
        · exact ⟨rfl, hflagged hmarked true⟩
        · exact ⟨rfl, hmarked.updateCourse⟩

@[gcongr] theorem resume (h : Agrees a s t) (c : Continuation) :
    Agrees a (s.resume c) (t.resume c) := by
  cases c with
  | finishStart => exact h.finishStart
  | resumeDirector => exact (h.updateDirector false).checkDirector.rest
  | resumeEvent index =>
    unfold Scene.resume
    dsimp only
    rw [show t.runners[index]? = s.runners[index]? from h.read (·.runners[index]?)]
    split
    · exact h
    · rename_i r _
      obtain ⟨hop, hput⟩ := h.updateRunner r index true
      rw [hop]
      split
      · exact hput.withPendingAsset _
      · exact hput

@[gcongr] theorem requestBackdrop (h : Agrees a s t) :
    Agrees a s.requestBackdrop t.requestBackdrop := by
  obtain ⟨hrequest, hworld⟩ :=
    h.world.concurs (f := (·.request .backdrop s.backdropName)) fun hw => hw.request _ _
  unfold Scene.requestBackdrop
  rw [show t.started = s.started from h.read (·.started), show t.backdropName = s.backdropName from
    h.read (·.backdropName)]
  split
  · exact h
  · dsimp only
    rw [hrequest]
    have hasked := (h.withWorld hworld).withPendingAsset
      (some ⟨(s.world.request .backdrop s.backdropName).1, .finishStart⟩)
    apply note
    cases a <;> exact hasked.apart fun u => { u with started := true }

theorem awaitAsset (h : Agrees a s t) : Concurs a s.awaitAsset t.awaitAsset := by
  unfold Scene.awaitAsset
  rw [show t.pendingAsset = s.pendingAsset from h.read (·.pendingAsset)]
  split
  · exact ⟨rfl, h⟩
  · rename_i p _
    obtain ⟨hready, hworld⟩ := h.world.concurs (f := (·.isReady p.request)) fun hw => hw.isReady _
    have hpolled (pendingAsset : Option PendingAsset) :=
      (h.withWorld hworld).withPendingAsset pendingAsset
    dsimp only
    rw [hready]
    split
    · have hresumed := ((hpolled none).mark .assetContinuation).resume p.continuation
      exact ⟨hresumed.read fun u => u.result.isNone && u.pendingAsset.isNone, hresumed⟩
    · exact ⟨rfl, hpolled s.pendingAsset⟩

theorem updateFrame (h : Agrees a s t) (input : InputState) :
    Agrees a (s.updateFrame input) (t.updateFrame input) := by
  obtain ⟨on, u, v, hu, hv, huv⟩ := (h.updateBattle input).elim
  unfold Scene.updateFrame
  rw [hu, hv]
  cases on with
  | true => exact huv.dispatch input
  | false => exact huv

theorem update (h : Agrees a s t) (input : InputState) :
    Agrees a (s.update input) (t.update input) := by
  have hfresh : Agrees a { s with steps := [], inputConsumed := false }
      { t with steps := [], inputConsumed := false } := by
    cases a <;> exact h.apart fun u => { u with steps := [], inputConsumed := false }
  have hcounted : Agrees a { s with steps := [], inputConsumed := false, frame := s.frame + 1 }
      { t with steps := [], inputConsumed := false, frame := t.frame + 1 } := by
    cases a with
    | words => exact hfresh.apart fun u => { u with frame := u.frame + 1 }
    | clock => exact hfresh
  obtain ⟨on, u, v, hu, hv, huv⟩ := hcounted.requestBackdrop.awaitAsset.elim
  unfold Scene.update
  dsimp only
  rw [hu, hv, show t.result.isSome = s.result.isSome from h.read (·.result.isSome)]
  split
  · exact hfresh
  · cases on with
    | true => exact huv.updateFrame input
    | false => exact huv

theorem after (h : Agrees a s t) (inputs : List InputState) :
    Agrees a (s.after inputs) (t.after inputs) :=
  h.foldl (fun input _ _ huv => huv.update input) inputs

end Frame

end Scene.Agrees

end ActiveBattle
