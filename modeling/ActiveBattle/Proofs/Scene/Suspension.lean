import ActiveBattle.Proofs.Scene.Programs

/-!
# What becomes of suspended scripts

An interpreter that is suspended waits for somebody to act upon it: to fetch an asset, or to end the
battle. The scene has one place for the asset it waits for, and it looks at the main interpreter in
every frame, so whatever suspends that is attended to, and so is an asset that a parallel event asks
for (`update_attended`). Nobody looks at what suspends a hook, or at a parallel event that ends the
battle: such a suspension stays for good (`Path.orphaned`).
-/

namespace ActiveBattle

set_option autoImplicit false

/-- An asset is waited for. -/
def AsyncOp.isLoad : AsyncOp → Bool
  | .loadAsset .. => true
  | _ => false

namespace EventRunner

variable {σ : Type} [AssetLoader σ]

/-- An update that does not run the event tells nothing; any other tells what the event is suspended
on. -/
theorem update_op (r : EventRunner) (store : ProgramStore) (resume : Bool) (s : BattleScript)
    (w : World σ) :
    (r.update sceneCommands store resume s w).op =
      (r.update sceneCommands store resume s w).runner.op ∨
      (r.update sceneCommands store resume s w).op = .none ∧
        (r.update sceneCommands store resume s w).runner = r := by
  unfold update
  split
  · cases r.interp with
    | none => exact .inr ⟨rfl, rfl⟩
    | some i => exact .inl rfl
  · exact .inr ⟨rfl, rfl⟩

/-- Only parallel events have an interpreter. -/
def Paired (r : EventRunner) : Prop := r.interp.isSome = true → r.event.trigger = .parallel

/-- An asset that is there moves its event on, whatever its guard says. -/
theorem update_op_of_resume {r : EventRunner} (hr : r.Paired) (store : ProgramStore)
    (s : BattleScript) (w : World σ) :
    (r.update sceneCommands store true s w).op =
      (r.update sceneCommands store true s w).runner.op := by
  unfold update
  cases hi : r.interp with
  | none =>
    have hidle : r.op = .none := by simp [op, hi]
    split
    · exact hidle.symm
    · exact hidle.symm
  | some i =>
    have hparallel : r.event.trigger = .parallel := hr (by rw [hi]; rfl)
    simp only [isBackgroundReady, hparallel, decide_true, Bool.true_or, Bool.and_self, if_true]
    rfl

end EventRunner

namespace Scene

variable {σ : Type}

/-- No interpreter of the scene is suspended. -/
structure Unsuspended (s : Scene σ) : Prop where
  main : s.director.interp.asyncOp = .none
  events : ∀ r ∈ s.runners, r.op = .none
  hooks : s.director.script.hookRunner.asyncOp = .none

/-- Something is suspended that nobody acts upon: a parallel event that ended the battle, or the
hooks. -/
def Orphaned (s : Scene σ) : Prop :=
  (∃ r ∈ s.runners, ∃ result, r.op = .terminateBattle result) ∨
    s.director.script.hookRunner.asyncOp ≠ .none

/-! ### What stays -/

/-- The parallel events and the hooks of a scene went on. -/
structure Persists (s t : Scene σ) : Prop where
  runners : List.Forall₂ EventRunner.Kept s.runners t.runners
  hookOp : s.director.script.hookRunner.asyncOp ≠ .none →
    t.director.script.hookRunner.asyncOp = s.director.script.hookRunner.asyncOp

namespace Persists

variable {s t u : Scene σ}

theorem of_eq (hrunners : t.runners = s.runners)
    (hhooks : t.director.script.hookRunner = s.director.script.hookRunner) : Persists s t := by
  refine ⟨?_, fun _ => by rw [hhooks]⟩
  rw [hrunners]
  exact List.forall₂_same.mpr fun r _ => .refl r

theorem trans (h : Persists s t) (h' : Persists t u) : Persists s u := by
  refine ⟨forall₂_trans (fun a b c hab hbc => ?_) h.runners h'.runners, fun hop => ?_⟩
  · exact ⟨hbc.event.trans hab.event, hbc.interp.trans hab.interp,
      fun result hop => hbc.ended result (hab.ended result hop)⟩
  · have hkept := h.hookOp hop
    exact (h'.hookOp (by rwa [hkept])).trans hkept

theorem orphaned (h : Persists s t) (hs : s.Orphaned) : t.Orphaned := by
  rcases hs with ⟨r, hr, result, hop⟩ | hop
  · obtain ⟨i, hi⟩ := List.mem_iff_getElem?.mp hr
    have hrelated := forall₂_getElem? h.runners i
    rw [hi] at hrelated
    cases hr' : t.runners[i]? with
    | none =>
      rw [hr'] at hrelated
      cases hrelated
    | some r' =>
      rw [hr'] at hrelated
      cases hrelated with
      | some hkept => exact .inl ⟨r', List.mem_of_getElem? hr', result, hkept.ended result hop⟩
  · right
    rwa [h.hookOp hop]

theorem paired (h : Persists s t) (hs : ∀ r ∈ s.runners, r.Paired) : ∀ r ∈ t.runners, r.Paired := by
  refine forall_mem_of_forall₂ (h.runners.imp fun r r' hkept hr hinterp => ?_) hs
  rw [hkept.event]
  exact hr (by rw [← hkept.interp]; exact hinterp)

end Persists

theorem Step.persists {s t : Scene σ} (h : Step s t) : Persists s t := by
  rcases h.ran_or_unscripted with hran | hidle
  · exact ⟨hran.runners, hran.kept.hookOp⟩
  · exact .of_eq hidle.runners hidle.hookRunner

theorem Path.persists {s t : Scene σ} {lost : List BattlerId} (h : Path Step s lost t) :
    Persists s t := by
  induction h with
  | refl => exact .of_eq rfl rfl
  | step _ hstep ih => exact ih.trans hstep.persists
  | take _ htake ih =>
    refine ih.trans ?_
    cases htake
    exact .of_eq rfl rfl

/-- What nobody acts upon is suspended for good. -/
theorem Path.orphaned {s t : Scene σ} {lost : List BattlerId} (h : Path Step s lost t)
    (hs : s.Orphaned) :
    t.Orphaned := h.persists.orphaned hs

/-- A script that nobody acts upon ends the battle from a parallel event, or is a hook that ends it
or asks for an asset. -/
theorem Within.orphaned {P : Repertoire} {s : Scene σ} (hs : s.Within P) (h : s.Orphaned) :
    (∃ inst, P.event inst ∧ inst.opcode = .terminateBattle) ∨
      P.hooks ∧ ∃ inst, P.event inst ∧ inst.opcode = .showPicture := by
  rcases h with ⟨r, hr, result, hop⟩ | hop
  · left
    cases hi : r.interp with
    | none => simp [EventRunner.op, hi] at hop
    | some i =>
      have hraised := ((hs.runners r hr).interp i hi).op
      rw [show i.asyncOp = .terminateBattle result by simpa [EventRunner.op, hi] using hop]
        at hraised
      exact hraised.2
  · have hon : P.hooks := by_contra fun hoff => hop (hs.director.script.silent hoff)
    have hraised := hs.director.script.runner.op
    cases hkind : s.director.script.hookRunner.asyncOp with
    | none => exact absurd hkind hop
    | loadAsset request kind name =>
      rw [hkind] at hraised
      exact .inr ⟨hon, hraised⟩
    | terminateBattle result =>
      rw [hkind] at hraised
      exact .inl hraised.2

/-! ### What is attended to -/

/-- Who is suspended, and what the scene waits for. -/
structure Standing where
  main : AsyncOp
  runners : List EventRunner
  asset : Option PendingAsset
  started : Bool
  debug : Bool

def standing (s : Scene σ) : Standing where
  main := s.director.interp.asyncOp
  runners := s.runners
  asset := s.pendingAsset
  started := s.started
  debug := s.resumeFromDebug

namespace Standing

/-- Nothing is asked for and nobody waits: so a frame ends when it does not wait for an asset. -/
structure Free (w : Standing) : Prop where
  main : w.main = .none
  events : ∀ r ∈ w.runners, r.op.isLoad = false
  asset : w.asset = none
  opened : w.debug = true → w.started = true

/-- Nothing is asked for, and the main interpreter may be suspended unless its script is not looked
at in this frame: so a frame goes on when no asset is missing. -/
structure Ready (w : Standing) : Prop where
  started : w.started = true
  events : ∀ r ∈ w.runners, r.op.isLoad = false
  asset : w.asset = none
  main : w.debug = true → w.main = .none

/-- An asset is asked for, after which the scene goes on in a way; a parallel event that waits for
an asset waits for this one. -/
structure Asking (k : Continuation) (w : Standing) : Prop where
  started : w.started = true
  events : ∀ i r, w.runners[i]? = some r → r.op.isLoad = true → k = .resumeEvent i
  asset : ∃ request, w.asset = some ⟨request, k⟩
  debug : w.debug = false

theorem Free.ready {w : Standing} (h : w.Free) (hstarted : w.started = true) : w.Ready :=
  ⟨hstarted, h.events, h.asset, fun _ => h.main⟩

theorem Ready.free {w : Standing} (h : w.Ready) (hmain : w.main = .none) : w.Free :=
  ⟨hmain, h.events, h.asset, fun _ => h.started⟩

end Standing

/-- Whatever suspends the main interpreter, and every asset that is asked for, is taken care of: the
battle is over, or the scene waits for the asset, or there is nothing of the kind. -/
inductive Attended (s : Scene σ) : Prop
  | ended (h : s.result.isSome = true)
  | free (h : s.standing.Free)
  | asking (k : Continuation) (h : s.standing.Asking k)

/-- A part of a frame lets it go on, with a standing of a kind, or else stops it with everything
attended to. -/
def GoesOn (P : Standing → Prop) : Bool × Scene σ → Prop
  | (true, t) => P t.standing
  | (false, t) => t.Attended

theorem endBattle_isSome (s : Scene σ) (result : BattleResult) :
    (s.endBattle result).result.isSome = true := by
  unfold endBattle
  split
  · assumption
  · rfl

theorem healStates_standing (s : Scene σ) (ids : List BattlerId) :
    (s.healStates ids).standing = s.standing := by
  induction ids generalizing s with
  | nil => rfl
  | cons id rest ih => exact ih _

theorem schedulePage_standing {s : Scene σ} (hs : s.standing.main = .none) (trigger : EventTrigger)
    (source : Option BattlerId) : (s.schedulePage trigger source).standing = s.standing := by
  have hmain : (s.director.schedule s.store s.game trigger.flags source).2.interp.asyncOp =
      s.director.interp.asyncOp := by
    unfold Director.schedule
    split
    · rfl
    · dsimp only
      split
      · exact hs.symm
      · rfl
  unfold schedulePage
  dsimp only
  split <;> simp only [standing, note, hmain]

theorem standing_of_core {s t : Scene σ} {c : Core} (h : t.core = c)
    (hdirector : c.director.interp = s.director.interp) (hrunners : c.runners = s.runners)
    (hasset : c.pendingAsset = s.pendingAsset) (hstarted : c.started = s.started)
    (hdebug : c.resumeFromDebug = s.resumeFromDebug) :
    t.standing = s.standing := by
  subst h
  simp only [core] at hdirector hrunners hasset hstarted hdebug
  simp only [standing, hdirector, hrunners, hasset, hstarted, hdebug]

theorem Effect.standing {s t : Scene σ} (h : Effect s t) (hs : s.standing.main = .none) :
    t.standing = s.standing := by
  cases h with
  | quiet h => exact standing_of_core h rfl rfl rfl rfl rfl
  | hook _ h => exact standing_of_core h rfl rfl rfl rfl rfl
  | page trigger source _ => exact schedulePage_standing hs trigger source
  | pose _ h => exact standing_of_core h rfl rfl rfl rfl rfl
  | wear _ => exact s.healStates_standing _
  | ache _ _ h => exact standing_of_core h rfl rfl rfl rfl rfl
  | pay _ h => exact standing_of_core h rfl rfl rfl rfl rfl
  | strike _ _ _ h => exact standing_of_core h rfl rfl rfl rfl rfl
  | _ => rfl

theorem enqueue_standing (s : Scene σ) (a : Action) : (s.enqueue a).standing = s.standing := by
  rcases s.enqueue_cases a with ⟨-, h⟩ | ⟨b, -, ⟨-, h⟩ | ⟨-, h⟩⟩ <;> rw [h] <;> rfl

theorem discard_standing (s : Scene σ) (source : BattlerId) :
    (s.discard source).standing = s.standing := by
  unfold discard
  dsimp only
  split <;> rfl

theorem Deed.standing {s t : Scene σ} (h : Deed s t) (hs : s.standing.main = .none) :
    t.standing = s.standing := by
  cases h with
  | effect h => exact h.standing hs
  | order a _ _ _ _ => exact s.enqueue_standing a
  | discard a rest _ _ _ _ => exact s.discard_standing a.source
  | pass _ _ h => cases h <;> rfl
  | release a _ h =>
    rw [releasePending_eq h]
    rfl
  | _ => rfl

theorem Path.standing {s t : Scene σ} {lost : List BattlerId} (h : Path Deed s lost t)
    (hs : s.standing.main = .none) :
    t.standing = s.standing := by
  induction h with
  | refl => rfl
  | step _ hstep ih => exact (hstep.standing (by rw [ih]; exact hs)).trans ih
  | take _ htake ih =>
    cases htake
    exact ih

/-- The outer states leave the scripts to the frame. -/
theorem Turned.attended {s t : Scene σ} {lost : List BattlerId} (h : Turned s lost t)
    (hs : s.standing.Free) :
    t.result.isSome = true ∨ t.standing.Free := by
  obtain ⟨u, hdeeds, houtcome⟩ := h
  have hu : u.standing.Free := by
    rw [hdeeds.standing hs.main]
    exact hs
  cases houtcome with
  | done => exact .inr hu
  | decided h => cases h <;> exact .inr hu
  | launched a a' _ _ _ _ _ => exact .inr hu
  | ended _ => exact .inl (u.endBattle_isSome _)

theorem updatePresentation_standing (s : Scene σ) (input : InputState) :
    (s.updatePresentation input).standing = s.standing := by
  have hui (s : Scene σ) : (s.updateUi input).standing = s.standing := by
    dsimp only [updateUi, updateMessage, updateCursor]
    split
    · split <;> rfl
    · split
      · rfl
      · split
        · rfl
        · split <;> rfl
  have hflight (s : Scene σ) : s.updateRunningAway.standing = s.standing := by
    unfold updateRunningAway
    split <;> rfl
  exact (hui _).trans (hflight _)

theorem showNotices_standing (s : Scene σ) : s.showNotices.standing = s.standing := by
  unfold showNotices
  refine List.foldlRecOn (motive := fun t : Scene σ => t.standing = s.standing) _ _ rfl
    fun t ht n _ => ?_
  exact ht

theorem checkForceFlee_standing (s : Scene σ) : s.checkForceFlee.standing = s.standing := by
  unfold checkForceFlee
  split <;> rfl

theorem asking_director {s : Scene σ} (hs : s.standing.Ready) (hdebug : s.standing.debug = false)
    (request : AssetRequest) :
    ({ s with pendingAsset := some ⟨request, .resumeDirector⟩ } : Scene σ).standing.Asking
      .resumeDirector := by
  refine ⟨hs.started, fun i r hr hload => ?_, ⟨request, rfl⟩, hdebug⟩
  exact absurd hload (by simp [hs.events r (List.mem_of_getElem? hr)])

/-- Whatever suspends the main interpreter, the scene reacts to it. -/
theorem checkDirector_goesOn {s : Scene σ} (hs : s.standing.Ready)
    (hdebug : s.standing.debug = false) :
    GoesOn (fun w => w.Ready ∧ w.main = .none) s.checkDirector := by
  unfold checkDirector
  cases hop : s.director.interp.asyncOp with
  | none => exact ⟨hs, hop⟩
  | terminateBattle result => exact .ended (s.endBattle_isSome result)
  | loadAsset request _ _ => exact .asking .resumeDirector (asking_director hs hdebug request)

theorem checkEnds_goesOn {s : Scene σ} (hs : s.standing.Ready) (hdebug : s.standing.debug = false)
    (input : InputState) : GoesOn Standing.Free (s.checkEnds input) := by
  have hchecked := checkDirector_goesOn hs hdebug
  unfold checkEnds
  generalize s.checkDirector = checked at hchecked ⊢
  obtain ⟨_ | _, t⟩ := checked
  · exact hchecked
  · have hticked : ((t.showNotices.mark .timers).updateTimers).2.standing = t.standing :=
      t.showNotices_standing
    dsimp only
    generalize (t.showNotices.mark .timers).updateTimers = ticked at hticked ⊢
    obtain ⟨_ | _, u⟩ := ticked
    · have hu : u.standing.Ready ∧ u.standing.main = .none := by
        rw [show u.standing = t.standing from hticked]
        exact hchecked
      dsimp only
      split
      · exact .free ⟨hu.2, hu.1.events, hu.1.asset, fun _ => hu.1.started⟩
      · exact hu.1.free hu.2
    · exact .ended (u.endBattle_isSome .abort)

theorem checkBattleEnd_standing (s : Scene σ) : s.checkBattleEnd.2.standing = s.standing := by
  unfold checkBattleEnd
  split
  · dsimp only
    split <;> rfl
  · split
    · dsimp only
      split <;> rfl
    · rfl

theorem enqueueChoice_standing (s : Scene σ) (chooser : Chooser) (id : BattlerId) :
    (s.enqueueChoice chooser id).standing = s.standing :=
  enqueue_standing _ _

theorem finishStart_standing (s : Scene σ) : s.finishStart.standing = s.standing := rfl

section Frame

variable [AssetLoader σ]

theorem updateDirector_standing (s : Scene σ) (allowSuspend : Bool) :
    (s.updateDirector allowSuspend).standing =
    { s.standing with main := (s.updateDirector allowSuspend).director.interp.asyncOp } := rfl

theorem updateAtb_standing (s : Scene σ) : s.updateAtb.standing = s.standing := by
  have hfill (s : Scene σ) : s.fillGauges.standing = s.standing := by
    unfold fillGauges
    exact List.foldlRecOn (motive := fun t : Scene σ => t.standing = s.standing) _ _ rfl
      fun t ht _ _ => ht
  have henemies (s : Scene σ) : s.createEnemyActions.standing = s.standing := by
    unfold createEnemyActions
    refine List.foldlRecOn (motive := fun t : Scene σ => t.standing = s.standing) _ _ rfl
      fun t ht id _ => ?_
    split
    · exact (t.enqueueChoice_standing _ id).trans ht
    · exact ht
  have hparty (s : Scene σ) : s.createAutoActions.standing = s.standing := by
    unfold createAutoActions
    refine List.foldlRecOn (motive := fun t : Scene σ => t.standing = s.standing) _ _ rfl
      fun t ht id _ => ?_
    split
    · exact (t.enqueueChoice_standing _ id).trans ht
    · exact ht
  unfold updateAtb
  split
  · rfl
  · rw [hparty, henemies]
    split
    · exact hfill s
    · rfl

theorem updateCourse_standing (s : Scene σ) : s.updateCourse.standing = s.standing := by
  have hchecked : ((s.mark .endCheck).checkBattleEnd.2.mark .atb).standing = s.standing :=
    checkBattleEnd_standing (s.mark .endCheck)
  exact (updateAtb_standing _).trans hchecked

theorem updateRunnersFrom_goesOn {s : Scene σ} (hs : s.standing.Ready)
    (hdebug : s.standing.debug = false) (index left : Nat) :
    GoesOn (fun w => w.Ready ∧ w.debug = false) (s.updateRunnersFrom index left) := by
  induction left generalizing s index with
  | zero => exact ⟨hs, hdebug⟩
  | succ left ih =>
    unfold updateRunnersFrom
    split
    · exact ⟨hs, hdebug⟩
    · rename_i runner hrunner
      have hop := runner.update_op s.store false s.director.script s.world
      have hidle := hs.events runner (List.mem_of_getElem? hrunner)
      dsimp only
      generalize runner.update sceneCommands s.store false s.director.script s.world = u at hop ⊢
      split
      · rename_i request kind name hload
        -- The frame stops here, so no event after this one can ask for another asset.
        refine .asking (.resumeEvent index)
          ⟨hs.started, fun i r hr hwaits => ?_, ⟨request, rfl⟩, hdebug⟩
        by_cases hi : i = index
        · rw [hi]
        · have hr' : s.runners[i]? = some r := by
            rw [← hr]
            exact (List.getElem?_set_ne (Ne.symm hi)).symm
          exact absurd hwaits (by simp [hs.events r (List.mem_of_getElem? hr')])
      · rename_i hother
        have hevents : ∀ r ∈ s.runners.set index u.runner, r.op.isLoad = false := by
          intro r hr
          rcases List.mem_or_eq_of_mem_set hr with hr | rfl
          · exact hs.events r hr
          · rcases hop with hop | ⟨-, hsame⟩
            · rw [← hop]
              cases hkind : u.op with
              | loadAsset request kind name => exact absurd hkind (hother request kind name)
              | _ => rfl
            · rw [hsame]
              exact hidle
        have hnext : ({ s with
            world := u.world
            director := { s.director with script := u.table }
            runners := s.runners.set index u.runner } : Scene σ).standing.Ready :=
          ⟨hs.started, hevents, hs.asset, hs.main⟩
        exact ih hnext hdebug (index + 1)

theorem runScripts_goesOn {s : Scene σ} (hs : s.standing.Ready)
    (hdebug : s.standing.debug = false) :
    GoesOn (fun w => w.Ready ∧ w.debug = false) s.runScripts := by
  have hforeground (s : Scene σ) : s.startForeground.standing = s.standing := by
    unfold startForeground
    split
    · rfl
    · split
      · dsimp only [modifyDirector, Director.startEvent]
        split
        · rfl
        · split <;> rfl
      · rfl
  have hstarted : s.updateHooks.startForeground.standing = s.standing := hforeground s.updateHooks
  refine updateRunnersFrom_goesOn ?_ ?_ 0 _
  · rw [updateDirector_standing, hstarted]
    exact ⟨hs.started, hs.events, hs.asset, fun h => absurd h (by simp [hdebug])⟩
  · rw [updateDirector_standing, hstarted]
    exact hdebug

theorem updateBattle_goesOn {s : Scene σ} (hs : s.standing.Ready) (input : InputState) :
    GoesOn Standing.Free (s.updateBattle input) := by
  rw [updateBattle_eq]
  split
  · rename_i hdebug
    -- Back from the debug menu the scripts are not looked at in this frame.
    exact ⟨hs.main hdebug, hs.events, hs.asset, nofun⟩
  · rename_i hdebug
    have hshown : ((s.updatePresentation input).mark .events).standing = s.standing :=
      s.updatePresentation_standing input
    have hran : GoesOn (fun w => w.Ready ∧ w.debug = false)
        ((s.updatePresentation input).mark .events).runScripts := by
      refine runScripts_goesOn ?_ ?_
      · rw [hshown]
        exact hs
      · rw [hshown]
        exact Bool.not_eq_true _ ▸ hdebug
    generalize ((s.updatePresentation input).mark .events).runScripts = ran at hran ⊢
    obtain ⟨_ | _, t⟩ := ran
    · exact hran
    · have hchecked : GoesOn Standing.Free (t.checkForceFlee.checkEnds input) := by
        refine checkEnds_goesOn ?_ ?_ input
        · rw [checkForceFlee_standing]
          exact hran.1
        · rw [checkForceFlee_standing]
          exact hran.2
      dsimp only
      generalize t.checkForceFlee.checkEnds input = checked at hchecked ⊢
      obtain ⟨_ | _, u⟩ := checked
      · exact hchecked
      · change u.updateCourse.standing.Free
        rw [updateCourse_standing]
        exact hchecked

namespace Standing.Asking

variable {k : Continuation} {w : Standing}

theorem events_idle (hw : w.Asking k) (hk : ∀ i, k = .resumeEvent i → w.runners[i]? = none) :
    ∀ r ∈ w.runners, r.op.isLoad = false := by
  intro r hr
  obtain ⟨i, hi⟩ := List.mem_iff_getElem?.mp hr
  cases hload : r.op.isLoad with
  | false => rfl
  | true =>
    rw [hk i (hw.events i r hi hload)] at hi
    contradiction

end Standing.Asking

/-- When the asset is there, what waited for it goes on; it can end the battle, or ask for
another. -/
theorem resume_cases {s t : Scene σ} {k : Continuation} (hs : s.standing.Asking k)
    (hpaired : ∀ r ∈ s.runners, r.Paired) (ht : t.standing = { s.standing with asset := none }) :
    (t.resume k).result.isSome = true ∨
      (t.resume k).standing.Ready ∨ ∃ k', (t.resume k).standing.Asking k' := by
  have hrunners : t.runners = s.runners := congrArg Standing.runners ht
  have hstarted : t.standing.started = true := by
    rw [ht]
    exact hs.started
  have hdebug : t.standing.debug = false := by
    rw [ht]
    exact hs.debug
  have hasset : t.standing.asset = none := by rw [ht]
  have ready (hevents : ∀ r ∈ s.runners, r.op.isLoad = false) : t.standing.Ready := by
    refine ⟨hstarted, ?_, hasset, fun h => absurd h (by simp [hdebug])⟩
    rw [ht]
    exact hevents
  cases k with
  | finishStart =>
    right; left
    change t.finishStart.standing.Ready
    rw [finishStart_standing]
    exact ready (hs.events_idle fun _ h => nomatch h)
  | resumeDirector =>
    have hready := ready (hs.events_idle fun _ h => nomatch h)
    have hwoken : (t.updateDirector false).standing.Ready ∧
        (t.updateDirector false).standing.debug = false := by
      rw [updateDirector_standing]
      exact ⟨⟨hready.started, hready.events, hready.asset, fun h => absurd h (by simp [hdebug])⟩,
        hdebug⟩
    unfold resume checkDirector
    generalize t.updateDirector false = u at hwoken ⊢
    dsimp only
    cases u.director.interp.asyncOp with
    | none => exact .inr (.inl hwoken.1)
    | terminateBattle result => exact .inl (u.endBattle_isSome result)
    | loadAsset request _ _ => exact .inr (.inr ⟨_, asking_director hwoken.1 hwoken.2 request⟩)
  | resumeEvent index =>
    unfold resume
    dsimp only
    split
    · rename_i hrunner
      refine .inr (.inl (ready (hs.events_idle fun i hi => ?_)))
      obtain rfl := Continuation.resumeEvent.inj hi
      rw [← hrunner, hrunners]
      rfl
    · rename_i runner hrunner
      rw [hrunners] at hrunner
      have hop :=
        EventRunner.update_op_of_resume (hpaired runner (List.mem_of_getElem? hrunner)) t.store
        t.director.script t.world
      generalize runner.update sceneCommands t.store true t.director.script t.world = u at hop ⊢
      -- Any other parallel event is as it was, and did not wait.
      have hothers (i : Nat) (r : EventRunner) (hi : i ≠ index)
          (hr : (t.runners.set index u.runner)[i]? = some r) : r.op.isLoad = false := by
        rw [List.getElem?_set_ne (Ne.symm hi), hrunners] at hr
        cases hload : r.op.isLoad with
        | false => rfl
        | true => exact absurd (Continuation.resumeEvent.inj (hs.events i r hr hload)) (Ne.symm hi)
      split
      · rename_i request kind name hload
        refine .inr (.inr ⟨.resumeEvent index, hstarted, fun i r hr hwaits => ?_,
          ⟨request, rfl⟩, hdebug⟩)
        by_cases hi : i = index
        · rw [hi]
        · exact absurd hwaits (by simp [hothers i r hi hr])
      · rename_i hother
        refine .inr (.inl ⟨hstarted, fun r hr => ?_, hasset, fun h =>
          absurd (hdebug.symm.trans h) Bool.false_ne_true⟩)
        obtain ⟨i, hi⟩ := List.mem_iff_getElem?.mp hr
        change (t.runners.set index u.runner)[i]? = some r at hi
        by_cases hsame : i = index
        · have hr : u.runner = r := by
            subst hsame
            simpa [List.getElem?_set_self', hrunners, hrunner] using hi
          rw [← hr, ← hop]
          cases hkind : u.op with
          | loadAsset request kind name => exact absurd hkind (hother request kind name)
          | _ => rfl
        · exact hothers i r hsame hi

theorem awaitAsset_goesOn {s : Scene σ} (hs : s.Attended) (hopen : s.result = none)
    (hstarted : s.standing.started = true) (hpaired : ∀ r ∈ s.runners, r.Paired) :
    GoesOn Standing.Ready s.awaitAsset := by
  unfold awaitAsset
  cases hs with
  | ended h => exact absurd h (by simp [hopen])
  | free h =>
    rw [show s.pendingAsset = none from h.asset]
    exact h.ready hstarted
  | asking k h =>
    obtain ⟨request, hasset⟩ := h.asset
    rw [show s.pendingAsset = some ⟨request, k⟩ from hasset]
    dsimp only
    split
    · have hresumed := resume_cases h hpaired
        (t := ({ s with world := (s.world.isReady request).2, pendingAsset := none } : Scene σ).mark
          .assetContinuation) rfl
      generalize resume (σ := σ) _ k = t at hresumed ⊢
      rcases hresumed with hended | hready | ⟨k', hasking⟩
      · rw [Option.isNone_eq_false_iff.mpr hended]
        exact .ended hended
      · rw [show t.pendingAsset = none from hready.asset]
        cases hresult : t.result with
        | none => exact hready
        | some result => exact .ended (by rw [hresult]; rfl)
      · obtain ⟨request', hasset'⟩ := hasking.asset
        rw [show t.pendingAsset = some ⟨request', k'⟩ from hasset', Option.isNone_some,
          Bool.and_false]
        exact .asking k' hasking
    · exact .asking k ⟨h.started, h.events, ⟨request, rfl⟩, h.debug⟩

/-- The first frame asks for the backdrop before anything else does. -/
theorem requestBackdrop_attended {s : Scene σ} (hs : s.Attended) (hopen : s.result = none) :
    s.requestBackdrop.Attended ∧ s.requestBackdrop.standing.started = true ∧
      s.requestBackdrop.result = none ∧
      s.requestBackdrop.runners = s.runners := by
  unfold requestBackdrop
  split
  · rename_i hstarted
    exact ⟨hs, hstarted, hopen, rfl⟩
  · rename_i hfirst
    refine ⟨?_, rfl, hopen, rfl⟩
    cases hs with
    | ended h => exact absurd h (by simp [hopen])
    | asking k h => exact absurd h.started hfirst
    | free h =>
      refine .asking .finishStart ⟨rfl, fun i r hr hload => ?_, ⟨_, rfl⟩, ?_⟩
      · exact absurd hload (by simp [h.events r (List.mem_of_getElem? hr)])
      · exact Bool.eq_false_iff.mpr fun hdebug => hfirst (h.opened hdebug)

theorem enter_goesOn {s : Scene σ} (hs : s.Attended) (hpaired : ∀ r ∈ s.runners, r.Paired) :
    GoesOn Standing.Ready s.enter := by
  unfold enter
  dsimp only
  split
  · rename_i h
    exact .ended h
  · rename_i h
    have hbegun : ({ s with steps := [], inputConsumed := false, frame := s.frame + 1 } : Scene
        σ).Attended := by
      cases hs with
      | ended h => exact .ended h
      | free h => exact .free h
      | asking k h => exact .asking k h
    obtain ⟨hattended, hstarted, hopen, hrunners⟩ :=
      requestBackdrop_attended hbegun (by simpa using h)
    refine awaitAsset_goesOn hattended hopen hstarted ?_
    rw [hrunners]
    exact hpaired

theorem prelude_goesOn {s : Scene σ} (hs : s.Attended) (hpaired : ∀ r ∈ s.runners, r.Paired)
    (input : InputState) :
    GoesOn Standing.Free (s.prelude input) := by
  have hentered := enter_goesOn hs hpaired
  unfold prelude
  generalize s.enter = entered at hentered ⊢
  obtain ⟨_ | _, t⟩ := entered
  · exact hentered
  · have hupdated := updateBattle_goesOn hentered input
    dsimp only
    generalize t.updateBattle input = updated at hupdated ⊢
    obtain ⟨_ | _, u⟩ := updated
    · exact hupdated
    · exact hupdated

theorem dispatchFrom_attended (input : InputState) (left : Nat) {s : Scene σ}
    (hs : s.result.isSome = true ∨ s.standing.Free) :
    (dispatchFrom input left s).result.isSome = true ∨
      (dispatchFrom input left s).standing.Free := by
  induction left generalizing s with
  | zero => exact hs
  | succ left ih =>
    unfold dispatchFrom
    split
    · exact hs
    · rename_i hblocked
      have hopen := result_of_isBlocked hblocked
      have hfree : s.standing.Free := hs.resolve_left (by simp [hopen])
      have hwaited : (s.checkWait input).2.standing.Free := by
        rw [(s.checkWait_effects input).deeds.path.standing hfree.main]
        exact hfree
      have hopen' := (s.checkWait_effects input).result_eq.trans hopen
      generalize s.checkWait input = waited at hwaited hopen' ⊢
      obtain ⟨_ | _, t⟩ := waited
      · exact .inr hwaited
      · have hturned := (t.processState_turned input hopen').attended hwaited
        dsimp only
        generalize t.processState input = processed at hturned ⊢
        obtain ⟨_ | _, u⟩ := processed
        · exact ih hturned
        · exact hturned

/-- After every frame, whatever suspends the main interpreter and every asset that is asked for is
attended to. -/
theorem update_attended {s : Scene σ} (hs : s.Attended) (hpaired : ∀ r ∈ s.runners, r.Paired)
    (input : InputState) :
    (s.update input).Attended := by
  have hbegun := prelude_goesOn hs hpaired input
  rw [update_eq]
  generalize s.prelude input = begun at hbegun ⊢
  obtain ⟨_ | _, t⟩ := begun
  · exact hbegun
  · rcases dispatchFrom_attended input maxActionsPerFrame (.inr hbegun) with h | h
    · exact .ended h
    · exact .free h

theorem after_attended {s : Scene σ} (hs : s.Attended) (hpaired : ∀ r ∈ s.runners, r.Paired)
    (inputs : List InputState) : (s.after inputs).Attended := by
  induction inputs generalizing s with
  | nil => exact hs
  | cons input rest ih =>
    exact ih (update_attended hs hpaired input) ((s.update_path input).persists.paired hpaired)

end Frame

theorem ofSetup_attended (config : BattleConfig) (database : Database) (setup : BattleSetup)
    (assets : σ) :
    (ofSetup config database setup assets).Attended ∧
      ∀ r ∈ (ofSetup config database setup assets).runners, r.Paired := by
  have hrunner (e : CommonEvent) :
      (EventRunner.ofEvent e).op.isLoad = false ∧ (EventRunner.ofEvent e).Paired := by
    by_cases he : e.trigger = .parallel ∧ e.instructions ≠ []
    · exact ⟨by simp [EventRunner.ofEvent, EventRunner.op, he]; rfl, fun _ => he.1⟩
    · have hnone : (EventRunner.ofEvent e).interp = none := if_neg he
      exact ⟨by simp [EventRunner.op, hnone, AsyncOp.isLoad], fun h => absurd h (by simp [hnone])⟩
  constructor
  · refine .free ⟨rfl, fun r hr => ?_, rfl, fun h => absurd h Bool.false_ne_true⟩
    obtain ⟨e, -, rfl⟩ := List.mem_map.mp hr
    exact (hrunner e).1
  · intro r hr
    obtain ⟨e, -, rfl⟩ := List.mem_map.mp hr
    exact (hrunner e).2

/-- Programs that neither end the battle nor, where hooks run, ask for assets. -/
def unasking (c : BattleConfig) : Repertoire where
  any _ := True
  event inst := inst.opcode ≠ .terminateBattle ∧ (c.maniacPatch = true → inst.opcode ≠ .showPicture)
  hooks := c.maniacPatch = true
  any_of_event _ _ := trivial
  assign inst h := by simp [h]

/-- In a frame that ends without a result and without an asset to wait for, the main interpreter is
not suspended, and a parallel event only if it ended the battle. So nothing is suspended but what
nobody acts upon; that stays so for the rest of the battle, and takes a common event that ends the
battle, or one that shows a picture out of a hook. -/
theorem unsuspended_iff [AssetLoader σ] {config : BattleConfig} {database : Database}
    {setup : BattleSetup} {assets : σ} {s : Scene σ}
    (h : create config database setup assets = .ok s) (inputs : List InputState)
    (hopen : (s.after inputs).result = none) (hfound : (s.after inputs).pendingAsset = none) :
    ((s.after inputs).Unsuspended ↔ ¬(s.after inputs).Orphaned) ∧
      (s.after inputs).director.interp.asyncOp = .none ∧
      (∀ r ∈ (s.after inputs).runners, r.op = .none ∨ ∃ result, r.op = .terminateBattle result) ∧
      ((s.after inputs).Orphaned → ∀ more, ((s.after inputs).after more).Orphaned) ∧
      (s.store.EventsWithin (·.opcode ≠ .terminateBattle) →
        (config.maniacPatch = true → s.store.EventsWithin (·.opcode ≠ .showPicture)) →
        (s.after inputs).Unsuspended) := by
  obtain ⟨-, rfl⟩ := create_eq_ok h
  have hpath := (ofSetup config database setup assets).after_path inputs
  have hstart := ofSetup_attended config database setup assets
  have hattended := after_attended hstart.1 hstart.2 inputs
  have hfree : ((ofSetup config database setup assets).after inputs).standing.Free := by
    cases hattended with
    | ended h => exact absurd h (by simp [hopen])
    | free h => exact h
    | asking k h =>
      obtain ⟨request, hasset⟩ := h.asset
      exact absurd (hfound.symm.trans hasset) nofun
  have hevents : ∀ r ∈ ((ofSetup config database setup assets).after inputs).runners,
      r.op = .none ∨ ∃ result, r.op = .terminateBattle result := by
    intro r hr
    have hidle := hfree.events r hr
    cases hop : r.op with
    | none => exact .inl rfl
    | loadAsset request kind name => simp [hop, AsyncOp.isLoad] at hidle
    | terminateBattle result => exact .inr ⟨result, rfl⟩
  have hiff : ((ofSetup config database setup assets).after inputs).Unsuspended ↔
      ¬((ofSetup config database setup assets).after inputs).Orphaned := by
    constructor
    · rintro ⟨-, hnone, hhooks⟩ (⟨r, hr, result, hop⟩ | hop)
      · exact absurd ((hnone r hr).symm.trans hop) nofun
      · exact hop hhooks
    · intro horphaned
      refine ⟨hfree.main, fun r hr => ?_, ?_⟩
      · rcases hevents r hr with hnone | ⟨result, hop⟩
        · exact hnone
        · exact absurd (.inl ⟨r, hr, result, hop⟩) horphaned
      · exact by_contra fun hop => horphaned (.inr hop)
  refine ⟨hiff, hfree.main, hevents, fun horphaned more => ?_, fun hending hshowing => ?_⟩
  · exact (after_path _ more).orphaned horphaned
  · have hwithin : (ofSetup config database setup assets).Within (unasking config) :=
      ofSetup_within (fun e he inst hinst =>
        ⟨hending e he inst hinst, fun hon => hshowing hon e he inst hinst⟩)
        (fun _ _ _ _ => trivial) id
    refine hiff.mpr fun horphaned => ?_
    rcases (hpath.within hwithin).orphaned horphaned with ⟨inst, hinst, hcode⟩ | ⟨hon,
      inst, hinst, hcode⟩
    · exact hinst.1 hcode
    · exact hinst.2 hon hcode

/-! ### A parallel event that ends the battle in vain -/

namespace Stranded

def config : BattleConfig := {}

def database : Database where
  actors := [{ id := 1, name := "A" }]
  enemies := [{ id := 1, name := "E" }]

def setup (program : Program) : BattleSetup where
  party := [1]
  troop := { members := [{ enemyId := 1 }] }
  commonEvents := [{ id := 1, trigger := .parallel, instructions := program }]

def scene (program : Program) : Scene InstantAssets := ofSetup config database (setup program) {}

def picture : Program := [{ opcode := .showPicture, text := "P" }, { opcode := .wait }]

def ending : Program := [{ opcode := .terminateBattle }]

end Stranded

set_option maxRecDepth 100000 in
theorem unsuspended_iff_of_picture :
    create Stranded.config Stranded.database (Stranded.setup Stranded.picture) {} =
        .ok (Stranded.scene Stranded.picture) ∧
      ((Stranded.scene Stranded.picture).after [{}]).Unsuspended := by
  have hcreated : create Stranded.config Stranded.database (Stranded.setup Stranded.picture) {} =
      .ok (Stranded.scene Stranded.picture) := rfl
  have hopen : ((Stranded.scene Stranded.picture).after [{}]).result = none := by decide +kernel
  have hfound : ((Stranded.scene Stranded.picture).after [{}]).pendingAsset = none := by
    decide +kernel
  have hending : (Stranded.scene Stranded.picture).store.EventsWithin
      (·.opcode ≠ .terminateBattle) := by
    unfold ProgramStore.EventsWithin
    decide
  exact ⟨hcreated, (unsuspended_iff hcreated [{}] hopen hfound).2.2.2.2 hending nofun⟩

-- Nobody asks the event what it is suspended on, so the battle goes on.
set_option maxRecDepth 100000 in
theorem not_unsuspended_of_ending :
    create Stranded.config Stranded.database (Stranded.setup Stranded.ending) {} =
        .ok (Stranded.scene Stranded.ending) ∧
      ((Stranded.scene Stranded.ending).after [{}]).result = none ∧
      ((Stranded.scene Stranded.ending).after [{}]).pendingAsset = none ∧
      ¬((Stranded.scene Stranded.ending).after [{}]).Unsuspended := by
  refine ⟨rfl, by decide +kernel, by decide +kernel, fun h => ?_⟩
  have hrunning : ∃ r ∈ ((Stranded.scene Stranded.ending).after [{}]).runners, r.op ≠ .none := by
    decide +kernel
  obtain ⟨r, hr, hop⟩ := hrunning
  exact hop (h.events r hr)

end Scene

end ActiveBattle
