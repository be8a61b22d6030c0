import ActiveBattle.Proofs.Scene.Scripts

/-!
# The updates before the outer states

Which interpreters a frame updates, in which order, and what they perform, told by following the
code: the update of whoever an asset is there for, one round of all scripts, and the hooks that are
called as gauges fill. Up to the outer states the plot unfolds with just these updates
(`prelude_unfolds`).
-/

namespace ActiveBattle.Scene

set_option autoImplicit false

open Scripts Plot

variable {σ : Type} [AssetLoader σ]

/-- The battle goes on, and its plot unfolds with these updates. -/
def Plays (s : Scene σ) (pumps : List Pump) (t : Scene σ) : Prop :=
  s.result = none → t.result = none ∧ Unfolds σ s.plot pumps t.plot

namespace Plays

variable {s t u : Scene σ} {pumps pumps' : List Pump}

theorem of_plot (h : t.plot = s.plot) : Plays s [] t := by
  intro hopen
  have hended : t.result.isSome = s.result.isSome := congrArg (·.scripts.ended) h
  rw [hopen, Option.isSome_none, Option.isSome_eq_false_iff, Option.isNone_iff_eq_none] at hended
  exact ⟨hended, .of_eq h⟩

theorem of_beats (hresult : t.result = s.result)
    (hflight : s.director.script.flight.Rises (Fleeing pumps) t.director.script.flight)
    (h : s.scripts.ended = false → Beats σ s.scripts pumps t.scripts) : Plays s pumps t := by
  intro hopen
  refine ⟨hresult.trans hopen, h ?_, hflight⟩
  simp [scripts, hopen]

theorem trans (h : Plays s pumps t) (h' : Plays t pumps' u) : Plays s (pumps ++ pumps') u := by
  intro hopen
  obtain ⟨ht, hst⟩ := h hopen
  obtain ⟨hu, htu⟩ := h' ht
  exact ⟨hu, hst.trans htu⟩

theorem after (h : t.plot = s.plot) (h' : Plays t pumps u) : Plays s pumps u := (of_plot h).trans h'

theorem before (h : Plays s pumps t) (h' : u.plot = t.plot) : Plays s pumps u := by
  rw [← List.append_nil pumps]
  exact h.trans (of_plot h')

end Plays

/-- The battle goes on, and its plot unfolds with hooks that are called, which perform this. -/
def Calls (s : Scene σ) (logs : List (List (Line σ))) (t : Scene σ) : Prop :=
  Plays s (Pump.ofCalls logs) t

namespace Calls

variable {s t u : Scene σ} {logs logs' : List (List (Line σ))}

theorem of_plot (h : t.plot = s.plot) : Calls s [] t := Plays.of_plot h

theorem trans (h : Calls s logs t) (h' : Calls t logs' u) : Calls s (logs ++ logs') u := by
  unfold Calls
  rw [Pump.ofCalls_append]
  exact Plays.trans h h'

theorem after (h : t.plot = s.plot) (h' : Calls t logs u) : Calls s logs u := (of_plot h).trans h'

theorem before (h : Calls s logs t) (h' : u.plot = t.plot) : Calls s logs u := Plays.before h h'

end Calls

/-! ### Single updates -/

/-- What a hook performs that the scene calls. -/
def fireCalls (s : Scene σ) (kind : HookKind) (battler : BattlerId) (a b c d : Int) :
    List (List (Line σ)) :=
  let codes := battler.codes
  match s.director.script.primed? s.store kind #v[codes.1, codes.2, a, b, c, d] with
  | some runner =>
    [CommandSet.hook.transcript s.store
      true ({ s.director.script with hookRunner := runner }.hooksAtWork s.world)]
  | none => []

theorem fire_calls (s : Scene σ) (kind : HookKind) (battler : BattlerId) (a b c d : Int) :
    Calls s (s.fireCalls kind battler a b c d) (s.fire kind battler a b c d) := by
  unfold fireCalls fire Director.trigger
  dsimp only
  rw [BattleScript.trigger_eq]
  cases hprimed : s.director.script.primed? s.store kind _ with
  | none => exact .of_plot rfl
  | some runner =>
    have hruns := Runs.transcript .hook s.store true
      ({ s.director.script with hookRunner := runner }.hooksAtWork s.world)
    have hflight := hruns.flight.mono fun h => Fleeing.of_hook h hruns.hook_pumped .call
    exact Plays.of_beats rfl hflight fun hopen => .of_primed hopen rfl hprimed rfl hruns

def mainPumps (s : Scene σ) (occasion : Occasion) : List Pump :=
  Pump.withCalls .main occasion
    (CommandSet.battle.transcript s.store occasion.allowsSuspend ⟨s.director.interp,
      s.director.script, s.world⟩)

theorem updateDirector_plays (s : Scene σ) (occasion : Occasion)
    (hasset : occasion = .asset → s.director.interp.asyncOp.isLoad = true) :
    Plays s (s.mainPumps occasion) (s.updateDirector occasion.allowsSuspend) := by
  have hruns := Runs.transcript .battle s.store occasion.allowsSuspend ⟨s.director.interp,
    s.director.script, s.world⟩
  refine .of_beats rfl (hruns.flight.mono fun h => .of_log h .main occasion) fun hopen => ?_
  have hbeat : Beat σ s.scripts (some (.ofLog .main occasion _)) _ :=
    .pump hopen rfl .main hasset hruns
  exact (Beats.single hbeat).trans (.of_pumped hruns.pumped hopen rfl)

def runnerPumps (s : Scene σ) (runner : EventRunner) (index : Nat) (occasion : Occasion) :
    List Pump :=
  if runner.isBackgroundReady s.world.game.switches (!occasion.allowsSuspend) then
    match runner.interp with
    | none => []
    | some i =>
      Pump.withCalls (.event index) occasion
        (CommandSet.battle.transcript s.store occasion.allowsSuspend
        ⟨EventRunner.started runner.event i, s.director.script, s.world⟩)
  else []

theorem updateRunner_plays (s : Scene σ) {runner : EventRunner} {index : Nat} (occasion : Occasion)
    (hrunner : s.runners[index]? = some runner)
    (hasset : occasion = .asset → runner.op.isLoad = true) :
    Plays s (s.runnerPumps runner index occasion)
      (s.updateRunner runner index (!occasion.allowsSuspend)) := by
  have hsame : s.runners.set index runner = s.runners := by
    obtain ⟨hlt, rfl⟩ := List.getElem?_eq_some_iff.mp hrunner
    exact List.set_getElem_self hlt
  unfold runnerPumps updateRunner EventRunner.update
  dsimp only
  change s.scripts.runners[index]? = _ at hrunner
  by_cases hready : runner.isBackgroundReady s.world.game.switches (!occasion.allowsSuspend) = true
  · rw [if_pos hready, if_pos hready]
    cases hi : runner.interp with
    | none => exact .of_plot (by simp only [plot, scripts, hsame])
    | some i =>
      have hload (h : occasion = .asset) : i.asyncOp.isLoad = true := by
        simpa [EventRunner.op, hi] using hasset h
      have hruns := Runs.transcript .battle s.store occasion.allowsSuspend
        ⟨EventRunner.started runner.event i, s.director.script, s.world⟩
      have hflight := hruns.flight.mono fun h => Fleeing.of_log h (.event index) occasion
      have hi' : s.scripts.interp? (.event index) = some i := by simp [interp?, hrunner, hi]
      have hput (j : Interpreter) :
          s.runners.set index { event := runner.event, interp := some j } =
          s.runners.modify index ({ · with interp := some j }) := by
        rw [List.modify_eq_set_getElem?, show s.runners[index]? = some runner from hrunner]
        rfl
      dsimp only
      rw [Bool.not_not]
      refine .of_beats rfl hflight fun hopen => ?_
      have hbeat : Beat σ s.scripts (some (.ofLog (.event index) occasion _)) _ :=
        .pump hopen hi' (.event hrunner) hload hruns
      simp only [scripts, hput]
      exact (Beats.single hbeat).trans (.of_pumped hruns.pumped hopen rfl)
  · rw [if_neg hready, if_neg hready]
    exact .of_plot (by simp only [plot, scripts, hsame])

def hookPumps (s : Scene σ) : List Pump :=
  if s.director.script.maniac && s.director.script.hookRunner.isRunning then
    [.ofLog .hooks .round
      (CommandSet.hook.transcript s.store true (s.director.script.hooksAtWork s.world))]
  else []

theorem updateHooks_plays (s : Scene σ) : Plays s s.hookPumps s.updateHooks := by
  unfold hookPumps updateHooks Director.continueHooks BattleScript.continueHooks
  dsimp only
  split
  · have hruns := Runs.transcript .hook s.store true (s.director.script.hooksAtWork s.world)
    have hflight := hruns.flight.mono fun h => Fleeing.of_hook h hruns.hook_pumped .round
    refine .of_beats rfl hflight fun hopen => ?_
    have hbeat : Beat σ s.scripts (some (.ofLog .hooks .round _)) _ :=
      .pump hopen rfl .hooks nofun hruns
    exact .single hbeat
  · exact .of_plot rfl

theorem startForeground_plays (s : Scene σ) : Plays s [] s.startForeground := by
  unfold startForeground
  split
  · exact .of_plot rfl
  · rename_i hidle
    split
    · rename_i runner _
      have hflight :
          (s.modifyDirector fun d => (d.startEvent s.store runner.id).2).director.script.flight =
          s.director.script.flight :=
        congrArg BattleScript.flight (s.director.startEvent_kept s.store runner.id).1
      refine .of_beats rfl (.of_eq hflight) fun hopen => ?_
      have hempty : s.director.interp.stack = [] := by
        simpa [Director.isRunning, Interpreter.isRunning] using hidle
      unfold modifyDirector Director.startEvent
      dsimp only
      split
      · exact .refl
      · rename_i event hevent
        split
        · exact .refl
        · exact .single (.starts hopen hempty hevent)
    · exact .of_plot rfl

/-! ### The scripts of a frame -/

def runnerPumpsFrom (s : Scene σ) (index : Nat) : Nat → List Pump
  | 0 => []
  | left + 1 =>
    match s.runners[index]? with
    | none => []
    | some runner =>
      s.runnerPumps runner index .round ++
        match (runner.update sceneCommands s.store false s.director.script s.world).op with
        | .loadAsset .. => []
        | _ => runnerPumpsFrom (s.updateRunner runner index false) (index + 1) left

theorem updateRunnersFrom_plays (s : Scene σ) (index left : Nat) :
    Plays s (s.runnerPumpsFrom index left) (s.updateRunnersFrom index left).2 := by
  induction left generalizing s index with
  | zero => exact .of_plot rfl
  | succ left ih =>
    unfold runnerPumpsFrom updateRunnersFrom
    cases hrunner : s.runners[index]? with
    | none => exact .of_plot rfl
    | some runner =>
      refine (s.updateRunner_plays .round hrunner (by simp)).trans ?_
      dsimp only
      cases (runner.update sceneCommands s.store false s.director.script s.world).op with
      | loadAsset request kind name => exact .of_plot rfl
      | none => exact ih _ _
      | terminateBattle result => exact ih _ _

/-- What runs in every frame: hooks, the main interpreter, and the parallel events. -/
def scriptPumps (s : Scene σ) : List Pump :=
  let started := s.updateHooks.startForeground
  s.hookPumps ++ started.mainPumps .round ++
    (started.updateDirector true).runnerPumpsFrom 0 (started.updateDirector true).runners.length

theorem runScripts_plays (s : Scene σ) : Plays s s.scriptPumps s.runScripts.2 := by
  have hstarted := s.updateHooks_plays.trans (startForeground_plays _)
  rw [List.append_nil] at hstarted
  have hmain := updateDirector_plays s.updateHooks.startForeground .round nofun
  exact (hstarted.trans hmain).trans (updateRunnersFrom_plays _ _ _)

/-- What the scene calls a hook for. -/
structure Cue where
  kind : HookKind
  battler : BattlerId
  a : Int
  b : Int
  c : Int
  d : Int

def fireAt (s : Scene σ) (c : Cue) : Scene σ := s.fire c.kind c.battler c.a c.b c.c c.d

/-- The calls of a hook for one thing after the other. -/
def cueCalls {α : Type} (cue : Scene σ → α → Cue) : Scene σ → List α → List (List (Line σ))
  | _, [] => []
  | s, x :: rest =>
    let c := cue s x
    s.fireCalls c.kind c.battler c.a c.b c.c c.d ++ cueCalls cue (s.fireAt c) rest

theorem cues_calls {α : Type} (cue : Scene σ → α → Cue) (l : List α) (s : Scene σ) :
    Calls s (cueCalls cue s l) (l.foldl (fun s x => s.fireAt (cue s x)) s) := by
  induction l generalizing s with
  | nil => exact .of_plot rfl
  | cons x rest ih => exact (s.fire_calls _ _ _ _ _ _).trans (ih _)

def gained (s : Scene σ) (gain : BattlerId × Int) : Cue :=
  ⟨.atbIncrement, gain.1, gain.2, ((s.roster.battler? gain.1).map (·.gauge)).getD 0, 0, 0⟩

def gaugeCalls (s : Scene σ) : List (List (Line σ)) :=
  let (gains, roster) :=
    s.roster.updateGauges s.database s.config.maxAtbGauge s.config.atbFillFrames
  cueCalls gained (s.modifyRoster fun _ => roster) gains

theorem fillGauges_calls (s : Scene σ) : Calls s s.gaugeCalls s.fillGauges := by
  unfold gaugeCalls fillGauges
  generalize s.roster.updateGauges s.database s.config.maxAtbGauge s.config.atbFillFrames = filled
  exact .after rfl (cues_calls gained filled.1 (s.modifyRoster fun _ => filled.2))

def atbCalls (s : Scene σ) : List (List (Line σ)) :=
  if s.director.isRunning || s.game.message.isActive then []
  else if s.isAccumulating then s.gaugeCalls else []

theorem updateAtb_calls (s : Scene σ) : Calls s s.atbCalls s.updateAtb := by
  have hchosen (s : Scene σ) : s.createEnemyActions.createAutoActions.plot = s.plot :=
    (createAutoActions_plot _).trans s.createEnemyActions_plot
  unfold atbCalls updateAtb
  split
  · exact .of_plot rfl
  · refine Calls.before ?_ (hchosen _)
    split
    · exact s.fillGauges_calls
    · exact .of_plot rfl

def courseCalls (s : Scene σ) : List (List (Line σ)) :=
  ((s.mark .endCheck).checkBattleEnd.2.mark .atb).atbCalls

theorem updateCourse_calls (s : Scene σ) : Calls s s.courseCalls s.updateCourse := by
  have hchecked : ((s.mark .endCheck).checkBattleEnd.2.mark .atb).plot = s.plot :=
    (s.mark .endCheck).checkBattleEnd_plot
  exact .after hchecked (Calls.before (updateAtb_calls _) rfl)

/-! ### A frame up to the outer states -/

/-- An end leaves nothing on the main interpreter. -/
theorem endBattle_unfolds (s : Scene σ) (result : BattleResult) (hopen : s.result = none) :
    Unfolds σ s.plot [] (s.endBattle result).plot := by
  unfold endBattle
  rw [hopen]
  refine ⟨.single (.ends ?_), .refl _⟩
  simp [plot, scripts, hopen]

theorem checkDirector_unfolds (s : Scene σ) (hopen : s.result = none) :
    Unfolds σ s.plot [] s.checkDirector.2.plot := by
  unfold checkDirector
  split
  · exact .refl
  · exact s.endBattle_unfolds _ hopen
  · exact .refl

/-- What the battle goes through before it may end. -/
theorem Plays.unfolds {s t u : Scene σ} {pumps : List Pump} (h : Plays s pumps t)
    (h' : t.result = none → Unfolds σ t.plot [] u.plot) (hopen : s.result = none) :
    Unfolds σ s.plot pumps u.plot := by
  obtain ⟨ht, hplays⟩ := h hopen
  rw [← List.append_nil pumps]
  exact hplays.trans (h' ht)

/-- The questions that follow the scripts either let the battle go on or end it, and update
nothing. -/
theorem checkEnds_plays (s : Scene σ) (input : InputState) (hopen : s.result = none) :
    Unfolds σ s.plot [] (s.checkEnds input).2.plot ∧
      ((s.checkEnds input).1 = true → Plays s [] (s.checkEnds input).2) := by
  have hdirector := s.checkDirector_unfolds hopen
  unfold checkEnds
  split
  · rename_i t ht
    rw [ht] at hdirector
    exact ⟨hdirector, nofun⟩
  · rename_i t ht
    obtain rfl := (checkDirector_of_true ht).1
    have hticked : (t.showNotices.mark .timers).updateTimers.2.plot = t.plot := t.showNotices_plot
    split
    · rename_i u hu
      rw [hu] at hticked
      exact ⟨(Plays.of_plot hticked).unfolds (u.endBattle_unfolds .abort) hopen, nofun⟩
    · rename_i u hu
      rw [hu] at hticked
      have hplays : Plays t [] u := .of_plot hticked
      dsimp only
      split
      · exact ⟨(hplays.before rfl hopen).2, nofun⟩
      · exact ⟨(hplays.before rfl hopen).2, fun _ => hplays.before rfl⟩

def battlePumps (s : Scene σ) (input : InputState) : List Pump :=
  if s.resumeFromDebug then []
  else
    let shown := (s.updatePresentation input).mark .events
    shown.scriptPumps ++
      match shown.runScripts with
      | (false, _) => []
      | (true, s) =>
        match s.checkForceFlee.checkEnds input with
        | (false, _) => []
        | (true, s) => Pump.ofCalls s.courseCalls

theorem updateBattle_plays (s : Scene σ) (input : InputState) (hopen : s.result = none) :
    Unfolds σ s.plot (s.battlePumps input) (s.updateBattle input).2.plot ∧
      ((s.updateBattle input).1 = true →
        Plays s (s.battlePumps input) (s.updateBattle input).2) := by
  rw [updateBattle_eq]
  unfold battlePumps
  split
  · exact ⟨.refl, fun _ => .of_plot rfl⟩
  · have hshown : ((s.updatePresentation input).mark .events).plot = s.plot :=
      s.updatePresentation_plot input
    have hran := Plays.after hshown (runScripts_plays _)
    dsimp only
    generalize ((s.updatePresentation input).mark .events).runScripts = ran at hran ⊢
    obtain ⟨_ | _, t⟩ := ran
    · rw [List.append_nil]
      exact ⟨(hran hopen).2, nofun⟩
    · have hfled := hran.before t.checkForceFlee_plot
      have hchecked := t.checkForceFlee.checkEnds_plays input (hfled hopen).1
      dsimp only
      generalize t.checkForceFlee.checkEnds input = checked at hchecked ⊢
      obtain ⟨_ | _, u⟩ := checked
      · rw [List.append_nil]
        exact ⟨hfled.unfolds (fun _ => hchecked.1) hopen, nofun⟩
      · have hcourse := (hfled.trans (hchecked.2 rfl)).trans u.updateCourse_calls
        rw [List.append_nil] at hcourse
        exact ⟨(hcourse hopen).2, fun _ => hcourse⟩

/-- While the battle goes on, whoever an asset is asked for waits for it. -/
def Linked (s : Scene σ) : Prop :=
  s.result = none → ∀ p, s.pendingAsset = some p →
    match p.continuation with
    | .finishStart => True
    | .resumeDirector => s.director.interp.asyncOp.isLoad = true
    | .resumeEvent index => ∀ runner, s.runners[index]? = some runner → runner.op.isLoad = true

def resumePumps (s : Scene σ) : Continuation → List Pump
  | .finishStart => []
  | .resumeDirector => s.mainPumps .asset
  | .resumeEvent index =>
    match s.runners[index]? with
    | none => []
    | some runner => s.runnerPumps runner index .asset

theorem resume_unfolds (s : Scene σ) (k : Continuation) (hopen : s.result = none)
    (hdirector : k = .resumeDirector → s.director.interp.asyncOp.isLoad = true)
    (hevent : ∀ index runner, k = .resumeEvent index → s.runners[index]? = some runner →
      runner.op.isLoad = true) :
    Unfolds σ s.plot (s.resumePumps k) (s.resume k).plot := by
  cases k with
  | finishStart => exact .refl
  | resumeDirector =>
    have hmain := s.updateDirector_plays .asset fun _ => hdirector rfl
    exact hmain.unfolds (checkDirector_unfolds _) hopen
  | resumeEvent index =>
    dsimp only [resumePumps, resume]
    cases hrunner : s.runners[index]? with
    | none => exact .refl
    | some runner =>
      have hrun := s.updateRunner_plays .asset hrunner fun _ => hevent index runner rfl hrunner
      dsimp only
      cases (runner.update sceneCommands s.store true s.director.script s.world).op with
      | loadAsset request kind name => exact (hrun hopen).2
      | none => exact (hrun hopen).2
      | terminateBattle result => exact (hrun hopen).2

/-- The asset is there that the scene waits for. -/
def fetched (s : Scene σ) (p : PendingAsset) : Scene σ :=
  { s with world := (s.world.isReady p.request).2, pendingAsset := none }.mark .assetContinuation

def awaitPumps (s : Scene σ) : List Pump :=
  match s.pendingAsset with
  | none => []
  | some p => if (s.world.isReady p.request).1 then (s.fetched p).resumePumps p.continuation else []

theorem awaitAsset_unfolds {s : Scene σ} (hs : s.Linked) (hopen : s.result = none) :
    Unfolds σ s.plot s.awaitPumps s.awaitAsset.2.plot ∧
      (s.awaitAsset.1 = true → s.awaitAsset.2.result = none) := by
  unfold awaitPumps awaitAsset
  cases hpending : s.pendingAsset with
  | none => exact ⟨.refl, fun _ => hopen⟩
  | some p =>
    have hlinked := hs hopen p hpending
    have hresumed : Unfolds σ s.plot ((s.fetched p).resumePumps p.continuation)
        ((s.fetched p).resume p.continuation).plot := by
      refine resume_unfolds (s.fetched p) p.continuation hopen (fun h => ?_) fun index runner h =>
        ?_
      · rw [h] at hlinked
        exact hlinked
      · rw [h] at hlinked
        exact hlinked runner
    dsimp only
    split
    · refine ⟨hresumed, fun hgoes => ?_⟩
      exact Option.isNone_iff_eq_none.mp (Bool.and_eq_true_iff.mp hgoes).1
    · exact ⟨.refl, nofun⟩

theorem requestBackdrop_linked {s : Scene σ} (hs : s.Linked) : s.requestBackdrop.Linked := by
  unfold requestBackdrop
  split
  · exact hs
  · intro _ p hp
    obtain rfl := Option.some.inj hp
    trivial

theorem requestBackdrop_plays (s : Scene σ) : Plays s [] s.requestBackdrop := by
  unfold requestBackdrop
  split <;> exact .of_plot rfl

def enterPumps (s : Scene σ) : List Pump :=
  let s := { s with steps := [], inputConsumed := false }
  if s.result.isSome then [] else { s with frame := s.frame + 1 }.requestBackdrop.awaitPumps

theorem enter_unfolds {s : Scene σ} (hs : s.Linked) :
    Unfolds σ s.plot s.enterPumps s.enter.2.plot ∧
      (s.enter.1 = true → s.enter.2.result = none) := by
  unfold enterPumps enter
  dsimp only
  split
  · exact ⟨.refl, nofun⟩
  · rename_i hnone
    have hopen : s.result = none := by simpa using hnone
    obtain ⟨hresult, hrequested⟩ := requestBackdrop_plays
      ({ s with steps := [], inputConsumed := false, frame := s.frame + 1 } : Scene σ) hopen
    have hlinked := requestBackdrop_linked
      (s := { s with steps := [], inputConsumed := false, frame := s.frame + 1 }) hs
    have hawaited := awaitAsset_unfolds hlinked hresult
    exact ⟨hrequested.trans hawaited.1, hawaited.2⟩

def preludePumps (s : Scene σ) (input : InputState) : List Pump :=
  s.enterPumps ++
    match s.enter with
    | (true, s) => s.battlePumps input
    | (false, _) => []

theorem prelude_unfolds {s : Scene σ} (hs : s.Linked) (input : InputState) :
    Unfolds σ s.plot (s.preludePumps input) (s.prelude input).2.plot ∧
      ((s.prelude input).1 = true → (s.prelude input).2.result = none) := by
  have hentered := enter_unfolds hs
  unfold preludePumps prelude
  generalize s.enter = entered at hentered ⊢
  obtain ⟨_ | _, t⟩ := entered
  · rw [List.append_nil]
    exact hentered
  · have hopen := hentered.2 rfl
    have hupdated := t.updateBattle_plays input hopen
    dsimp only
    generalize t.updateBattle input = updated at hupdated ⊢
    obtain ⟨_ | _, u⟩ := updated
    · exact ⟨hentered.1.trans hupdated.1, nofun⟩
    · exact ⟨hentered.1.trans hupdated.1, fun _ => (hupdated.2 rfl hopen).1⟩

end ActiveBattle.Scene
