import ActiveBattle.Proofs.Scene.AgreeingFrames
import ActiveBattle.Proofs.Scene.Relapse
import ActiveBattle.Proofs.Scene.Suspension

/-!
# The debug menu

A frame in which the player asks for the debug menu stops before the end of its bookkeeping, and the
next frame goes straight to the outer states. So what is left of the bookkeeping, the check for the
end and the gauges, comes in neither of the two (`Scene.update_quiet_of_halted`); and a decision
that closed a message in the first counts again in the second.
-/

namespace ActiveBattle

set_option autoImplicit false

namespace InputState

/-- The same buttons without that of the debug menu. -/
def quiet (i : InputState) : InputState :=
  ⟨i.triggered.filter (· ≠ .debugMenu), i.pressed.filter (· ≠ .debugMenu)⟩

theorem isTriggered_quiet (i : InputState) {b : Button} (hb : b ≠ .debugMenu) :
    i.quiet.isTriggered b = i.isTriggered b := by
  simp [quiet, isTriggered, hb]

@[simp] theorem isTriggered_quiet_debugMenu (i : InputState) :
    i.quiet.isTriggered .debugMenu = false := by
  simp [quiet, isTriggered]

end InputState

namespace Roster

/-- Where nobody can fill a gauge, nothing is gained. -/
theorem updateGauges_of_full {r : Roster} {db : Database} {max fillFrames : Int}
    (h : ∀ id ∈ r.partyIds ++ r.enemyIds, (r.battler? id).any (canFill db max) = false) :
    r.updateGauges db max fillFrames = ([], r) := by
  unfold updateGauges
  generalize r.partyIds ++ r.enemyIds = ids at h ⊢
  induction ids with
  | nil => rfl
  | cons id rest ih =>
    have hrest := ih fun id hid => h id (List.mem_cons_of_mem _ hid)
    have hid := h id List.mem_cons_self
    unfold fillGauges
    cases hb : r.battler? id with
    | none => exact hrest
    | some b =>
      rw [hb] at hid
      dsimp only
      rw [if_neg (by simpa using hid)]
      exact hrest

end Roster

namespace Scene

variable {σ : Type}

section Quiet

theorem updatePresentation_quiet (s : Scene σ) (input : InputState) :
    s.updatePresentation input.quiet = s.updatePresentation input := by
  unfold updatePresentation updateUi updateMessage updateCursor
  simp only [input.isTriggered_quiet (b := .decision) nofun,
    input.isTriggered_quiet (b := .down) nofun, input.isTriggered_quiet (b := .up) nofun]

theorem wantsDebugMenu_quiet (s : Scene σ) (input : InputState) :
    s.wantsDebugMenu input.quiet = false := by
  simp [wantsDebugMenu]

end Quiet

/-- Nothing is due at the end of the bookkeeping but that the cursors blink, and no message took the
decision. -/
structure NothingDue (s : Scene σ) : Prop where
  unused : s.inputConsumed = false
  settled : s.state = .defeat ∨
    s.roster.isPartyDefeated = false ∧ (s.state = .victory ∨ s.roster.areEnemiesDefeated = false)
  idle : s.director.isRunning = true ∨ s.game.message.isActive = true ∨
    (s.isAccumulating = true → ∀ id ∈ s.roster.partyIds ++ s.roster.enemyIds,
      (s.roster.battler? id).any (Roster.canFill s.database s.config.maxAtbGauge) = false) ∧
    (∀ id ∈ s.roster.enemyIds, s.isIdleAndFull id = false) ∧
    ∀ id ∈ s.roster.partyIds, s.isIdleAndFull id = true →
      s.isControllable id = true ∧ s.state ≠ .autoBattle

theorem checkBattleEnd_of_settled {s : Scene σ} (h : s.state = .defeat ∨
    s.roster.isPartyDefeated = false ∧ (s.state = .victory ∨ s.roster.areEnemiesDefeated = false)) :
    s.checkBattleEnd.2 = s := by
  unfold checkBattleEnd
  rcases h with h | ⟨hparty, h | hfoes⟩
  · simp [h]
  · simp [h, hparty]
  · by_cases hdefeat : s.state = .defeat
    · simp [hdefeat]
    · by_cases hvictory : s.state = .victory
      · simp [hvictory, hparty]
      · simp [hdefeat, hvictory, hparty, hfoes]

theorem createEnemyActions_of_none {s : Scene σ}
    (h : ∀ id ∈ s.roster.enemyIds, s.isIdleAndFull id = false) :
    s.createEnemyActions = s := by
  unfold createEnemyActions
  refine List.foldlRecOn (motive := (· = s)) _ _ rfl fun t ht id hid => ?_
  obtain rfl := ht
  rw [h id hid]
  rfl

theorem createAutoActions_of_none {s : Scene σ}
    (h : ∀ id ∈ s.roster.partyIds, s.isIdleAndFull id = true →
      s.isControllable id = true ∧ s.state ≠ .autoBattle) :
    s.createAutoActions = s := by
  unfold createAutoActions
  refine List.foldlRecOn (motive := (· = s)) _ _ rfl fun t ht id hid => ?_
  obtain rfl := ht
  refine if_neg fun hchosen => ?_
  obtain ⟨hready, halone⟩ := Bool.and_eq_true_iff.mp hchosen
  obtain ⟨hcontrol, hstate⟩ := h id hid hready
  simp [hcontrol, hstate] at halone

/-- The scene in which a frame stopped for the debug menu, as it could have gone on. -/
def halfway (s : Scene σ) : Scene σ := { s with resumeFromDebug := false }

/-- The scene as the frame after the debug menu begins. -/
def resumed (s : Scene σ) : Scene σ :=
  { s with
    inputConsumed := false
    frame := s.frame + 1
    steps := [.debugResume] }

variable [AssetLoader σ]

theorem fillGauges_of_full {s : Scene σ}
    (h : ∀ id ∈ s.roster.partyIds ++ s.roster.enemyIds,
      (s.roster.battler? id).any (Roster.canFill s.database s.config.maxAtbGauge) = false) :
    s.fillGauges = s := by
  unfold fillGauges
  rw [Roster.updateGauges_of_full h]
  rfl

theorem NothingDue.updateAtb_eq {s : Scene σ} (h : s.NothingDue) : s.updateAtb = s := by
  unfold updateAtb
  rcases h.idle with hrunning | hmessage | ⟨hfull, henemies, hparty⟩
  · rw [hrunning]
    rfl
  · rw [hmessage, Bool.or_true]
    rfl
  · have hfilled : (if s.isAccumulating then s.fillGauges else s) = s := by
      split
      · exact fillGauges_of_full (hfull ‹_›)
      · rfl
    rw [hfilled, createEnemyActions_of_none henemies, createAutoActions_of_none hparty, ite_self]

/-- When nothing is due, the frame after the debug menu begins as the frame would have gone on. -/
theorem NothingDue.agrees {s : Scene σ} (h : s.NothingDue) :
    Agrees .clock s.updateCourse s.resumed := by
  have hended : ((s.mark .endCheck).checkBattleEnd.2.mark .atb).updateAtb =
      (s.mark .endCheck).mark .atb := by
    rw [checkBattleEnd_of_settled (s := s.mark .endCheck) h.settled]
    exact NothingDue.updateAtb_eq (s := (s.mark .endCheck).mark .atb) ⟨h.unused, h.settled, h.idle⟩
  unfold updateCourse
  dsimp only
  rw [hended]
  unfold resumed
  rw [← h.unused]
  rfl

section Flag

/-! Only the question for the debug menu asks for it, and only the frame after it forgets that. -/

omit [AssetLoader σ] in
theorem endBattle_debug (s : Scene σ) (result : BattleResult) :
    (s.endBattle result).resumeFromDebug = s.resumeFromDebug := by
  unfold endBattle
  split <;> rfl

omit [AssetLoader σ] in
theorem checkDirector_debug (s : Scene σ) :
    s.checkDirector.2.resumeFromDebug = s.resumeFromDebug := by
  unfold checkDirector
  split
  · rfl
  · exact s.endBattle_debug _
  · rfl

theorem resume_debug (s : Scene σ) (c : Continuation) :
    (s.resume c).resumeFromDebug = s.resumeFromDebug := by
  cases c with
  | finishStart => rfl
  | resumeDirector => exact (s.updateDirector false).checkDirector_debug
  | resumeEvent index =>
    unfold resume
    dsimp only
    split
    · rfl
    · split <;> rfl

theorem enter_debug (s : Scene σ) : s.enter.2.resumeFromDebug = s.resumeFromDebug := by
  have hrequested (s : Scene σ) : s.requestBackdrop.resumeFromDebug = s.resumeFromDebug := by
    unfold requestBackdrop
    split <;> rfl
  have hawaited (s : Scene σ) : s.awaitAsset.2.resumeFromDebug = s.resumeFromDebug := by
    unfold awaitAsset
    split
    · rfl
    · dsimp only
      split
      · exact resume_debug _ _
      · rfl
  unfold enter
  dsimp only
  split
  · rfl
  · exact (hawaited _).trans (hrequested _)

theorem runScripts_debug (s : Scene σ) : s.runScripts.2.resumeFromDebug = s.resumeFromDebug := by
  have hrunners (index left : Nat) (s : Scene σ) :
      (s.updateRunnersFrom index left).2.resumeFromDebug = s.resumeFromDebug := by
    induction left generalizing s index with
    | zero => rfl
    | succ left ih =>
      unfold updateRunnersFrom
      split
      · rfl
      · dsimp only
        split
        · rfl
        · exact ih _ _
  have hforeground (s : Scene σ) : s.startForeground.resumeFromDebug = s.resumeFromDebug := by
    unfold startForeground
    split
    · rfl
    · split <;> rfl
  exact (hrunners _ _ _).trans (hforeground _)

omit [AssetLoader σ] in
theorem Turned.debug {s t : Scene σ} {lost : List BattlerId} (h : Turned s lost t)
    (hs : s.standing.Free) :
    t.resumeFromDebug = s.resumeFromDebug := by
  obtain ⟨u, hdeeds, houtcome⟩ := h
  have hu : u.resumeFromDebug = s.resumeFromDebug :=
    congrArg Standing.debug (hdeeds.standing hs.main)
  cases houtcome with
  | done => exact hu
  | decided h => cases h <;> exact hu
  | launched a a' _ _ _ _ _ => exact hu
  | ended _ => exact (u.endBattle_debug _).trans hu

theorem dispatchFrom_debug (input : InputState) (left : Nat) {s : Scene σ}
    (hs : s.result.isSome = true ∨ s.standing.Free) :
    (dispatchFrom input left s).resumeFromDebug = s.resumeFromDebug := by
  induction left generalizing s with
  | zero => rfl
  | succ left ih =>
    unfold dispatchFrom
    split
    · rfl
    · rename_i hblocked
      have hopen := result_of_isBlocked hblocked
      have hfree : s.standing.Free := hs.resolve_left (by simp [hopen])
      have hwaited : (s.checkWait input).2.standing = s.standing :=
        (s.checkWait_effects input).deeds.path.standing hfree.main
      have hopen' := (s.checkWait_effects input).result_eq.trans hopen
      generalize s.checkWait input = waited at hwaited hopen' ⊢
      obtain ⟨_ | _, t⟩ := waited
      · exact congrArg Standing.debug hwaited
      · have ht : t.standing.Free := by
          rw [show t.standing = s.standing from hwaited]
          exact hfree
        have hturned := t.processState_turned input hopen'
        have hnext := hturned.attended ht
        have hkept := (hturned.debug ht).trans (congrArg Standing.debug hwaited)
        dsimp only
        generalize t.processState input = processed at hnext hkept ⊢
        obtain ⟨_ | _, u⟩ := processed
        · exact (ih hnext).trans hkept
        · exact hkept

end Flag

section Halting

omit [AssetLoader σ] in
/-- The last questions of a frame before the debug menu, and that for it. -/
theorem checkEnds_cases (s : Scene σ) (input : InputState) :
    (∃ t, s.checkEnds input = (false, t) ∧ s.checkEnds input.quiet = (false, t) ∧
        t.resumeFromDebug = s.resumeFromDebug) ∨
      ∃ m, m.standing = s.standing ∧ m.steps.getLast? = some .debugMenu ∧
        s.checkEnds input.quiet = (true, m) ∧
        s.checkEnds input = if m.wantsDebugMenu input then
          (false, { m with resumeFromDebug := true }) else (true, m) := by
  have hchecked := s.checkDirector_debug
  unfold checkEnds
  rcases hdirector : s.checkDirector with ⟨_ | _, t⟩
  · rw [hdirector] at hchecked
    exact .inl ⟨t, rfl, rfl, hchecked⟩
  · obtain ⟨rfl, -⟩ := checkDirector_of_true hdirector
    have hticked : ((t.showNotices.mark .timers).updateTimers).2.standing = t.standing :=
      t.showNotices_standing
    dsimp only
    rcases hticks : (t.showNotices.mark .timers).updateTimers with ⟨_ | _, u⟩
    all_goals rw [hticks] at hticked
    · refine .inr ⟨u.mark .debugMenu, hticked, by simp [Scene.mark], ?_, rfl⟩
      dsimp only
      rw [wantsDebugMenu_quiet]
      rfl
    · exact .inl ⟨_, rfl, rfl, (u.endBattle_debug .abort).trans (congrArg Standing.debug hticked)⟩

/-- How far a frame gets that is not back from the debug menu: it stops before the question for it,
or comes to it. -/
theorem updateBattle_cases {s : Scene σ} (hs : s.standing.Ready)
    (hdebug : s.resumeFromDebug = false) (input : InputState) :
    (∃ t, s.updateBattle input = (false, t) ∧ t.resumeFromDebug = false) ∨
      ∃ m : Scene σ, m.standing.Free ∧ m.started = true ∧ m.resumeFromDebug = false ∧
        m.result = s.result ∧
        m.steps.getLast? = some .debugMenu ∧ s.updateBattle input.quiet = (true, m.updateCourse) ∧
        s.updateBattle input =
          if m.wantsDebugMenu input then (false, { m with resumeFromDebug := true })
            else (true, m.updateCourse) := by
  have hshown := s.updatePresentation_standing input
  have hran := runScripts_goesOn (s := (s.updatePresentation input).mark .events)
    (hshown.symm ▸ hs) ((congrArg Standing.debug hshown).trans hdebug)
  have hkept := ((s.updatePresentation input).mark .events).runScripts_debug.trans
    ((congrArg Standing.debug hshown).trans hdebug)
  have hrun := ((s.updatePresentation_backgrounds input).trans (mark_backgrounds _ .events)).trans
    (runScripts_backgrounds _)
  rw [updateBattle_eq, updateBattle_eq, if_neg (by simp [hdebug]), if_neg (by simp [hdebug]),
    updatePresentation_quiet]
  rcases hscripts : ((s.updatePresentation input).mark .events).runScripts with ⟨_ | _, u⟩
  all_goals rw [hscripts] at hran hkept hrun
  · exact .inl ⟨u, rfl, hkept⟩
  · have hfled := u.checkForceFlee_standing
    dsimp only
    rcases u.checkForceFlee.checkEnds_cases input with ⟨v, hloud, -, hv⟩ | ⟨m, hm, hlast,
      hquiet, hloud⟩
    · rw [hloud]
      exact .inl ⟨v, rfl, hv.trans ((congrArg Standing.debug hfled).trans hran.2)⟩
    · have hfree :=
        checkEnds_goesOn (s := u.checkForceFlee) (hfled ▸ hran.1) (hfled ▸ hran.2) input.quiet
      have hresult : m.result = s.result := by
        rw [show m.result = u.checkForceFlee.result from
          congrArg Course.result (checkEnds_of_true hquiet).course_eq, checkForceFlee_result]
        exact congrArg Course.result hrun.course_eq
      have hready : m.standing.Ready ∧ m.standing.debug = false := by
        rw [hm, hfled]
        exact hran
      rw [hquiet] at hfree
      rw [hloud, hquiet]
      refine .inr ⟨m, hfree, hready.1.started, hready.2, hresult, hlast, rfl, ?_⟩
      cases m.wantsDebugMenu input <;> rfl

theorem enter_of_started {s : Scene σ} (hopen : s.result = none) (hstarted : s.started = true)
    (hasset : s.pendingAsset = none) :
    s.enter = (true, { s with steps := [], inputConsumed := false, frame := s.frame + 1 }) := by
  unfold enter requestBackdrop awaitAsset
  simp [hopen, hstarted, hasset]

/-- A frame that stops for the debug menu, and the same frame if it did not. -/
theorem prelude_of_halted {s : Scene σ} (hs : s.standing.Free) (hopen : s.result = none)
    (hpaired : ∀ r ∈ s.runners, r.Paired) {input : InputState}
    (hhalted : (s.update input).resumeFromDebug = true) :
    ∃ m : Scene σ, m.standing.Free ∧ m.started = true ∧ m.resumeFromDebug = false ∧
      m.result = none ∧
      m.steps.getLast? = some .debugMenu ∧
        s.prelude input = (false, { m with resumeFromDebug := true }) ∧
      s.prelude input.quiet = (true, m.updateCourse.mark .dispatch) := by
  have hentered := enter_goesOn (.free hs) hpaired
  have hflag := s.enter_debug
  rw [update_eq] at hhalted
  unfold prelude at hhalted ⊢
  rcases hentrance : s.enter with ⟨_ | _, t⟩
  all_goals rw [hentrance] at hhalted hflag hentered
  · have hstarted : s.started = true := hs.opened (hflag.symm.trans hhalted)
    rw [enter_of_started hopen hstarted hs.asset] at hentrance
    exact absurd (congrArg Prod.fst hentrance) nofun
  · dsimp only at hhalted ⊢
    cases hdebug : t.resumeFromDebug with
    | true =>
      -- Back from the debug menu the frame goes through to its end.
      have hfree :
          (({ t with resumeFromDebug := false } : Scene σ).mark .debugResume).standing.Free :=
        ⟨hentered.main hdebug, hentered.events, hentered.asset, nofun⟩
      rw [updateBattle_eq, if_pos hdebug] at hhalted
      exact absurd (hhalted.symm.trans (dispatchFrom_debug input _ (.inr hfree))) nofun
    | false =>
      rcases updateBattle_cases hentered hdebug input with ⟨u, hu, hunflagged⟩ |
        ⟨m, hfree, hstarted, hunflagged, hresult, hlast, hquiet, hloud⟩
      · rw [hu] at hhalted
        exact absurd (hhalted.symm.trans hunflagged) nofun
      · rw [hloud] at hhalted ⊢
        rw [hquiet]
        cases hwants : m.wantsDebugMenu input with
        | true =>
          exact ⟨m, hfree, hstarted, hunflagged, hresult.trans (enter_of_true hentrance),
            hlast, rfl, rfl⟩
        | false =>
          have hcourse := m.updateCourse_standing
          rw [hwants] at hhalted
          have hkept :=
            dispatchFrom_debug (s := m.updateCourse.mark .dispatch) input maxActionsPerFrame
            (.inr (hcourse.symm ▸ hfree))
          exact absurd (hhalted.symm.trans
            (hkept.trans ((congrArg Standing.debug hcourse).trans hunflagged))) nofun

/-- The frame after the debug menu begins with the outer states. -/
theorem update_of_halted {m : Scene σ} (hstarted : m.started = true)
    (hasset : m.pendingAsset = none) (hopen : m.result = none) (hdebug : m.resumeFromDebug = false)
    (input : InputState) :
    ({ m with resumeFromDebug := true } : Scene σ).update input = m.resumed.dispatch input := by
  rw [update_eq]
  unfold prelude
  rw [enter_of_started (s := { m with resumeFromDebug := true }) hopen hstarted hasset]
  dsimp only
  rw [updateBattle_eq, if_pos rfl]
  unfold resumed
  rw [← hdebug]
  rfl

omit [AssetLoader σ] in
theorem Attended.free_of_open {s : Scene σ} (hs : s.Attended) (hopen : s.result = none)
    (hfound : s.pendingAsset = none) :
    s.standing.Free := by
  cases hs with
  | ended h => exact absurd h (by simp [hopen])
  | free h => exact h
  | asking k h =>
    obtain ⟨request, hasset⟩ := h.asset
    exact absurd (hfound.symm.trans hasset) nofun

/-- A frame that stops for the debug menu and the frame after it take the steps of one frame but for
the end of the bookkeeping, which comes in neither; and what a message took in the first is there
again in the second. Where nothing is due then, the battle goes on as if nobody had asked for the
menu. -/
theorem update_quiet_of_halted {config : BattleConfig} {database : Database} {setup : BattleSetup}
    {assets : σ} {s t : Scene σ} (h : create config database setup assets = .ok s)
    (inputs : List InputState) {input : InputState} (hopen : (s.after inputs).result = none)
    (hfound : (s.after inputs).pendingAsset = none) (ht : (s.after inputs).update input = t)
    (hhalted : t.resumeFromDebug = true) :
    t.steps.getLast? = some .debugMenu ∧
      (s.after inputs).update input.quiet = t.halfway.updateCourse.dispatch input.quiet ∧
      t.update input.quiet = t.halfway.resumed.dispatch input.quiet ∧
      (t.NothingDue → ∀ more, Agrees .clock (((s.after inputs).update input.quiet).after more)
        ((t.update input.quiet).after more)) := by
  obtain ⟨-, rfl⟩ := create_eq_ok h
  obtain ⟨hattended, hpaired⟩ := ofSetup_attended config database setup assets
  have hpath := (ofSetup config database setup assets).after_path inputs
  have hfree := (after_attended hattended hpaired inputs).free_of_open hopen hfound
  obtain ⟨m, hm, hstarted, hdebug, hresult, hlast, hloud, hquiet⟩ :=
    prelude_of_halted hfree hopen (hpath.persists.paired hpaired) (ht ▸ hhalted)
  obtain rfl : { m with resumeFromDebug := true } = t := by
    rw [← ht, update_eq, hloud]
  have hhalfway : ({ m with resumeFromDebug := true } : Scene σ).halfway = m := by
    unfold halfway
    rw [← hdebug]
  have hplain : ((ofSetup config database setup assets).after inputs).update input.quiet =
      m.updateCourse.dispatch input.quiet := by
    rw [update_eq, hquiet]
    rfl
  have hresumed := update_of_halted hstarted hm.asset hresult hdebug input.quiet
  rw [hhalfway]
  refine ⟨hlast, hplain, hresumed, fun hidle more => ?_⟩
  have hnothing : m.NothingDue := ⟨hidle.unused, hidle.settled, hidle.idle⟩
  rw [hplain, hresumed]
  exact (hnothing.agrees.dispatch input.quiet).after more

end Halting

namespace Interception

def config : BattleConfig where
  battleType := .traditional
  debugMenuEnabled := true
  terms := { battleStart := "", specialCombat := "" }

def database : Database where
  actors := [{ id := 1, name := "A" }]
  enemies := [{ id := 1, name := "E" }]

def setup : BattleSetup where
  party := [1]
  troop := { members := [{ enemyId := 1 }] }

def scene : Scene InstantAssets := ofSetup config database setup {}

/-- The player asks for the debug menu. -/
def ask : InputState where
  triggered := [.debugMenu]
  pressed := [.debugMenu]

end Interception

-- During the opening no gauge fills.
set_option maxRecDepth 100000 in
theorem update_quiet_of_halted_first_frame :
    create Interception.config Interception.database Interception.setup {} =
      .ok Interception.scene ∧
      (Interception.scene.update Interception.ask).resumeFromDebug = true ∧
      ∀ more, Agrees .clock ((Interception.scene.update Interception.ask.quiet).after more)
        (((Interception.scene.update Interception.ask).update Interception.ask.quiet).after
          more) := by
  have hcreated : create Interception.config Interception.database Interception.setup {} =
      .ok Interception.scene :=
    rfl
  have hhalted : (Interception.scene.update Interception.ask).resumeFromDebug = true := by
    decide +kernel
  have hnothing : (Interception.scene.update Interception.ask).NothingDue :=
    ⟨by decide +kernel, by decide +kernel, by decide +kernel⟩
  exact ⟨hcreated, hhalted, (update_quiet_of_halted hcreated [] rfl rfl rfl hhalted).2.2.2 hnothing⟩

/-- The gauges miss a frame. -/
theorem roster_ne_of_halted :
    create Interception.config Interception.database Interception.setup {} =
      .ok Interception.scene ∧
      (Interception.scene.after [{}]).result = none ∧
      (Interception.scene.after [{}]).pendingAsset = none ∧
      ((Interception.scene.after [{}]).update Interception.ask).steps.getLast? = some .debugMenu ∧
      (((Interception.scene.after [{}]).update Interception.ask).update
        Interception.ask.quiet).roster ≠
        ((Interception.scene.after [{}]).update Interception.ask.quiet).roster :=
  ⟨rfl, by decide +kernel, by decide +kernel, by decide +kernel, by decide +kernel⟩

end Scene

end ActiveBattle
