import ActiveBattle.Proofs.Scene.Finishing
import ActiveBattle.Proofs.Scene.Frames

/-!
# How a battle comes to its end

A turn decides a battle only by what it ends with, and has the party flee only where the
configuration allows it (`Turned.turnDecides`). Before the outer states a frame decides a battle
only in the scene in which it asks whether a side is wiped out, and the party flees only if a script
forces it (`prelude_preludeDecides`); what ends a battle there is the main interpreter, or a
countdown (`prelude_stops`).
-/

namespace ActiveBattle

set_option autoImplicit false

/-- A countdown that was to end the battle ran, and has run out. -/
structure CountdownTimer.Expires (t t' : CountdownTimer) : Prop where
  running : t.running = true
  battleAbort : t.battleAbort = true
  stopped : t'.running = false
  frames : t'.frames = 0

theorem CountdownTimer.expires_of_update {t : CountdownTimer} (h : t.update.1 = true) :
    t.Expires t.update.2 := by
  unfold update at h ⊢
  dsimp only at h ⊢
  generalize (if t.frames > 0 then t.frames - 1 else t.frames) = frames at h ⊢
  cases hrunning : t.running with
  | false => simp [hrunning] at h
  | true =>
    by_cases hzero : frames = 0
    · subst hzero
      rw [hrunning] at h
      exact ⟨hrunning, h, rfl, rfl⟩
    · simp [hrunning, hzero] at h

def Timers.Expires (t t' : Timers) : Prop := t.first.Expires t'.first ∨ t.second.Expires t'.second

theorem Timers.expires_of_update {t : Timers} (h : (t.update.1.1 || t.update.1.2) = true) :
    t.Expires t.update.2 :=
  (Bool.or_eq_true_iff.mp h).imp CountdownTimer.expires_of_update CountdownTimer.expires_of_update

namespace Scene

variable {σ : Type} {s t : Scene σ}

/-- All enemies are wiped out, but not the party. -/
structure Won (s : Scene σ) : Prop where
  result : s.result = none
  party : s.roster.isPartyDefeated = false
  enemies : s.roster.areEnemiesDefeated = true

/-- The party is wiped out. -/
structure Lost (s : Scene σ) : Prop where
  result : s.result = none
  party : s.roster.isPartyDefeated = true

/-! ### Turns -/

theorem Leads.escapeAllowed {next : SceneState} (h : Leads s next) (hs : Routed s)
    (hnext : next = .escape) :
    s.config.escapeAllowed = true := by
  cases h with
  | escape _ hallowed => exact hallowed
  | window _ hmenu _ =>
    rw [hnext] at hmenu
    contradiction
  | cancel h =>
    have hmenu := hs.target h
    rw [hnext] at hmenu
    contradiction
  | resume h _ =>
    unfold stateAfterBattle at hnext
    split at hnext
    · rcases hs.battle h with hway | hway | hway <;> rw [hway] at hnext <;> contradiction
    · split at hnext <;> contradiction
  | _ => contradiction

/-- Deeds have the party flee only where that is allowed. -/
theorem Deed.flees (h : Deed s t) (hs : Routed s) (hescape : t.state = .escape) :
    s.state = .escape ∨ s.config.escapeAllowed = true := by
  cases h with
  | effect h => exact .inl ((congrArg Course.state h.course_eq).symm.trans hescape)
  | go h => exact .inr (h.escapeAllowed hs hescape)
  | advance _ => exact .inl hescape
  | command id _ _ => contradiction
  | leave _ => contradiction
  | order a _ _ _ _ =>
    rcases s.enqueue_cases a with ⟨-, h⟩ | ⟨b, -, ⟨-, h⟩ | ⟨-, h⟩⟩
    · rw [h] at hescape
      exact .inl hescape
    · rw [h] at hescape
      contradiction
    · rw [h] at hescape
      exact .inl hescape
  | discard a rest _ _ _ _ =>
    exact .inl ((congrArg Course.state (s.discard_course a.source)).symm.trans hescape)
  | pass _ _ h => exact .inl ((congrArg Course.state h.course_eq).symm.trans hescape)
  | rework a a' _ _ => exact .inl hescape
  | away _ _ => exact .inl hescape
  | release a _ h =>
    rw [releasePending_eq h] at hescape
    exact .inl hescape

/-- What a turn makes of the state of a battle: it is decided by what the turn ends with, and the
party flees where that is allowed. An end is the one that belongs to the state. -/
structure TurnDecides (s t : Scene σ) : Prop where
  victory : t.state = .victory → s.state = .victory ∨ t.Won
  defeat : t.state = .defeat → s.state = .defeat ∨ t.Lost
  escape : t.state = .escape → s.state = .escape ∨ s.config.escapeAllowed = true
  result : ∀ result, t.result = some result → t.Ends result

theorem eq_of_endBattle {result other : BattleResult} (hopen : s.result = none)
    (h : (s.endBattle result).result = some other) : result = other := by
  unfold endBattle at h
  rw [if_neg (by simp [hopen])] at h
  exact Option.some.inj h

theorem endBattle_substate (s : Scene σ) (result : BattleResult) :
    (s.endBattle result).substate = s.substate := by
  unfold endBattle
  split <;> rfl

theorem Ends.endBattle {result : BattleResult} (h : s.Ends result) :
    (s.endBattle result).Ends result := by
  cases h with
  | victory h hsub =>
    exact .victory (by rw [endBattle_state, h]) (by rw [endBattle_substate]; exact hsub)
  | defeat h => exact .defeat (by rw [endBattle_state, h])
  | escape h => exact .escape (by rw [endBattle_state, h])

theorem TurnDecides.of_states (hdecided : t.state.isDecided = true → s.state = t.state)
    (hescape : t.state = .escape → s.state = .escape ∨ s.config.escapeAllowed = true)
    (hresult : ∀ result, t.result = some result → t.Ends result) : TurnDecides s t := by
  refine ⟨fun h => .inl ?_, fun h => .inl ?_, hescape, hresult⟩
  · rw [hdecided (by rw [h]; rfl), h]
  · rw [hdecided (by rw [h]; rfl), h]

theorem Path.state_cases {lost : List BattlerId} (h : Path Deed s lost t) (hs : Routed s) :
    (t.state.isDecided = true → s.state = t.state) ∧
      (t.state = .escape → s.state = .escape ∨ s.config.escapeAllowed = true) := by
  induction h with
  | refl => exact ⟨fun _ => rfl, .inl⟩
  | @step t u _ h hstep ih =>
    have hrouted : Routed t := h.routed (fun _ _ => Deed.routed) hs
    have hconfig : t.config = s.config := (h.mono fun _ _ => .deed).setting.config
    refine ⟨fun hdecided => ?_, fun hescape => ?_⟩
    · rcases hstep.state_cases hrouted with hsame | ⟨-, hnot⟩
      · rw [hsame] at hdecided ⊢
        exact ih.1 hdecided
      · rw [hnot] at hdecided
        contradiction
    · rcases hstep.flees hrouted hescape with hbefore | hallowed
      · exact ih.2 hbefore
      · exact .inr (hconfig ▸ hallowed)
  | take _ htake ih =>
    cases htake
    exact ih

theorem Turned.turnDecides {lost : List BattlerId} (h : Turned s lost t) (hs : Routed s)
    (hopen : s.result = none) :
    TurnDecides s t := by
  obtain ⟨u, hdeeds, houtcome⟩ := h
  obtain ⟨hdecided, hescape⟩ := hdeeds.state_cases hs
  have hresult : u.result = none := hdeeds.result_eq.trans hopen
  have unended {t : Scene σ} (h : t.result = u.result) : ∀ result, t.result = some result →
      t.Ends result := by
    intro result hended
    rw [h, hresult] at hended
    contradiction
  cases houtcome with
  | done => exact .of_states hdecided hescape (unended rfl)
  | decided h =>
    cases h with
    | lose _ hparty => exact ⟨nofun, fun _ => .inr ⟨hresult, hparty⟩, nofun, unended rfl⟩
    | win _ hparty henemies =>
      exact ⟨fun _ => .inr ⟨hresult, hparty, henemies⟩, nofun, nofun, unended rfl⟩
  | launched a a' _ _ _ _ _ => exact .of_states hdecided hescape (unended rfl)
  | @ended result h =>
    have hstate := u.endBattle_state result
    refine .of_states (by rwa [hstate]) (by rwa [hstate]) fun other hended => ?_
    obtain rfl := eq_of_endBattle hresult hended
    exact h.endBattle

/-! ### Up to the outer states -/

theorem Concludes.state_eq (h : Concludes s t) : t.state = s.state := by
  obtain ⟨u, hu, rfl | ⟨result, -, rfl⟩⟩ := h
  · exact congrArg Course.state hu.course_eq
  · exact (u.endBattle_state result).trans (congrArg Course.state hu.course_eq)

theorem checkBattleEnd_state (s : Scene σ) : s.checkBattleEnd.2.state = s.state ∨
    (s.checkBattleEnd.2.state = .defeat ∧ s.roster.isPartyDefeated = true) ∨
      s.checkBattleEnd.2.state = .victory ∧ s.roster.isPartyDefeated = false ∧
        s.roster.areEnemiesDefeated = true := by
  unfold checkBattleEnd
  by_cases hdefeat : s.state = .defeat
  · simp [hdefeat]
  · cases hparty : s.roster.isPartyDefeated with
    | true => exact .inr (.inl (by simp [hdefeat, setState]))
    | false =>
      by_cases hvictory : s.state = .victory
      · simp [hvictory]
      · cases henemies : s.roster.areEnemiesDefeated with
        | true => exact .inr (.inr (by simp [hdefeat, hvictory, setState]))
        | false => simp [hdefeat, hvictory]

theorem chooseActions_state (s : Scene σ) (due : Scene σ → BattlerId → Bool)
    (chooser : Scene σ → Chooser) (ids : List BattlerId) :
    (ids.foldl (fun s id => if due s id then s.enqueueChoice (chooser s) id else s) s).state =
      s.state ∨
      (ids.foldl (fun s id => if due s id then s.enqueueChoice (chooser s) id else s) s).state =
        .selectActor := by
  refine List.foldlRecOn (motive := fun t : Scene σ => t.state = s.state ∨ t.state = .selectActor)
    ids _ (.inl rfl) ?_
  intro t ht id _
  split
  · rcases t.enqueueChoice_state (chooser t) id with h | h
    · rwa [h]
    · exact .inr h
  · exact ht

variable [AssetLoader σ]

/-- Gauges that fill decide nothing; who acts on its own closes windows. -/
theorem updateAtb_state (s : Scene σ) :
    s.updateAtb.state = s.state ∨ s.updateAtb.state = .selectActor := by
  unfold updateAtb
  split
  · exact .inl rfl
  · have hfilled : (if s.isAccumulating then s.fillGauges else s).state = s.state := by
      split
      · exact congrArg Course.state s.fillGauges_backgrounds.course_eq
      · rfl
    generalize (if s.isAccumulating then s.fillGauges else s) = t at hfilled
    rw [← hfilled]
    have henemies := t.chooseActions_state isIdleAndFull enemyChooser t.roster.enemyIds
    have hparty := t.createEnemyActions.chooseActions_state
      (fun s id => s.isIdleAndFull id &&
        !(s.isControllable id && !decide (t.createEnemyActions.state = .autoBattle)))
      autoChooser t.createEnemyActions.roster.partyIds
    rcases hparty with h | h
    · exact henemies.imp h.trans h.trans
    · exact .inr h

theorem updateCourse_state (s : Scene σ) :
    s.updateCourse.state = s.state ∨ s.updateCourse.state = .selectActor ∨
    (s.updateCourse.state = .defeat ∧ s.roster.isPartyDefeated = true) ∨
      s.updateCourse.state = .victory ∧ s.roster.isPartyDefeated = false ∧
        s.roster.areEnemiesDefeated = true := by
  have hasked := (s.mark .endCheck).checkBattleEnd_state
  have hfilled := ((s.mark .endCheck).checkBattleEnd.2.mark .atb).updateAtb_state
  have hstate : s.updateCourse.state =
      ((s.mark .endCheck).checkBattleEnd.2.mark .atb).updateAtb.state :=
    congrArg Course.state s.updateCourse_backgrounds.course_eq
  rw [hstate]
  rcases hfilled with h | h
  · rw [h]
    exact hasked.imp_right .inr
  · exact .inr (.inl h)

/-- The scene in which a frame asks whether a side is wiped out, if it gets that far. -/
def deciding? (s : Scene σ) (input : InputState) : Option (Scene σ) :=
  match s.scripted? input with
  | none => none
  | some s =>
    match s.checkForceFlee.checkEnds input with
    | (false, _) => none
    | (true, s) => some s

/-- How far a frame gets, and what it has made of the scene there. -/
theorem prelude_stages (s : Scene σ) (input : InputState) :
    (s.deciding? input = none ∧ (s.prelude input).2.state = s.state ∧
        ((s.prelude input).2.result = none ∨ (s.prelude input).2 = s.enter.2)) ∨
      ∃ t, s.scripted? input = some t ∧ t.state = s.state ∧ t.result = none ∧
        ((s.deciding? input = none ∧
          s.prelude input = (false, (t.checkForceFlee.checkEnds input).2)) ∨
          ∃ u, s.deciding? input = some u ∧ u.state = t.checkForceFlee.state ∧ u.result = none ∧
            (s.prelude input).2 = u.updateCourse.mark .dispatch) := by
  have hentered := s.enter_concludes.state_eq
  unfold deciding? scripted? prelude
  rcases hentrance : s.enter with ⟨_ | _, t⟩
  · rw [hentrance] at hentered
    exact .inl ⟨rfl, hentered, .inr rfl⟩
  · rw [hentrance] at hentered
    have htopen := enter_of_true hentrance
    dsimp only
    rw [updateBattle_eq]
    by_cases hdebug : t.resumeFromDebug = true
    · simp only [if_pos hdebug]
      exact .inl ⟨trivial, hentered, .inl htopen⟩
    · simp only [if_neg hdebug]
      have hran :=
        ((t.updatePresentation_backgrounds input).trans (mark_backgrounds _ .events)).trans
        (runScripts_backgrounds _)
      have hstate := (congrArg Course.state hran.course_eq).trans hentered
      have hresult := (congrArg Course.result hran.course_eq).trans htopen
      generalize ((t.updatePresentation input).mark .events).runScripts = ran at hstate hresult ⊢
      obtain ⟨_ | _, u⟩ := ran
      · exact .inl ⟨rfl, hstate, .inl hresult⟩
      · refine .inr ⟨u, rfl, hstate, hresult, ?_⟩
        dsimp only
        rcases hchecked : u.checkForceFlee.checkEnds input with ⟨_ | _, v⟩
        · exact .inl ⟨rfl, rfl⟩
        · have hasked := (checkEnds_of_true hchecked).course_eq
          exact .inr ⟨v, rfl, congrArg Course.state hasked,
            (congrArg Course.result hasked).trans (u.checkForceFlee_result.trans hresult), rfl⟩

/-- Up to the question for a flight, the plot unfolds with updates of the frame. -/
theorem scripted?_unfolds (hs : s.Linked) {input : InputState} (h : s.scripted? input = some t) :
    ∃ pumps, pumps ⊆ s.preludePumps input ∧ Plot.Unfolds σ s.plot pumps t.plot := by
  have hentered := enter_unfolds hs
  unfold scripted? at h
  unfold preludePumps
  generalize s.enter = entered at hentered h ⊢
  obtain ⟨_ | _, u⟩ := entered
  · contradiction
  · dsimp only at h ⊢
    have hopen := hentered.2 rfl
    unfold battlePumps
    by_cases hdebug : u.resumeFromDebug = true
    · simp [hdebug] at h
    · rw [if_neg hdebug] at h ⊢
      have hshown : ((u.updatePresentation input).mark .events).plot = u.plot :=
        u.updatePresentation_plot input
      have hran := Plays.after hshown (runScripts_plays _) hopen
      dsimp only
      generalize ((u.updatePresentation input).mark .events).runScripts = ran at hran h ⊢
      obtain ⟨_ | _, v⟩ := ran
      · contradiction
      · obtain rfl := Option.some.inj h
        refine ⟨_, ?_, hentered.1.trans hran.2⟩
        exact List.append_subset.mpr ⟨List.subset_append_left _ _,
          fun p hp => List.mem_append_right _ (List.mem_append_left _ hp)⟩

section Timers

theorem updateRunnersFrom_timers (s : Scene σ) (index left : Nat) :
    (s.updateRunnersFrom index left).2.game.timers = s.game.timers := by
  induction left generalizing s index with
  | zero => rfl
  | succ left ih =>
    unfold updateRunnersFrom
    cases s.runners[index]? with
    | none => rfl
    | some runner =>
      have hran := (runner.update_follows s.store false s.director.script s.world).1.timers
      dsimp only
      split
      · exact hran
      · exact (ih _ _).trans hran

/-- No script touches the countdowns. -/
theorem runScripts_timers (s : Scene σ) : s.runScripts.2.game.timers = s.game.timers := by
  have hhooks : s.updateHooks.game.timers = s.game.timers :=
    (s.director.continueHooks_follows s.store s.world).1.timers
  have hstarted (s : Scene σ) : s.startForeground.game.timers = s.game.timers := by
    unfold startForeground
    split
    · rfl
    · split <;> rfl
  have hmain (s : Scene σ) : (s.updateDirector true).game.timers = s.game.timers :=
    (s.director.update_follows s.store true s.world).1.timers
  exact (updateRunnersFrom_timers _ _ _).trans ((hmain _).trans ((hstarted _).trans hhooks))

omit [AssetLoader σ] in
theorem endBattle_timers (s : Scene σ) (result : BattleResult) :
    (s.endBattle result).game.timers = s.game.timers := by
  unfold endBattle
  split <;> rfl

theorem resume_timers (s : Scene σ) (k : Continuation) :
    (s.resume k).game.timers = s.game.timers := by
  cases k with
  | finishStart => rfl
  | resumeDirector =>
    have hmain : (s.updateDirector false).game.timers = s.game.timers :=
      (s.director.update_follows s.store false s.world).1.timers
    have hchecked (s : Scene σ) : s.checkDirector.2.game.timers = s.game.timers := by
      unfold checkDirector
      split
      · rfl
      · exact s.endBattle_timers _
      · rfl
    exact (hchecked _).trans hmain
  | resumeEvent index =>
    unfold resume
    dsimp only
    split
    · rfl
    · rename_i runner _
      have hran := (runner.update_follows s.store true s.director.script s.world).1.timers
      split <;> exact hran

theorem enter_timers (s : Scene σ) : s.enter.2.game.timers = s.game.timers := by
  have hrequested (s : Scene σ) : s.requestBackdrop.game.timers = s.game.timers := by
    unfold requestBackdrop
    split <;> rfl
  have hawaited (s : Scene σ) : s.awaitAsset.2.game.timers = s.game.timers := by
    unfold awaitAsset
    split
    · rfl
    · dsimp only
      split
      · exact resume_timers _ _
      · rfl
  unfold enter
  dsimp only
  split
  · rfl
  · exact (hawaited _).trans (hrequested _)

omit [AssetLoader σ] in
theorem updatePresentation_timers (s : Scene σ) (input : InputState) :
    (s.updatePresentation input).game.timers = s.game.timers := by
  have hui (s : Scene σ) : (s.updateUi input).game.timers = s.game.timers := by
    dsimp only [updateUi, updateMessage, updateCursor]
    split
    · split <;> rfl
    · split
      · rfl
      · split
        · rfl
        · split <;> rfl
  have hflight (s : Scene σ) : s.updateRunningAway.game.timers = s.game.timers := by
    unfold updateRunningAway
    split <;> rfl
  exact (hui _).trans (hflight _)

/-- Nothing touches the countdowns of a frame before it counts them down. -/
theorem scripted?_timers {input : InputState} (h : s.scripted? input = some t) :
    t.game.timers = s.game.timers := by
  have hentered := s.enter_timers
  unfold scripted? at h
  generalize s.enter = entered at hentered h
  obtain ⟨_ | _, u⟩ := entered
  · contradiction
  · dsimp only at h
    split at h
    · contradiction
    · have hran := runScripts_timers ((u.updatePresentation input).mark .events)
      generalize ((u.updatePresentation input).mark .events).runScripts = ran at hran h
      obtain ⟨_ | _, v⟩ := ran
      · contradiction
      · obtain rfl := Option.some.inj h
        exact hran.trans ((u.updatePresentation_timers input).trans hentered)

end Timers

section Stopping

variable {result : BattleResult}

omit [AssetLoader σ] in
theorem checkDirector_stops (hopen : s.result = none) (h : s.checkDirector.2.result = some result) :
    s.director.interp.asyncOp = .terminateBattle result := by
  unfold checkDirector at h
  split at h
  · rw [hopen] at h
    contradiction
  · rename_i other hop
    obtain rfl := eq_of_endBattle hopen h
    exact hop
  · simp [hopen] at h

omit [AssetLoader σ] in
theorem showNotices_timers (s : Scene σ) : s.showNotices.game.timers = s.game.timers := by
  unfold showNotices
  refine List.foldlRecOn (motive := fun t : Scene σ => t.game.timers = s.game.timers) _ _ rfl
    fun t ht n _ => ?_
  exact ht

omit [AssetLoader σ] in
/-- The main interpreter ends a battle, or a countdown does. -/
theorem checkEnds_stops {input : InputState} (hopen : s.result = none)
    (h : (s.checkEnds input).2.result = some result) :
    s.director.interp.asyncOp = .terminateBattle result ∨
      result = .abort ∧ s.game.timers.Expires (s.checkEnds input).2.game.timers := by
  have hdirector (h : s.checkDirector.2.result = some result) := checkDirector_stops hopen h
  unfold checkEnds at h ⊢
  rcases hchecked : s.checkDirector with ⟨_ | _, t⟩
  · rw [hchecked] at h hdirector
    exact .inl (hdirector h)
  · obtain rfl := (checkDirector_of_true hchecked).1
    rw [hchecked] at h
    have hnoticed : (t.showNotices.mark .timers).game.timers = t.game.timers := t.showNotices_timers
    have hresult : (t.showNotices.mark .timers).result = none :=
      (congrArg Course.result t.showNotices_backgrounds.course_eq).trans hopen
    dsimp only at h ⊢
    generalize t.showNotices.mark .timers = u at h hnoticed hresult ⊢
    rcases hticked : u.updateTimers with ⟨_ | _, v⟩
    · have hv : v.result = none := by
        rw [show v = u.updateTimers.2 by rw [hticked]]
        exact hresult
      rw [hticked] at h
      dsimp only at h
      split at h <;> simp [mark, hv] at h
    · have hv : v = u.updateTimers.2 := by rw [hticked]
      have hexpired : (u.game.timers.update.1.1 || u.game.timers.update.1.2) = true :=
        congrArg Prod.fst hticked
      have hended : v.result = none := by
        rw [hv]
        exact hresult
      rw [hticked] at h
      obtain rfl := eq_of_endBattle hended h
      refine .inr ⟨rfl, ?_⟩
      dsimp only
      rw [endBattle_timers, hv, ← hnoticed]
      exact Timers.expires_of_update hexpired

theorem resume_stops (k : Continuation) (hopen : s.result = none)
    (hdirector : k = .resumeDirector → s.director.interp.asyncOp.isLoad = true)
    (h : (s.resume k).result = some result) :
    s.director.interp.asyncOp = .terminateBattle result ∨ result = .abort ∧
      Ending (s.resumePumps k) := by
  cases k with
  | finishStart =>
    rw [show (s.resume .finishStart).result = s.result from rfl, hopen] at h
    contradiction
  | resumeDirector =>
    obtain ⟨hmain, hunfolds⟩ := s.updateDirector_plays .asset (fun _ => hdirector rfl) hopen
    exact hunfolds.beats.ended (checkDirector_stops (s := s.updateDirector false) hmain h)
  | resumeEvent index =>
    unfold resume at h
    dsimp only at h
    split at h
    · rw [hopen] at h
      contradiction
    · split at h <;> simp [hopen] at h

theorem enter_stops (hs : s.Linked) (hopen : s.result = none) (h : s.enter.2.result = some result) :
    s.director.interp.asyncOp = .terminateBattle result ∨ result = .abort ∧
      Ending s.enterPumps := by
  have hawaited {s : Scene σ} (hs : s.Linked) (hopen : s.result = none)
    (h : s.awaitAsset.2.result = some result) :
      s.director.interp.asyncOp = .terminateBattle result ∨ result = .abort ∧
        Ending s.awaitPumps := by
    unfold awaitPumps
    unfold awaitAsset at h
    cases hpending : s.pendingAsset with
    | none => simp [hpending, hopen] at h
    | some p =>
      have hlinked := hs hopen p hpending
      simp only [hpending] at h
      by_cases hready : (s.world.isReady p.request).1 = true
      · rw [if_pos hready] at h
        simp only [if_pos hready]
        refine resume_stops (s := s.fetched p) p.continuation hopen (fun hk => ?_) h
        rw [hk] at hlinked
        exact hlinked
      · simp [hready, hopen] at h
  have hlinked := requestBackdrop_linked
    (s := ({ s with steps := [], inputConsumed := false, frame := s.frame + 1 } : Scene σ)) hs
  obtain ⟨hrequested, hunfolds⟩ := requestBackdrop_plays
    ({ s with steps := [], inputConsumed := false, frame := s.frame + 1 } : Scene σ) hopen
  unfold enterPumps
  unfold enter at h
  rw [if_neg (by simp [hopen])] at h ⊢
  rcases hawaited hlinked hrequested h with hop | hending
  · rcases hunfolds.beats.ended hop with hop | ⟨-, hnone⟩
    · exact .inl hop
    · exact absurd hnone (by simp [Ending])
  · exact .inr hending

/-- What ends a battle before the outer states is its main interpreter, or a countdown, which aborts
it. -/
theorem prelude_stops (hs : s.Linked) (hopen : s.result = none) {input : InputState}
    (h : (s.prelude input).2.result = some result) :
    s.director.interp.asyncOp = .terminateBattle result ∨
      result = .abort ∧ (Ending (s.preludePumps input) ∨
        s.game.timers.Expires (s.update input).game.timers) := by
  have hentered (h : s.enter.2.result = some result) := enter_stops hs hopen h
  rcases s.prelude_stages input with ⟨-, -, hnone | hended⟩ | ⟨t, ht, -, htopen,
    ⟨-, hended⟩ | ⟨u, -, -, huopen, hended⟩⟩
  · rw [hnone] at h
    contradiction
  · rw [hended] at h
    refine (hentered h).imp_right fun ⟨habort, hending⟩ => ⟨habort, .inl (hending.mono ?_)⟩
    exact List.subset_append_left _ _
  · have hupdated : s.update input = (t.checkForceFlee.checkEnds input).2 := by
      rw [update_eq, hended]
    rw [hended] at h
    rcases checkEnds_stops (t.checkForceFlee_result.trans htopen) h with hop | ⟨habort, hexpired⟩
    · obtain ⟨pumps, hsub, hunfolds⟩ := scripted?_unfolds hs ht
      have hmain : t.checkForceFlee.director = t.director := by
        unfold checkForceFlee
        split <;> rfl
      rw [hmain] at hop
      exact (hunfolds.beats.ended hop).imp_right fun ⟨habort, hending⟩ =>
        ⟨habort, .inl (hending.mono hsub)⟩
    · have htimers : t.checkForceFlee.game.timers = s.game.timers := by
        rw [← scripted?_timers ht]
        unfold checkForceFlee
        split <;> rfl
      rw [htimers] at hexpired
      rw [hupdated]
      exact .inr ⟨habort, .inr hexpired⟩
  · rw [hended] at h
    have hkept : (u.updateCourse.mark .dispatch).result = none := u.updateCourse_result.trans huopen
    rw [hkept] at h
    contradiction

end Stopping

/-- Before the outer states a frame decides a battle only where it asks whether a side is wiped out,
and the party flees only if a script forces it. -/
structure PreludeDecides (s : Scene σ) (input : InputState) : Prop where
  victory : (s.prelude input).2.state = .victory → s.state = .victory ∨
    ∃ t, s.deciding? input = some t ∧ t.Won
  defeat : (s.prelude input).2.state = .defeat → s.state = .defeat ∨
    ∃ t, s.deciding? input = some t ∧ t.Lost
  escape : (s.prelude input).2.state = .escape →
    s.state = .escape ∨ s.director.script.forceFlee = true ∨
    s.director.script.rpg2k3 = true ∧ Fleeing (s.preludePumps input)

theorem PreludeDecides.of_state {input : InputState} (h : (s.prelude input).2.state = s.state) :
    s.PreludeDecides input :=
  ⟨fun hstate => .inl (h ▸ hstate),
    fun hstate => .inl (h ▸ hstate), fun hstate => .inl (h ▸ hstate)⟩

theorem prelude_preludeDecides (hs : s.Linked) (input : InputState) : s.PreludeDecides input := by
  rcases s.prelude_stages input with ⟨-, hstate, -⟩ | ⟨t, ht, hstate, -, hlater⟩
  · exact .of_state hstate
  · have hfled : t.checkForceFlee.state = s.state ∨ t.checkForceFlee.state = .escape ∧
        (s.director.script.forceFlee = true ∨ s.director.script.rpg2k3 = true ∧
          Fleeing (s.preludePumps input)) := by
      obtain ⟨pumps, hsub, hunfolds⟩ := scripted?_unfolds hs ht
      unfold checkForceFlee
      split
      · rename_i hforced
        exact .inr ⟨rfl, (hunfolds.flight.forced hforced.1).imp_right (And.imp_right (.mono hsub))⟩
      · exact .inl hstate
    have unmoved (h : (s.prelude input).2.state = t.checkForceFlee.state) :
        s.PreludeDecides input := by
      rcases hfled with hsame | ⟨hescape, hforced⟩
      · exact .of_state (h.trans hsame)
      · have hflees := h.trans hescape
        exact ⟨fun h => by simp [hflees] at h, fun h => by simp [hflees] at h,
          fun _ => .inr hforced⟩
    rcases hlater with ⟨-, hended⟩ | ⟨u, hu, hustate, hopen, hended⟩
    · refine unmoved ?_
      rw [hended]
      exact (t.checkForceFlee.checkEnds_concludes input).state_eq
    · have hprelude : (s.prelude input).2.state = u.updateCourse.state := by
        rw [hended]
        rfl
      rcases u.updateCourse_state with hsame | hactor | ⟨hdefeat, hlost⟩ | ⟨hvictory,
        hparty, henemies⟩
      · exact unmoved (hprelude.trans (hsame.trans hustate))
      · have hopens := hprelude.trans hactor
        exact ⟨fun h => by simp [hopens] at h, fun h => by simp [hopens] at h,
          fun h => by simp [hopens] at h⟩
      · have hloses := hprelude.trans hdefeat
        exact ⟨fun h => by simp [hloses] at h, fun _ => .inr ⟨u, hu, hopen, hlost⟩,
          fun h => by simp [hloses] at h⟩
      · have hwins := hprelude.trans hvictory
        exact ⟨fun _ => .inr ⟨u, hu, hopen, hparty, henemies⟩, fun h => by simp [hwins] at h,
          fun h => by simp [hwins] at h⟩

end Scene

end ActiveBattle
