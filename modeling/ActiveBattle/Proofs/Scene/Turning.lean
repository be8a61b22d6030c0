import ActiveBattle.Proofs.Scene.Resolving

/-!
# The chores of a turn

Resolving queued actions is an orderly turn with at most one action taken (`processBattle_orderly`).
Who loses a pending action by it is told beforehand by `overtaken`.
-/

namespace ActiveBattle.Scene

set_option autoImplicit false

variable {σ : Type}

/-- The battler whose pending action gives way to the next one of the queue, if this step of the
scene takes one. -/
def overtaken (s : Scene σ) : List BattlerId :=
  if s.state = .battle ∧ s.substate ≤ 1 ∧ (s.discardStale s.queue).queue ≠ [] then
    s.pendingSource.toList
  else []

theorem overtaken_of_lt {s : Scene σ} (h : 1 < s.substate) : s.overtaken = [] := by
  unfold overtaken
  rw [if_neg (by omega)]

theorem checkBattleEnd_of_false {s t : Scene σ} (h : s.checkBattleEnd = (false, t)) : t = s := by
  unfold checkBattleEnd at h
  split at h
  · simp at h
  · split at h <;> simp_all

theorem checkBattleEnd_cases (s : Scene σ) (hopen : s.state.isDecided = false) :
    s.checkBattleEnd.2 = s ∨ Verdict s s.checkBattleEnd.2 := by
  have hdefeat : s.state ≠ .defeat := fun h => by simp [h, SceneState.isDecided] at hopen
  have hvictory : s.state ≠ .victory := fun h => by simp [h, SceneState.isDecided] at hopen
  simp only [checkBattleEnd, hdefeat, hvictory, decide_false, Bool.false_or, if_false]
  split
  · rename_i hparty
    exact .inr (.lose hopen hparty)
  · rename_i hparty
    split
    · rename_i henemies
      exact .inr (.win hopen (by simpa using hparty) henemies)
    · exact .inl rfl

theorem checkBattleEnd_outcome (s : Scene σ) (hopen : s.state.isDecided = false) :
    Outcome s s.checkBattleEnd.2 := by
  rcases s.checkBattleEnd_cases hopen with h | h
  · rw [h]
    exact .done
  · exact .decided h

/-- A check that lets the scene go on leaves the course alone. -/
theorem checkEvents_effects {s t : Scene σ} {trigger : EventTrigger} {source : Option BattlerId}
    (h : s.checkEvents trigger source = (true, t)) : Effects s t := by
  unfold checkEvents at h
  split at h
  · simp at h
  · rename_i hrunning
    split at h
    · obtain rfl := congrArg Prod.snd h
      exact .refl s
    · split at h
      · simp at h
      · rename_i ht
        obtain rfl := checkBattleEnd_of_false ht
        obtain rfl := congrArg Prod.snd h
        exact .single (.page trigger source (by simpa using hrunning))

theorem checkEvents_outcome (s : Scene σ) (trigger : EventTrigger) (source : Option BattlerId)
    (hopen : s.state.isDecided = false) :
    ∃ u, Effects s u ∧ Outcome u (s.checkEvents trigger source).2 := by
  cases hchecked : s.checkEvents trigger source with
  | mk goes t =>
    cases goes with
    | true => exact ⟨t, checkEvents_effects hchecked, .done⟩
    | false =>
      unfold checkEvents at hchecked
      split at hchecked
      · obtain rfl := congrArg Prod.snd hchecked
        exact ⟨s, .refl s, .done⟩
      · rename_i hrunning
        split at hchecked
        · simp at hchecked
        · have hend := s.checkBattleEnd_outcome hopen
          split at hchecked
          · rename_i u hu
            obtain rfl := congrArg Prod.snd hchecked
            rw [hu] at hend
            exact ⟨s, .refl s, hend⟩
          · rename_i u hu
            obtain rfl := checkBattleEnd_of_false hu
            obtain rfl := congrArg Prod.snd hchecked
            exact ⟨_, .single (.page trigger source (by simpa using hrunning)), .done⟩

theorem discard_course (s : Scene σ) (source : BattlerId) :
    (s.discard source).course = s.course := by
  unfold discard
  dsimp only
  split <;> rfl

theorem discard_requeued (s : Scene σ) (source : BattlerId) (queue rest : List Action) :
    { ({ s with queue := queue } : Scene σ).discard source with queue := rest } =
      { s.discard source with queue := rest } := by
  have hparty : ({ s with queue := queue } : Scene σ).roster = s.roster := rfl
  unfold discard
  rw [hparty]
  dsimp only
  split <;> rfl

theorem discardStale_chores (s : Scene σ) (queue : List Action) (hstate : s.state = .battle)
    (hsub : s.substate ≤ 1) : Chores { s with queue := queue } (s.discardStale queue) := by
  induction queue generalizing s with
  | nil => exact .refl _
  | cons a rest ih =>
    unfold discardStale
    split
    · exact .refl _
    · rename_i hgone
      have hcourse := s.discard_course a.source
      have hrest := ih (s.discard a.source) ((congrArg Course.state hcourse).trans hstate)
        (Nat.le_trans (Nat.le_of_eq (congrArg Course.substate hcourse)) hsub)
      have hdiscarded := Deed.discard (s := { s with queue := a :: rest }) a rest hstate hsub rfl
        (Bool.eq_false_iff.mpr hgone)
      rw [discard_requeued] at hdiscarded
      exact .trans (.single hdiscarded (congrArg Course.state hcourse)
        (congrArg Course.previousState hcourse)) hrest

theorem discardStale_course (s : Scene σ) (queue : List Action) :
    (s.discardStale queue).course = { s.course with queue := (s.discardStale queue).queue } := by
  induction queue generalizing s with
  | nil => rfl
  | cons a rest ih =>
    unfold discardStale
    split
    · rfl
    · rw [ih, discard_course]

/-- What is left of the queue starts with an action that can be resolved. -/
theorem canStillAct_of_discardStale (s : Scene σ) (queue : List Action) {a : Action}
    {rest : List Action} (h : (s.discardStale queue).queue = a :: rest) :
    (s.discardStale queue).canStillAct a.source = true := by
  induction queue generalizing s with
  | nil => simp [discardStale] at h
  | cons b others ih =>
    unfold discardStale at h ⊢
    split at h
    · rename_i hact
      obtain ⟨rfl, -⟩ := List.cons.inj h
      rw [if_pos hact]
      exact hact
    · rename_i hgone
      rw [if_neg hgone]
      exact ih _ h

/-- An action is prepared as it is, or replaced by a new one of the same battler. -/
theorem prepare_cases (s : Scene σ) (a : Action) :
    ((s.prepare a).1 = a ∨ (s.prepare a).1.Fresh a.source) ∧
      ∃ g, GameState.Rolled s.game g ∧ (s.prepare a).2 = s.modifyGame fun _ => g := by
  have unchanged : ∃ g, GameState.Rolled s.game g ∧ s = s.modifyGame fun _ => g :=
    ⟨s.game, .refl _, rfl⟩
  have forced {f : Action × GameState} (h : Action.restricted a.source s.game = some f) :
      (f.1 = a ∨ f.1.Fresh a.source) ∧ ∃ g, GameState.Rolled s.game g ∧
        s.modifyGame (fun _ => f.2) = s.modifyGame fun _ => g :=
    have hforced := Action.restricted_fresh a.source s.game h
    ⟨.inr hforced.1, f.2, hforced.2, rfl⟩
  unfold prepare
  split
  · exact ⟨.inl rfl, unchanged⟩
  · split
    · exact ⟨.inr ⟨rfl, rfl, rfl⟩, unchanged⟩
    · split
      · split
        · rename_i h
          exact forced h
        · exact ⟨.inl rfl, unchanged⟩
      · split
        · rename_i h
          exact forced h
        · exact ⟨.inl rfl, unchanged⟩
      · exact ⟨.inl rfl, unchanged⟩

/-- Taking an action finds the pending one that `overtaken` tells. -/
theorem takeAction_path (s : Scene σ) (hstate : s.state = .battle) (hsub : s.substate ≤ 1) :
    Path Chore s s.overtaken s.takeAction := by
  have hdiscarded := s.discardStale_chores s.queue hstate hsub
  have hcourse := s.discardStale_course s.queue
  have hcanAct (a : Action) (rest : List Action) (h : (s.discardStale s.queue).queue = a :: rest) :=
    s.canStillAct_of_discardStale s.queue h
  unfold overtaken takeAction
  generalize s.discardStale s.queue = t at hdiscarded hcourse hcanAct ⊢
  have htstate : t.state = .battle := (congrArg Course.state hcourse).trans hstate
  have htsub : t.substate ≤ 1 := Nat.le_trans (Nat.le_of_eq (congrArg Course.substate hcourse)) hsub
  have htpending : t.pendingSource = s.pendingSource :=
    congrArg (fun c => c.pending.map (·.source)) hcourse
  dsimp only
  cases hqueue : t.queue with
  | nil =>
    rw [if_neg (by simp)]
    exact (hdiscarded.trans (.advance (.exhausted htstate htsub hqueue))).path
  | cons a rest =>
    rw [if_pos ⟨hstate, hsub, by simp⟩, ← htpending]
    obtain ⟨hsame, g, hrolled, hprepared⟩ := ({ t with queue := rest } : Scene σ).prepare_cases a
    dsimp only
    generalize ({ t with queue := rest } : Scene σ).prepare a = prepared at hsame hprepared ⊢
    obtain ⟨a', u⟩ := prepared
    obtain rfl : u = _ := hprepared
    have htaken := Path.take hdiscarded.path
      (.mk a a' rest htstate htsub hqueue (hcanAct a rest hqueue) hsame)
    have hrolling := modifyGame_rolled
      (({ t with queue := rest, pending := some a', actionState := .begin } : Scene σ).setSubstate
        preEvents)
      g hrolled
    exact htaken.append_chores (hrolling.trans (.single (.turn a'.source))).chores

theorem takeAction_state (s : Scene σ) : s.takeAction.state = s.state := by
  have hcourse := congrArg Course.state (s.discardStale_course s.queue)
  unfold takeAction
  generalize s.discardStale s.queue = t at hcourse ⊢
  dsimp only
  split
  · exact hcourse
  · rename_i a rest _
    obtain ⟨-, g, -, hprepared⟩ := ({ t with queue := rest } : Scene σ).prepare_cases a
    rw [hprepared]
    exact hcourse

theorem takeAction_result (s : Scene σ) : s.takeAction.result = s.result := by
  have hcourse := congrArg Course.result (s.discardStale_course s.queue)
  unfold takeAction
  generalize s.discardStale s.queue = t at hcourse ⊢
  dsimp only
  split
  · exact hcourse
  · rename_i a rest _
    obtain ⟨-, g, -, hprepared⟩ := ({ t with queue := rest } : Scene σ).prepare_cases a
    rw [hprepared]
    exact hcourse

theorem announceActor_effects {s : Scene σ} {a : Action} (h : s.pending = some a) :
    Effects s (s.announceActor a) :=
  .single (.announce a h)

theorem isDecided_of_battle {s : Scene σ} (h : s.state = .battle) : s.state.isDecided = false := by
  rw [h]
  rfl

/-- A step of the turn either can go on at the step after `substate`, or ends the turn. -/
def Progress.Follows (s : Scene σ) (substate : Nat) : Progress σ → Prop
  | .next t => Chores s t ∧ t.state = .battle ∧ t.substate = substate ∧ t.result = s.result
  | .stop _ t => Orderly s [] t

theorem beforeAction_follows (s : Scene σ) (hstate : s.state = .battle)
    (hsub : s.substate = preEvents) : s.beforeAction.Follows s battleAction := by
  unfold beforeAction
  split
  · rename_i hpending
    exact .of_chores (.advance (.released hstate hpending))
  · rename_i a hpending
    have hannounced := announceActor_effects hpending
    have hchecked := (s.announceActor a).checkEvents_outcome .beforeAction (some a.source)
      (isDecided_of_battle (hannounced.state_eq.trans hstate))
    split
    · rename_i t hgoes
      have heffects := hannounced.trans (checkEvents_effects hgoes)
      have htstate : t.state = .battle := heffects.state_eq.trans hstate
      have htsub : t.substate = preEvents := heffects.substate_eq.trans hsub
      exact ⟨heffects.chores.trans (.advance (.prepared htstate htsub)), htstate, rfl,
        heffects.result_eq⟩
    · rename_i t hstops
      rw [hstops] at hchecked
      obtain ⟨u, hu, houtcome⟩ := hchecked
      exact .outcome (hannounced.trans hu).chores houtcome

theorem releasePending_chores (s : Scene σ) (hstate : s.state = .battle) :
    Chores s s.releasePending ∧ s.releasePending.state = .battle ∧
      s.releasePending.pending = none := by
  cases hpending : s.pending with
  | none =>
    have hkept : s.releasePending = s := by simp only [releasePending, hpending]
    rw [hkept]
    exact ⟨.refl s, hstate, hpending⟩
  | some a =>
    refine ⟨.single (.release a hstate hpending) ?_ ?_, ?_⟩ <;> simp only [releasePending, hpending]
    · rfl
    · rfl
    · exact ⟨hstate, rfl⟩

theorem enemyActionDone_effects {s t : Scene σ} (h : s.enemyActionDone = (true, t)) :
    Effects s t := by
  unfold enemyActionDone at h
  split at h
  · obtain rfl := congrArg Prod.snd h
    exact .refl s
  · split at h
    · obtain rfl := congrArg Prod.snd h
      exact .refl s
    · exact checkEvents_effects h

theorem enemyActionDone_outcome (s : Scene σ) (hstate : s.state = .battle) :
    ∃ u, Effects s u ∧ Outcome u s.enemyActionDone.2 := by
  unfold enemyActionDone
  split
  · exact ⟨s, .refl s, .done⟩
  · split
    · exact ⟨s, .refl s, .done⟩
    · exact s.checkEvents_outcome _ _ (isDecided_of_battle hstate)

theorem afterAction_orderly (s : Scene σ) (hstate : s.state = .battle) :
    Orderly s [] s.afterAction.2 := by
  have hdone := s.enemyActionDone_outcome hstate
  unfold afterAction
  split
  · rename_i t hwaits
    rw [hwaits] at hdone
    obtain ⟨u, hu, houtcome⟩ := hdone
    exact .outcome hu.chores houtcome
  · rename_i t hgoes
    have heffects := enemyActionDone_effects hgoes
    obtain ⟨hreleased, htstate, htpending⟩ :=
      t.releasePending_chores (heffects.state_eq.trans hstate)
    have hended := t.releasePending.checkBattleEnd_outcome (isDecided_of_battle htstate)
    split
    · rename_i u hover
      rw [hover] at hended
      exact .outcome (heffects.chores.trans hreleased) hended
    · rename_i u hgoes
      obtain rfl := checkBattleEnd_of_false hgoes
      exact .of_chores ((heffects.chores.trans hreleased).trans
        (.advance (.released htstate htpending)))

variable [AssetLoader σ]

/-- The pending action is left alone or passes through one of its states, or it starts a pass and
goes on in this frame. -/
theorem resolvePending_cases (s : Scene σ) (hstate : s.state = .battle)
    (hsub : s.substate = battleAction) (hopen : s.result = none) :
    (Chores s s.resolvePending.2 ∧ s.resolvePending.2.state = .battle ∧
      s.resolvePending.2.substate = battleAction ∧ s.resolvePending.2.result = none) ∨
    s.resolvePending.1 = .sameFrame ∧ Orderly s [] s.resolvePending.2 := by
  have hquiet : Effects s s.endNotification := .quiet rfl
  unfold resolvePending
  dsimp only
  split
  · exact .inl ⟨hquiet.chores, hstate, hsub, hopen⟩
  · rename_i a hpending
    have htreated := s.endNotification.stepAction_treated a hstate hpending
    generalize s.endNotification.stepAction a = stepped at htreated ⊢
    obtain ⟨pace, t, a'⟩ := stepped
    dsimp only at htreated ⊢
    have reworked {t : Scene σ} {a' : Action} (hchores : Chores s.endNotification t)
        (hcourse : t.course =
          { s.course with actionState := t.actionState, comboRepeat := t.comboRepeat })
        (hcontinues : a.Continues a') :
        Chores s { t with pending := some a' } ∧ t.state = .battle ∧ t.substate = battleAction ∧
          t.result = none := by
      have htpending : t.pending = some a := (congrArg Course.pending hcourse).trans hpending
      exact ⟨(hquiet.chores.trans hchores).trans
        (.single (.rework a a' htpending hcontinues) rfl rfl),
        (congrArg Course.state hcourse).trans hstate, (congrArg Course.substate hcourse).trans hsub,
        (congrArg Course.result hcourse).trans hopen⟩
    cases htreated with
    | waits =>
      have hkept := reworked (.refl _) rfl (Action.SamePass.refl a).continues
      rw [if_pos (Option.isNone_iff_eq_none.mpr hkept.2.2.2)]
      exact .inl hkept
    | passes hpassing hcontinues =>
      have hpassed := reworked (hpassing.chores hstate hsub) hpassing.course_eq hcontinues
      rw [if_pos (Option.isNone_iff_eq_none.mpr hpassed.2.2.2)]
      exact .inl hpassed
    | @launches u a' heffects hstage hsame =>
      have hall := hquiet.trans heffects
      refine .inr ⟨rfl, .outcome hall.chores ?_⟩
      have huopen : u.result = none := hall.result_eq.trans hopen
      have hstarted : (((u.note (.actionStarted a'.source a'.kind u.comboRepeat)).setActionState
          .animation).result.isNone) = true := Option.isNone_iff_eq_none.mpr huopen
      rw [if_pos hstarted]
      exact .launched a a' (hall.state_eq.trans hstate) (hall.substate_eq.trans hsub)
        (hall.actionState_eq.trans hstage) (hall.pending_eq.trans hpending) hsame

theorem duringAction_follows (s : Scene σ) (hstate : s.state = .battle)
    (hsub : s.substate = battleAction) (hopen : s.result = none) :
    s.duringAction.Follows s postEvents := by
  have hresolved := s.resolvePending_cases hstate hsub hopen
  unfold duringAction
  generalize s.resolvePending = resolved at hresolved ⊢
  obtain ⟨pace, t⟩ := resolved
  rcases hresolved with ⟨hchores, htstate, htsub, htopen⟩ | ⟨rfl, horderly⟩
  · cases pace with
    | sameFrame => exact .of_chores hchores
    | nextFrame => exact .of_chores hchores
    | finished =>
      exact ⟨hchores.trans (.advance (.resolved htstate htsub)), htstate, rfl,
        htopen.trans hopen.symm⟩
  · exact horderly

theorem processAction_orderly (s : Scene σ) (hstate : s.state = .battle)
    (hsub : s.substate = battleAction) (hopen : s.result = none) :
    Orderly s [] s.processAction.2 := by
  have hduring := s.duringAction_follows hstate hsub hopen
  unfold processAction
  split
  · rename_i hstop
    rw [hstop] at hduring
    exact hduring
  · rename_i t hnext
    rw [hnext] at hduring
    exact (t.afterAction_orderly hduring.2.1).after_chores hduring.1

theorem processPrepared_orderly (s : Scene σ) (hstate : s.state = .battle)
    (hsub : s.substate = preEvents) (hopen : s.result = none) :
    Orderly s [] s.processPrepared.2 := by
  have hbefore := s.beforeAction_follows hstate hsub
  unfold processPrepared
  split
  · rename_i hstop
    rw [hstop] at hbefore
    exact hbefore
  · rename_i t hnext
    rw [hnext] at hbefore
    obtain ⟨hchores, htstate, htsub, htopen⟩ := hbefore
    exact (t.processAction_orderly htstate htsub (htopen.trans hopen)).after_chores hchores

theorem processBattle_orderly (s : Scene σ) (hstate : s.state = .battle) (hopen : s.result = none) :
    Orderly s s.overtaken s.processBattle.2 := by
  have taken (hsub : s.substate ≤ 1) : Orderly s s.overtaken
      (if s.takeAction.substate = preEvents then s.takeAction.processPrepared
        else s.takeAction.goOn).2 := by
    have hpath := s.takeAction_path hstate hsub
    split
    · rename_i hprepared
      have horderly :=
        s.takeAction.processPrepared_orderly (s.takeAction_state.trans hstate) hprepared
        (s.takeAction_result.trans hopen)
      simpa using horderly.after hpath
    · exact ⟨_, _, hpath, .stay, .done⟩
  unfold processBattle
  split
  · rename_i hsub
    rw [overtaken_of_lt (by omega)]
    exact s.processPrepared_orderly hstate hsub hopen
  · rename_i hsub
    rw [overtaken_of_lt (by omega)]
    exact s.processAction_orderly hstate hsub hopen
  · rename_i hsub
    rw [overtaken_of_lt (by omega)]
    exact s.afterAction_orderly hstate
  · rename_i hsub
    rw [overtaken_of_lt (by omega)]
    exact .of_moves (.single (.go (.resume hstate hsub)))
  · rename_i hsub
    exact taken (by omega)
  · rename_i hsub
    exact taken (by omega)
  · rename_i h0 h1
    rw [overtaken_of_lt (Nat.lt_of_le_of_ne (Nat.pos_of_ne_zero h0) (Ne.symm h1))]
    exact .of_chores (.refl s)

end ActiveBattle.Scene
