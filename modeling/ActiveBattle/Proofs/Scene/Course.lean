import ActiveBattle.Proofs.Scene.Choosing
import ActiveBattle.Proofs.Scene.Prelude

/-!
# The course of a battle

Every turn of the outer states is one of deeds (`processState_turned`), and keeps to one state until
it is left (`processState_orderly`). So every frame of a battle is a chain of steps, and so is every
run (`update_path`, `after_path`). What one step preserves holds in every scene that a battle
reaches.
-/

namespace ActiveBattle.Scene

set_option autoImplicit false

variable {σ : Type}

section Opening

theorem announceBattle_effects (s : Scene σ) : Effects s s.announceBattle := by
  dsimp only [announceBattle, showNotification]
  split
  · exact .refl s
  · exact .quiet rfl

theorem announceFormation_effects (s : Scene σ) : Effects s s.announceFormation := by
  dsimp only [announceFormation, showNotification]
  split
  · split
    · split <;> exact .quiet rfl
    · exact .quiet rfl
  · exact .refl s

theorem turnEnemies_posed (r : Roster) (condition : BattleCondition) :
    r.Differs Battler.Posed (Formation.turnEnemies r condition) :=
  ⟨⟨List.forall₂_same.mpr fun b _ => .refl b, forall₂_mapIdx _ _ fun _ _ => rfl, rfl⟩, rfl⟩

theorem turnActorsFrom_posed (before : Roster) (condition : BattleCondition) (index : Nat)
    (ids : List Int) (r : Roster) :
    r.Differs Battler.Posed (Formation.turnActorsFrom before condition index ids r) := by
  induction ids generalizing index r with
  | nil => exact .refl Battler.Posed.refl r
  | cons id rest ih =>
    refine .trans Battler.Posed.trans (.modifyActor Battler.Posed.refl r id _ ?_) (ih (index + 1) _)
    exact fun _ _ => rfl

theorem turnBattlers_effects (s : Scene σ) : Effects s s.turnBattlers :=
  .single (.pose (.trans Battler.Posed.trans (turnEnemies_posed s.roster s.condition)
    (turnActorsFrom_posed _ _ _ _ _)) rfl)

theorem processStart_orderly (s : Scene σ) (hstate : s.state = .start) :
    Orderly s [] s.processStart.2 := by
  have advanced {t : Scene σ} (h : Effects s t) (n : Nat) : Orderly s [] (t.setSubstate n) :=
    .of_chores (h.chores.trans (.advance (.opening n (h.state_eq.trans hstate))))
  have hended : Effects s s.endNotification := .quiet rfl
  unfold processStart
  split
  · exact advanced s.announceBattle_effects 1
  · exact advanced (hended.trans (announceFormation_effects _)) 2
  · exact advanced (hended.trans (turnBattlers_effects _)) 3
  · have hchecked := s.checkEvents_outcome .all none (by rw [hstate]; rfl)
    split
    · rename_i t hgoes
      have heffects := checkEvents_effects hgoes
      exact .of_moves (.after heffects.chores (.go (.opened (heffects.state_eq.trans hstate))))
    · rename_i t hwaits
      rw [hwaits] at hchecked
      obtain ⟨u, hu, houtcome⟩ := hchecked
      exact .outcome hu.chores houtcome

end Opening

section Ending

theorem showMessages_eq (pages : List String) (g : GameState) :
    ∃ message, pages.foldl (·.showMessage ·) g = { g with message := message } := by
  induction pages generalizing g with
  | nil => exact ⟨g.message, rfl⟩
  | cons page rest ih => exact ih (g.showMessage page)

theorem showMessages_effects (s : Scene σ) (pages : List String) :
    Effects s (s.modifyGame fun g => pages.foldl (·.showMessage ·) g) := by
  obtain ⟨message, h⟩ := showMessages_eq pages s.game
  refine .quiet ?_
  have hshown : (s.modifyGame fun g => pages.foldl (·.showMessage ·) g) =
      s.modifyGame fun _ => { s.game with message := message } := by
    rw [← h]
    rfl
  rw [hshown]
  rfl

theorem poseParty_effects (s : Scene σ) (pose : Battler → Pose) : Effects s (s.poseParty pose) := by
  refine .single (.pose (.foldl Battler.Posed.refl Battler.Posed.trans _ (?_) _ _) rfl)
  intro r id
  exact .modifyActor Battler.Posed.refl r id (fun a => a.setPose (pose a) 0) fun _ _ => rfl

theorem processVictory_orderly (s : Scene σ) (hstate : s.state = .victory) :
    Orderly s [] s.processVictory.2 := by
  have advanced {t : Scene σ} (h : Effects s t) (n : Nat) : Orderly s [] (t.setSubstate n) :=
    .of_chores (h.chores.trans (.advance (.ending n (.inl (h.state_eq.trans hstate)))))
  unfold processVictory
  split
  · exact advanced ((s.poseParty_effects _).trans (setWait_effects _ 30 30)) 1
  · rename_i hsub
    have hshown := s.showMessages_effects s.rewardPages
    have hrewarded := Effect.reward (hshown.state_eq.trans hstate) (hshown.substate_eq.trans hsub)
    exact advanced (hshown.trans (.single hrewarded)) 2
  · rename_i h0 h1
    have hsub : 2 ≤ s.substate := by
      have h0 : s.substate ≠ 0 := h0
      have h1 : s.substate ≠ 1 := h1
      omega
    exact .outcome (.refl s) (.ended (.victory hstate hsub))

theorem processDefeat_orderly (s : Scene σ) (hstate : s.state = .defeat) :
    Orderly s [] s.processDefeat.2 := by
  have advanced {t : Scene σ} (h : Effects s t) (n : Nat) : Orderly s [] (t.setSubstate n) :=
    .of_chores (h.chores.trans (.advance (.ending n (.inr (h.state_eq.trans hstate)))))
  unfold processDefeat
  split
  · exact advanced (s.setWait_effects 60 60) 1
  · exact advanced (s.showMessages_effects [s.config.terms.defeat]) 2
  · exact .outcome (.refl s) (.ended (.defeat hstate))

theorem tryEscape_core (s : Scene σ) : s.tryEscape.2.core = s.core := by
  dsimp only [tryEscape]
  split <;> rfl

/-- An attempt that fails was not forced by a script; one that succeeds uses up what forced it. -/
theorem attemptEscape_core (s : Scene σ) :
    (s.attemptEscape.1 = false → s.director.script.forceFlee = false ∧
      s.attemptEscape.2.core = s.core) ∧
    (s.attemptEscape.1 = true →
      s.attemptEscape.2.core = (s.modifyDirector (·.resetForceFlee)).core) := by
  cases hforced : s.director.script.forceFlee with
  | true =>
    have hescaped : s.attemptEscape = (true, s.modifyDirector (·.resetForceFlee)) := by
      simp [attemptEscape, hforced]
    rw [hescaped]
    exact ⟨fun h => absurd h (by simp), fun _ => rfl⟩
  | false =>
    have hkept : s.modifyDirector (·.resetForceFlee) = s := by
      simp only [modifyDirector, Director.resetForceFlee, Director.modifyScript, ← hforced]
    rw [hkept]
    simp only [attemptEscape, hforced, Bool.false_or, Bool.false_eq_true, if_false,
      decide_eq_true_eq]
    split
    · exact ⟨fun h => absurd h (by simp), fun _ => rfl⟩
    · exact ⟨fun _ => ⟨trivial, s.tryEscape_core⟩, fun _ => s.tryEscape_core⟩

theorem runAway_effects (s : Scene σ) : Effects s s.runAway := by
  have hsound : Effects s (s.playSystem .escape) := .quiet rfl
  exact (hsound.trans (poseParty_effects _ _)).trans (.quiet rfl)

theorem processEscape_orderly (s : Scene σ) (hstate : s.state = .escape) :
    Orderly s [] s.processEscape.2 := by
  have hended : Effects s s.endNotification := .quiet rfl
  unfold processEscape
  split
  · rename_i hsub
    obtain ⟨hfailed, hescaped⟩ := s.attemptEscape_core
    dsimp only
    refine .of_chores (.trans ?_ (setWait_effects _ 10 30).chores)
    split
    · rename_i t ht
      rw [ht] at hescaped
      have haway : ((t.setSubstate 2).core) =
          ((s.modifyDirector (·.resetForceFlee)).setSubstate 2).core :=
        congrArg (fun c : Core => { c with substate := 2 }) (hescaped rfl)
      exact ((Chores.single (.away hstate hsub) rfl rfl).trans (.quiet haway)).trans
        (runAway_effects (t.setSubstate 2)).chores
    · rename_i t ht
      rw [ht] at hfailed
      obtain ⟨hforced, hcore⟩ := hfailed rfl
      have hcaught : (t.setSubstate 1).core = (s.setSubstate 1).core :=
        congrArg (fun c : Core => { c with substate := 1 }) hcore
      apply ((Chores.advance (.caught hstate hsub hforced)).trans (.quiet hcaught)).trans
      unfold showNotification
      split
      · exact .refl _
      · exact .quiet rfl
  · rename_i hsub
    exact .of_moves (.after hended.chores (.go (.failed hstate hsub)))
  · exact .outcome hended.chores (.ended (.escape hstate))

end Ending

section Turns

theorem dropGoneActor_deeds (s : Scene σ) : Deeds s s.dropGoneActor := by
  unfold dropGoneActor
  split
  · exact .refl s
  · dsimp only
    split
    · rename_i h
      exact .single (.leave (Bool.and_eq_true_iff.mp h).2)
    · exact .refl s

/-- Only the windows of an actor are left for it. -/
theorem dropGoneActor_of_closed {s : Scene σ} (h : s.state.isActorMenu = false) :
    s.dropGoneActor = s := by
  unfold dropGoneActor
  split
  · rfl
  · simp [h]

theorem dropGoneActor_state_ne {s : Scene σ} (h : s.state ≠ .battle) :
    s.dropGoneActor.state ≠ .battle := by
  unfold dropGoneActor
  split
  · exact h
  · dsimp only
    split
    · exact fun h => by cases h
    · exact h

theorem checkWait_core (s : Scene σ) (input : InputState) :
    (s.checkWait input).2.core = s.core := by
  unfold checkWait
  split
  · rfl
  · split
    · rfl
    · dsimp only
      split <;> rfl

theorem checkWait_effects (s : Scene σ) (input : InputState) : Effects s (s.checkWait input).2 :=
  .quiet (s.checkWait_core input)

theorem overtaken_of_ne {s : Scene σ} (h : s.state ≠ .battle) : s.overtaken = [] := by
  unfold overtaken
  rw [if_neg fun h' => h h'.1]

/-- The outer states go on only in a battle that is not over. -/
theorem result_of_isBlocked {s : Scene σ} (h : ¬s.isBlocked = true) : s.result = none := by
  cases hresult : s.result with
  | none => rfl
  | some result => simp [isBlocked, hresult] at h

variable [AssetLoader σ]

/-- Once an actor that is gone has left its windows, the turn of the current state is an orderly
one. -/
theorem processState_orderly (s : Scene σ) (input : InputState) (hopen : s.result = none) :
    Orderly s.dropGoneActor s.overtaken (s.processState input).2 := by
  by_cases hbattle : s.state = .battle
  · unfold processState
    dsimp only
    rw [dropGoneActor_of_closed (by rw [hbattle]; rfl)]
    simp only [hbattle]
    exact s.processBattle_orderly hbattle hopen
  · rw [overtaken_of_ne hbattle]
    have hstate := dropGoneActor_state_ne hbattle
    unfold processState
    dsimp only
    generalize s.dropGoneActor = t at hstate ⊢
    split
    · rename_i h
      exact t.processStart_orderly h
    · rename_i h
      exact .of_moves (t.processOption_moves input h)
    · rename_i h
      exact .of_moves (t.processActor_moves input false (.inl h))
    · rename_i h
      exact .of_moves (t.processActor_moves input true (.inr h))
    · rename_i h
      exact .of_moves (t.processCommand_moves input h)
    · rename_i h
      exact .of_moves (t.processItem_moves input h)
    · rename_i h
      exact .of_moves (t.processSkill_moves input h)
    · rename_i h
      exact .of_moves (t.processTarget_moves input true (.inl h))
    · rename_i h
      exact .of_moves (t.processTarget_moves input false (.inr h))
    · rename_i h
      exact absurd h hstate
    · rename_i h
      exact t.processVictory_orderly h
    · rename_i h
      exact t.processDefeat_orderly h
    · rename_i h
      exact t.processEscape_orderly h

/-- One turn of the current state takes at most the action that `overtaken` asks about. -/
theorem processState_turned (s : Scene σ) (input : InputState) (hopen : s.result = none) :
    Turned s s.overtaken (s.processState input).2 := by
  simpa using (s.processState_orderly input hopen).turned.after s.dropGoneActor_deeds.path

end Turns

section Run

variable [AssetLoader σ]

/-- The scene after a frame for each input. -/
def after (s : Scene σ) (inputs : List InputState) : Scene σ := inputs.foldl update s

/-- Whose pending actions give way while the outer states of a frame are gone through. -/
def overtakenFrom (input : InputState) : Nat → Scene σ → List BattlerId
  | 0, _ => []
  | left + 1, s =>
    if s.isBlocked then []
    else
      match s.checkWait input with
      | (false, _) => []
      | (true, s) =>
        s.overtaken ++
          match s.processState input with
          | (.nextFrame, _) => []
          | (.sameFrame, s) => overtakenFrom input left s

/-- Whose pending actions give way in a frame. -/
def overtakenBy (s : Scene σ) (input : InputState) : List BattlerId :=
  let s := { s with steps := [], inputConsumed := false }
  if s.result.isSome then []
  else
    match { s with frame := s.frame + 1 }.requestBackdrop.awaitAsset with
    | (true, s) =>
      match s.updateBattle input with
      | (true, s) => overtakenFrom input maxActionsPerFrame (s.mark .dispatch)
      | (false, _) => []
    | (false, _) => []

/-- Whose pending actions give way in a run. -/
def overtakenIn (s : Scene σ) : List InputState → List BattlerId
  | [] => []
  | input :: rest => s.overtakenBy input ++ (s.update input).overtakenIn rest

theorem overtakenBy_eq (s : Scene σ) (input : InputState) : s.overtakenBy input =
    match s.prelude input with
    | (true, t) => overtakenFrom input maxActionsPerFrame t
    | (false, _) => [] := by
  unfold overtakenBy prelude enter
  dsimp only
  split
  · rfl
  · generalize awaitAsset (σ := σ) _ = awaited
    obtain ⟨_ | _, t⟩ := awaited
    · rfl
    · dsimp only
      generalize t.updateBattle input = updated
      obtain ⟨_ | _, u⟩ := updated <;> rfl

theorem dispatchFrom_path (s : Scene σ) (input : InputState) (left : Nat) :
    Path Step s (overtakenFrom input left s) (dispatchFrom input left s) := by
  induction left generalizing s with
  | zero => exact .refl s
  | succ left ih =>
    unfold dispatchFrom overtakenFrom
    split
    · exact .refl s
    · rename_i hblocked
      have hwait : Path Step s [] (s.checkWait input).2 :=
        (s.checkWait_effects input).deeds.path.mono fun _ _ => .deed
      have hopen := (s.checkWait_effects input).result_eq.trans (result_of_isBlocked hblocked)
      generalize s.checkWait input = waited at hwait hopen ⊢
      obtain ⟨_ | _, t⟩ := waited
      · exact hwait
      · have hprocessed := hwait.trans (t.processState_turned input hopen).path
        rw [List.nil_append] at hprocessed
        dsimp only
        generalize t.processState input = processed at hprocessed ⊢
        obtain ⟨_ | _, u⟩ := processed
        · exact hprocessed.trans (ih u)
        · rw [List.append_nil]
          exact hprocessed

/-- A frame is a chain of steps, and what it overtakes is what `overtakenBy` tells. -/
theorem update_path (s : Scene σ) (input : InputState) :
    Path Step s (s.overtakenBy input) (s.update input) := by
  have hprelude := (s.prelude_interludes input).path
  rw [update_eq, overtakenBy_eq]
  generalize s.prelude input = begun at hprelude ⊢
  obtain ⟨_ | _, t⟩ := begun
  · exact hprelude
  · exact hprelude.trans (t.dispatchFrom_path input maxActionsPerFrame)

theorem after_path (s : Scene σ) (inputs : List InputState) :
    Path Step s (s.overtakenIn inputs) (s.after inputs) := by
  induction inputs generalizing s with
  | nil => exact .refl s
  | cons input rest ih => exact (s.update_path input).trans (ih (s.update input))

end Run

theorem create_eq_ok {σ : Type} {config : BattleConfig} {database : Database} {setup : BattleSetup}
    {assets : σ} {s : Scene σ} (h : create config database setup assets = .ok s) :
    config.Valid ∧ s = ofSetup config database setup assets := by
  unfold create at h
  split at h
  · contradiction
  · rename_i hvalid
    exact ⟨config.fault?_eq_none_iff.mp hvalid, (Except.ok.inj h).symm⟩

end ActiveBattle.Scene
