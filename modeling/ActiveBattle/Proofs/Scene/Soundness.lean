import ActiveBattle.Proofs.Battler.Sound
import ActiveBattle.Proofs.Roster.Setup
import ActiveBattle.Proofs.Scene.Admission

/-!
# Sound battles

Every battler of a battle is sound, from the first frame on. Effects treat battlers one by one, as
actions, scripts and the formation do; only the states that wear off at a turn ask who they wear off
from, and those are battlers that are present.
-/

namespace ActiveBattle

set_option autoImplicit false

namespace Scene

variable {σ : Type}

structure Sound (s : Scene σ) : Prop where
  battlers : s.roster.All (Battler.Sound s.config.maxAtbGauge)
  indexed : s.roster.Indexed

/-- Battlers that are sound where they were stay so when who they are stays. -/
theorem Sound.of_setting {s t : Scene σ} (hs : Sound s) (h : Setting s t)
    (hbattlers : s.roster.All (Battler.Sound s.config.maxAtbGauge) →
      t.roster.All (Battler.Sound s.config.maxAtbGauge)) : Sound t :=
  ⟨by rw [h.config]; exact hbattlers hs.battlers, hs.indexed.of_kin h.battlers⟩

theorem healStates_sound {max : Int} (s : Scene σ) (ids : List BattlerId)
    (hlive : ∀ id ∈ ids, ∀ b, s.roster.battler? id = some b → b.isDead = false)
    (h : s.roster.All (Battler.Sound max)) : (s.healStates ids).roster.All (Battler.Sound max) := by
  induction ids generalizing s with
  | nil => exact h
  | cons id rest ih =>
    rw [List.forall_mem_cons] at hlive
    refine ih (s.modifyBattler id fun b => (b.healStates s.database).2) (?_) ?_
    · intro other hother b hb
      have hmodified :=
        s.roster.battler?_modify id other (fun b => (b.healStates s.database).2) fun _ => rfl
      rw [show (s.modifyBattler id fun b =>
          (b.healStates s.database).2).roster.battler? other = _ from
        hmodified] at hb
      split at hb
      · obtain ⟨b, hfound, rfl⟩ := Option.map_eq_some_iff.mp hb
        exact Battler.Sound.healed_isDead (hlive.1 b hfound) s.database
      · exact hlive.2 other hother b hb
    · exact h.modify id _ fun b hb hsound => hsound.healStates (hlive.1 b hb) s.database

/-- Only the living have states that wear off. -/
theorem wear_sound {s : Scene σ} (hs : Sound s) :
    (s.healStates s.roster.presentIds).roster.All (Battler.Sound s.config.maxAtbGauge) := by
  refine s.healStates_sound _ (?_) hs.battlers
  intro id hid b hb
  obtain ⟨present, hfound, hpresent⟩ := hs.indexed.battler?_of_mem_presentIds hid
  obtain rfl := Option.some.inj (hfound.symm.trans hb)
  unfold Battler.isPresent at hpresent
  simp only [Bool.and_eq_true, Bool.not_eq_true'] at hpresent
  exact hpresent.2

theorem Ran.sound {s t : Scene σ} {max : Int} (h : Ran s t)
    (hs : s.roster.All (Battler.Sound max)) :
    t.roster.All (Battler.Sound max) :=
  hs.of_pointwise (h.game.battlers (fun _ _ hgiven hb => hgiven.sound hb) fun _ _ hscripted hb =>
    hscripted.sound hb)

theorem Effect.sound {s t : Scene σ} (h : Effect s t) (hs : Sound s) : Sound t := by
  apply hs.of_setting h.setting
  intro hbattlers
  cases h with
  | quiet h =>
    rw [show t.roster = s.roster from congrArg Core.roster h]
    exact hbattlers
  | hook hran _ => exact hran.sound hbattlers
  | page trigger source _ =>
    rw [show (s.schedulePage trigger source).roster = s.roster from
      congrArg GameState.roster (s.schedulePage_game trigger source)]
    exact hbattlers
  | pose hroster _ => exact hbattlers.of_pointwise (hroster.battlers.imp fun _ _ h => h.sound)
  | wear _ => exact wear_sound hs
  | ache _ hroster _ =>
    exact hbattlers.of_pointwise (hroster.battlers.imp fun _ _ h => (h.struck s.database).sound)
  | pay hroster _ =>
    exact hbattlers.of_pointwise (hroster.battlers.imp fun _ _ h => (h.struck s.database).sound)
  | strike _ _ hroster _ => exact hbattlers.of_pointwise (hroster.battlers.imp fun _ _ h => h.sound)
  | consume item => exact hbattlers
  | reward _ _ =>
    exact hbattlers.of_pointwise
      (s.grantRewards_battlers (fun _ h => h) fun _ _ _ h h' hb => h' (h hb))
  | turn id =>
    exact Roster.All.modify (r := s.roster.incTurns) hbattlers id _ fun _ _ h => { h with }
  | announce a _ => exact hbattlers
  | swapRow actor index a _ _ => exact hbattlers.modifyActor actor _ fun _ h => { h with }
  | forget actor => exact hbattlers.modifyActor actor _ fun _ h => { h with }
  | spend actor => exact hbattlers.modifyActor actor _ fun _ h => h.emptyGauge

theorem Background.sound {s t : Scene σ} (h : Background s t) (hs : Sound s) : Sound t := by
  apply hs.of_setting h.setting
  intro hbattlers
  cases h with
  | quiet h =>
    rw [show t.roster = s.roster from congrArg Core.roster h]
    exact hbattlers
  | opened backdrop => exact hbattlers
  | script hran _ => exact hran.sound hbattlers
  | pose hroster _ => exact hbattlers.of_pointwise (hroster.battlers.imp fun _ _ h => h.sound)
  | placed => exact hbattlers.of_pointwise (s.finishStart_arranged.imp fun _ _ h => h.sound)
  | fill =>
    exact hbattlers.of_pointwise ((s.roster.updateGauges_arranged _ _ _).imp fun _ _ h => h.sound)
  | tick => exact hbattlers

theorem Step.sound {s t : Scene σ} (h : Step s t) (hs : Sound s) : Sound t := by
  rcases h.effect_or_background_or_marks with heffect | hbackground | hmarks
  · exact heffect.sound hs
  · exact hbackground.sound hs
  · exact hs.of_setting h.setting fun hbattlers =>
      hbattlers.of_pointwise (hmarks.imp fun _ _ h => h.sound)

theorem Path.sound {s t : Scene σ} {lost : List BattlerId} (h : Path Step s lost t) (hs : Sound s) :
    Sound t := by
  induction h with
  | refl => exact hs
  | step _ hstep ih => exact hstep.sound ih
  | take _ htake ih =>
    cases htake with
    | mk a a' rest _ _ _ _ _ => exact ⟨ih.battlers, ih.indexed⟩

theorem ofSetup_sound {config : BattleConfig} {database : Database} (setup : BattleSetup)
    (assets : σ) (hgauge : 0 ≤ config.maxAtbGauge)
    (hactors : ∀ d ∈ database.actors, 1 ≤ d.stats.maxHp ∧ 0 ≤ d.stats.maxSp)
    (henemies : ∀ d ∈ database.enemies, 1 ≤ d.stats.maxHp ∧ 0 ≤ d.stats.maxSp) :
    Sound (ofSetup config database setup assets) := by
  refine ⟨?_, Roster.ofSetup_indexed _ _ _⟩
  have hfresh {b : Battler} (hb : b ∈ (ofSetup config database setup assets).roster.actors ∨
      b ∈ (ofSetup config database setup assets).roster.enemies) : b.Sound config.maxAtbGauge := by
    rcases Roster.mem_ofSetup hb with ⟨d, hd, rfl⟩ | ⟨i, d, member, hd, rfl⟩
    · exact Battler.sound_of_fresh rfl rfl rfl rfl rfl hgauge (hactors d hd)
    · exact Battler.sound_of_fresh rfl rfl rfl rfl rfl hgauge (henemies d hd)
  exact ⟨fun b hb => hfresh (.inl hb), fun b hb => hfresh (.inr hb)⟩

/-- Throughout a battle of battlers that can live, every battler is sound, and no value is ever held
in a range without members. -/
theorem after_sound [AssetLoader σ] {config : BattleConfig} {database : Database}
    {setup : BattleSetup} {assets : σ} {s : Scene σ}
    (h : create config database setup assets = .ok s)
    (hactors : ∀ d ∈ database.actors, 1 ≤ d.stats.maxHp ∧ 0 ≤ d.stats.maxSp)
    (henemies : ∀ d ∈ database.enemies, 1 ≤ d.stats.maxHp ∧ 0 ≤ d.stats.maxSp)
    (inputs : List InputState) :
    (s.after inputs).roster.All (Battler.Sound config.maxAtbGauge) ∧
      (s.after inputs).roster.hasEmptyRange = false := by
  obtain ⟨hvalid, rfl⟩ := create_eq_ok h
  have hpath := (ofSetup config database setup assets).after_path inputs
  have hsound := hpath.sound
    (ofSetup_sound setup assets (Int.le_of_lt hvalid.gauge_pos) hactors henemies)
  have hconfig : ((ofSetup config database setup assets).after inputs).config = config :=
    hpath.setting.config
  have hbattlers := hsound.battlers
  rw [hconfig] at hbattlers
  refine ⟨hbattlers, ?_⟩
  unfold Roster.hasEmptyRange
  rw [Bool.or_eq_false_iff, List.any_eq_false, List.any_eq_false]
  constructor
  · intro b hb
    rw [(hbattlers.1 b hb).emptyRange]
    decide
  · intro b hb
    rw [(hbattlers.2 b hb).emptyRange]
    decide

theorem after_sound_of_provocation :
    (Provocation.scene.after (List.replicate 43 {})).roster.All
        (Battler.Sound Provocation.config.maxAtbGauge) ∧
      (Provocation.scene.after (List.replicate 43 {})).roster.hasEmptyRange = false := by
  have hcreated : create Provocation.config Provocation.database Provocation.setup {} =
      .ok Provocation.scene :=
    rfl
  have hactors : ∀ d ∈ Provocation.database.actors, 1 ≤ d.stats.maxHp ∧ 0 ≤ d.stats.maxSp := by
    decide
  have henemies : ∀ d ∈ Provocation.database.enemies, 1 ≤ d.stats.maxHp ∧ 0 ≤ d.stats.maxSp := by
    decide
  exact after_sound hcreated hactors henemies _

end Scene

end ActiveBattle
