import ActiveBattle.Proofs.Scene.AgreeingFrames
import ActiveBattle.Proofs.Scene.Admission

/-!
# How a battle is presented

The texts of a battle, and how long its numbers float, are for the player. Two battles whose
configurations differ in nothing else take the same course under the same inputs: in every frame
they differ only in what is shown (`Scene.after_retold`). Whether the opening makes its
announcements is not a matter of presentation, since it waits for them.
-/

namespace ActiveBattle

set_option autoImplicit false

/-- The configurations differ only in how battles are presented, and make the same announcements of
the opening. -/
structure BattleConfig.Restyled (c c' : BattleConfig) : Prop where
  rest : c' =
    { c with
      floatTextFrames := c'.floatTextFrames
      invertAnimations := c'.invertAnimations
      terms := c'.terms }
  battleStart : c'.terms.battleStart = "" ↔ c.terms.battleStart = ""
  specialCombat : c'.terms.specialCombat = "" ↔ c.terms.specialCombat = ""

theorem announced_eq {text text' : String} (h : text' = "" ↔ text = "") :
    announced text' = announced text := by
  have hempty : text'.isEmpty = text.isEmpty := by
    rw [Bool.eq_iff_iff, String.isEmpty_iff, String.isEmpty_iff, h]
  unfold announced
  rw [hempty]

theorem BattleConfig.Restyled.plain_eq {c c' : BattleConfig} (h : c.Restyled c') :
    c'.plain = c.plain := by
  have hplain : c'.plain = { c.plain with terms := c'.plain.terms } :=
    congrArg (fun x : BattleConfig =>
      { x with invertAnimations := false, floatTextFrames := 0, terms := c'.plain.terms }) h.rest
  have hterms : c'.plain.terms = c.plain.terms := by
    unfold BattleConfig.plain
    rw [announced_eq h.battleStart, announced_eq h.specialCombat]
  rw [hplain, hterms]

namespace Scene

variable {σ : Type}

/-- The battle as it is, but for what is shown of it. -/
structure Retold (s t : Scene σ) : Prop where
  config : s.config.Restyled t.config
  rest : t =
    { s with
      config := t.config
      world := s.world.modifyGame ({ · with message := t.game.message })
      floatTexts := t.floatTexts
      notification := t.notification }
  pages : t.game.message.pages.length = s.game.message.pages.length

theorem Agrees.retold {s t : Scene σ} (h : Agrees .words s t)
    (hconfig : s.config.Restyled t.config) : Retold s t where
  config := hconfig
  rest := h.apart fun u =>
    { u with
      config := t.config
      world := u.world.modifyGame ({ · with message := t.game.message })
      floatTexts := t.floatTexts
      notification := t.notification }
  pages := MessageBox.blank_eq_iff.mp h.game.paraphrases.blank_eq

theorem ofSetup_agrees {c c' : BattleConfig} (h : c.Restyled c') (database : Database)
    (setup : BattleSetup) (assets : σ) :
    Agrees .words (ofSetup c database setup assets) (ofSetup c' database setup assets) :=
  congrArg
    (fun plain : BattleConfig =>
      ({ (ofSetup plain database setup assets).without .words with config := plain } : Scene σ))
    h.plain_eq

/-- However a battle is presented, it takes the same course: in every frame the two differ in
nothing but the words and numbers that are shown, and have as many pages of messages open. -/
theorem after_retold [AssetLoader σ] {c c' : BattleConfig} {database : Database}
    {setup : BattleSetup} {assets : σ} {s t : Scene σ} (hc : c.Restyled c')
    (hs : create c database setup assets = .ok s) (ht : create c' database setup assets = .ok t)
    (inputs : List InputState) :
    (s.after inputs).Retold (t.after inputs) := by
  obtain ⟨-, rfl⟩ := create_eq_ok hs
  obtain ⟨-, rfl⟩ := create_eq_ok ht
  have hconfig (c : BattleConfig) : ((ofSetup c database setup assets).after inputs).config = c :=
    ((ofSetup c database setup assets).after_path inputs).setting.config
  apply ((ofSetup_agrees hc database setup assets).after inputs).retold
  rw [hconfig, hconfig]
  exact hc

namespace Provocation

/-- The same battle in other words, with numbers that are soon gone. -/
def retoldConfig : BattleConfig :=
  { config with
    floatTextFrames := 1
    invertAnimations := true
    terms := { config.terms with miss := "...", defeat := "" } }

def retoldScene : Scene InstantAssets := ofSetup retoldConfig database setup {}

end Provocation

theorem after_retold_of_provocation :
    create Provocation.config Provocation.database Provocation.setup {} = .ok Provocation.scene ∧
      create Provocation.retoldConfig Provocation.database Provocation.setup {} =
        .ok Provocation.retoldScene ∧
      (Provocation.scene.after (List.replicate 43 {})).Retold
        (Provocation.retoldScene.after (List.replicate 43 {})) := by
  have hcreated : create Provocation.config Provocation.database Provocation.setup {} =
      .ok Provocation.scene :=
    rfl
  have hretold : create Provocation.retoldConfig Provocation.database Provocation.setup {} =
      .ok Provocation.retoldScene :=
    rfl
  have hrestyled : Provocation.config.Restyled Provocation.retoldConfig :=
    ⟨rfl, by decide, by decide⟩
  exact ⟨hcreated, hretold, after_retold hrestyled hcreated hretold _⟩

end Scene

end ActiveBattle
