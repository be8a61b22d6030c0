import ActiveBattle.Proofs.Scene.Verdicts

/-!
# Every result has its cause

The state of a battle, a flight that is forced and what has stopped the main interpreter are all
explained by what happened before, and so is the result that comes of them. An explanation is kept
up by every frame up to its outer states, by every turn, and so by a run (`after_explained`), from
which the causes of results are read off (`results_caused`).
-/

namespace ActiveBattle.Scene

set_option autoImplicit false

variable {σ : Type}

/-- What brings a result about: scenes in which a side is wiped out, updates of the interpreters,
the end of a countdown, and the flight that the configuration allows. -/
inductive Cause (config : BattleConfig) (scenes : List (Scene σ)) (pumps : List Pump)
    (expired : Prop) :
    BattleResult → Prop
  | won {s : Scene σ} (hs : s ∈ scenes) (h : s.Won) : Cause config scenes pumps expired .victory
  | lost {s : Scene σ} (hs : s ∈ scenes) (h : s.Lost) : Cause config scenes pumps expired .defeat
  | terminated (h : Ending pumps) : Cause config scenes pumps expired .abort
  | expired (h : expired) : Cause config scenes pumps expired .abort
  | allowed (h : config.escapeAllowed = true) : Cause config scenes pumps expired .escape
  | forced (hdialect : config.isRpg2k3 = true) (h : Fleeing pumps) : Cause config scenes pumps
    expired .escape

theorem Cause.mono {config : BattleConfig} {scenes scenes' : List (Scene σ)}
    {pumps pumps' : List Pump} {expired expired' : Prop} {result : BattleResult}
    (hscenes : scenes ⊆ scenes') (hpumps : pumps ⊆ pumps') (hexpired : expired → expired')
    (h : Cause config scenes pumps expired result) :
    Cause config scenes' pumps' expired' result := by
  cases h with
  | won hs h => exact .won (hscenes hs) h
  | lost hs h => exact .lost (hscenes hs) h
  | terminated h => exact .terminated (h.mono hpumps)
  | expired h => exact .expired (hexpired h)
  | allowed h => exact .allowed h
  | forced hdialect h => exact .forced hdialect (h.mono hpumps)

/-- Whatever a scene says of how the battle ends is explained. -/
structure Explained (config : BattleConfig) (causes : BattleResult → Prop) (s : Scene σ) :
    Prop where
  dialect : s.director.script.rpg2k3 = config.isRpg2k3
  config : s.config = config
  routed : Routed s
  victory : s.state = .victory → causes .victory
  defeat : s.state = .defeat → causes .defeat
  escape : s.state = .escape → causes .escape
  forced : s.director.script.forceFlee = true → causes .escape
  stopped : ∀ result, s.director.interp.asyncOp = .terminateBattle result → causes result
  ended : ∀ result, s.result = some result → causes result

section Explaining

variable {config : BattleConfig} {causes : BattleResult → Prop} {s t : Scene σ}

theorem Explained.of_core (hs : s.Explained config causes) (h : t.core = s.core) :
    t.Explained config causes := by
  have hdirector : t.director = s.director := congrArg Core.director h
  have hstate : t.state = s.state := congrArg (fun c : Core => c.state) h
  have hprevious : t.previousState = s.previousState := congrArg (fun c : Core => c.previousState) h
  have hconfig : t.config = s.config := congrArg (fun c : Core => c.config) h
  have hresult : t.result = s.result := congrArg (fun c : Core => c.result) h
  refine ⟨hdirector ▸ hs.dialect, hconfig.trans hs.config, hs.routed.of_course hstate hprevious,
    hstate ▸ hs.victory,
    hstate ▸ hs.defeat, hstate ▸ hs.escape, hdirector ▸ hs.forced, hdirector ▸ hs.stopped,
      hresult ▸ hs.ended⟩

variable [AssetLoader σ]

/-- The plot of a scene explains what it unfolds to. -/
theorem Explained.unfolds {scenes : List (Scene σ)} {pumps : List Pump} {expired : Prop}
    (hs : s.Explained config causes)
    (hcauses : ∀ result, Cause config scenes pumps expired result → causes result)
    (h : Plot.Unfolds σ s.plot pumps t.plot) : t.director.script.rpg2k3 = config.isRpg2k3 ∧
      (t.director.script.forceFlee = true → causes .escape) ∧
      ∀ result, t.director.interp.asyncOp = .terminateBattle result → causes result := by
  refine ⟨h.flight.rpg2k3.trans hs.dialect, fun hforced => ?_, fun result hop => ?_⟩
  · rcases h.flight.forced hforced with hforced | ⟨hdialect, hflees⟩
    · exact hs.forced hforced
    · exact hcauses _ (.forced (hs.dialect.symm.trans hdialect) hflees)
  · rcases h.beats.ended hop with hop | ⟨rfl, hending⟩
    · exact hs.stopped result hop
    · exact hcauses _ (.terminated hending)

theorem Explained.prelude (hs : s.Explained config causes) (hlinked : s.Linked) (input : InputState)
    (hcauses : ∀ result, Cause config (s.deciding? input).toList (s.preludePumps input)
      (s.game.timers.Expires (s.update input).game.timers) result → causes result) :
    (s.prelude input).2.Explained config causes := by
  by_cases hopen : s.result = none
  · have hpath := (s.prelude_interludes input).path
    have hdecides := prelude_preludeDecides hlinked input
    obtain ⟨hdialect, hforced, hstopped⟩ := hs.unfolds hcauses (prelude_unfolds hlinked input).1
    refine ⟨hdialect, hpath.setting.config.trans hs.config,
      hpath.routed (fun _ _ => Step.routed) hs.routed, ?_, ?_, ?_, hforced, hstopped, ?_⟩
    · intro hvictory
      rcases hdecides.victory hvictory with hstate | ⟨t, ht, hwon⟩
      · exact hs.victory hstate
      · exact hcauses _ (.won (Option.mem_toList.mpr ht) hwon)
    · intro hdefeat
      rcases hdecides.defeat hdefeat with hstate | ⟨t, ht, hlost⟩
      · exact hs.defeat hstate
      · exact hcauses _ (.lost (Option.mem_toList.mpr ht) hlost)
    · intro hescape
      rcases hdecides.escape hescape with hstate | hforced | ⟨hdialect, hflees⟩
      · exact hs.escape hstate
      · exact hs.forced hforced
      · exact hcauses _ (.forced (hs.dialect.symm.trans hdialect) hflees)
    · intro result hended
      rcases prelude_stops hlinked hopen hended with hop | ⟨rfl, hending | hexpired⟩
      · exact hs.stopped result hop
      · exact hcauses _ (.terminated hending)
      · exact hcauses _ (.expired hexpired)
  · rw [prelude_of_ended hopen]
    exact hs.of_core rfl

theorem Explained.turn (hs : s.Explained config causes) (hopen : s.result = none)
    (input : InputState)
    (hcauses : ∀ result,
      Cause config [(s.processState input).2] (Pump.ofCalls s.stateCalls) False result →
      causes result) :
    (s.processState input).2.Explained config causes := by
  have hturned := s.processState_turned input hopen
  have hdecides := hturned.turnDecides hs.routed hopen
  obtain ⟨hdialect, hforced, hstopped⟩ := hs.unfolds hcauses (s.processState_unfolds input hopen)
  have hvictory (h : (s.processState input).2.state = .victory) : causes .victory := by
    rcases hdecides.victory h with hstate | hwon
    · exact hs.victory hstate
    · exact hcauses _ (.won (List.mem_singleton_self _) hwon)
  have hdefeat (h : (s.processState input).2.state = .defeat) : causes .defeat := by
    rcases hdecides.defeat h with hstate | hlost
    · exact hs.defeat hstate
    · exact hcauses _ (.lost (List.mem_singleton_self _) hlost)
  have hescape (h : (s.processState input).2.state = .escape) : causes .escape := by
    rcases hdecides.escape h with hstate | hallowed
    · exact hs.escape hstate
    · exact hcauses _ (.allowed (hs.config ▸ hallowed))
  refine ⟨hdialect, hturned.path.setting.config.trans hs.config,
    hturned.path.routed (fun _ _ => Step.routed) hs.routed, hvictory, hdefeat, hescape,
      hforced, hstopped, ?_⟩
  intro result hended
  cases hdecides.result result hended with
  | victory h _ => exact hvictory h
  | defeat h => exact hdefeat h
  | escape h => exact hescape h

theorem dispatchFrom_explained (input : InputState) (left : Nat) (hs : s.Explained config causes)
    (hcauses : ∀ result,
      Cause config ((turnsFrom input left s).map fun m =>
      (m.1.processState m.2).2) (Pump.ofCalls (dispatchCalls input left s)) False result →
      causes result) :
    (dispatchFrom input left s).Explained config causes := by
  induction left generalizing s with
  | zero => exact hs
  | succ left ih =>
    unfold turnsFrom dispatchCalls at hcauses
    unfold dispatchFrom
    split at hcauses
    · rename_i hblocked
      rw [if_pos hblocked]
      exact hs
    · rename_i hblocked
      rw [if_neg hblocked]
      have hopen := (s.checkWait_effects input).result_eq.trans (result_of_isBlocked hblocked)
      have hwaited := hs.of_core (s.checkWait_core input)
      generalize s.checkWait input = waited at hopen hwaited hcauses ⊢
      obtain ⟨_ | _, t⟩ := waited
      · exact hwaited
      · have hturned := hwaited.turn hopen input fun result h => by
          refine hcauses result (h.mono ?_ ?_ id)
          · exact fun u hu => by simpa using .inl (List.mem_singleton.mp hu)
          · rw [Pump.ofCalls_append]
            exact List.subset_append_left _ _
        dsimp only at hcauses ⊢
        generalize t.processState input = processed at hturned hcauses ⊢
        obtain ⟨_ | _, u⟩ := processed
        · refine ih hturned fun result h => hcauses result (h.mono ?_ ?_ id)
          · exact List.subset_cons_self _ _
          · rw [Pump.ofCalls_append]
            exact List.subset_append_right _ _
        · exact hturned

/-- The scenes of a frame in which a side can be found wiped out: the one that asks for it, and
those that turns end in. -/
def scenesBy (s : Scene σ) (input : InputState) : List (Scene σ) :=
  (s.deciding? input).toList ++ (s.turnsBy input).map fun m => (m.1.processState m.2).2

/-- Those of a run. -/
def scenesIn (s : Scene σ) : List InputState → List (Scene σ)
  | [] => []
  | input :: rest => s.scenesBy input ++ (s.update input).scenesIn rest

/-- A frame in which a countdown runs out that was to end the battle. -/
def ExpiresAt (m : Moment σ) : Prop := m.1.game.timers.Expires (m.1.update m.2).game.timers

theorem Explained.update (hs : s.Explained config causes) (hlinked : s.Linked) (input : InputState)
    (hcauses : ∀ result,
      Cause config (s.scenesBy input) (s.framePumps input) (ExpiresAt (s, input)) result →
      causes result) :
    (s.update input).Explained config causes := by
  have hbegun := hs.prelude hlinked input fun result h =>
    hcauses result (h.mono (List.subset_append_left _ _) (List.subset_append_left _ _) id)
  rw [update_eq]
  unfold scenesBy framePumps turnsBy at hcauses
  generalize s.prelude input = begun at hbegun hcauses ⊢
  obtain ⟨_ | _, t⟩ := begun
  · exact hbegun
  · exact dispatchFrom_explained input maxActionsPerFrame hbegun fun result h =>
      hcauses result (h.mono (List.subset_append_right _ _)
        (List.subset_append_right _ _) False.elim)

theorem after_explained (hs : s.Explained config causes) (htended : s.Tended) (frame : Nat)
    (inputs : List InputState)
    (hcauses : ∀ result,
      Cause config (s.scenesIn inputs) ((s.pumpsFrom frame inputs).map (·.2))
      (∃ m ∈ s.framesIn inputs, ExpiresAt m) result → causes result) :
    (s.after inputs).Explained config causes := by
  induction inputs generalizing s frame with
  | nil => exact hs
  | cons input rest ih =>
    have hpumps : (s.pumpsFrom frame (input :: rest)).map (·.2) =
        s.framePumps input ++ ((s.update input).pumpsFrom (frame + 1) rest).map (·.2) := by
      rw [pumpsFrom, List.map_append, List.map_map]
      exact congrArg (· ++ _) (List.map_id _)
    rw [hpumps] at hcauses
    have hupdated := hs.update htended.linked input fun result h => by
      refine hcauses result
        (h.mono (List.subset_append_left _ _) (List.subset_append_left _ _) fun hexpires => ?_)
      exact ⟨_, List.mem_cons_self, hexpires⟩
    refine ih hupdated (htended.update input) (frame + 1) fun result h => ?_
    refine hcauses result (h.mono (List.subset_append_right _ _) (List.subset_append_right _ _) ?_)
    rintro ⟨m, hm, hexpires⟩
    exact ⟨m, List.mem_cons_of_mem _ hm, hexpires⟩

omit [AssetLoader σ] in
theorem ofSetup_explained (config : BattleConfig) (database : Database) (setup : BattleSetup)
    (assets : σ) (causes : BattleResult → Prop) :
    (ofSetup config database setup assets).Explained config causes := by
  refine ⟨rfl, rfl, ofSetup_routed config database setup assets, ?_, ?_, ?_, ?_, ?_, ?_⟩
  all_goals exact nofun

/-- Every result has its cause. A victory comes from a scene in which all enemies are wiped out and
the party is not, a defeat from one in which the party is; the battle is aborted if the main
interpreter ends it or a countdown for that runs out; and the party escapes if the configuration
allows it, or if under the newer dialect a script has it flee. -/
theorem results_caused {database : Database} {setup : BattleSetup} {assets : σ}
    (hcreated : create config database setup assets = .ok s) (inputs : List InputState)
    {result : BattleResult} (hended : (s.after inputs).result = some result) :
    Cause config (s.scenesIn inputs) ((s.pumpsFrom 1 inputs).map (·.2)) (∃ m ∈ s.framesIn inputs,
      ExpiresAt m) result := by
  obtain ⟨-, rfl⟩ := create_eq_ok hcreated
  have hexplained := ofSetup_explained config database setup assets
    (Cause config ((ofSetup config database setup assets).scenesIn inputs)
      (((ofSetup config database setup assets).pumpsFrom 1 inputs).map (·.2))
      (∃ m ∈ (ofSetup config database setup assets).framesIn inputs, ExpiresAt m))
  exact (after_explained hexplained (ofSetup_tended config database setup assets) 1 inputs fun _ =>
    id).ended result hended

end Explaining

/-! ### An escape that only a script allows -/

namespace Retreat

def config : BattleConfig := { escapeAllowed := false }

def database : Database where
  actors := [{ id := 1, name := "A" }]
  enemies := [{ id := 1, name := "E" }]

/-- A parallel event that has the party flee. -/
def event : CommonEvent where
  id := 1
  trigger := .parallel
  instructions := [{ opcode := .forceFlee, params := [0, 0, 1] }]

def setup : BattleSetup where
  party := [1]
  troop := { members := [{ enemyId := 1 }] }
  commonEvents := [event]

def scene : Scene InstantAssets := ofSetup config database setup {}

/-- The party has run off after as many frames as an escape takes. -/
def inputs : List InputState := List.replicate 30 {}

end Retreat

set_option maxRecDepth 100000 in
theorem results_caused_of_retreat :
    create Retreat.config Retreat.database Retreat.setup {} = .ok Retreat.scene ∧
      (Retreat.scene.after Retreat.inputs).result = some .escape ∧
        Retreat.config.escapeAllowed = false ∧
      Cause Retreat.config (Retreat.scene.scenesIn Retreat.inputs)
        ((Retreat.scene.pumpsFrom 1 Retreat.inputs).map (·.2))
        (∃ m ∈ Retreat.scene.framesIn Retreat.inputs, ExpiresAt m) .escape := by
  have hended : (Retreat.scene.after Retreat.inputs).result = some .escape := by decide +kernel
  exact ⟨rfl, hended, rfl, results_caused rfl Retreat.inputs hended⟩

end ActiveBattle.Scene
