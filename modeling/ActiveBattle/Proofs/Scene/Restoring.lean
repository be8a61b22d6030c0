import ActiveBattle.Proofs.Document.Snapshot
import ActiveBattle.Proofs.Scene.Waiting
import ActiveBattle.Proofs.Script.Restoring

/-!
# Battles that are put back

The main interpreter and the parallel events run nothing but programs of the store, so whatever a
battle has been through, its scripts can be kept and put back (`restores_future`). Only hooks run
programs that are built on the fly. A counter below zero is put back as zero, which none of the
commands can tell apart, but the snapshot itself can (`not_restores_of_negative_wait`).
-/

namespace ActiveBattle.Scene

set_option autoImplicit false

open Scripts

/-- All interpreters but that of the hooks stay sound. -/
theorem sound_kept (σ : Type) [AssetLoader σ] {store : ProgramStore} (hstore : store.Addressable)
    (hsorted : store.events.Pairwise (·.id < ·.id)) (config : BattleConfig) :
    Kept σ store store.events fun seat i => seat ≠ .hooks →
      Interpreter.Sound store (seat.made config) i where
  page _ _ _ h hpage hseat := (h hseat).clear.push (ProgramStore.resolve_ofPage hstore hpage)
  starts _ _ _ h _ hevent hseat := (h hseat).push (ProgramStore.resolve_ofCommonEvent hstore hevent)
  ends _ h hseat := (h hseat).clear
  restarts _ _ e h _ he hseat := by
    have hfound := ProgramStore.event?_of_mem hsorted (List.mem_of_getElem? he)
    exact (h hseat).push (ProgramStore.resolve_ofCommonEvent hstore hfound)
  calls _ _ _ _ _ _ hseat := absurd rfl hseat
  updates _ _ _ _ _ hruns h hseat := hruns.sound hstore (h hseat)

theorem ofEvent_sound {store : ProgramStore} (hstore : store.Addressable)
    (hsorted : store.events.Pairwise (·.id < ·.id)) {e : CommonEvent} (he : e ∈ store.events) :
    ∀ i ∈ (EventRunner.ofEvent e).interp, Interpreter.Sound store {} i := by
  intro i hi
  obtain rfl := EventRunner.eq_pushEvent_of_ofEvent hi
  have hnew : Interpreter.Sound store {} {} :=
    ⟨⟨nofun, rfl⟩, ⟨nofun, nofun, Interpreter.isOperand_zero, fun _ => Int.le_refl 0⟩, rfl, rfl⟩
  exact hnew.push (ProgramStore.resolve_ofCommonEvent hstore
    (ProgramStore.event?_of_mem hsorted he))

theorem ofSetup_sound_scripts {σ : Type} (config : BattleConfig) (database : Database)
    (setup : BattleSetup) (assets : σ)
    (hstore : (ofSetup config database setup assets).store.Addressable) :
    (ofSetup config database setup assets).scripts.All fun seat i =>
      seat ≠ .hooks → Interpreter.Sound (ofSetup config database setup assets).store
        (seat.made config) i := by
  intro seat i hi hseat
  cases seat with
  | hooks => contradiction
  | main =>
    obtain rfl := Option.some.inj hi
    exact ⟨Interpreter.ofConfig_orderly config,
      ⟨nofun, nofun, Interpreter.isOperand_zero, fun _ => Int.le_refl 0⟩, rfl, rfl⟩
  | event index =>
    obtain ⟨runner, hrunner, hinterp⟩ := Option.bind_eq_some_iff.mp hi
    obtain ⟨e, he, rfl⟩ := List.mem_map.mp (List.mem_of_getElem? hrunner)
    exact ofEvent_sound hstore (ProgramStore.ofEvents_sorted _ _) he i hinterp

theorem ofSetup_events {σ : Type} (config : BattleConfig) (database : Database)
    (setup : BattleSetup) (assets : σ) :
    (ofSetup config database setup assets).scripts.runners.map (·.event) =
      (ofSetup config database setup assets).store.events := by
  change ((ofSetup config database setup assets).store.events.map EventRunner.ofEvent).map
    (·.event) = _
  rw [List.map_map]
  exact List.map_id _

section Reached

variable {σ : Type} [AssetLoader σ] (config : BattleConfig) (database : Database)
  (setup : BattleSetup) (assets : σ) (inputs : List InputState)

theorem after_holders :
    ((ofSetup config database setup assets).after inputs).scripts.holders =
      (ofSetup config database setup assets).scripts.holders :=
  (after_beats (ofSetup_tended config database setup assets) 1 inputs).1.holders_eq

/-- The parallel events of a battle are those of its store, whatever it has been through. -/
theorem after_events :
    ((ofSetup config database setup assets).after inputs).runners.map (·.event) =
      (ofSetup config database setup assets).store.events :=
  (events_eq_of_holders_eq (after_holders config database setup assets inputs)).trans
    (ofSetup_events config database setup assets)

variable {config database setup assets}
  (hstore : (ofSetup config database setup assets).store.Addressable)
include hstore

theorem after_scripts_sound :
    ((ofSetup config database setup assets).after inputs).scripts.All fun seat i =>
      seat ≠ .hooks → Interpreter.Sound (ofSetup config database setup assets).store
        (seat.made config) i := by
  obtain ⟨hbeats, -⟩ := after_beats (ofSetup_tended config database setup assets) 1 inputs
  exact hbeats.all (sound_kept σ hstore (ProgramStore.ofEvents_sorted _ _) config) rfl
    (ofSetup_events config database setup assets)
    (ofSetup_sound_scripts config database setup assets hstore)

variable {inputs} {r : EventRunner}
  (hr : r ∈ ((ofSetup config database setup assets).after inputs).runners)
include hr

theorem after_runner_sound :
    ∀ i ∈ r.interp, Interpreter.Sound (ofSetup config database setup assets).store {} i := by
  intro i hi
  obtain ⟨index, hindex⟩ := List.getElem?_of_mem hr
  have hfound : ((ofSetup config database setup assets).after inputs).scripts.interp?
      (.event index) = some i := by
    unfold interp?
    exact (congrArg (·.bind EventRunner.interp) hindex).trans hi
  exact after_scripts_sound inputs hstore (.event index) i hfound nofun

/-- If a parallel event is not suspended, a new one that loads what it has kept goes on like it, but
for a negative wait. -/
theorem after_akin_loadState (hop : r.op = .none) {R : Interpreter → Interpreter → Prop}
    (hR : ∀ i ∈ r.interp,
      R (EventRunner.started r.event i) (EventRunner.started r.event i.floored)) :
    EventRunner.Akin R r ((EventRunner.ofEvent r.event).loadState r.saveState
      (ofSetup config database setup assets).store) := by
  have hholds : r.interp.isSome = (EventRunner.ofEvent r.event).interp.isSome := by
    have hholder : (r.event, r.interp.isSome) ∈
        (ofSetup config database setup assets).scripts.holders := by
      rw [← after_holders config database setup assets inputs]
      exact List.mem_map_of_mem hr
    obtain ⟨_, hmade, hsame⟩ := List.mem_map.mp hholder
    obtain ⟨e, -, rfl⟩ := List.mem_map.mp hmade
    obtain ⟨hevent, hinterp⟩ := Prod.mk.inj hsame
    rw [← hevent, ← hinterp]
    rfl
  have hnew : ∀ i ∈ (EventRunner.ofEvent r.event).interp,
      Interpreter.Sound (ofSetup config database setup assets).store {} i := by
    have hevent : r.event ∈ (ofSetup config database setup assets).store.events := by
      rw [← after_events config database setup assets inputs]
      exact List.mem_map_of_mem hr
    exact ofEvent_sound hstore (ProgramStore.ofEvents_sorted _ _) hevent
  have hasync : ∀ i ∈ r.interp, i.asyncOp = .none := by
    intro i hi
    unfold EventRunner.op at hop
    rw [show r.interp = some i from hi] at hop
    exact hop
  exact EventRunner.akin_loadState hstore hholds (after_runner_sound hstore hr) hnew hasync hR

end Reached

/-- If no interpreter is suspended, what is kept of the main interpreter and of the common events
restores them: the main one as it is, and an event so that nobody can tell it from the old one by
its updates, whatever they are given. It may be kept as a text. Only a counter below zero comes back
as zero. That changes nothing under the commands there are, and it takes a wait whose length is
negative. -/
theorem restores_future {σ : Type} [AssetLoader σ] {config : BattleConfig} {database : Database}
    {setup : BattleSetup} {assets : σ} {s : Scene σ}
    (h : create config database setup assets = .ok s) (hstore : s.store.Addressable)
    (inputs : List InputState) (hidle : (s.after inputs).Unsuspended) :
    let main := (s.after inputs).director.interp
    let restored :=
      (Director.ofConfig config s.store.pageCount).interp.setState main.saveState s.store
    (restored = { main with waitFrames := max main.waitFrames 0 } ∧
      (0 ≤ main.waitFrames → restored = main) ∧
        ExecutionSnapshot.ofText? main.saveState.toText = some main.saveState) ∧
      (s.after inputs).runners.map (·.event) = s.store.events ∧
      (∀ r ∈ (s.after inputs).runners,
        let fresh := (EventRunner.ofEvent r.event).loadState r.saveState s.store
        ((∀ i ∈ r.interp, 0 ≤ i.waitFrames) →
          ∀ (δ τ : Type) [AssetLoader τ] (calls : List (EventRunner.Call δ τ)),
            fresh.answers calls = r.answers calls) ∧
          (∀ (τ : Type) [AssetLoader τ] (calls : List (EventRunner.Call BattleScript τ)),
            (∀ c ∈ calls, ∃ set : CommandSet, c.commands = set.commands) →
              fresh.answers calls = r.answers calls) ∧
          ExecutionSnapshot.ofText? r.saveState.toText = some r.saveState) ∧
      (∀ seat i, (s.after inputs).scripts.interp? seat = some i → i.waitFrames < 0 →
        ∃ q ∈ s.pumpsFrom 1 inputs, q.2.seat = seat ∧
          ∃ inst ∈ q.2.lines, inst.IsNegativeWait (seat.rate config)) ∧
      ∀ kept : ExecutionSnapshot, kept.Representable →
        ExecutionSnapshot.ofText? kept.toText = some kept := by
  obtain ⟨-, rfl⟩ := create_eq_ok h
  have hmain := after_scripts_sound inputs hstore .main _ rfl nofun
  have hrestored := Interpreter.setState_saveState hstore hmain hidle.main
  refine ⟨⟨hrestored, fun hwait => hrestored.trans (Interpreter.floored_of_nonneg hwait),
    ExecutionSnapshot.ofText?_toText (hmain.restorable.representable hstore)⟩,
    after_events config database setup assets inputs, fun r hr => ⟨?always, ?commands, ?kept⟩,
    fun seat i hi hneg => ?negative, fun kept hkept => ExecutionSnapshot.ofText?_toText hkept⟩
  case always =>
    intro hwaits δ τ _ calls
    have hsame : ∀ i ∈ r.interp,
        EventRunner.started r.event i = EventRunner.started r.event i.floored := by
      intro i hi
      rw [Interpreter.floored_of_nonneg (hwaits i hi)]
    exact (after_akin_loadState hstore hr (hidle.events r hr) hsame).answers_eq
      EventRunner.starts_eq fun c _ => EventRunner.respects_eq c.commands
  case commands =>
    intro τ _ calls hcalls
    have hmatches : ∀ i ∈ r.interp,
        (EventRunner.started r.event i).Matches (EventRunner.started r.event i.floored) :=
      fun i _ => EventRunner.starts_matches r.event i i.floored (.floored i)
    refine (after_akin_loadState hstore hr (hidle.events r hr) hmatches).answers_eq
      EventRunner.starts_matches fun c hc => ?_
    obtain ⟨set, hset⟩ := hcalls c hc
    rw [hset]
    exact EventRunner.respects_matches set.ignoresWait
  case kept =>
    exact ExecutionSnapshot.ofText?_toText
      (EventRunner.saveState_representable hstore (after_runner_sound hstore hr))
  case negative =>
    by_contra hnone
    refine Int.not_lt.mpr (after_wait_nonneg hi fun q hq hseat inst hinst hwait => ?_) hneg
    exact hnone ⟨q, hq, hseat, inst, hinst, hwait⟩

/-! ### A battle with an event that waits and one that has finished -/

namespace Halted

def config : BattleConfig := {}

def database : Database where
  actors := [{ id := 1, name := "A" }]
  enemies := [{ id := 1, name := "E" }]

def setup : BattleSetup where
  party := [1]
  troop := { members := [{ enemyId := 1 }] }
  commonEvents :=
    [{ id := 1, trigger := .autoStart, instructions := [{ opcode := .wait, params := [5] }] },
      { id := 2
        trigger := .parallel
        instructions := [{ opcode := .controlSwitches, params := [0, 1, 1, 0] }] }]

def scene : Scene InstantAssets := ofSetup config database setup {}

end Halted

set_option maxRecDepth 100000 in
theorem restores_future_of_halt :
    create Halted.config Halted.database Halted.setup {} = .ok Halted.scene ∧
      (Halted.scene.after [{}]).director.interp.waitFrames = 30 ∧
      (Halted.scene.after [{}]).runners.map (·.saveState) = [{}, ⟨[FrameSnapshot.placeholder], 0⟩] ∧
      ∀ r ∈ (Halted.scene.after [{}]).runners,
        ∀ calls : List (EventRunner.Call BattleScript InstantAssets),
        ((EventRunner.ofEvent r.event).loadState r.saveState Halted.scene.store).answers calls =
          r.answers calls := by
  have hcreated : create Halted.config Halted.database Halted.setup {} = .ok Halted.scene := rfl
  have hstore : Halted.scene.store.Addressable := ⟨by decide, by decide, by decide, by decide⟩
  have hidle : (Halted.scene.after [{}]).Unsuspended :=
    ⟨by decide +kernel, by decide +kernel, by decide +kernel⟩
  refine ⟨hcreated, by decide +kernel, by decide +kernel, fun r hr calls => ?_⟩
  have hwaits : ∀ r ∈ (Halted.scene.after [{}]).runners, ∀ i ∈ r.interp, 0 ≤ i.waitFrames := by
    decide +kernel
  exact ((restores_future hcreated hstore [{}] hidle).2.2.1 r hr).1 (hwaits r hr) BattleScript
    InstantAssets calls

/-! ### A battle with a wait that is too long -/

namespace Wrapped

def setup : BattleSetup where
  party := [1]
  troop := { members := [{ enemyId := 1 }] }
  commonEvents :=
    [{ id := 1
       trigger := .autoStart
       instructions := [{ opcode := .wait, params := [40000000] }] }]

def scene : Scene InstantAssets := ofSetup Halted.config Halted.database setup {}

end Wrapped

-- The wait has left the counter of the main interpreter below zero.
set_option maxRecDepth 100000 in
theorem not_restores_of_negative_wait :
    create Halted.config Halted.database Wrapped.setup {} = .ok Wrapped.scene ∧
      Wrapped.scene.store.Addressable ∧
      (Wrapped.scene.after [{}]).Unsuspended ∧
        (Wrapped.scene.after [{}]).director.interp.waitFrames = -189496729 ∧
      (Director.ofConfig Halted.config Wrapped.scene.store.pageCount).interp.setState
          (Wrapped.scene.after [{}]).director.interp.saveState Wrapped.scene.store ≠
        (Wrapped.scene.after [{}]).director.interp := by
  have hidle : (Wrapped.scene.after [{}]).Unsuspended :=
    ⟨by decide +kernel, by decide +kernel, by decide +kernel⟩
  exact ⟨rfl, ⟨by decide, by decide, by decide, by decide⟩, hidle, by decide +kernel,
    by decide +kernel⟩

end ActiveBattle.Scene
