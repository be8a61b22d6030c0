import ActiveBattle.Script.Director
import ActiveBattle.Script.EventRunner
import ActiveBattle.Proofs.Battler.Change
import ActiveBattle.Proofs.Roster.Pointwise
import ActiveBattle.Proofs.Script.Memory

/-!
# What scripts can do to a battle

A script reaches the battlers through a handful of commands. `GameState.Scripted` says of two games
that they differ, battler by battler, by what scripts can do, and otherwise only in switches,
variables, dice, messages and what is shown. Every instruction, every update of an interpreter and
every hook keeps within it (`Execution.update_follows`, `BattleScript.trigger_follows`).
-/

namespace ActiveBattle

set_option autoImplicit false

/-- The game differs by what scripts can do: they reach the enemies, and give actors combos. -/
structure GameState.Scripted (g g' : GameState) : Prop where
  database : g'.database = g.database
  timers : g'.timers = g.timers
  actors : List.Forall₂ Battler.ComboGiven g.roster.actors g'.roster.actors
  enemies : List.Forall₂ (Battler.Scripted g.database) g.roster.enemies g'.roster.enemies
  party : g'.roster.party = g.roster.party
  items : g'.roster.items = g.roster.items
  gold : g'.roster.gold = g.roster.gold
  exp : g'.roster.exp = g.roster.exp
  turns : g'.roster.turns = g.roster.turns

namespace GameState.Scripted

/-- A change elsewhere than in the roster. -/
theorem of_roster_eq {g g' : GameState} (hd : g'.database = g.database) (ht : g'.timers = g.timers)
    (hr : g'.roster = g.roster) : Scripted g g' := by
  refine ⟨hd, ht, ?_, ?_, ?_, ?_, ?_, ?_, ?_⟩ <;> rw [hr]
  · exact List.forall₂_same.mpr fun b _ => .refl b
  · exact List.forall₂_same.mpr fun b _ => .refl b

theorem refl (g : GameState) : Scripted g g := .of_roster_eq rfl rfl rfl

theorem trans {g g' g'' : GameState} (h : Scripted g g') (h' : Scripted g' g'') :
    Scripted g g'' := by
  have henemies := h'.enemies
  rw [h.database] at henemies
  exact ⟨h'.database.trans h.database, h'.timers.trans h.timers,
    forall₂_trans Battler.ComboGiven.trans h.actors h'.actors,
    forall₂_trans Battler.Scripted.trans h.enemies henemies, h'.party.trans h.party,
    h'.items.trans h.items, h'.gold.trans h.gold, h'.exp.trans h.exp, h'.turns.trans h.turns⟩

theorem modifyEnemy (g : GameState) (index : Int) (f : Battler → Battler)
    (h : ∀ b, g.roster.enemy? index = some b → Battler.Scripted g.database b (f b)) :
    Scripted g (g.modifyEnemy index f) := by
  have hbattlers := Roster.Pointwise.modifyEnemy Battler.Scripted.refl g.roster index f h
  have hactors : (g.modifyEnemy index f).roster.actors = g.roster.actors := by
    simp only [GameState.modifyEnemy, Roster.modifyEnemy]
    split <;> rfl
  refine ⟨rfl, rfl, ?_, hbattlers.enemies, hbattlers.party, ?_, ?_, ?_, ?_⟩
  · rw [hactors]
    exact List.forall₂_same.mpr fun b _ => .refl b
  all_goals
    simp only [GameState.modifyEnemy, Roster.modifyEnemy]
    split <;> rfl

theorem modifyActor (g : GameState) (id : Int) (f : Battler → Battler)
    (h : ∀ b, Battler.ComboGiven b (f b)) : Scripted g (g.modifyRoster (·.modifyActor id f)) :=
  ⟨rfl, rfl,
    (Roster.Pointwise.modifyActor Battler.ComboGiven.refl g.roster id f fun b _ => h b).actors,
    List.forall₂_same.mpr fun b _ => .refl b, rfl, rfl, rfl, rfl, rfl⟩

theorem mapEnemies (g : GameState) (f : Battler → Battler)
    (h : ∀ b, Battler.Scripted g.database b (f b)) :
    Scripted g (g.modifyRoster fun r => { r with enemies := r.enemies.map f }) :=
  ⟨rfl, rfl, List.forall₂_same.mpr fun b _ => .refl b, forall₂_map _ _ fun b _ => h b,
    rfl, rfl, rfl, rfl, rfl⟩

/-- Every battler, whatever its side, is related. -/
theorem battlers {g g' : GameState} (h : Scripted g g') {R : Battler → Battler → Prop}
    (hactors : ∀ b b', Battler.ComboGiven b b' → R b b')
    (henemies : ∀ b b', Battler.Scripted g.database b b' → R b b') :
    g.roster.Pointwise R g'.roster :=
  ⟨h.actors.imp hactors, h.enemies.imp henemies, h.party⟩

end GameState.Scripted

/-- What the commands of a script leave alone in the state they share. A flight that was forced
stays so, and a hook that is suspended stays suspended: nothing but a hook moves hooks on, and none
runs where hooks are off. -/
structure BattleScript.Kept (s s' : BattleScript) : Prop where
  rpg2k3 : s'.rpg2k3 = s.rpg2k3
  maniac : s'.maniac = s.maniac
  targetsSingleEnemy : s'.targetsSingleEnemy = s.targetsSingleEnemy
  targetEnemyIndex : s'.targetEnemyIndex = s.targetEnemyIndex
  currentActorId : s'.currentActorId = s.currentActorId
  forceFlee : s.forceFlee = true → s'.forceFlee = true
  hookOp : s.hookRunner.asyncOp ≠ .none → s'.hookRunner.asyncOp = s.hookRunner.asyncOp

namespace BattleScript.Kept

theorem refl (s : BattleScript) : Kept s s := ⟨rfl, rfl, rfl, rfl, rfl, id, fun _ => rfl⟩

theorem trans {s s' s'' : BattleScript} (h : Kept s s') (h' : Kept s' s'') : Kept s s'' := by
  refine ⟨h'.rpg2k3.trans h.rpg2k3, h'.maniac.trans h.maniac,
    h'.targetsSingleEnemy.trans h.targetsSingleEnemy, h'.targetEnemyIndex.trans h.targetEnemyIndex,
    h'.currentActorId.trans h.currentActorId, h'.forceFlee ∘ h.forceFlee, fun hop => ?_⟩
  have hkept := h.hookOp hop
  exact (h'.hookOp (by rwa [hkept])).trans hkept

end BattleScript.Kept

namespace Execution

variable {σ : Type}

/-- A script got from `x` to `y`. -/
structure Follows (x y : Execution BattleScript σ) : Prop where
  game : GameState.Scripted x.game y.game
  table : BattleScript.Kept x.table y.table

namespace Follows

theorem refl (x : Execution BattleScript σ) : Follows x x := ⟨.refl _, .refl _⟩

theorem trans {x y z : Execution BattleScript σ} (h : Follows x y) (h' : Follows y z) :
    Follows x z :=
  ⟨h.game.trans h'.game, h.table.trans h'.table⟩

/-- Only the interpreter, the sounds or the loader changed. -/
theorem of_eq {x y : Execution BattleScript σ} (hg : y.game = x.game) (ht : y.table = x.table) :
    Follows x y := by
  constructor
  · rw [hg]; exact .refl _
  · rw [ht]; exact .refl _

theorem of_game {x y : Execution BattleScript σ} (hg : GameState.Scripted x.game y.game)
    (ht : y.table = x.table) : Follows x y :=
  ⟨hg, by rw [ht]; exact .refl _⟩

end Follows

/-- How a hook is called keeps within what scripts can do. -/
def HookFollows (hook : HookCall σ) : Prop :=
  ∀ store kind args s w, GameState.Scripted w.game (hook store kind args s w).2.2.game ∧
    BattleScript.Kept s (hook store kind args s w).2.1

theorem noHooks_follows : HookFollows (noHooks (σ := σ)) := fun _ _ _ _ _ => ⟨.refl _, .refl _⟩

section Base

variable [AssetLoader σ]

theorem showPicture_follows (x : Execution BattleScript σ) (inst : Instruction) :
    Follows x (x.showPicture inst) := by
  dsimp only [showPicture]
  split
  · exact .of_game (.of_roster_eq rfl rfl rfl) rfl
  · exact .of_game (.of_roster_eq rfl rfl rfl) rfl

theorem executeBase_follows (store : ProgramStore) (inst : Instruction)
    (x : Execution BattleScript σ) : Follows x (x.executeBase store inst).2 := by
  unfold executeBase
  cases inst.opcode
  case showMessage => exact .of_game (.of_roster_eq rfl rfl rfl) rfl
  case controlSwitches =>
    obtain ⟨switches, h⟩ := GameState.controlSwitches_eq inst x.game
    exact .of_game (.of_roster_eq (congrArg (·.database) h) (congrArg (·.timers) h)
      (congrArg (·.roster) h)) rfl
  case controlVariables =>
    obtain ⟨vars, dice, h⟩ := GameState.controlVariables_eq inst x.game
    exact .of_game (.of_roster_eq (congrArg (·.database) h) (congrArg (·.timers) h)
      (congrArg (·.roster) h)) rfl
  case showPicture => exact showPicture_follows x inst
  all_goals exact .of_eq rfl rfl

end Base

section Battle

variable {hook : HookCall σ}

theorem fire_follows (hhook : HookFollows hook) (x : Execution BattleScript σ)
    (store : ProgramStore) (kind : HookKind) (args : HookArgs) :
    Follows x (x.fire hook store kind args) :=
  ⟨(hhook store kind args x.table x.world).1, (hhook store kind args x.table x.world).2⟩

theorem fleeParty_follows (x : Execution BattleScript σ) (check : Bool) :
    Follows x (x.fleeParty check) := by
  unfold fleeParty
  split
  · exact ⟨.refl _, rfl, rfl, rfl, rfl, rfl, fun _ => rfl, fun _ => rfl⟩
  · exact .refl x

theorem fleeEnemies_follows (x : Execution BattleScript σ) (check : Bool) :
    Follows x (x.fleeEnemies check) := by
  unfold fleeEnemies
  split
  · refine .of_game (GameState.Scripted.mapEnemies x.game _ ?_) rfl
    intro b
    split
    · exact .trans _ _ _ (.single .vanish) (.single .fade)
    · exact .refl b
  · exact .refl x

theorem fleeEnemy_follows (x : Execution BattleScript σ) (check : Bool) (index : Int) :
    Follows x (x.fleeEnemy check index) := by
  unfold fleeEnemy
  split
  · exact .of_game (.modifyEnemy x.game index _ fun _ _ =>
      .trans _ _ _ (.single .vanish) (.single .fade)) rfl
  · exact .refl x

theorem forceFlee_follows (x : Execution BattleScript σ) (inst : Instruction) :
    Follows x (x.forceFlee inst) := by
  dsimp only [forceFlee]
  split
  · exact fleeParty_follows x _
  · exact fleeEnemies_follows x _
  · exact fleeEnemy_follows x _ _
  · exact .refl x

theorem enableCombo_follows (x : Execution BattleScript σ) (inst : Instruction) :
    Follows x (x.enableCombo inst) := by
  unfold enableCombo
  split
  · exact .of_game (.modifyActor x.game _ _ fun _ => .inr ⟨_, _, rfl⟩) rfl
  · exact .refl x

theorem changeMonsterHp_follows (hhook : HookFollows hook) (x : Execution BattleScript σ)
    (store : ProgramStore) (inst : Instruction) :
    Follows x (x.changeMonsterHp hook store inst) := by
  dsimp only [changeMonsterHp]
  split
  · exact .refl x
  · rename_i enemy he
    split
    · exact .refl x
    · refine Follows.trans ?_ (fire_follows hhook _ store _ _)
      have hurt (change : Int) (lethal : Bool) (notice : Notice) : GameState.Scripted x.game
          ((x.game.modifyEnemy (inst.param 0)
            fun _ => (enemy.changeHp change lethal).2).modifyStatus (·.pushNotice notice)) := by
        refine .trans (.modifyEnemy x.game _ _ ?_) (.of_roster_eq rfl rfl rfl)
        intro b hb
        obtain rfl : enemy = b := Option.some.inj (he.symm.trans hb)
        exact .single (.hp change lethal)
      split
      · exact .of_game ((hurt _ _ _).trans (.modifyEnemy _ _ _ fun _ _ => .single .fade)) rfl
      · exact .of_game (hurt _ _ _) rfl

theorem changeMonsterMp_follows (hhook : HookFollows hook) (x : Execution BattleScript σ)
    (store : ProgramStore) (inst : Instruction) :
    Follows x (x.changeMonsterMp hook store inst) := by
  dsimp only [changeMonsterMp]
  split
  · exact .refl x
  · rename_i enemy he
    refine Follows.trans ?_ (fire_follows hhook _ store _ _)
    refine .of_game (.modifyEnemy x.game _ _ ?_) rfl
    intro b hb
    obtain rfl : enemy = b := Option.some.inj (he.symm.trans hb)
    exact .single (.sp _)

theorem changeMonsterCondition_follows (hhook : HookFollows hook) (x : Execution BattleScript σ)
    (store : ProgramStore) (inst : Instruction) :
    Follows x (x.changeMonsterCondition hook store inst) := by
  dsimp only [changeMonsterCondition]
  split
  · exact .refl x
  · rename_i enemy he
    have changed (e : Battler) (h : Battler.Scripted x.game.database enemy e) :
        Follows x (x.modifyGame (·.modifyEnemy (inst.param 0) fun _ => e)) := by
      refine .of_game (.modifyEnemy x.game _ _ ?_) rfl
      intro b hb
      obtain rfl : enemy = b := Option.some.inj (he.symm.trans hb)
      exact h
    by_cases hremove : inst.param 1 > 0
    · simp only [hremove, if_true]
      split
      · exact (changed _ (.single (.removeState _))).trans (fire_follows hhook _ store _ _)
      · exact changed _ (.single (.removeState _))
    · simp only [hremove, if_false]
      split
      · exact (changed _ (.single (.addState _))).trans (fire_follows hhook _ store _ _)
      · exact changed _ (.single (.addState _))

theorem showHiddenMonster_follows (x : Execution BattleScript σ) (inst : Instruction) :
    Follows x (x.showHiddenMonster inst) :=
  .of_game (.modifyEnemy x.game _ _ fun _ _ => .single .appear) rfl

theorem showBattleAnimation_follows (x : Execution BattleScript σ) (inst : Instruction) :
    Follows x (x.showBattleAnimation inst) := by
  dsimp only [showBattleAnimation, playedAnimation?, animationScope]
  split <;> split <;> (try split) <;>
    first
    | exact .of_eq rfl rfl
    | exact .of_game (.of_roster_eq rfl rfl rfl) rfl

theorem controlBattleHooks_follows (x : Execution BattleScript σ) (inst : Instruction) :
    Follows x (x.controlBattleHooks inst) := by
  unfold controlBattleHooks
  split
  · split
    · exact ⟨.refl _, rfl, rfl, rfl, rfl, rfl, id, fun _ => rfl⟩
    · exact .refl x
  · exact .refl x

theorem battleCommands_follows (hhook : HookFollows hook) (store : ProgramStore)
    (inst : Instruction) (x : Execution BattleScript σ) {go : Bool} {y : Execution BattleScript σ}
    (h : battleCommands hook store inst x = some (go, y)) : Follows x y := by
  unfold battleCommands at h
  split at h <;> simp only [Option.some.injEq, reduceCtorEq, proceed, stay, Prod.mk.injEq] at h
  · obtain ⟨-, rfl⟩ := h
    split
    · exact .of_eq rfl rfl
    · exact .refl x
  · obtain ⟨-, rfl⟩ := h
    split
    · exact forceFlee_follows x inst
    · exact .refl x
  · obtain ⟨-, rfl⟩ := h
    split
    · exact enableCombo_follows x inst
    · exact .refl x
  · obtain ⟨-, rfl⟩ := h
    exact changeMonsterHp_follows hhook x store inst
  · obtain ⟨-, rfl⟩ := h
    exact changeMonsterMp_follows hhook x store inst
  · obtain ⟨-, rfl⟩ := h
    exact changeMonsterCondition_follows hhook x store inst
  · obtain ⟨-, rfl⟩ := h
    exact showHiddenMonster_follows x inst
  · obtain ⟨-, rfl⟩ := h
    exact .of_game (.of_roster_eq rfl rfl rfl) rfl
  · obtain ⟨-, rfl⟩ := h
    exact showBattleAnimation_follows x inst
  · obtain ⟨-, rfl⟩ := h
    exact .of_eq rfl rfl
  · obtain rfl := congrArg Prod.snd h
    exact .of_eq rfl rfl
  · obtain rfl := congrArg Prod.snd h
    exact .of_eq rfl rfl
  · obtain ⟨-, rfl⟩ := h
    exact .refl x
  · obtain ⟨-, rfl⟩ := h
    exact controlBattleHooks_follows x inst

end Battle

section Running

variable [AssetLoader σ] {hook : HookCall σ}

theorem perform_follows (hhook : HookFollows hook) (store : ProgramStore) (inst : Instruction)
    (x : Execution BattleScript σ) : Follows x (x.perform (battleCommands hook) store inst).2 := by
  unfold perform
  cases h : battleCommands hook store inst x with
  | none => exact executeBase_follows store inst x
  | some performed => exact battleCommands_follows hhook store inst x h

theorem step_follows (hhook : HookFollows hook) (store : ProgramStore) (inst : Instruction)
    (x : Execution BattleScript σ) : Follows x (x.step (battleCommands hook) store inst) := by
  have h := perform_follows hhook store inst x
  dsimp only [step]
  split
  · exact h.trans (.of_eq rfl rfl)
  · exact h

theorem run_follows (hhook : HookFollows hook) (store : ProgramStore) (budget : Nat)
    (x : Execution BattleScript σ) : Follows x (x.run (battleCommands hook) store budget) := by
  induction budget generalizing x with
  | zero =>
    unfold run
    split
    · exact .refl x
    · dsimp only
      split
      · contradiction
      · exact .of_eq rfl rfl
  | succ budget ih =>
    unfold run
    split
    · exact .refl x
    · dsimp only
      have hdropped : Follows x (x.modifyInterp (·.dropComplete)) := .of_eq rfl rfl
      split
      · rename_i inst _ _ hbudget
        obtain rfl := Nat.succ.inj hbudget
        have hstep := hdropped.trans (step_follows hhook store inst _)
        split
        · exact hstep
        · split
          · exact hstep.trans (.of_eq rfl rfl)
          · exact hstep.trans (ih _)
      · exact hdropped

theorem update_follows (hhook : HookFollows hook) (store : ProgramStore) (allowSuspend : Bool)
    (x : Execution BattleScript σ) :
    Follows x (x.update (battleCommands hook) store allowSuspend) := by
  have awake (y : Execution BattleScript σ) : Follows y
      (if y.interp.isAsyncPending then y
        else if y.interp.isWaiting then
          y.modifyInterp fun i => { i with waitFrames := i.waitFrames - 1 }
        else y.run (battleCommands hook) store y.interp.loopLimit) := by
    split
    · exact .refl y
    · split
      · exact .of_eq rfl rfl
      · exact run_follows hhook store _ y
  unfold update
  cases allowSuspend
  · have hresumed : Follows x (x.modifyInterp (·.resume)) := .of_eq rfl rfl
    exact hresumed.trans (awake _)
  · exact awake x

/-- An interpreter that is suspended stays where it is. -/
theorem update_of_suspended (table : CommandTable BattleScript σ) (store : ProgramStore)
    {x : Execution BattleScript σ} (h : x.interp.asyncOp ≠ .none) :
    x.update table store true = x := by
  simp [update, Interpreter.isAsyncPending, h]

/-- Not even an asset that is there moves on an interpreter that ended the battle. -/
theorem update_of_ended (table : CommandTable BattleScript σ) (store : ProgramStore)
    (allowSuspend : Bool) {x : Execution BattleScript σ} {result : BattleResult}
    (h : x.interp.asyncOp = .terminateBattle result) :
    (x.update table store allowSuspend).interp.asyncOp = .terminateBattle result := by
  cases allowSuspend
  · simp [update, modifyInterp, Interpreter.resume, Interpreter.isAsyncPending, h]
  · rw [update_of_suspended table store (by rw [h]; exact nofun)]
    exact h

end Running

end Execution

namespace BattleScript

variable {σ : Type} [AssetLoader σ]

theorem pump_follows (store : ProgramStore) (s : BattleScript) (w : World σ) :
    GameState.Scripted w.game (pump store s w).2.game ∧ Kept s (pump store s w).1 := by
  have h := Execution.update_follows Execution.noHooks_follows store true
    (⟨s.hookRunner, { s with hookRunner := {} }, w⟩ : Execution BattleScript σ)
  obtain ⟨hgame, h2k3, hmaniac, hsingle, hindex, hactor, hflee, -⟩ := h
  refine ⟨hgame, h2k3, hmaniac, hsingle, hindex, hactor, hflee, fun hop => ?_⟩
  unfold pump
  rw [Execution.update_of_suspended (battleCommands noHooks) store
    (x := (⟨s.hookRunner, { s with hookRunner := {} }, w⟩ : Execution BattleScript σ)) hop]

/-- A hook that runs does what scripts can do. -/
theorem trigger_follows : Execution.HookFollows (trigger (σ := σ)) := by
  intro store kind args s w
  dsimp only [trigger]
  split
  · split
    · obtain ⟨hgame, hkept⟩ := pump_follows store { s with hookRunner := _ } w
      exact ⟨hgame, hkept.rpg2k3, hkept.maniac, hkept.targetsSingleEnemy, hkept.targetEnemyIndex,
        hkept.currentActorId, hkept.forceFlee, hkept.hookOp⟩
    · exact ⟨.refl _, .refl _⟩
  · exact ⟨.refl _, .refl _⟩

theorem continueHooks_follows (store : ProgramStore) (s : BattleScript) (w : World σ) :
    GameState.Scripted w.game (continueHooks store s w).2.2.game ∧
      Kept s (continueHooks store s w).2.1 := by
  unfold continueHooks
  split
  · exact pump_follows store s w
  · exact ⟨.refl _, .refl _⟩

end BattleScript

namespace Director

/-- An event that starts is only put on the interpreter. -/
theorem startEvent_kept (d : Director) (store : ProgramStore) (id : Int) :
    (d.startEvent store id).2.script = d.script ∧ (d.startEvent store id).2.executed =
      d.executed := by
  unfold startEvent
  split
  · exact ⟨rfl, rfl⟩
  · dsimp only
    split <;> exact ⟨rfl, rfl⟩

variable {σ : Type} [AssetLoader σ]

theorem update_follows (d : Director) (store : ProgramStore) (allowSuspend : Bool) (w : World σ) :
    GameState.Scripted w.game (d.update store allowSuspend w).2.game ∧
      BattleScript.Kept d.script (d.update store allowSuspend w).1.script :=
  have h := Execution.update_follows BattleScript.trigger_follows store allowSuspend
    ⟨d.interp, d.script, w⟩
  ⟨h.game, h.table⟩

theorem trigger_follows (d : Director) (store : ProgramStore) (kind : HookKind) (args : HookArgs)
    (w : World σ) :
    GameState.Scripted w.game (d.trigger store kind args w).2.2.game ∧
      BattleScript.Kept d.script (d.trigger store kind args w).2.1.script :=
  BattleScript.trigger_follows store kind args d.script w

theorem continueHooks_follows (d : Director) (store : ProgramStore) (w : World σ) :
    GameState.Scripted w.game (d.continueHooks store w).2.2.game ∧
      BattleScript.Kept d.script (d.continueHooks store w).2.1.script :=
  BattleScript.continueHooks_follows store d.script w

end Director

namespace EventRunner

/-- What a parallel event is suspended on. -/
def op (r : EventRunner) : AsyncOp := (r.interp.map (·.asyncOp)).getD .none

/-- What updates of a parallel event leave alone. One that ended the battle stays suspended on
that. -/
structure Kept (r r' : EventRunner) : Prop where
  event : r'.event = r.event
  interp : r'.interp.isSome = r.interp.isSome
  ended : ∀ result, r.op = .terminateBattle result → r'.op = .terminateBattle result

theorem Kept.refl (r : EventRunner) : Kept r r := ⟨rfl, rfl, fun _ h => h⟩

theorem started_asyncOp (e : CommonEvent) (i : Interpreter) :
    (started e i).asyncOp = i.asyncOp := by
  unfold started
  split <;> rfl

variable {σ : Type} [AssetLoader σ]

theorem update_follows (r : EventRunner) (store : ProgramStore) (resume : Bool) (s : BattleScript)
    (w : World σ) :
    GameState.Scripted w.game (r.update sceneCommands store resume s w).world.game ∧
      BattleScript.Kept s (r.update sceneCommands store resume s w).table ∧
      Kept r (r.update sceneCommands store resume s w).runner := by
  unfold EventRunner.update
  split
  · cases hi : r.interp with
    | none => exact ⟨.refl _, .refl _, .refl r⟩
    | some i =>
      have h := Execution.update_follows BattleScript.trigger_follows store (!resume)
        ⟨started r.event i, s, w⟩
      refine ⟨h.game, h.table, rfl, by rw [hi]; rfl, fun result hop => ?_⟩
      refine Execution.update_of_ended sceneCommands store (!resume) ?_
      rw [started_asyncOp]
      simpa [op, hi] using hop
  · exact ⟨.refl _, .refl _, .refl r⟩

end EventRunner

end ActiveBattle
