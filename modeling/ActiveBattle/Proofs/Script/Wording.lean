import ActiveBattle.Proofs.Action.Wording
import ActiveBattle.Script.Director
import ActiveBattle.Script.EventRunner

/-!
# Scripts and the wording of messages

Scripts open messages and wait while one is open, but none reads what a message says. So an
interpreter that runs in two games that differ in the wording of their messages alone goes the same
way in both (`Execution.update_paraphrases`), and leaves games that differ in nothing else.
-/

namespace ActiveBattle

set_option autoImplicit false

namespace GameState

theorem writeSwitch_withMessage (mode : Int) (g : GameState) (m : MessageBox) (id : Int) :
    (g.withMessage m).writeSwitch mode id = (g.writeSwitch mode id).withMessage m := by
  unfold writeSwitch
  split <;> rfl

theorem controlSwitches_ignoresMessage (inst : Instruction) :
    IgnoresMessage (controlSwitches inst) := by
  intro g m
  unfold controlSwitches
  rw [show (g.withMessage m).addressed? inst = g.addressed? inst from rfl]
  split
  · exact List.foldl_hom (·.withMessage m) fun g id => writeSwitch_withMessage (inst.param 3) g m id
  · rfl

theorem controlVariables_ignoresMessage (inst : Instruction) :
    IgnoresMessage (controlVariables inst) := by
  intro g m
  have hoperand : (g.withMessage m).operand? inst = (g.operand? inst).map fun p =>
      (p.1, p.2.withMessage m) := by
    unfold operand?
    split <;> rfl
  unfold controlVariables
  rw [hoperand]
  cases g.operand? inst with
  | none => rfl
  | some rolled =>
    obtain ⟨value, g⟩ := rolled
    dsimp only [Option.map_some]
    rw [show (g.withMessage m).addressed? inst = g.addressed? inst from rfl]
    split
    · exact List.foldl_hom (withMessage · m) fun _ _ => rfl
    · rfl

end GameState

namespace World

variable {σ : Type}

def withBlankMessage (w : World σ) : World σ := w.modifyGame (·.withBlankMessage)

/-- The worlds differ in the wording of messages alone. -/
def Paraphrases (w w' : World σ) : Prop := w'.withBlankMessage = w.withBlankMessage

namespace Paraphrases

variable {w w' : World σ}

theorem read (h : Paraphrases w w') {α : Type} (p : World σ → α) :
    p w'.withBlankMessage = p w.withBlankMessage := congrArg p h

theorem game (h : Paraphrases w w') : w.game.Paraphrases w'.game := h.read World.game

theorem modifyGame (h : Paraphrases w w') {f f' : GameState → GameState}
    (hf : (f w.game).Paraphrases (f' w'.game)) :
    Paraphrases (w.modifyGame f) (w'.modifyGame f') := by
  change ({ w'.withBlankMessage with game := (f' w'.game).withBlankMessage } : World σ) =
    { w.withBlankMessage with game := (f w.game).withBlankMessage }
  rw [show w'.withBlankMessage = w.withBlankMessage from h,
    show (f' w'.game).withBlankMessage = (f w.game).withBlankMessage from hf]

theorem ignoresMessage (h : Paraphrases w w') {f : GameState → GameState}
    (hf : GameState.IgnoresMessage f) :
    Paraphrases (w.modifyGame f) (w'.modifyGame f) :=
  h.modifyGame (h.game.ignoresMessage hf)

theorem play (h : Paraphrases w w') (se : SoundEffect) : Paraphrases (w.play se) (w'.play se) :=
  h.read (·.play se)

theorem playSystem (h : Paraphrases w w') (sound : SystemSound) :
    Paraphrases (w.playSystem sound) (w'.playSystem sound) :=
  h.read (·.playSystem sound)

variable [AssetLoader σ]

theorem request (h : Paraphrases w w') (kind : AssetKind) (name : String) :
    (w'.request kind name).1 = (w.request kind name).1 ∧
      Paraphrases (w.request kind name).2 (w'.request kind name).2 :=
  ⟨h.read fun w => (w.request kind name).1, h.read fun w => (w.request kind name).2⟩

theorem isReady (h : Paraphrases w w') (request : AssetRequest) :
    (w'.isReady request).1 = (w.isReady request).1 ∧
      Paraphrases (w.isReady request).2 (w'.isReady request).2 :=
  ⟨h.read fun w => (w.isReady request).1, h.read fun w => (w.isReady request).2⟩

end Paraphrases

end World

namespace Execution

variable {δ σ : Type}

/-- The same interpreter in worlds that differ in the wording of messages alone. -/
structure Paraphrases (x y : Execution δ σ) : Prop where
  interp : y.interp = x.interp
  table : y.table = x.table
  world : x.world.Paraphrases y.world

/-- The same comes of both, and they still differ in wording alone. -/
structure Concurs (p q : Bool × Execution δ σ) : Prop where
  go : q.1 = p.1
  rest : p.2.Paraphrases q.2

namespace Paraphrases

variable {x y : Execution δ σ}

theorem game (h : Paraphrases x y) : x.game.Paraphrases y.game := h.world.game

theorem roster (h : Paraphrases x y) : y.game.roster = x.game.roster := h.game.read (·.roster)

theorem status (h : Paraphrases x y) : y.game.status = x.game.status := h.game.read (·.status)

theorem database (h : Paraphrases x y) : y.game.database = x.game.database :=
  h.game.read (·.database)

theorem modifyInterp (h : Paraphrases x y) (f : Interpreter → Interpreter) :
    Paraphrases (x.modifyInterp f) (y.modifyInterp f) :=
  ⟨congrArg f h.interp, h.table, h.world⟩

theorem modifyTable (h : Paraphrases x y) (f : δ → δ) :
    Paraphrases (x.modifyTable f) (y.modifyTable f) :=
  ⟨h.interp, congrArg f h.table, h.world⟩

theorem withWorld (h : Paraphrases x y) {w w' : World σ} (hw : w.Paraphrases w') :
    Paraphrases { x with world := w } { y with world := w' } :=
  ⟨h.interp, h.table, hw⟩

theorem modifyWorld (h : Paraphrases x y) {f f' : World σ → World σ}
    (hf : (f x.world).Paraphrases (f' y.world)) :
    Paraphrases (x.modifyWorld f) (y.modifyWorld f') :=
  h.withWorld hf

theorem modifyGame (h : Paraphrases x y) {f f' : GameState → GameState}
    (hf : (f x.game).Paraphrases (f' y.game)) :
    Paraphrases (x.modifyGame f) (y.modifyGame f') :=
  h.modifyWorld (h.world.modifyGame hf)

theorem ignoresMessage (h : Paraphrases x y) {f : GameState → GameState}
    (hf : GameState.IgnoresMessage f) :
    Paraphrases (x.modifyGame f) (y.modifyGame f) :=
  h.modifyGame (h.game.ignoresMessage hf)

theorem play (h : Paraphrases x y) (se : SoundEffect) :
    Paraphrases (x.modifyWorld (·.play se)) (y.modifyWorld (·.play se)) :=
  h.modifyWorld (h.world.play se)

theorem playSystem (h : Paraphrases x y) (sound : SystemSound) :
    Paraphrases (x.modifyWorld (·.playSystem sound)) (y.modifyWorld (·.playSystem sound)) :=
  h.modifyWorld (h.world.playSystem sound)

theorem proceed (h : Paraphrases x y) : Concurs x.proceed y.proceed := ⟨rfl, h⟩

theorem stay (h : Paraphrases x y) : Concurs x.stay y.stay := ⟨rfl, h⟩

theorem viaInterp (h : Paraphrases x y) (f : Interpreter → Bool × Interpreter) :
    Concurs (x.viaInterp f) (y.viaInterp f) := by
  have hf : f y.interp = f x.interp := congrArg f h.interp
  exact ⟨congrArg (·.1) hf, congrArg (·.2) hf, h.table, h.world⟩

end Paraphrases

section Base

variable [AssetLoader σ] {x y : Execution δ σ}

theorem showPicture_paraphrases (h : Paraphrases x y) (inst : Instruction) :
    Paraphrases (x.showPicture inst) (y.showPicture inst) := by
  obtain ⟨hrequest, hworld⟩ := h.world.request .picture inst.textOrEmpty
  have hshown :=
    hworld.ignoresMessage (f := (·.modifyStatus (·.showPicture (inst.param 0) inst.textOrEmpty)))
      fun _ _ => rfl
  obtain ⟨hready, hpolled⟩ := hshown.isReady (x.world.request .picture inst.textOrEmpty).1
  unfold showPicture
  dsimp only
  rw [hrequest, hready]
  split
  · exact h.withWorld hpolled
  · exact (h.withWorld hpolled).modifyInterp _

theorem executeBase_paraphrases (h : Paraphrases x y) (store : ProgramStore) (inst : Instruction) :
    Concurs (x.executeBase store inst) (y.executeBase store inst) := by
  unfold executeBase
  cases inst.opcode
  case showMessage => exact (h.modifyGame (h.game.showMessage _ _)).proceed
  case controlSwitches =>
    exact (h.ignoresMessage (GameState.controlSwitches_ignoresMessage inst)).proceed
  case controlVariables =>
    exact (h.ignoresMessage (GameState.controlVariables_ignoresMessage inst)).proceed
  case conditionalBranch =>
    rw [show y.game.branchTest inst = x.game.branchTest inst from h.game.read (·.branchTest inst)]
    exact h.viaInterp _
  case elseBranch => exact h.viaInterp _
  case breakLoop => exact h.viaInterp _
  case playSound => exact (h.play _).proceed
  case showPicture => exact (showPicture_paraphrases h inst).proceed
  case endEventProcessing => exact (h.modifyInterp _).stay
  case endLoop | jumpToLabel | wait | callEvent => exact (h.modifyInterp _).proceed
  all_goals exact h.proceed

end Base

/-- A hook goes the same way in both worlds. -/
def HookConcurs (hook : HookCall σ) : Prop :=
  ∀ (store : ProgramStore) (kind : HookKind) (args : HookArgs) (s : BattleScript) (w w' : World σ),
    w.Paraphrases w' →
      (hook store kind args s w').1 = (hook store kind args s w).1 ∧
        (hook store kind args s w').2.1 = (hook store kind args s w).2.1 ∧
        (hook store kind args s w).2.2.Paraphrases (hook store kind args s w').2.2

theorem noHooks_concurs : HookConcurs (noHooks (σ := σ)) := fun _ _ _ _ _ _ h => ⟨rfl, rfl, h⟩

section Battle

variable {hook : HookCall σ} {x y : Execution BattleScript σ}

theorem fire_paraphrases (hhook : HookConcurs hook) (h : Paraphrases x y) (store : ProgramStore)
    (kind : HookKind) (args : HookArgs) :
    Paraphrases (x.fire hook store kind args) (y.fire hook store kind args) := by
  obtain ⟨-, htable, hworld⟩ := hhook store kind args x.table x.world y.world h.world
  unfold fire
  rw [h.table]
  exact ⟨h.interp, htable, hworld⟩

theorem fleeParty_paraphrases (h : Paraphrases x y) (check : Bool) :
    Paraphrases (x.fleeParty check) (y.fleeParty check) := by
  unfold fleeParty
  rw [h.status]
  split
  · exact h.modifyTable _
  · exact h

theorem fleeEnemies_paraphrases (h : Paraphrases x y) (check : Bool) :
    Paraphrases (x.fleeEnemies check) (y.fleeEnemies check) := by
  unfold fleeEnemies
  rw [h.status, h.roster]
  split
  · exact (h.ignoresMessage fun _ _ => rfl).playSystem .escape
  · exact h

theorem fleeEnemy_paraphrases (h : Paraphrases x y) (check : Bool) (index : Int) :
    Paraphrases (x.fleeEnemy check index) (y.fleeEnemy check index) := by
  unfold fleeEnemy
  rw [h.status, h.roster]
  split
  · exact (h.ignoresMessage fun _ _ => rfl).playSystem .escape
  · exact h

theorem forceFlee_paraphrases (h : Paraphrases x y) (inst : Instruction) :
    Paraphrases (x.forceFlee inst) (y.forceFlee inst) := by
  dsimp only [forceFlee]
  split
  · exact fleeParty_paraphrases h _
  · exact fleeEnemies_paraphrases h _
  · exact fleeEnemy_paraphrases h _ _
  · exact h

theorem enableCombo_paraphrases (h : Paraphrases x y) (inst : Instruction) :
    Paraphrases (x.enableCombo inst) (y.enableCombo inst) := by
  unfold enableCombo
  rw [h.roster]
  split
  · exact h.ignoresMessage fun _ _ => rfl
  · exact h

theorem changeMonsterHp_paraphrases (hhook : HookConcurs hook) (h : Paraphrases x y)
    (store : ProgramStore) (inst : Instruction) :
    Paraphrases (x.changeMonsterHp hook store inst) (y.changeMonsterHp hook store inst) := by
  have hoperand (hp : Int) : hpOperand y.game inst hp = hpOperand x.game inst hp :=
    h.game.read fun g => hpOperand g inst hp
  dsimp only [changeMonsterHp]
  rw [h.roster]
  split
  · exact h
  · rename_i enemy _
    rw [hoperand]
    split
    · exact h
    · apply fire_paraphrases hhook
      have hhurt (changed : Battler) (notice : Notice) := h.ignoresMessage
        (f := fun g => (g.modifyEnemy (inst.param 0) fun _ => changed).modifyStatus
          (·.pushNotice notice)) fun _ _ => rfl
      split
      · exact ((hhurt _ _).playSystem .enemyKill).ignoresMessage fun _ _ => rfl
      · exact hhurt _ _

theorem changeMonsterMp_paraphrases (hhook : HookConcurs hook) (h : Paraphrases x y)
    (store : ProgramStore) (inst : Instruction) :
    Paraphrases (x.changeMonsterMp hook store inst) (y.changeMonsterMp hook store inst) := by
  have hoperand : spOperand y.game inst = spOperand x.game inst :=
    h.game.read fun g => spOperand g inst
  dsimp only [changeMonsterMp]
  rw [h.roster, hoperand]
  split
  · exact h
  · exact fire_paraphrases hhook (h.ignoresMessage fun _ _ => rfl) store _ _

theorem changeMonsterCondition_paraphrases (hhook : HookConcurs hook) (h : Paraphrases x y)
    (store : ProgramStore) (inst : Instruction) :
    Paraphrases (x.changeMonsterCondition hook store inst)
      (y.changeMonsterCondition hook store inst) := by
  dsimp only [changeMonsterCondition]
  rw [h.roster, h.database]
  split
  · exact h
  · have hchanged (b : Battler) :=
      h.ignoresMessage (f := (·.modifyEnemy (inst.param 0) fun _ => b)) fun _ _ => rfl
    have hfired (b : Battler) (args : HookArgs) :=
      fire_paraphrases hhook (hchanged b) store .setState args
    split
    · split
      · exact hfired _ _
      · exact hchanged _
    · split
      · exact hfired _ _
      · exact hchanged _

theorem showBattleAnimation_paraphrases (h : Paraphrases x y) (inst : Instruction) :
    Paraphrases (x.showBattleAnimation inst) (y.showBattleAnimation inst) := by
  have hscope : y.animationScope inst = x.animationScope inst := by
    unfold animationScope
    rw [h.table, h.roster]
  have hplayed : y.playedAnimation? inst = x.playedAnimation? inst := by
    unfold playedAnimation?
    rw [hscope, h.database]
  dsimp only [showBattleAnimation]
  rw [hscope, hplayed]
  have held {x y : Execution BattleScript σ} (h : Paraphrases x y) (frames : Int) :
      Paraphrases (if inst.param 2 ≠ 0 then x.modifyInterp (·.waitFor frames) else x)
        (if inst.param 2 ≠ 0 then y.modifyInterp (·.waitFor frames) else y) := by
    split
    · exact h.modifyInterp _
    · exact h
  apply held
  split
  · refine Paraphrases.ignoresMessage ?_ fun _ _ => rfl
    split
    · exact h.play _
    · exact h
  · exact h

theorem controlBattleHooks_paraphrases (h : Paraphrases x y) (inst : Instruction) :
    Paraphrases (x.controlBattleHooks inst) (y.controlBattleHooks inst) := by
  unfold controlBattleHooks
  rw [h.table]
  split
  · split
    · exact h.modifyTable _
    · exact h
  · exact h

/-- The battle commands own the same instructions in both, and the same comes of them. -/
theorem battleCommands_concurs (hhook : HookConcurs hook) (h : Paraphrases x y)
    (store : ProgramStore) (inst : Instruction) :
    Option.Rel Concurs (battleCommands hook store inst x) (battleCommands hook store inst y) := by
  have chosen (c : Bool) {x' y' : Execution BattleScript σ} (h' : Paraphrases x' y') :
      Option.Rel Concurs (some (if c then x' else x).proceed)
        (some (if c then y' else y).proceed) := by
    cases c with
    | true => exact .some h'.proceed
    | false => exact .some h.proceed
  unfold battleCommands
  rw [h.table]
  split
  · exact chosen _ (h.modifyInterp _)
  · exact chosen _ (forceFlee_paraphrases h inst)
  · exact chosen _ (enableCombo_paraphrases h inst)
  · exact .some (changeMonsterHp_paraphrases hhook h store inst).proceed
  · exact .some (changeMonsterMp_paraphrases hhook h store inst).proceed
  · exact .some (changeMonsterCondition_paraphrases hhook h store inst).proceed
  · exact .some (h.ignoresMessage fun _ _ => rfl).proceed
  · exact .some (h.ignoresMessage fun _ _ => rfl).proceed
  · exact .some (showBattleAnimation_paraphrases h inst).proceed
  · exact .some (h.modifyInterp _).stay
  · rw [show battleTest x.table y.game inst = battleTest x.table x.game inst from
      h.game.read fun g => battleTest x.table g inst]
    exact .some (h.viaInterp _)
  · exact .some (h.viaInterp _)
  · exact .some h.proceed
  · exact .some (controlBattleHooks_paraphrases h inst).proceed
  · exact .none

variable [AssetLoader σ]

theorem perform_concurs (hhook : HookConcurs hook) (h : Paraphrases x y) (store : ProgramStore)
    (inst : Instruction) :
    Concurs (x.perform (battleCommands hook) store inst)
      (y.perform (battleCommands hook) store inst) := by
  have hcommands := battleCommands_concurs hhook h store inst
  unfold perform
  generalize battleCommands hook store inst x = p at hcommands ⊢
  generalize battleCommands hook store inst y = q at hcommands ⊢
  cases hcommands with
  | some hconcurs => exact hconcurs
  | none => exact executeBase_paraphrases h store inst

theorem step_paraphrases (hhook : HookConcurs hook) (h : Paraphrases x y) (store : ProgramStore)
    (inst : Instruction) :
    Paraphrases (x.step (battleCommands hook) store inst)
      (y.step (battleCommands hook) store inst) := by
  obtain ⟨hgo, hrest⟩ := perform_concurs hhook h store inst
  dsimp only [step]
  rw [h.interp, hgo]
  split
  · exact hrest.modifyInterp _
  · exact hrest

theorem run_paraphrases (hhook : HookConcurs hook) (h : Paraphrases x y) (store : ProgramStore)
    (budget : Nat) :
    Paraphrases (x.run (battleCommands hook) store budget)
      (y.run (battleCommands hook) store budget) := by
  induction budget generalizing x y with
  | zero =>
    unfold run
    rw [h.game.isActive_eq]
    split
    · exact h
    · have hdropped := h.modifyInterp (·.dropComplete)
      dsimp only
      rw [hdropped.interp]
      split
      · contradiction
      · exact hdropped
  | succ budget ih =>
    unfold run
    rw [h.game.isActive_eq]
    split
    · exact h
    · have hdropped := h.modifyInterp (·.dropComplete)
      dsimp only
      rw [hdropped.interp]
      split
      · rename_i inst _ _ hbudget
        obtain rfl := Nat.succ.inj hbudget
        have hstep := step_paraphrases hhook hdropped store inst
        rw [hstep.interp]
        split
        · exact hstep
        · split
          · exact hstep.modifyInterp _
          · exact ih hstep
      · exact hdropped

theorem update_paraphrases (hhook : HookConcurs hook) (h : Paraphrases x y) (store : ProgramStore)
    (allowSuspend : Bool) :
    Paraphrases (x.update (battleCommands hook) store allowSuspend)
      (y.update (battleCommands hook) store allowSuspend) := by
  have awake {x y : Execution BattleScript σ} (h : Paraphrases x y) : Paraphrases
      (if x.interp.isAsyncPending then x
        else if x.interp.isWaiting then x.modifyInterp fun i =>
          { i with waitFrames := i.waitFrames - 1 }
        else x.run (battleCommands hook) store x.interp.loopLimit)
      (if y.interp.isAsyncPending then y
        else if y.interp.isWaiting then y.modifyInterp fun i =>
          { i with waitFrames := i.waitFrames - 1 }
        else y.run (battleCommands hook) store y.interp.loopLimit) := by
    rw [h.interp]
    split
    · exact h
    · split
      · exact h.modifyInterp _
      · exact run_paraphrases hhook h store _
  unfold update
  cases allowSuspend with
  | false => exact awake (h.modifyInterp (·.resume))
  | true => exact awake h

end Battle

end Execution

namespace BattleScript

variable {σ : Type} [AssetLoader σ] {w w' : World σ}

theorem pump_concurs (h : w.Paraphrases w') (store : ProgramStore) (s : BattleScript) :
    (pump store s w').1 = (pump store s w).1 ∧
      (pump store s w).2.Paraphrases (pump store s w').2 := by
  have hrun : Execution.Paraphrases ⟨s.hookRunner, { s with hookRunner := {} }, w⟩
    ⟨s.hookRunner, { s with hookRunner := {} }, w'⟩ := ⟨rfl, rfl, h⟩
  obtain ⟨hinterp, htable, hworld⟩ :=
    Execution.update_paraphrases Execution.noHooks_concurs hrun store true
  refine ⟨?_, hworld⟩
  unfold pump
  dsimp only
  rw [hinterp, htable]

theorem trigger_concurs : Execution.HookConcurs (trigger (σ := σ)) := by
  intro store kind args s w w' h
  dsimp only [trigger]
  split
  · split
    · obtain ⟨hscript, hworld⟩ := pump_concurs h store _
      exact ⟨rfl, hscript, hworld⟩
    · exact ⟨rfl, rfl, h⟩
  · exact ⟨rfl, rfl, h⟩

theorem continueHooks_concurs (h : w.Paraphrases w') (store : ProgramStore) (s : BattleScript) :
    (continueHooks store s w').2.1 = (continueHooks store s w).2.1 ∧
      (continueHooks store s w).2.2.Paraphrases (continueHooks store s w').2.2 := by
  unfold continueHooks
  split
  · exact pump_concurs h store s
  · exact ⟨rfl, h⟩

end BattleScript

namespace Director

variable {σ : Type} [AssetLoader σ] {w w' : World σ}

theorem update_concurs (h : w.Paraphrases w') (d : Director) (store : ProgramStore)
    (allowSuspend : Bool) :
    (d.update store allowSuspend w').1 = (d.update store allowSuspend w).1 ∧
      (d.update store allowSuspend w).2.Paraphrases (d.update store allowSuspend w').2 := by
  have hrun : Execution.Paraphrases ⟨d.interp, d.script, w⟩ ⟨d.interp, d.script, w'⟩ :=
    ⟨rfl, rfl, h⟩
  obtain ⟨hinterp, htable, hworld⟩ :=
    Execution.update_paraphrases BattleScript.trigger_concurs hrun store allowSuspend
  refine ⟨?_, hworld⟩
  unfold update sceneCommands
  dsimp only
  rw [hinterp, htable]

theorem trigger_concurs (h : w.Paraphrases w') (d : Director) (store : ProgramStore)
    (kind : HookKind) (args : HookArgs) :
    (d.trigger store kind args w').2.1 = (d.trigger store kind args w).2.1 ∧
      (d.trigger store kind args w).2.2.Paraphrases (d.trigger store kind args w').2.2 := by
  obtain ⟨-, hscript, hworld⟩ := BattleScript.trigger_concurs store kind args d.script w w' h
  exact ⟨congrArg (fun script => { d with script := script }) hscript, hworld⟩

theorem continueHooks_concurs (h : w.Paraphrases w') (d : Director) (store : ProgramStore) :
    (d.continueHooks store w').2.1 = (d.continueHooks store w).2.1 ∧
      (d.continueHooks store w).2.2.Paraphrases (d.continueHooks store w').2.2 := by
  obtain ⟨hscript, hworld⟩ := BattleScript.continueHooks_concurs h store d.script
  exact ⟨congrArg (fun script => { d with script := script }) hscript, hworld⟩

end Director

namespace EventRunner

variable {σ : Type} [AssetLoader σ] {w w' : World σ}

/-- A parallel event comes to the same in both worlds. -/
structure Concurs (u u' : Update BattleScript σ) : Prop where
  op : u'.op = u.op
  runner : u'.runner = u.runner
  table : u'.table = u.table
  world : u.world.Paraphrases u'.world

theorem update_concurs (h : w.Paraphrases w') (r : EventRunner) (store : ProgramStore)
    (resume : Bool) (s : BattleScript) :
    Concurs (r.update sceneCommands store resume s w)
      (r.update sceneCommands store resume s w') := by
  unfold EventRunner.update
  rw [show w'.game.switches = w.game.switches from h.game.read (·.switches)]
  split
  · split
    · exact ⟨rfl, rfl, rfl, h⟩
    · rename_i i _
      have hrun : Execution.Paraphrases ⟨started r.event i, s, w⟩ ⟨started r.event i, s, w'⟩ :=
        ⟨rfl, rfl, h⟩
      obtain ⟨hinterp, htable, hworld⟩ :=
        Execution.update_paraphrases BattleScript.trigger_concurs hrun store (!resume)
      exact ⟨congrArg (·.asyncOp) hinterp, congrArg (fun i => { r with interp := some i }) hinterp,
        htable, hworld⟩
  · exact ⟨rfl, rfl, rfl, h⟩

end EventRunner

end ActiveBattle
