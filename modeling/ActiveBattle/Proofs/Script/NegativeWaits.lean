import ActiveBattle.Proofs.Script.Transcript

/-!
# Nobody sees a negative wait

Whether the counter of an interpreter stands at zero or below, it does not wait. No command looks at
the counter, it is left or set (`CommandSet.ignoresWait`), so an update makes of two interpreters
that differ in that alone the same (`CommandTable.IgnoresWait.update`).
-/

namespace ActiveBattle

set_option autoImplicit false

namespace Interpreter

def withWait (i : Interpreter) (n : Int) : Interpreter := { i with waitFrames := n }

/-- Nothing to wait instead of less than nothing. -/
def floored (i : Interpreter) : Interpreter := i.withWait (max i.waitFrames 0)

theorem floored_of_nonneg {i : Interpreter} (h : 0 ≤ i.waitFrames) : i.floored = i := by
  unfold floored
  rw [Int.max_eq_left h]
  rfl

/-- The same, unless neither of them waits: then the counters may differ. -/
inductive Matches (i : Interpreter) : Interpreter → Prop
  | same : Matches i i
  | idle {n : Int} (hi : i.waitFrames ≤ 0) (hn : n ≤ 0) : Matches i (i.withWait n)

namespace Matches

variable {i j : Interpreter}

theorem floored (i : Interpreter) : i.Matches i.floored := by
  by_cases h : 0 ≤ i.waitFrames
  · rw [floored_of_nonneg h]
    exact .same
  · have hi : i.waitFrames ≤ 0 := by omega
    exact .idle hi (Int.max_le.mpr ⟨hi, Int.le_refl 0⟩)

theorem asyncOp (h : i.Matches j) : j.asyncOp = i.asyncOp := by cases h <;> rfl

theorem stack (h : i.Matches j) : j.stack = i.stack := by cases h <;> rfl

theorem current? (h : i.Matches j) : j.current? = i.current? := by
  unfold Interpreter.current?
  rw [h.stack]

theorem loopLimit (h : i.Matches j) : j.loopLimit = i.loopLimit := by cases h <;> rfl

theorem yieldRequested (h : i.Matches j) : j.yieldRequested = i.yieldRequested := by cases h <;> rfl

theorem isWaiting (h : i.Matches j) : j.isWaiting = i.isWaiting := by
  cases h with
  | same => rfl
  | idle hi hn =>
    have hfree : i.isWaiting = false := decide_eq_false (Int.not_lt.mpr hi)
    rw [hfree]
    exact decide_eq_false (Int.not_lt.mpr hn)

theorem isAsyncPending (h : i.Matches j) : j.isAsyncPending = i.isAsyncPending := by cases h <;> rfl

theorem isSuspended (h : i.Matches j) : j.isSuspended = i.isSuspended := by
  unfold Interpreter.isSuspended
  rw [h.isWaiting, h.isAsyncPending]

/-- What leaves the counter alone keeps them apart no further. -/
theorem map (h : i.Matches j) (f : Interpreter → Interpreter)
    (hf : ∀ i n, f (i.withWait n) = (f i).withWait n) :
    (f i).Matches (f j) := by
  cases h with
  | same => exact .same
  | @idle n hi hn =>
    have hkept : f i = (f i).withWait i.waitFrames := hf i i.waitFrames
    rw [hf]
    refine .idle ?_ hn
    rw [hkept]
    exact hi

end Matches

end Interpreter

namespace Execution

variable {δ σ : Type}

def withWait (x : Execution δ σ) (n : Int) : Execution δ σ := x.modifyInterp (·.withWait n)

@[simp] theorem withWait_game (x : Execution δ σ) (n : Int) : (x.withWait n).game = x.game := rfl

/-- The same, but for the counter of an interpreter that does not wait. -/
structure Matches (x y : Execution δ σ) : Prop where
  interp : x.interp.Matches y.interp
  table : y.table = x.table
  world : y.world = x.world

namespace Matches

variable {x y : Execution δ σ}

theorem refl (x : Execution δ σ) : x.Matches x := ⟨.same, rfl, rfl⟩

theorem modifyInterp (h : x.Matches y) (f : Interpreter → Interpreter)
    (hf : ∀ i n, f (i.withWait n) = (f i).withWait n) :
    (x.modifyInterp f).Matches (y.modifyInterp f) :=
  ⟨h.interp.map f hf, h.table, h.world⟩

theorem game (h : x.Matches y) : y.game = x.game := congrArg World.game h.world

theorem dropComplete (h : x.Matches y) :
    (x.modifyInterp (·.dropComplete)).Matches (y.modifyInterp (·.dropComplete)) :=
  h.modifyInterp _ fun _ _ => rfl

/-- They are equal, or one counter is all there is between them. -/
theorem cases (h : x.Matches y) : y = x ∨ x.interp.waitFrames ≤ 0 ∧ ∃ n ≤ 0, y = x.withWait n := by
  obtain ⟨interp, table, world⟩ := x
  obtain ⟨interp', table', world'⟩ := y
  obtain ⟨rfl, rfl⟩ : table' = table ∧ world' = world := ⟨h.table, h.world⟩
  have hinterp : interp.Matches interp' := h.interp
  cases hinterp with
  | same => exact .inl rfl
  | @idle n hi hn => exact .inr ⟨hi, n, hn, rfl⟩

end Matches

end Execution

/-- What an instruction does with the counter does not depend on the counter: it leaves it, or sets
it. -/
def CommandTable.IgnoresWait {δ σ : Type} (table : CommandTable δ σ) : Prop :=
  ∀ store inst (x : Execution δ σ),
    (∀ n, table store inst (x.withWait n) = (table store inst x).map (Prod.map id (·.withWait n))) ∨
      ∀ n, table store inst (x.withWait n) = table store inst x

section Commands

variable {δ σ : Type}

theorem noCommands_ignoresWait : (noCommands : CommandTable δ σ).IgnoresWait :=
  fun _ _ _ => .inl fun _ => rfl

namespace Interpreter

theorem branchOn_withWait (i : Interpreter) (n : Int) (inst : Instruction) (test : Bool)
    (codes : List Opcode) :
    (i.withWait n).branchOn inst test codes =
      Prod.map id (·.withWait n) (i.branchOn inst test codes) := by
  unfold branchOn
  split <;> rfl

theorem chooseOption_withWait (i : Interpreter) (n : Int) (inst : Instruction) (option : Int)
    (codes : List Opcode) :
    (i.withWait n).chooseOption inst option codes =
      Prod.map id (·.withWait n) (i.chooseOption inst option codes) := by
  have hsame : (i.withWait n).branchAt inst.indent = i.branchAt inst.indent := rfl
  unfold chooseOption
  rw [hsame]
  split <;> rfl

theorem breakLoop_withWait (i : Interpreter) (n : Int) (inst : Instruction) :
    (i.withWait n).breakLoop inst = Prod.map id (·.withWait n) (i.breakLoop inst) := by
  obtain ⟨stack, asyncOp, waitFrames, yieldRequested, loopLimit, framesPerSecond⟩ := i
  cases stack with
  | nil => rfl
  | cons top rest =>
    dsimp only [breakLoop, withWait]
    split <;> rfl

theorem call_withWait (i : Interpreter) (n : Int) (store : ProgramStore) (id : Int) :
    (i.withWait n).call store id = (i.call store id).withWait n := by
  unfold call
  split <;> rfl

end Interpreter

namespace Execution

theorem viaInterp_withWait (x : Execution δ σ) (n : Int) {f : Interpreter → Bool × Interpreter}
    (hf : ∀ i : Interpreter, f (i.withWait n) = Prod.map id (·.withWait n) (f i)) :
    (x.withWait n).viaInterp f = Prod.map id (·.withWait n) (x.viaInterp f) := by
  have hsame : f (x.withWait n).interp = Prod.map id (·.withWait n) (f x.interp) := hf x.interp
  unfold viaInterp
  rw [hsame]
  rfl

theorem executeBase_withWait [AssetLoader σ] (store : ProgramStore) (inst : Instruction)
    (x : Execution δ σ) :
    (∀ n, (x.withWait n).executeBase store inst =
      Prod.map id (·.withWait n) (x.executeBase store inst)) ∨
      ∀ n, (x.withWait n).executeBase store inst = x.executeBase store inst := by
  unfold executeBase
  cases inst.opcode
  case wait => exact .inr fun _ => rfl
  all_goals refine .inl fun n => ?_
  case conditionalBranch => exact x.viaInterp_withWait n fun i => i.branchOn_withWait n inst _ _
  case elseBranch => exact x.viaInterp_withWait n fun i => i.chooseOption_withWait n inst _ _
  case breakLoop => exact x.viaInterp_withWait n fun i => i.breakLoop_withWait n inst
  case callEvent =>
    dsimp only [proceed, withWait, modifyInterp]
    rw [Interpreter.call_withWait]
    rfl
  case showPicture =>
    dsimp only [showPicture, proceed, withWait, modifyInterp]
    split <;> rfl
  all_goals rfl

/-- Whoever does not look at the counter chooses the same. -/
theorem ite_withWait {c : Prop} [Decidable c] {x y x' y' : Execution δ σ} {n : Int}
    (hx : x' = x.withWait n) (hy : y' = y.withWait n) :
    (if c then x' else y') = (if c then x else y).withWait n := by
  split
  · exact hx
  · exact hy

variable (x : Execution BattleScript σ) (hook : HookCall σ) (store : ProgramStore)
  (inst : Instruction) (n : Int)

theorem forceFlee_withWait : (x.withWait n).forceFlee inst = (x.forceFlee inst).withWait n := by
  unfold forceFlee
  dsimp only
  split
  · exact ite_withWait rfl rfl
  · exact ite_withWait rfl rfl
  · exact ite_withWait rfl rfl
  · rfl

theorem enableCombo_withWait : (x.withWait n).enableCombo inst = (x.enableCombo inst).withWait n :=
  ite_withWait rfl rfl

theorem changeMonsterHp_withWait :
    (x.withWait n).changeMonsterHp hook store inst =
      (x.changeMonsterHp hook store inst).withWait n := by
  unfold changeMonsterHp
  dsimp only [withWait_game]
  cases x.game.roster.enemy? (inst.param 0) with
  | none => rfl
  | some enemy =>
    refine ite_withWait rfl ?_
    split <;> rfl

theorem changeMonsterMp_withWait :
    (x.withWait n).changeMonsterMp hook store inst =
      (x.changeMonsterMp hook store inst).withWait n := by
  unfold changeMonsterMp
  dsimp only [withWait_game]
  cases x.game.roster.enemy? (inst.param 0) <;> rfl

theorem changeMonsterCondition_withWait :
    (x.withWait n).changeMonsterCondition hook store inst =
      (x.changeMonsterCondition hook store inst).withWait n := by
  unfold changeMonsterCondition
  dsimp only [withWait_game]
  cases x.game.roster.enemy? (inst.param 0) with
  | none => rfl
  | some enemy =>
    dsimp only
    split
    · exact ite_withWait rfl rfl
    · exact ite_withWait rfl rfl

theorem controlBattleHooks_withWait :
    (x.withWait n).controlBattleHooks inst = (x.controlBattleHooks inst).withWait n := by
  refine ite_withWait ?_ rfl
  cases HookKind.ofIndex? (inst.param 0) <;> rfl

/-- An animation that is waited for sets the counter. -/
theorem showBattleAnimation_withWait :
    (∀ n, (x.withWait n).showBattleAnimation inst = (x.showBattleAnimation inst).withWait n) ∨
      ∀ n, (x.withWait n).showBattleAnimation inst = x.showBattleAnimation inst := by
  have hscope (n : Int) : (x.withWait n).animationScope inst = x.animationScope inst := rfl
  have hplayed (n : Int) : (x.withWait n).playedAnimation? inst = x.playedAnimation? inst := rfl
  unfold showBattleAnimation
  by_cases hwaits : inst.param 2 ≠ 0
  · refine .inr fun n => ?_
    dsimp only
    rw [hscope, hplayed, if_pos hwaits, if_pos hwaits]
    rcases x.playedAnimation? inst with _ | animation
    · rfl
    · dsimp only
      cases animation.se <;> rfl
  · refine .inl fun n => ?_
    dsimp only
    rw [hscope, hplayed, if_neg hwaits, if_neg hwaits]
    rcases x.playedAnimation? inst with _ | animation
    · rfl
    · dsimp only
      cases animation.se <;> rfl

end Execution

theorem battleCommands_ignoresWait (hook : HookCall σ) : (battleCommands hook).IgnoresWait := by
  intro store inst x
  have proceeds {n : Int} {y y' : Execution BattleScript σ} (h : y' = y.withWait n) :
      some y'.proceed = (some y.proceed).map (Prod.map id (·.withWait n)) := by
    rw [h]
    rfl
  unfold battleCommands
  cases inst.opcode
  case showBattleAnimation =>
    refine (x.showBattleAnimation_withWait inst).imp (fun h n => proceeds (h n)) fun h n => ?_
    dsimp only
    rw [h]
  all_goals refine .inl fun n => ?_
  case callCommonEvent =>
    refine proceeds (Execution.ite_withWait ?_ rfl)
    exact congrArg (fun i => ({ x with interp := i } : Execution BattleScript σ))
      (x.interp.call_withWait n store _)
  case forceFlee => exact proceeds (Execution.ite_withWait (x.forceFlee_withWait inst n) rfl)
  case enableCombo => exact proceeds (Execution.ite_withWait (x.enableCombo_withWait inst n) rfl)
  case changeMonsterHp => exact proceeds (x.changeMonsterHp_withWait hook store inst n)
  case changeMonsterMp => exact proceeds (x.changeMonsterMp_withWait hook store inst n)
  case changeMonsterCondition =>
    exact proceeds (x.changeMonsterCondition_withWait hook store inst n)
  case controlBattleHooks => exact proceeds (x.controlBattleHooks_withWait inst n)
  case conditionalBranchBattle =>
    exact congrArg some (x.viaInterp_withWait n fun i => i.branchOn_withWait n inst _ _)
  case elseBranchBattle =>
    exact congrArg some (x.viaInterp_withWait n fun i => i.chooseOption_withWait n inst _ _)
  all_goals rfl

theorem CommandSet.ignoresWait [AssetLoader σ] (c : CommandSet) :
    (c.commands : CommandTable BattleScript σ).IgnoresWait := by
  cases c with
  | base => exact noCommands_ignoresWait
  | battle => exact battleCommands_ignoresWait _
  | hook => exact battleCommands_ignoresWait _

end Commands

namespace CommandTable.IgnoresWait

open Execution

variable {δ σ : Type} [AssetLoader σ] {table : CommandTable δ σ} {x y : Execution δ σ}

theorem perform (h : table.IgnoresWait) (store : ProgramStore) (inst : Instruction)
    (x : Execution δ σ) :
    (∀ n, (x.withWait n).perform table store inst =
      Prod.map id (·.withWait n) (x.perform table store inst)) ∨
      ∀ n, (x.withWait n).perform table store inst = x.perform table store inst := by
  unfold Execution.perform
  rcases h store inst x with hleaves | hsets
  · cases hown : table store inst x with
    | some done => exact .inl fun n => by rw [hleaves, hown]; rfl
    | none =>
      have hnone (n : Int) : table store inst (x.withWait n) = none := by rw [hleaves, hown]; rfl
      simp only [hnone, Option.getD_none]
      exact x.executeBase_withWait store inst
  · cases hown : table store inst x with
    | some done => exact .inr fun n => by rw [hsets, hown]; rfl
    | none =>
      have hnone (n : Int) : table store inst (x.withWait n) = none := by rw [hsets, hown]
      simp only [hnone, Option.getD_none]
      exact x.executeBase_withWait store inst

theorem step_withWait (h : table.IgnoresWait) (store : ProgramStore) (inst : Instruction)
    (x : Execution δ σ) :
    (∀ n, (x.withWait n).step table store inst = (x.step table store inst).withWait n) ∨
      ∀ n, (x.withWait n).step table store inst = x.step table store inst := by
  have hdepth (n : Int) : (x.withWait n).interp.stack.length = x.interp.stack.length := rfl
  unfold Execution.step
  dsimp only
  rcases h.perform store inst x with hleaves | hsets
  · refine .inl fun n => ?_
    rw [hdepth, hleaves]
    obtain ⟨go, z⟩ := x.perform table store inst
    cases go <;> rfl
  · exact .inr fun n => by rw [hdepth, hsets]

theorem step (h : table.IgnoresWait) (store : ProgramStore) (hxy : x.Matches y)
    (inst : Instruction) :
    (x.step table store inst).Matches (y.step table store inst) := by
  rcases hxy.cases with rfl | ⟨hx, n, hn, rfl⟩
  · exact .refl _
  · rcases h.step_withWait store inst x with hleaves | hsets
    · -- What leaves the counter alone leaves it where it was.
      have hkept : (x.step table store inst).interp.waitFrames = x.interp.waitFrames :=
        congrArg (·.interp.waitFrames) (hleaves x.interp.waitFrames)
      rw [hleaves]
      exact ⟨.idle (by rw [hkept]; exact hx) hn, rfl, rfl⟩
    · rw [hsets]
      exact .refl _

theorem run (h : table.IgnoresWait) (store : ProgramStore) (hxy : x.Matches y) (budget : Nat) :
    (x.run table store budget).Matches (y.run table store budget) := by
  induction budget generalizing x y with
  | zero =>
    have hdropped := hxy.dropComplete
    unfold Execution.run
    dsimp only
    rw [hxy.game, hdropped.interp.current?]
    split
    · exact hxy
    · cases (x.modifyInterp (·.dropComplete)).interp.current? <;> exact hdropped
  | succ budget ih =>
    have hdropped := hxy.dropComplete
    unfold Execution.run
    dsimp only
    rw [hxy.game, hdropped.interp.current?]
    split
    · exact hxy
    · cases (x.modifyInterp (·.dropComplete)).interp.current? with
      | none => exact hdropped
      | some inst =>
        have hstepped := h.step store hdropped inst
        dsimp only
        rw [hstepped.interp.isSuspended, hstepped.interp.yieldRequested]
        split
        · exact hstepped
        · split
          · exact hstepped.modifyInterp _ fun _ _ => rfl
          · exact ih hstepped

/-- An update makes the same of both, but for such a counter. -/
theorem update (h : table.IgnoresWait) (store : ProgramStore) (hxy : x.Matches y)
    (allowSuspend : Bool) :
    (x.update table store allowSuspend).Matches (y.update table store allowSuspend) := by
  have hwoken : (x.woken allowSuspend).Matches (y.woken allowSuspend) := by
    cases allowSuspend with
    | true => exact hxy
    | false =>
      rcases hxy.cases with rfl | ⟨-, n, -, rfl⟩ <;> exact .refl _
  rw [update_eq_woken, update_eq_woken, hwoken.interp.isAsyncPending, hwoken.interp.isWaiting,
    hwoken.interp.loopLimit]
  split
  · exact hwoken
  · split
    · rename_i hwaiting
      rcases hwoken.cases with hsame | ⟨hx, -⟩
      · rw [hsame]
        exact .refl _
      · exact absurd (of_decide_eq_true hwaiting) (Int.not_lt.mpr hx)
    · exact h.run store hwoken _

end CommandTable.IgnoresWait

end ActiveBattle
