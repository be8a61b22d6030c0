import ActiveBattle.Proofs.Script.Extending

/-!
# The flag of the hooks

That no hook is called in a hook can be told by a flag, which is up while the hook interpreter is
updated and which every call asks for. The commands are then the same in and out of hooks, and calls
nest as deep as the flag lets them. The commands of this library have no flag: the hook interpreter
has a table of its own, which calls nothing. Both come to the same (`FlaggedScript.update_eq`), so
calls never nest.
-/

namespace ActiveBattle

set_option autoImplicit false

namespace Execution

variable {δ δ' σ : Type} [AssetLoader σ] {f : δ → δ'} {commands : CommandTable δ σ}
  {commands' : CommandTable δ' σ} {store : ProgramStore}

section MapTable

variable (h : ∀ inst x, commands' store inst (x.mapTable f) =
  (commands store inst x).map (Prod.map id (mapTable f)))
include h

theorem step_mapTable (inst : Instruction) (x : Execution δ σ) :
    (x.mapTable f).step commands' store inst = (x.step commands store inst).mapTable f := by
  have perform : (x.mapTable f).perform commands' store inst =
      Prod.map id (mapTable f) (x.perform commands store inst) := by
    unfold Execution.perform
    rw [h, executeBase_mapTable]
    cases commands store inst x <;> rfl
  unfold step
  rw [perform]
  obtain ⟨go, y⟩ := x.perform commands store inst
  cases go <;> rfl

theorem run_mapTable (budget : Nat) (x : Execution δ σ) :
    (x.mapTable f).run commands' store budget = (x.run commands store budget).mapTable f := by
  -- an open message, a suspension, a yield, the next instruction, or nothing left
  fun_induction run commands store budget x with
  | case1 budget x hmessage => rw [run, show (x.mapTable f).game = x.game from rfl, if_pos hmessage]
  | case2 x hmessage dropped inst budget hcurrent y hsuspended =>
    have hy : (dropped.mapTable f).step commands' store inst = y.mapTable f :=
      step_mapTable h inst dropped
    rw [run_of_next (x := x.mapTable f) hmessage hcurrent hy]
    exact if_pos hsuspended
  | case3 x hmessage dropped inst budget hcurrent y hsuspended hyield =>
    have hy : (dropped.mapTable f).step commands' store inst = y.mapTable f :=
      step_mapTable h inst dropped
    rw [run_of_next (x := x.mapTable f) hmessage hcurrent hy]
    exact (if_neg hsuspended).trans (if_pos hyield)
  | case4 x hmessage dropped inst budget hcurrent y hsuspended hyield ih =>
    have hy : (dropped.mapTable f).step commands' store inst = y.mapTable f :=
      step_mapTable h inst dropped
    rw [run_of_next (x := x.mapTable f) hmessage hcurrent hy]
    exact (if_neg hsuspended).trans ((if_neg hyield).trans ih)
  | case5 budget x hmessage dropped hnext =>
    rw [run, show (x.mapTable f).game = x.game from rfl, if_neg hmessage]
    dsimp only
    split
    · rename_i inst budget hcurrent
      exact absurd rfl (hnext inst budget hcurrent)
    · rfl

/-- If commands do the same in both ways of telling their state, so do updates. -/
theorem update_mapTable (allowSuspend : Bool) (x : Execution δ σ) :
    (x.mapTable f).update commands' store allowSuspend =
      (x.update commands store allowSuspend).mapTable f := by
  have hwoken : (x.mapTable f).woken allowSuspend = (x.woken allowSuspend).mapTable f := by
    cases allowSuspend <;> rfl
  rw [update_eq_woken, update_eq_woken, hwoken]
  change (if (x.woken allowSuspend).interp.isAsyncPending then _ else
    if (x.woken allowSuspend).interp.isWaiting then _ else _) = _
  split
  · rfl
  · split
    · rfl
    · exact run_mapTable h _ _

end MapTable

end Execution

/-- The state of the battle commands, with the flag that a hook is running. -/
structure FlaggedScript where
  script : BattleScript
  inHook : Bool

namespace FlaggedScript

variable {σ : Type} [AssetLoader σ]

/-- How a command reaches a hook and shows it the flag. -/
abbrev HookCall (σ : Type) :=
  ProgramStore → HookKind → HookArgs → FlaggedScript → World σ → Bool × FlaggedScript × World σ

/-- The call of a hook while the flag stands as it does. -/
def under (flag : Bool) (hook : HookCall σ) : ActiveBattle.HookCall σ := fun store kind args s w =>
  let (ran, s, w) := hook store kind args ⟨s, flag⟩ w
  (ran, s.script, w)

abbrev withFlag (flag : Bool) (x : Execution BattleScript σ) : Execution FlaggedScript σ :=
  x.mapTable (⟨·, flag⟩)

/-- The battle commands with the flag. None of them looks at it, but for the hooks they call, and
those leave it as it is (`trigger_inHook`). -/
def commands (hook : HookCall σ) : CommandTable FlaggedScript σ := fun store inst x =>
  (battleCommands (under x.table.inHook hook) store inst (x.mapTable script)).map
    (Prod.map id (withFlag x.table.inHook))

/-- One update of the hook interpreter, while the flag is up. -/
def pump (hook : HookCall σ) (store : ProgramStore) (s : FlaggedScript) (w : World σ) :
    FlaggedScript × World σ :=
  let x := Execution.update (commands hook) store true
    ⟨s.script.hookRunner, ⟨{ s.script with hookRunner := {} }, true⟩, w⟩
  (⟨{ x.table.script with hookRunner := x.interp }, false⟩, x.world)

/-- Calls a hook unless the flag is up. The commands that run in it call hooks in the same way, as
deep as `depth`. -/
def trigger : Nat → HookCall σ
  | 0 => fun _ _ _ s w => (false, s, w)
  | depth + 1 => fun store kind args s w =>
    let binding := s.script.hooks.get kind
    if s.script.maniac && !s.inHook && binding.isBound then
      match store.event? binding.commonEventId with
      | some event =>
        let runner := (s.script.hookRunner.pushEvent event).push
          (BattleScript.handOver binding.variableStart args) .synthetic
        (true, pump (trigger depth) store
          { s with script := { s.script with hookRunner := runner } } w)
      | none => (false, s, w)
    else (false, s, w)

theorem trigger_inHook (depth : Nat) (store : ProgramStore) (kind : HookKind) (args : HookArgs)
    (s : FlaggedScript) (w : World σ) :
    (trigger depth store kind args s w).2.1.inHook = s.inHook := by
  cases depth with
  | zero => rfl
  | succ depth =>
    unfold trigger
    dsimp only
    split
    · rename_i hcalls
      obtain ⟨⟨-, hdown⟩, -⟩ : (s.script.maniac = true ∧ s.inHook = false) ∧ _ := by
        simpa using hcalls
      split
      · exact hdown.symm
      · rfl
    · rfl

/-- While the flag is up no hook is called. -/
theorem under_true_trigger (depth : Nat) : under true (trigger depth : HookCall σ) = noHooks := by
  funext store kind args s w
  cases depth with
  | zero => rfl
  | succ depth => simp [under, trigger, noHooks]

omit [AssetLoader σ] in
theorem commands_withFlag (hook : HookCall σ) (flag : Bool) (store : ProgramStore)
    (inst : Instruction) (x : Execution BattleScript σ) :
    commands hook store inst (withFlag flag x) =
      (battleCommands (under flag hook) store inst x).map (Prod.map id (withFlag flag)) := rfl

theorem update_withFlag (hook : HookCall σ) (flag : Bool) (store : ProgramStore)
    (allowSuspend : Bool) (x : Execution BattleScript σ) :
    (withFlag flag x).update (commands hook) store allowSuspend =
      withFlag flag (x.update (battleCommands (under flag hook)) store allowSuspend) :=
  Execution.update_mapTable (commands_withFlag hook flag store) allowSuspend x

/-- So the hook interpreter is updated as with the table that calls none. -/
theorem pump_eq (depth : Nat) (store : ProgramStore) (s : FlaggedScript) (w : World σ) :
    pump (trigger depth) store s w =
      (⟨(s.script.pump store w).1, false⟩, (s.script.pump store w).2) := by
  have hupdate := update_withFlag (trigger depth) true store true
    ⟨s.script.hookRunner, { s.script with hookRunner := {} }, w⟩
  rw [under_true_trigger] at hupdate
  have hstart :
      (⟨s.script.hookRunner, ⟨{ s.script with hookRunner := {} }, true⟩, w⟩ :
        Execution FlaggedScript σ) =
        withFlag true ⟨s.script.hookRunner, { s.script with hookRunner := {} }, w⟩ := rfl
  unfold pump BattleScript.pump
  rw [hstart, hupdate]
  rfl

/-- While it is down, a hook is called as it is without it. -/
theorem under_false_trigger (depth : Nat) :
    under false (trigger (depth + 1) : HookCall σ) = BattleScript.trigger := by
  funext store kind args s w
  unfold under trigger BattleScript.trigger
  simp only [Bool.not_false, Bool.and_true, pump_eq]
  split
  · cases store.event? (s.hooks.get kind).commonEventId <;> rfl
  · rfl

/-- Updates under the flag are those with the tables of this library: while it is down those of the
scene, and while it is up those of a hook, however deep calls may nest. -/
theorem update_eq (depth : Nat) (store : ProgramStore) (allowSuspend : Bool)
    (x : Execution BattleScript σ) :
    (withFlag false x).update (commands (trigger (depth + 1))) store allowSuspend =
        withFlag false (x.update sceneCommands store allowSuspend) ∧
      (withFlag true x).update (commands (trigger depth)) store allowSuspend =
        withFlag true (x.update (battleCommands noHooks) store allowSuspend) := by
  constructor
  · rw [update_withFlag, under_false_trigger]
    rfl
  · rw [update_withFlag, under_true_trigger]

end FlaggedScript

end ActiveBattle
