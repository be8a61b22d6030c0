import ActiveBattle.Proofs.Script.Transcript
import ActiveBattle.Script.Director

/-!
# What can be asked of a battle interpreter

Programs are put on it, events and pages started, frames removed, snapshots set, and it and its
hooks are updated. What each of these keeps, of the main interpreter and of that of the hooks, is
kept by all of them in whatever order (`Director.Kept.calls`).
-/

namespace ActiveBattle

set_option autoImplicit false

namespace Director

/-- What can be asked of the battle interpreter and its hooks. -/
inductive Call (σ : Type) where
  | push (program : Program) (owner : OwnerTag)
  | startEvent (id : Int)
  | schedule (game : GameState) (required : ConditionFlags) (source : Option BattlerId)
  | removeEvent (id : Int)
  | clear
  /-- A snapshot from anywhere. -/
  | setState (kept : ExecutionSnapshot)
  | update (commands : CommandSet) (allowSuspend : Bool) (world : World σ)
  | trigger (kind : HookKind) (args : HookArgs) (world : World σ)
  | continueHooks (world : World σ)

variable {σ : Type} [AssetLoader σ]

def perform (store : ProgramStore) (d : Director) : Call σ → Director
  | .push program owner => d.modifyInterp (·.push program owner)
  | .startEvent id => (d.startEvent store id).2
  | .schedule game required source => (d.schedule store game required source).2
  | .removeEvent id => d.removeEvent id
  | .clear => d.modifyInterp (·.clear)
  | .setState kept => d.modifyInterp (·.setState kept store)
  | .update commands allowSuspend world =>
    let x := Execution.update commands.commands store allowSuspend ⟨d.interp, d.script, world⟩
    { d with interp := x.interp, script := x.table }
  | .trigger kind args world => (d.trigger store kind args world).2.1
  | .continueHooks world => (d.continueHooks store world).2.1

/-- The instructions that one update of the hook interpreter performs. -/
def hookInstructions (store : ProgramStore) (s : BattleScript) (world : World σ) :
    List Instruction :=
  (CommandSet.hook.transcript store true (s.hooksAtWork world)).map Line.inst

/-- The instructions that are performed for a call, by the main interpreter and by that of the
hooks. -/
def performed (store : ProgramStore) (d : Director) : Call σ → List Instruction
  | .update commands allowSuspend world =>
    (commands.transcript store allowSuspend ⟨d.interp, d.script, world⟩).flatMap Line.performed
  | .trigger kind args world =>
    match d.script.primed? store kind args with
    | some runner => hookInstructions store { d.script with hookRunner := runner } world
    | none => []
  | .continueHooks world =>
    if d.script.maniac && d.script.hookRunner.isRunning then hookInstructions store d.script world
      else []
  | _ => []

/-- The instructions that are performed for one call after the other. -/
def performedIn (store : ProgramStore) (d : Director) : List (Call σ) → List Instruction
  | [] => []
  | call :: rest => d.performed store call ++ performedIn store (d.perform store call) rest

/-- What each way to change an interpreter keeps, as long as updates perform nothing but what is
allowed. -/
structure Kept (σ : Type) [AssetLoader σ] (store : ProgramStore) (Allowed : Instruction → Prop)
    (I : Interpreter → Prop) : Prop where
  push : ∀ i program owner, I i → I (i.push program owner)
  clear : ∀ i, I i → I i.clear
  retain : ∀ i keep, I i → I (i.retainFrames keep)
  setState : ∀ i kept, I i → I (i.setState kept store)
  updates : ∀ c allowSuspend (x y : Execution BattleScript σ) log,
    Runs store c (.update allowSuspend) x log y →
    (∀ line ∈ log, Allowed line.inst) → I x.interp → I y.interp

namespace Kept

variable {store : ProgramStore} {Allowed : Instruction → Prop} {I : Interpreter → Prop}

theorem primed (hI : Kept σ store Allowed I) {kind : HookKind} {args : HookArgs} {s : BattleScript}
    {runner : Interpreter} (hs : I s.hookRunner) (h : s.primed? store kind args = some runner) :
    I runner := by
  obtain ⟨id, event, -, rfl⟩ := BattleScript.primed?_eq_some h
  exact hI.push _ _ _ (hI.push _ _ _ hs)

theorem pumped (hI : Kept σ store Allowed I) {i j : Interpreter} {logs : List (List (Line σ))}
    (h : Pumped store i logs j) (hlogs : ∀ log ∈ logs, ∀ line ∈ log, Allowed line.inst) (hi : I i) :
    I j := by
  induction h with
  | rest => exact hi
  | hook _ hprimed hrun ih =>
    obtain ⟨hbefore, hlast⟩ := List.forall_mem_append.mp hlogs
    exact hI.updates _ _ _ _ _ hrun (hlast _ (List.mem_singleton_self _))
      (hI.primed (ih hbefore) hprimed)

theorem pump (hI : Kept σ store Allowed I) {s : BattleScript} {world : World σ}
    (hallowed : ∀ inst ∈ hookInstructions store s world, Allowed inst) (hs : I s.hookRunner) :
    I (BattleScript.pump store s world).1.hookRunner := by
  have hrun := Runs.transcript .hook store true (s.hooksAtWork world)
  exact hI.updates _ _ _ _ _ hrun (fun line hline => hallowed _ (List.mem_map_of_mem hline)) hs

theorem update (hI : Kept σ store Allowed I) {c : CommandSet} {allowSuspend : Bool}
    {x y : Execution BattleScript σ} {log : List (Line σ)}
    (h : Runs store c (.update allowSuspend) x log y)
    (hallowed : ∀ inst ∈ log.flatMap Line.performed, Allowed inst) (hmain : I x.interp)
    (hhooks : I x.table.hookRunner) :
    I y.interp ∧ I y.table.hookRunner := by
  have hlines : ∀ line ∈ log, ∀ inst ∈ line.performed, Allowed inst := fun line hline inst hinst =>
    hallowed inst (List.mem_flatMap.mpr ⟨line, hline, hinst⟩)
  refine ⟨hI.updates _ _ _ _ _ h (fun line hline => hlines line hline _ List.mem_cons_self) hmain,
    ?_⟩
  refine hI.pumped h.pumped (fun inner hinner line hline => ?_) hhooks
  obtain ⟨outer, houter, hpumped⟩ := List.mem_filterMap.mp hinner
  refine hlines outer houter _ (List.mem_cons_of_mem _ (List.mem_map_of_mem ?_))
  rw [hpumped]
  exact hline

/-- Nothing that is asked for touches the interpreters in any other way. -/
theorem perform (hI : Kept σ store Allowed I) {d : Director} (call : Call σ)
    (hallowed : ∀ inst ∈ d.performed store call, Allowed inst) (hmain : I d.interp)
    (hhooks : I d.script.hookRunner) :
    I (d.perform store call).interp ∧ I (d.perform store call).script.hookRunner := by
  cases call with
  | push program owner => exact ⟨hI.push _ _ _ hmain, hhooks⟩
  | startEvent id =>
    unfold Director.perform startEvent
    dsimp only
    split
    · exact ⟨hmain, hhooks⟩
    · split
      · exact ⟨hmain, hhooks⟩
      · exact ⟨hI.push _ _ _ hmain, hhooks⟩
  | schedule game required source =>
    unfold Director.perform schedule
    dsimp only
    split
    · exact ⟨hmain, hhooks⟩
    · split
      · exact ⟨hI.push _ _ _ (hI.clear _ hmain), hhooks⟩
      · exact ⟨hmain, hhooks⟩
  | removeEvent id => exact ⟨hI.retain _ _ hmain, hhooks⟩
  | clear => exact ⟨hI.clear _ hmain, hhooks⟩
  | setState kept => exact ⟨hI.setState _ _ hmain, hhooks⟩
  | update commands allowSuspend world =>
    exact hI.update (Runs.transcript commands store allowSuspend ⟨d.interp, d.script, world⟩)
      hallowed hmain hhooks
  | trigger kind args world =>
    refine ⟨hmain, ?_⟩
    unfold performed at hallowed
    dsimp only at hallowed
    change I (BattleScript.trigger store kind args d.script world).2.1.hookRunner
    rw [BattleScript.trigger_eq]
    cases hprimed : d.script.primed? store kind args with
    | none => exact hhooks
    | some runner =>
      rw [hprimed] at hallowed
      exact hI.pump hallowed (hI.primed hhooks hprimed)
  | continueHooks world =>
    refine ⟨hmain, ?_⟩
    unfold performed at hallowed
    dsimp only at hallowed
    change I (BattleScript.continueHooks store d.script world).2.1.hookRunner
    unfold BattleScript.continueHooks
    split
    · rename_i hrunning
      rw [if_pos hrunning] at hallowed
      exact hI.pump hallowed hhooks
    · exact hhooks

theorem calls (hI : Kept σ store Allowed I) {d : Director} (calls : List (Call σ))
    (hallowed : ∀ inst ∈ d.performedIn store calls, Allowed inst) (hmain : I d.interp)
    (hhooks : I d.script.hookRunner) :
    I (calls.foldl (Director.perform store) d).interp ∧
      I (calls.foldl (Director.perform store) d).script.hookRunner := by
  induction calls generalizing d with
  | nil => exact ⟨hmain, hhooks⟩
  | cons call rest ih =>
    obtain ⟨hfirst, hrest⟩ := List.forall_mem_append.mp hallowed
    obtain ⟨hmain, hhooks⟩ := hI.perform call hfirst hmain hhooks
    exact ih hrest hmain hhooks

end Kept

end Director

end ActiveBattle
