import ActiveBattle.Proofs.Script.Move

/-!
# Updates as they run

`Runs` tells how an update goes, with nothing that bounds it but the count it keeps itself: the loop
pops finished frames, performs instructions, and for a hook updates the hook interpreter in between.
What each part of the loop upholds holds at every line and in the end, for the interpreter that runs
(`Runs.upheld`) and for that of the hooks (`Runs.upheld_hooks`).
-/

namespace ActiveBattle

set_option autoImplicit false

/-- The base commands alone, or those of a battle, outside of a hook or inside of one. -/
inductive CommandSet where
  | base
  | battle
  | hook
deriving DecidableEq

namespace CommandSet

/-- The commands of a set, reaching hooks by `call`. -/
def table {σ : Type} (call : HookCall σ) : CommandSet → CommandTable BattleScript σ
  | base => noCommands
  | battle | hook => battleCommands call

/-- What a call of a hook comes to. -/
def call {σ : Type} [AssetLoader σ] : CommandSet → HookCall σ
  | battle => BattleScript.trigger
  | base | hook => noHooks

def commands {σ : Type} [AssetLoader σ] (c : CommandSet) : CommandTable BattleScript σ :=
  c.table c.call

end CommandSet

/-- The hook interpreter with the event bound to a hook put on it, if there is one. -/
def BattleScript.primed? (store : ProgramStore) (kind : HookKind) (args : HookArgs)
    (s : BattleScript) :
    Option Interpreter :=
  let binding := s.hooks.get kind
  if s.maniac && binding.isBound then
    (store.event? binding.commonEventId).map fun event =>
      (s.hookRunner.pushEvent event).push (handOver binding.variableStart args) .synthetic
  else none

theorem BattleScript.primed?_eq_some {store : ProgramStore} {kind : HookKind} {args : HookArgs}
    {s : BattleScript} {runner : Interpreter} (h : s.primed? store kind args = some runner) :
    ∃ id event, store.event? id = some event ∧
      runner = (s.hookRunner.pushEvent event).push (handOver (s.hooks.get kind).variableStart args)
        .synthetic := by
  unfold primed? at h
  dsimp only at h
  split at h
  · obtain ⟨event, hevent, rfl⟩ := Option.map_eq_some_iff.mp h
    exact ⟨_, event, hevent, rfl⟩
  · contradiction

theorem BattleScript.trigger_eq {σ : Type} [AssetLoader σ] (store : ProgramStore) (kind : HookKind)
    (args : HookArgs) (s : BattleScript) (w : World σ) : trigger store kind args s w =
      match s.primed? store kind args with
      | some runner => (true, pump store { s with hookRunner := runner } w)
      | none => (false, s, w) := by
  unfold trigger primed?
  dsimp only
  split
  · cases store.event? (s.hooks.get kind).commonEventId <;> rfl
  · rfl

namespace Execution

variable {σ : Type} [AssetLoader σ]

/-- An instruction calls at most one hook, as the last thing it does. -/
theorem perform_calls (store : ProgramStore) (inst : Instruction) (x : Execution BattleScript σ) :
    (∀ hook, x.perform (battleCommands hook) store inst =
      x.perform (battleCommands noHooks) store inst) ∨
      ∃ kind args, ∀ hook, x.perform (battleCommands hook) store inst =
        (true, (x.perform (battleCommands noHooks) store inst).2.fire hook store kind args) := by
  unfold perform battleCommands
  cases inst.opcode
  case changeMonsterHp =>
    dsimp only [Option.getD_some, changeMonsterHp, proceed]
    split
    · exact .inl fun _ => rfl
    · split
      · exact .inl fun _ => rfl
      · exact .inr ⟨_, _, fun _ => rfl⟩
  case changeMonsterMp =>
    dsimp only [Option.getD_some, changeMonsterMp, proceed]
    split
    · exact .inl fun _ => rfl
    · exact .inr ⟨_, _, fun _ => rfl⟩
  case changeMonsterCondition =>
    dsimp only [Option.getD_some, changeMonsterCondition, proceed]
    split
    · exact .inl fun _ => rfl
    · generalize (if inst.param 1 > 0 then _ else _ : Bool × Battler) = change
      obtain ⟨_ | _, enemy⟩ := change
      · exact .inl fun _ => rfl
      · exact .inr ⟨_, _, fun _ => rfl⟩
  all_goals exact .inl fun _ => rfl

theorem step_calls (store : ProgramStore) (inst : Instruction) (x : Execution BattleScript σ) :
    (∀ hook, x.step (battleCommands hook) store inst = x.step (battleCommands noHooks) store inst) ∨
      ∃ kind args, ∀ hook, x.step (battleCommands hook) store inst =
        (x.step (battleCommands noHooks) store inst).fire hook store kind args := by
  unfold step
  rcases x.perform_calls store inst with h | ⟨kind, args, h⟩
  · exact .inl fun hook => by rw [h hook]
  · refine .inr ⟨kind, args, fun hook => ?_⟩
    have hgo : (x.perform (battleCommands noHooks) store inst).1 = true :=
      congrArg Prod.fst (h noHooks)
    dsimp only
    rw [h hook, if_pos rfl, if_pos hgo]
    rfl

omit [AssetLoader σ] in
theorem forceFlee_hookRunner (x : Execution BattleScript σ) (inst : Instruction) :
    (x.forceFlee inst).table.hookRunner = x.table.hookRunner := by
  unfold forceFlee fleeParty fleeEnemies fleeEnemy
  dsimp only
  split
  · split <;> rfl
  · split <;> rfl
  · split <;> rfl
  · rfl

omit [AssetLoader σ] in
theorem showBattleAnimation_keeps (x : Execution BattleScript σ) (inst : Instruction) :
    (x.showBattleAnimation inst).table = x.table ∧ (x.showBattleAnimation inst).interp.stack =
      x.interp.stack := by
  dsimp only [showBattleAnimation]
  generalize x.playedAnimation? inst = shown
  cases shown with
  | none =>
    dsimp only
    split <;> exact ⟨rfl, rfl⟩
  | some animation =>
    dsimp only
    cases animation.se <;> dsimp only <;> split <;> exact ⟨rfl, rfl⟩

/-- Without a call nothing touches the shared state but flights and the binding of hooks. -/
theorem perform_table (store : ProgramStore) {inst : Instruction}
    (hflees : inst.opcode ≠ .forceFlee) (hbinds : inst.opcode ≠ .controlBattleHooks)
    (x : Execution BattleScript σ) :
    (x.perform (battleCommands noHooks) store inst).2.table = x.table := by
  unfold perform battleCommands executeBase
  cases hcode : inst.opcode
  case forceFlee => contradiction
  case controlBattleHooks => contradiction
  case showPicture =>
    dsimp only [Option.getD_none, showPicture, proceed]
    split <;> rfl
  case callCommonEvent =>
    dsimp only [Option.getD_some, proceed]
    split <;> rfl
  case enableCombo =>
    dsimp only [Option.getD_some, proceed, enableCombo]
    split
    · split <;> rfl
    · rfl
  case changeMonsterHp =>
    dsimp only [Option.getD_some, proceed, changeMonsterHp]
    split
    · rfl
    · split
      · rfl
      · dsimp only [fire, noHooks]
        split <;> rfl
  case changeMonsterMp =>
    dsimp only [Option.getD_some, proceed, changeMonsterMp]
    split <;> rfl
  case changeMonsterCondition =>
    dsimp only [Option.getD_some, proceed, changeMonsterCondition]
    split
    · rfl
    · generalize (if inst.param 1 > 0 then _ else _ : Bool × Battler) = change
      obtain ⟨_ | _, enemy⟩ := change <;> rfl
  case showBattleAnimation => exact (x.showBattleAnimation_keeps inst).1
  all_goals rfl

theorem perform_forceFlee (store : ProgramStore) {inst : Instruction}
    (hcode : inst.opcode = .forceFlee) (x : Execution BattleScript σ) :
    (x.perform (battleCommands noHooks) store inst).2.table =
      if x.table.rpg2k3 then (x.forceFlee inst).table else x.table := by
  unfold perform battleCommands
  rw [hcode]
  dsimp only [Option.getD_some, proceed]
  split <;> rfl

theorem perform_controlBattleHooks (store : ProgramStore) {inst : Instruction}
    (hcode : inst.opcode = .controlBattleHooks) (x : Execution BattleScript σ) :
    (x.perform (battleCommands noHooks) store inst).2.table =
      (x.controlBattleHooks inst).table := by
  unfold perform battleCommands
  rw [hcode]
  rfl

/-- Without a call nothing touches the hook interpreter. -/
theorem perform_hookRunner (store : ProgramStore) (inst : Instruction)
    (x : Execution BattleScript σ) :
    (x.perform (battleCommands noHooks) store inst).2.table.hookRunner = x.table.hookRunner := by
  by_cases hflees : inst.opcode = .forceFlee
  · rw [perform_forceFlee store hflees]
    split
    · exact x.forceFlee_hookRunner inst
    · rfl
  · by_cases hbinds : inst.opcode = .controlBattleHooks
    · rw [perform_controlBattleHooks store hbinds]
      unfold controlBattleHooks
      split
      · split <;> rfl
      · rfl
    · rw [perform_table store hflees hbinds]

theorem executeBase_table (store : ProgramStore) (inst : Instruction)
    (x : Execution BattleScript σ) :
    (x.executeBase store inst).2.table = x.table := by
  unfold executeBase
  cases inst.opcode
  case showPicture =>
    dsimp only [showPicture, proceed]
    split <;> rfl
  all_goals rfl

end Execution

namespace CommandSet

variable {σ : Type} [AssetLoader σ]

theorem step_moves (c : CommandSet) {call : HookCall σ} {store : ProgramStore} {inst : Instruction}
    {top : Frame} {below : List Frame} {x : Execution BattleScript σ}
    (hstack : x.interp.stack = top :: below) (hcurrent : top.current? = some inst) :
    x.interp.Moves store inst top below (x.step (c.table call) store inst).interp := by
  apply Execution.step_moves hstack
  cases c with
  | base => exact Execution.executeBase_moves hstack hcurrent
  | battle => exact Execution.perform_battleCommands_moves hstack hcurrent
  | hook => exact Execution.perform_battleCommands_moves hstack hcurrent

theorem step_calls (c : CommandSet) (store : ProgramStore) (inst : Instruction)
    (x : Execution BattleScript σ) :
    (∀ call, x.step (c.table call) store inst = x.step (c.table noHooks) store inst) ∨
      c ≠ .base ∧ ∃ kind args, ∀ call, x.step (c.table call) store inst =
        (x.step (c.table noHooks) store inst).fire call store kind args := by
  cases c with
  | base => exact .inl fun _ => rfl
  | battle => exact (x.step_calls store inst).imp_right fun h => ⟨nofun, h⟩
  | hook => exact (x.step_calls store inst).imp_right fun h => ⟨nofun, h⟩

theorem step_hookRunner (c : CommandSet) (store : ProgramStore) (inst : Instruction)
    (x : Execution BattleScript σ) :
    (x.step (c.table noHooks) store inst).table.hookRunner = x.table.hookRunner := by
  have hperformed : (x.perform (c.table noHooks) store inst).2.table.hookRunner =
      x.table.hookRunner := by
    cases c with
    | base => exact congrArg BattleScript.hookRunner (x.executeBase_table store inst)
    | battle => exact x.perform_hookRunner store inst
    | hook => exact x.perform_hookRunner store inst
  rw [← hperformed]
  unfold Execution.step
  dsimp only
  split <;> rfl

end CommandSet

/-- An instruction between two states of the execution, and what the hook interpreter performs if it
is updated for it. -/
inductive Line (σ : Type) where
  | mk (inst : Instruction) (before after : Execution BattleScript σ)
    (pumped : Option (List (Line σ)))

namespace Line

variable {σ : Type}

def inst : Line σ → Instruction
  | mk inst _ _ _ => inst

def before : Line σ → Execution BattleScript σ
  | mk _ before _ _ => before

def after : Line σ → Execution BattleScript σ
  | mk _ _ after _ => after

def pumped : Line σ → Option (List (Line σ))
  | mk _ _ _ pumped => pumped

/-- The instruction of a line, and those of the hook that it calls. -/
def performed (line : Line σ) : List Instruction := line.inst :: (line.pumped.getD []).map Line.inst

end Line

/-- The parts of an update: all of it, its loop after some instructions, and one instruction. -/
inductive Stage where
  | update (allowSuspend : Bool)
  | loop (limit performed : Nat)
  | perform (inst : Instruction)

/-- An execution whose interpreter takes a load and a wait as done, unless they may suspend it. -/
def Execution.woken {δ σ : Type} (allowSuspend : Bool) (x : Execution δ σ) : Execution δ σ :=
  if allowSuspend then x else x.modifyInterp (·.resume)

section Woken

variable {δ σ : Type} (allowSuspend : Bool) (x : Execution δ σ)

@[simp] theorem Execution.woken_table : (x.woken allowSuspend).table = x.table := by
  cases allowSuspend <;> rfl

@[simp] theorem Execution.woken_stack : (x.woken allowSuspend).interp.stack = x.interp.stack := by
  cases allowSuspend <;> rfl

@[simp] theorem Execution.woken_yieldRequested :
    (x.woken allowSuspend).interp.yieldRequested = x.interp.yieldRequested := by
  cases allowSuspend <;> rfl

@[simp] theorem Execution.woken_loopLimit :
    (x.woken allowSuspend).interp.loopLimit = x.interp.loopLimit := by
  cases allowSuspend <;> rfl

@[simp] theorem Execution.woken_framesPerSecond :
    (x.woken allowSuspend).interp.framesPerSecond = x.interp.framesPerSecond := by
  cases allowSuspend <;> rfl

end Woken

/-- How a stage of an update runs, with the lines it performs. -/
inductive Runs {σ : Type} [AssetLoader σ] (store : ProgramStore) :
    CommandSet → Stage → Execution BattleScript σ → List (Line σ) → Execution BattleScript σ → Prop
  | held {c : CommandSet} {allowSuspend : Bool} {x : Execution BattleScript σ}
      (hpending : (x.woken allowSuspend).interp.isAsyncPending = true) :
      Runs store c (.update allowSuspend) x [] (x.woken allowSuspend)
  | waits {c : CommandSet} {allowSuspend : Bool} {x : Execution BattleScript σ}
      (hpending : (x.woken allowSuspend).interp.isAsyncPending = false)
      (hwaiting : (x.woken allowSuspend).interp.isWaiting = true) :
      Runs store c (.update allowSuspend) x []
        ((x.woken allowSuspend).modifyInterp fun i => { i with waitFrames := i.waitFrames - 1 })
  | begins {c : CommandSet} {allowSuspend : Bool} {x y : Execution BattleScript σ}
    {log : List (Line σ)} (hpending : (x.woken allowSuspend).interp.isAsyncPending = false)
      (hwaiting : (x.woken allowSuspend).interp.isWaiting = false)
      (hloop : Runs store c (.loop (x.woken allowSuspend).interp.loopLimit 0)
        (x.woken allowSuspend) log y) :
      Runs store c (.update allowSuspend) x log y
  | empty {c : CommandSet} {limit performed : Nat} {x : Execution BattleScript σ}
    (hstack : x.interp.stack = []) :
      Runs store c (.loop limit performed) x [] x
  /-- An open message stops the loop. -/
  | messageOpen {c : CommandSet} {limit performed : Nat} {x : Execution BattleScript σ}
      (hmessage : x.game.message.isActive = true) : Runs store c (.loop limit performed) x [] x
  | pops {c : CommandSet} {limit performed : Nat} {x y : Execution BattleScript σ}
    {log : List (Line σ)} {f : Frame}
      {rest : List Frame} (hmessage : x.game.message.isActive = false)
        (hstack : x.interp.stack = f :: rest)
      (hcomplete : f.isComplete = true)
      (hloop : Runs store c (.loop limit performed)
        (x.modifyInterp ({ · with stack := rest })) log y) :
      Runs store c (.loop limit performed) x log y
  /-- There is more to do, but not in this update. -/
  | spent {c : CommandSet} {limit performed : Nat} {x : Execution BattleScript σ}
    {inst : Instruction}
      (hmessage : x.game.message.isActive = false) (hcurrent : x.interp.current? = some inst)
      (hlimit : limit ≤ performed) : Runs store c (.loop limit performed) x [] x
  | suspends {c : CommandSet} {limit performed : Nat} {x y : Execution BattleScript σ}
    {log : List (Line σ)} {inst : Instruction} (hmessage : x.game.message.isActive = false)
      (hcurrent : x.interp.current? = some inst) (hlimit : performed < limit)
      (hline : Runs store c (.perform inst) x log y) (hsuspended : y.interp.isSuspended = true) :
      Runs store c (.loop limit performed) x log y
  | yields {c : CommandSet} {limit performed : Nat} {x y : Execution BattleScript σ}
    {log : List (Line σ)} {inst : Instruction} (hmessage : x.game.message.isActive = false)
      (hcurrent : x.interp.current? = some inst) (hlimit : performed < limit)
      (hline : Runs store c (.perform inst) x log y) (hsuspended : y.interp.isSuspended = false)
      (hyield : y.interp.yieldRequested = true) :
      Runs store c (.loop limit performed) x log
        (y.modifyInterp ({ · with yieldRequested := false }))
  | goes {c : CommandSet} {limit performed : Nat} {x y z : Execution BattleScript σ}
    {log rest : List (Line σ)} {inst : Instruction} (hmessage : x.game.message.isActive = false)
      (hcurrent : x.interp.current? = some inst) (hlimit : performed < limit)
      (hline : Runs store c (.perform inst) x log y) (hsuspended : y.interp.isSuspended = false)
      (hyield : y.interp.yieldRequested =
        false) (hloop : Runs store c (.loop limit (performed + 1)) y rest z) :
      Runs store c (.loop limit performed) x (log ++ rest) z
  /-- The instruction calls no hook. -/
  | plain {c : CommandSet} {x y : Execution BattleScript σ} {inst : Instruction}
      (hstep : ∀ call, x.step (c.table call) store inst = y) : Runs store c (.perform inst) x
        [.mk inst x y none] y
  /-- It calls a hook out of a hook, or one that nothing is bound to. -/
  | refused {c : CommandSet} {x y : Execution BattleScript σ} {inst : Instruction} {kind : HookKind}
      {args : HookArgs} (hstep : ∀ call,
        x.step (c.table call) store inst = y.fire call store kind args)
      (hrefused : c = .hook ∨ y.table.primed? store kind args = none) :
      Runs store c (.perform inst) x [.mk inst x y none] y
  /-- The hook interpreter, taken out of the state that its instructions see, is updated at once. -/
  | pumps {x y z t : Execution BattleScript σ} {log : List (Line σ)} {inst : Instruction}
    {kind : HookKind} {args : HookArgs} {runner : Interpreter}
      (hstep : ∀ call, x.step (battleCommands call) store inst = y.fire call store kind args)
      (hprimed : y.table.primed? store kind args = some runner)
      (hpump : Runs store .hook (.update true) ⟨runner, { y.table with hookRunner := {} },
        y.world⟩ log z)
      (hafter : t = ⟨y.interp, { z.table with hookRunner := z.interp }, z.world⟩) :
      Runs store .battle (.perform inst) x [.mk inst x t (some log)] t

/-- What the loop does to an interpreter, as far as `I` can tell. -/
structure Interpreter.Upheld (store : ProgramStore) (I : Interpreter → Prop) : Prop where
  resume : ∀ i, I i → I i.resume
  countdown : ∀ i, I i → i.isWaiting = true → I { i with waitFrames := i.waitFrames - 1 }
  pop : ∀ i f rest, I i → i.isSuspended = false → i.stack = f :: rest → I { i with stack := rest }
  move : ∀ i j inst top below, I i → i.isSuspended = false → i.stack = top :: below →
    top.current? = some inst → i.Moves store inst top below j → I j
  yield : ∀ i, I i → I { i with yieldRequested := false }

/-- The interpreter is where the stage begins. -/
def Stage.Fits (i : Interpreter) : Stage → Prop
  | update _ => True
  | loop _ _ => i.isSuspended = false
  | perform inst => i.isSuspended = false ∧ i.current? = some inst

/-- A running interpreter, of which `I` holds, stands at the line and makes a move. -/
structure Line.Stands {σ : Type} (store : ProgramStore) (I : Interpreter → Prop) (line : Line σ) :
    Prop where
  invariant : I line.before.interp
  running : line.before.interp.isSuspended = false
  moves : ∃ top below, line.before.interp.stack = top :: below ∧ top.current? = some line.inst ∧
    line.before.interp.Moves store line.inst top below line.after.interp

theorem Interpreter.exists_of_current? {i : Interpreter} {inst : Instruction}
    (h : i.current? = some inst) :
    ∃ top below, i.stack = top :: below ∧ top.current? = some inst := by
  unfold current? at h
  cases hstack : i.stack with
  | nil => simp [hstack] at h
  | cons top below =>
    rw [hstack] at h
    exact ⟨top, below, rfl, h⟩

namespace Interpreter

theorem isSuspended_eq_false {i : Interpreter} (hpending : i.isAsyncPending = false)
    (hwaiting : i.isWaiting = false) :
    i.isSuspended = false := by
  simp [isSuspended, hpending, hwaiting]

theorem Upheld.woken {σ : Type} {store : ProgramStore} {I : Interpreter → Prop}
    (hI : Upheld store I) (allowSuspend : Bool) {x : Execution BattleScript σ} (hx : I x.interp) :
    I (x.woken allowSuspend).interp := by
  unfold Execution.woken
  split
  · exact hx
  · exact hI.resume _ hx

end Interpreter

namespace Runs

variable {σ : Type} [AssetLoader σ] {store : ProgramStore} {c : CommandSet} {stage : Stage}
  {x y : Execution BattleScript σ} {log : List (Line σ)} {I : Interpreter → Prop}

/-- To its own interpreter an instruction does the same whatever hook it calls. -/
theorem performs {inst : Instruction} (h : Runs store c (.perform inst) x log y) :
    y.interp = (x.step (c.table noHooks) store inst).interp ∧
      ∃ pumped, log = [.mk inst x y pumped] := by
  cases h with
  | plain hstep => exact ⟨by rw [hstep], none, rfl⟩
  | refused hstep _ => exact ⟨by rw [hstep, Execution.fire_interp], none, rfl⟩
  | pumps hstep _ _ hafter =>
    refine ⟨?_, _, rfl⟩
    rw [hafter, CommandSet.table, hstep, Execution.fire_interp]

theorem perform_moves {inst : Instruction} {top : Frame} {below : List Frame}
    (h : Runs store c (.perform inst) x log y) (hstack : x.interp.stack = top :: below)
    (hcurrent : top.current? = some inst) : x.interp.Moves store inst top below y.interp := by
  rw [h.performs.1]
  exact c.step_moves hstack hcurrent

theorem upheld_perform {inst : Instruction} (hI : Interpreter.Upheld store I)
    (h : Runs store c (.perform inst) x log y) (hx : I x.interp)
    (hfits : (Stage.perform inst).Fits x.interp) :
    I y.interp ∧ ∀ line ∈ log, line.Stands store I := by
  obtain ⟨top, below, hstack, hcurrent⟩ := Interpreter.exists_of_current? hfits.2
  have hmoves := h.perform_moves hstack hcurrent
  obtain ⟨-, pumped, rfl⟩ := h.performs
  refine ⟨hI.move _ _ inst top below hx hfits.1 hstack hcurrent hmoves, ?_⟩
  intro line hline
  rw [List.mem_singleton.mp hline]
  exact ⟨hx, hfits.1, top, below, hstack, hcurrent, hmoves⟩

/-- What is upheld holds at every line, and in the end. -/
theorem upheld (hI : Interpreter.Upheld store I) (h : Runs store c stage x log y) (hx : I x.interp)
    (hfits : stage.Fits x.interp) : I y.interp ∧ ∀ line ∈ log, line.Stands store I := by
  induction h with
  | held _ => exact ⟨hI.woken _ hx, nofun⟩
  | waits _ hwaiting => exact ⟨hI.countdown _ (hI.woken _ hx) hwaiting, nofun⟩
  | begins hpending hwaiting _ ih =>
    exact ih (hI.woken _ hx) (Interpreter.isSuspended_eq_false hpending hwaiting)
  | empty _ => exact ⟨hx, nofun⟩
  | messageOpen _ => exact ⟨hx, nofun⟩
  | spent _ _ _ => exact ⟨hx, nofun⟩
  | pops _ hstack _ _ ih => exact ih (hI.pop _ _ _ hx hfits hstack) hfits
  | suspends _ hcurrent _ _ _ ih => exact ih hx ⟨hfits, hcurrent⟩
  | yields _ hcurrent _ _ _ _ ih =>
    obtain ⟨hy, hlog⟩ := ih hx ⟨hfits, hcurrent⟩
    exact ⟨hI.yield _ hy, hlog⟩
  | goes _ hcurrent _ _ hsuspended _ _ ihline ihloop =>
    obtain ⟨hy, hlog⟩ := ihline hx ⟨hfits, hcurrent⟩
    obtain ⟨hz, hrest⟩ := ihloop hy hsuspended
    refine ⟨hz, fun line hline => ?_⟩
    exact (List.mem_append.mp hline).elim (hlog line) (hrest line)
  | plain hstep => exact (Runs.plain hstep).upheld_perform hI hx hfits
  | refused hstep hrefused => exact (Runs.refused hstep hrefused).upheld_perform hI hx hfits
  | pumps hstep hprimed hpump hafter _ =>
    exact (Runs.pumps hstep hprimed hpump hafter).upheld_perform hI hx hfits

end Runs

/-- The hook interpreter was updated for one hook after the other. -/
inductive Pumped {σ : Type} [AssetLoader σ] (store : ProgramStore) (i : Interpreter) :
    List (List (Line σ)) → Interpreter → Prop
  | rest : Pumped store i [] i
  | hook {logs : List (List (Line σ))} {s : BattleScript} {w : World σ} {kind : HookKind}
    {args : HookArgs}
      {runner : Interpreter} {log : List (Line σ)} {z : Execution BattleScript σ}
        (h : Pumped store i logs s.hookRunner)
      (hprimed : s.primed? store kind args = some runner)
      (hpump : Runs store .hook (.update true) ⟨runner, { s with hookRunner := {} }, w⟩ log z) :
      Pumped store i (logs ++ [log]) z.interp

theorem Pumped.trans {σ : Type} [AssetLoader σ] {store : ProgramStore} {i j k : Interpreter}
    {logs logs' : List (List (Line σ))} (h : Pumped store i logs j) (h' : Pumped store j logs' k) :
    Pumped store i (logs ++ logs') k := by
  induction h' with
  | rest =>
    rw [List.append_nil]
    exact h
  | hook _ hprimed hpump ih =>
    rw [← List.append_assoc]
    exact .hook ih hprimed hpump

namespace Runs

variable {σ : Type} [AssetLoader σ] {store : ProgramStore} {c : CommandSet} {stage : Stage}
  {x y : Execution BattleScript σ} {log : List (Line σ)}

/-- Nothing else happens to the hook interpreter. -/
theorem pumped (h : Runs store c stage x log y) :
    Pumped store x.table.hookRunner (log.filterMap Line.pumped) y.table.hookRunner := by
  have kept {c : CommandSet} {x y : Execution BattleScript σ} {inst : Instruction}
      (hstep : x.step (c.table noHooks) store inst = y) : y.table.hookRunner =
        x.table.hookRunner := by
    rw [← hstep]
    exact c.step_hookRunner store inst x
  induction h with
  | held _ =>
    rw [Execution.woken_table]
    exact .rest
  | @waits _ allowSuspend x _ _ =>
    change Pumped store _ _ (x.woken allowSuspend).table.hookRunner
    rw [Execution.woken_table]
    exact .rest
  | begins _ _ _ ih =>
    rw [Execution.woken_table] at ih
    exact ih
  | empty _ => exact .rest
  | messageOpen _ => exact .rest
  | spent _ _ _ => exact .rest
  | pops _ _ _ _ ih => exact ih
  | suspends _ _ _ _ _ ih => exact ih
  | yields _ _ _ _ _ _ ih => exact ih
  | goes _ _ _ _ _ _ _ ihline ihloop =>
    rw [List.filterMap_append]
    exact ihline.trans ihloop
  | plain hstep =>
    rw [kept (hstep noHooks)]
    exact .rest
  | @refused _ _ y _ _ _ hstep _ =>
    have hy : y.table.hookRunner = _ := kept (hstep noHooks)
    rw [hy]
    exact .rest
  | @pumps x y _ _ _ _ _ _ _ hstep hprimed hpump hafter _ =>
    have hy : y.table.hookRunner = x.table.hookRunner := kept (c := .battle) (hstep noHooks)
    rw [hafter, ← hy]
    have hupdated : Pumped store y.table.hookRunner ([] ++ [_]) _ := .hook .rest hprimed hpump
    exact hupdated

/-- What every update of the hook interpreter keeps, the updates of others keep for it. -/
theorem upheld_hooks {J : Interpreter → Prop} {Q : List (Line σ) → Prop}
    (hpump : ∀ kind args (s : BattleScript) (w : World σ) runner log z, J s.hookRunner →
      s.primed? store kind args = some runner →
      Runs store .hook (.update true) ⟨runner, { s with hookRunner := {} }, w⟩ log z →
      J z.interp ∧ Q log)
    (h : Runs store c stage x log y) (hx : J x.table.hookRunner) :
    J y.table.hookRunner ∧ ∀ line ∈ log, ∀ lines ∈ line.pumped, Q lines := by
  have kept {logs : List (List (Line σ))} {j : Interpreter}
    (h : Pumped store x.table.hookRunner logs j) :
      J j ∧ ∀ lines ∈ logs, Q lines := by
    induction h with
    | rest => exact ⟨hx, nofun⟩
    | hook _ hprimed hrun ih =>
      obtain ⟨hz, hlines⟩ := hpump _ _ _ _ _ _ _ ih.1 hprimed hrun
      refine ⟨hz, fun lines hmem => ?_⟩
      rcases List.mem_append.mp hmem with hmem | hmem
      · exact ih.2 lines hmem
      · rw [List.mem_singleton.mp hmem]
        exact hlines
  obtain ⟨hy, hlogs⟩ := kept h.pumped
  refine ⟨hy, fun line hline lines hlines => ?_⟩
  exact hlogs lines (List.mem_filterMap.mpr ⟨line, hline, hlines⟩)

end Runs

end ActiveBattle
