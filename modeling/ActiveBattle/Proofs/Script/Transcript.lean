import ActiveBattle.Proofs.Script.Running

/-!
# Transcripts

What an update performs, computed along with it. The transcript follows the loop of the update, and
where an instruction calls a hook it is the hook's transcript that tells what the hook interpreter
performs. An update runs as its transcript says (`Runs.transcript`).
-/

namespace ActiveBattle

set_option autoImplicit false

/-- Puts the event bound to a hook on the hook interpreter, and leaves it there. -/
def BattleScript.prime {σ : Type} : HookCall σ := fun store kind args s w =>
  match s.primed? store kind args with
  | some runner => (true, { s with hookRunner := runner }, w)
  | none => (false, s, w)

theorem BattleScript.ne_of_primed? {store : ProgramStore} {kind : HookKind} {args : HookArgs}
    {s : BattleScript} {runner : Interpreter} (h : s.primed? store kind args = some runner) :
    runner ≠ s.hookRunner := by
  obtain ⟨id, event, -, rfl⟩ := primed?_eq_some h
  intro hsame
  have hlength := congrArg (fun i : Interpreter => i.stack.length) hsame
  simp only [Interpreter.push, Interpreter.pushEvent, List.length_cons] at hlength
  omega

/-- The hook interpreter at work, taken out of the state that its instructions see. -/
def BattleScript.hooksAtWork {σ : Type} (s : BattleScript) (w : World σ) :
    Execution BattleScript σ :=
  ⟨s.hookRunner, { s with hookRunner := {} }, w⟩

namespace Execution

variable {σ : Type}

/-- The lines of a loop that has a budget of instructions left, each of which makes a line. -/
def linesFrom (line : Instruction → Execution BattleScript σ → Line σ) :
    Nat → Execution BattleScript σ → List (Line σ)
  | budget, x =>
    if x.game.message.isActive then []
    else
      let x := x.modifyInterp (·.dropComplete)
      match x.interp.current?, budget with
      | some inst, budget + 1 =>
        let l := line inst x
        if l.after.interp.isSuspended || l.after.interp.yieldRequested then [l]
        else l :: linesFrom line budget l.after
      | _, _ => []

def lines (line : Instruction → Execution BattleScript σ → Line σ) (allowSuspend : Bool)
    (x : Execution BattleScript σ) : List (Line σ) :=
  let x := x.woken allowSuspend
  if x.interp.isAsyncPending then []
  else if x.interp.isWaiting then []
  else x.linesFrom line x.interp.loopLimit

end Execution

namespace CommandSet

variable {σ : Type} [AssetLoader σ]

/-- The line of an instruction that reaches no hook. -/
def plainLine (c : CommandSet) (store : ProgramStore) (inst : Instruction)
    (x : Execution BattleScript σ) : Line σ :=
  .mk inst x (x.step (c.table noHooks) store inst) none

def line (store : ProgramStore) : CommandSet → Instruction → Execution BattleScript σ → Line σ
  | base => plainLine base store
  | hook => plainLine hook store
  | battle => fun inst x =>
    let primed := x.step (battle.table BattleScript.prime) store inst
    .mk inst x (x.step battle.commands store inst)
      (if primed.table.hookRunner = x.table.hookRunner then none
      else some (Execution.lines (plainLine hook store) true
        (primed.table.hooksAtWork primed.world)))

/-- What an update performs. -/
def transcript (c : CommandSet) (store : ProgramStore) (allowSuspend : Bool)
    (x : Execution BattleScript σ) :
    List (Line σ) :=
  Execution.lines (c.line store) allowSuspend x

end CommandSet

namespace Interpreter

theorem dropComplete_of_dropWhile_eq {i : Interpreter}
    (h : i.stack.dropWhile (·.isComplete) = i.stack) :
    i.dropComplete = i := by
  unfold dropComplete
  rw [h]

theorem dropComplete_of_current? {i : Interpreter} {inst : Instruction}
    (h : i.current? = some inst) :
    i.dropComplete = i := by
  obtain ⟨top, below, hstack, hcurrent⟩ := exists_of_current? h
  have hopen : top.isComplete = false := by simpa [Frame.isComplete] using Frame.cursor_lt hcurrent
  apply dropComplete_of_dropWhile_eq
  rw [hstack, List.dropWhile_cons_of_neg (by simp [hopen])]

end Interpreter

namespace Execution

variable {σ : Type} {table : CommandTable BattleScript σ} {store : ProgramStore}
  {x : Execution BattleScript σ} {line : Instruction → Execution BattleScript σ → Line σ}

theorem dropComplete_of_empty (hstack : x.interp.stack = []) :
    x.modifyInterp (·.dropComplete) = x := by
  dsimp only [modifyInterp]
  rw [Interpreter.dropComplete_of_dropWhile_eq (by rw [hstack, List.dropWhile_nil])]

theorem dropComplete_of_current? {inst : Instruction} (hcurrent : x.interp.current? = some inst) :
    x.modifyInterp (·.dropComplete) = x := by
  dsimp only [modifyInterp]
  rw [Interpreter.dropComplete_of_current? hcurrent]

theorem dropComplete_pop {f : Frame} {rest : List Frame} (hstack : x.interp.stack = f :: rest)
    (hcomplete : f.isComplete = true) : x.modifyInterp (·.dropComplete) =
      (x.modifyInterp ({ · with stack := rest })).modifyInterp (·.dropComplete) := by
  simp [modifyInterp, Interpreter.dropComplete, hstack, hcomplete]

theorem current?_of_empty (hstack : x.interp.stack = []) : x.interp.current? = none := by
  simp [Interpreter.current?, hstack]

theorem linesFrom_of_current? {inst : Instruction} (hmessage : x.game.message.isActive = false)
    (hcurrent : x.interp.current? = some inst) (budget : Nat) : x.linesFrom line budget =
      match budget with
      | 0 => []
      | budget + 1 =>
        let l := line inst x
        if l.after.interp.isSuspended || l.after.interp.yieldRequested then [l]
        else l :: l.after.linesFrom line budget := by
  rw [linesFrom, if_neg (by simp [hmessage])]
  simp only [dropComplete_of_current? hcurrent, hcurrent]
  cases budget <;> rfl

theorem linesFrom_of_empty (hstack : x.interp.stack = []) (budget : Nat) :
    x.linesFrom line budget = [] := by
  rw [linesFrom]
  split
  · rfl
  · simp only [dropComplete_of_empty hstack, current?_of_empty hstack]

theorem linesFrom_pop {f : Frame} {rest : List Frame} (hstack : x.interp.stack = f :: rest)
    (hmessage : x.game.message.isActive = false) (hcomplete : f.isComplete = true) (budget : Nat) :
    x.linesFrom line budget =
      (x.modifyInterp ({ · with stack := rest })).linesFrom line budget := by
  have hquiet : (x.modifyInterp ({ · with stack := rest })).game.message.isActive = false :=
    hmessage
  rw [linesFrom, linesFrom, if_neg (by simp [hmessage]), if_neg (by simp [hquiet]),
    dropComplete_pop hstack hcomplete]

variable [AssetLoader σ]

theorem run_of_current? {inst : Instruction} (hmessage : x.game.message.isActive = false)
    (hcurrent : x.interp.current? = some inst) (budget : Nat) : x.run table store budget =
      match budget with
      | 0 => x
      | budget + 1 =>
        let y := x.step table store inst
        if y.interp.isSuspended then y
        else if y.interp.yieldRequested then y.modifyInterp ({ · with yieldRequested := false })
        else y.run table store budget := by
  rw [run, if_neg (by simp [hmessage])]
  simp only [dropComplete_of_current? hcurrent, hcurrent]
  cases budget <;> rfl

theorem run_of_empty (hstack : x.interp.stack = []) (budget : Nat) :
    x.run table store budget = x := by
  rw [run]
  split
  · rfl
  · simp only [dropComplete_of_empty hstack, current?_of_empty hstack]

theorem run_pop {f : Frame} {rest : List Frame} (hstack : x.interp.stack = f :: rest)
    (hmessage : x.game.message.isActive = false) (hcomplete : f.isComplete = true) (budget : Nat) :
    x.run table store budget =
      (x.modifyInterp ({ · with stack := rest })).run table store budget := by
  have hquiet : (x.modifyInterp ({ · with stack := rest })).game.message.isActive = false :=
    hmessage
  rw [run, run, if_neg (by simp [hmessage]), if_neg (by simp [hquiet]),
    dropComplete_pop hstack hcomplete]

theorem update_eq_woken {δ : Type} (table : CommandTable δ σ) (allowSuspend : Bool)
    (x : Execution δ σ) :
    x.update table store allowSuspend =
      if (x.woken allowSuspend).interp.isAsyncPending then x.woken allowSuspend
      else if (x.woken allowSuspend).interp.isWaiting then
        (x.woken allowSuspend).modifyInterp fun i => { i with waitFrames := i.waitFrames - 1 }
      else (x.woken allowSuspend).run table store (x.woken allowSuspend).interp.loopLimit := rfl

end Execution

namespace Runs

variable {σ : Type} [AssetLoader σ] {store : ProgramStore} {c : CommandSet} {n : Nat}

/-- Finished frames are popped one by one, up to an instruction. -/
theorem loop_of {line : Instruction → Execution BattleScript σ → Line σ} {budget : Nat}
    (hline : ∀ inst (x : Execution BattleScript σ), x.game.message.isActive = false →
      x.interp.current? = some inst →
    Runs store c (.loop (n + budget) n) x (x.linesFrom line budget) (x.run c.commands store budget))
    (x : Execution BattleScript σ) :
    Runs store c (.loop (n + budget) n)
      x (x.linesFrom line budget) (x.run c.commands store budget) := by
  generalize hstack : x.interp.stack = stack
  induction stack generalizing x with
  | nil =>
    rw [Execution.run_of_empty hstack, Execution.linesFrom_of_empty hstack]
    exact .empty hstack
  | cons f rest ih =>
    cases hmessage : x.game.message.isActive with
    | true =>
      rw [Execution.run, if_pos hmessage, Execution.linesFrom, if_pos hmessage]
      exact .messageOpen hmessage
    | false =>
      cases hcomplete : f.isComplete with
      | true =>
        rw [Execution.run_pop hstack hmessage hcomplete,
          Execution.linesFrom_pop hstack hmessage hcomplete]
        exact .pops hmessage hstack hcomplete (ih (x.modifyInterp ({ · with stack := rest })) rfl)
      | false =>
        have hopen : f.cursor < f.program.length := by simpa [Frame.isComplete] using hcomplete
        refine hline f.program[f.cursor] x hmessage ?_
        simp [Interpreter.current?, hstack, Frame.current?, hopen]

theorem loop_lines {line : Instruction → Execution BattleScript σ → Line σ}
    (hline : ∀ inst (x : Execution BattleScript σ),
      (line inst x).after = x.step c.commands store inst ∧
      Runs store c (.perform inst) x [line inst x] (x.step c.commands store inst))
    (budget n : Nat) (x : Execution BattleScript σ) :
    Runs store c (.loop (n + budget) n)
      x (x.linesFrom line budget) (x.run c.commands store budget) := by
  induction budget generalizing n x with
  | zero =>
    refine loop_of (fun inst x hmessage hcurrent => ?_) x
    rw [Execution.run_of_current? hmessage hcurrent,
      Execution.linesFrom_of_current? hmessage hcurrent]
    exact .spent hmessage hcurrent (Nat.le_refl n)
  | succ budget ih =>
    refine loop_of (fun inst x hmessage hcurrent => ?_) x
    obtain ⟨hafter, hrun⟩ := hline inst x
    have hlimit : n < n + (budget + 1) := by omega
    rw [Execution.run_of_current? hmessage hcurrent,
      Execution.linesFrom_of_current? hmessage hcurrent]
    dsimp only
    rw [hafter]
    cases hsuspended : (x.step c.commands store inst).interp.isSuspended with
    | true => exact .suspends hmessage hcurrent hlimit hrun hsuspended
    | false =>
      cases hyield : (x.step c.commands store inst).interp.yieldRequested with
      | true => exact .yields hmessage hcurrent hlimit hrun hsuspended hyield
      | false =>
        have hrest := ih (n + 1) (x.step c.commands store inst)
        rw [Nat.add_right_comm n 1 budget] at hrest
        exact .goes hmessage hcurrent hlimit hrun hsuspended hyield hrest

theorem update_lines {line : Instruction → Execution BattleScript σ → Line σ}
    (hline : ∀ inst (x : Execution BattleScript σ),
      (line inst x).after = x.step c.commands store inst ∧
      Runs store c (.perform inst) x [line inst x] (x.step c.commands store inst))
    (allowSuspend : Bool) (x : Execution BattleScript σ) :
    Runs store c (.update allowSuspend)
      x (x.lines line allowSuspend) (x.update c.commands store allowSuspend) := by
  rw [Execution.update_eq_woken]
  unfold Execution.lines
  by_cases hpending : (x.woken allowSuspend).interp.isAsyncPending = true
  · rw [if_pos hpending, if_pos hpending]
    exact .held hpending
  · have hfree := Bool.eq_false_iff.mpr hpending
    rw [if_neg hpending, if_neg hpending]
    by_cases hwaiting : (x.woken allowSuspend).interp.isWaiting = true
    · rw [if_pos hwaiting, if_pos hwaiting]
      exact .waits hfree hwaiting
    · have hloop :=
        loop_lines hline (x.woken allowSuspend).interp.loopLimit 0 (x.woken allowSuspend)
      rw [Nat.zero_add] at hloop
      rw [if_neg hwaiting, if_neg hwaiting]
      exact .begins hfree (Bool.eq_false_iff.mpr hwaiting) hloop

theorem plainLine (hc : c ≠ .battle) (inst : Instruction) (x : Execution BattleScript σ) :
    Runs store c (.perform inst) x [c.plainLine store inst x] (x.step c.commands store inst) := by
  have hcommands : (c.commands : CommandTable BattleScript σ) = c.table noHooks := by
    cases c with
    | base => rfl
    | hook => rfl
    | battle => contradiction
  rw [hcommands]
  rcases c.step_calls store inst x with hplain | ⟨hbase, kind, args, hcalls⟩
  · refine .plain fun call => ?_
    rw [hplain call]
  · have hhook : c = .hook := by
      cases c <;> first | rfl | contradiction
    exact .refused hcalls (.inl hhook)

theorem hook_lines (allowSuspend : Bool) (x : Execution BattleScript σ) :
    Runs store .hook (.update allowSuspend) x
      (x.lines (CommandSet.hook.plainLine store) allowSuspend)
      (x.update (battleCommands noHooks) store allowSuspend) :=
  update_lines (c := .hook) (fun inst x => ⟨rfl, plainLine (c := .hook) nofun inst x⟩)
    allowSuspend x

theorem battleLine (inst : Instruction) (x : Execution BattleScript σ) :
    Runs store .battle (.perform inst) x [CommandSet.battle.line store inst x]
      (x.step CommandSet.battle.commands store inst) := by
  have hkept := CommandSet.battle.step_hookRunner store inst x
  unfold CommandSet.line
  dsimp only
  rcases CommandSet.battle.step_calls store inst x with hplain | ⟨-, kind, args, hcalls⟩
  · rw [CommandSet.commands, hplain BattleScript.prime, hplain CommandSet.battle.call, if_pos hkept]
    refine .plain fun call => ?_
    rw [hplain call]
  · rw [CommandSet.commands, hcalls BattleScript.prime, hcalls CommandSet.battle.call]
    generalize x.step (CommandSet.battle.table noHooks) store inst = y at hcalls hkept
    rw [← hkept]
    unfold Execution.fire CommandSet.call BattleScript.prime
    dsimp only
    rw [BattleScript.trigger_eq]
    cases hprimed : y.table.primed? store kind args with
    | none =>
      dsimp only
      rw [if_pos rfl]
      exact .refused hcalls (.inr hprimed)
    | some runner =>
      dsimp only
      rw [if_neg (BattleScript.ne_of_primed? hprimed)]
      exact .pumps hcalls hprimed (hook_lines true _) rfl

/-- Every update runs as its transcript says. -/
theorem transcript (c : CommandSet) (store : ProgramStore) (allowSuspend : Bool)
    (x : Execution BattleScript σ) :
    Runs store c (.update allowSuspend) x (c.transcript store allowSuspend x)
      (x.update c.commands store allowSuspend) := by
  refine update_lines (fun inst x => ?_) allowSuspend x
  cases c with
  | base => exact ⟨rfl, plainLine (c := .base) nofun inst x⟩
  | hook => exact ⟨rfl, plainLine (c := .hook) nofun inst x⟩
  | battle => exact ⟨rfl, battleLine inst x⟩

end Runs

end ActiveBattle
