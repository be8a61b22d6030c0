import ActiveBattle.Proofs.Script.Returning

/-!
# How long a script waits

A wait is the last thing an update performs, and it holds its interpreter for as many updates as the
rate of the interpreter makes of it (`Runs.wait_last`, `Runs.rests`). But tenths times rate may
wrap. A wait that comes out negative holds nobody and asks for no frame (`Runs.last_wait`), and the
counter stays below zero for as long as nothing else sets it. No other instruction brings it there
(`Runs.wait_nonneg`).
-/

namespace ActiveBattle

set_option autoImplicit false

/-- A wait whose length comes out negative at the rate. -/
def Instruction.IsNegativeWait (rate : Int) (inst : Instruction) : Prop :=
  inst.opcode = .wait ∧ waitLength rate (inst.param 0) < 0

/-- That takes a product that is no operand. -/
theorem Instruction.IsNegativeWait.overflows {rate : Int} {inst : Instruction}
    (h : inst.IsNegativeWait rate) (hrate : 0 ≤ rate) : operandMax < max (inst.param 0) 0 * rate :=
  Int.not_le.mp fun hfits => Int.not_lt.mpr (waitLength_nonneg hrate hfits) h.2

/-- The interpreter has a script to go on with after so many updates. -/
structure Interpreter.Rests (i : Interpreter) (n : Int) : Prop where
  async : i.asyncOp = .none
  wait : i.waitFrames = n
  stack : i.stack ≠ []

namespace Interpreter

variable {store : ProgramStore} {inst : Instruction} {top : Frame} {below : List Frame}
  {i j : Interpreter}

theorem asyncOp_of_isSuspended_eq_false (h : i.isSuspended = false) : i.asyncOp = .none := by
  obtain ⟨hasync, -⟩ := Bool.or_eq_false_iff.mp h
  simpa [isAsyncPending] using hasync

theorem waitFrames_of_isSuspended_eq_false (h : i.isSuspended = false) : i.waitFrames ≤ 0 := by
  obtain ⟨-, hwait⟩ := Bool.or_eq_false_iff.mp h
  exact Int.not_lt.mp (of_decide_eq_false hwait)

/-- A wait sets the counter to its length. It holds the interpreter, or asks for the next frame if
it has no length. -/
theorem Moves.rests (h : i.Moves store inst top below j) (hwait : inst.opcode = .wait)
    (hi : i.isSuspended = false) :
    j.Rests (waitLength i.framesPerSecond (inst.param 0)) ∧
      (0 ≤ waitLength i.framesPerSecond (inst.param 0) → j.isSuspended = false →
        j.yieldRequested = true) := by
  have hasync := asyncOp_of_isSuspended_eq_false hi
  cases h with
  | waits _ =>
    refine ⟨⟨hasync, rfl, List.cons_ne_nil _ _⟩, fun hlength hfree => ?_⟩
    have hended : waitLength i.framesPerSecond (inst.param 0) ≤ 0 :=
      waitFrames_of_isSuspended_eq_false hfree
    have hzero : waitLength i.framesPerSecond (inst.param 0) = 0 := Int.le_antisymm hended hlength
    simp [waitTenths, hzero]
  | goes h | calls h | shows h | loads h => contradiction
  | terminates hends => simp [hwait] at hends

/-- Nothing but a wait of negative length brings the counter below zero. -/
theorem Moves.wait_nonneg (h : i.Moves store inst top below j) (hi : 0 ≤ i.waitFrames)
    (hinst : ¬inst.IsNegativeWait i.framesPerSecond) : 0 ≤ j.waitFrames := by
  cases h with
  | waits hwait => exact Int.not_lt.mp fun hneg => hinst ⟨hwait, hneg⟩
  | shows _ => exact Int.le_max_right _ _
  | _ => exact hi

end Interpreter

namespace Runs

variable {σ : Type} [AssetLoader σ] {store : ProgramStore} {c : CommandSet} {stage : Stage}
  {x y : Execution BattleScript σ} {log : List (Line σ)}

/-- The rate stays what it is. -/
theorem framesPerSecond_eq (h : Runs store c stage x log y) (hfits : stage.Fits x.interp) :
    y.interp.framesPerSecond = x.interp.framesPerSecond :=
  (h.upheld (Interpreter.settings_upheld store _ _) ⟨rfl, rfl⟩ hfits).1.2

theorem perform_rests {inst : Instruction} (h : Runs store c (.perform inst) x log y)
    (hfits : (Stage.perform inst).Fits x.interp) (hwait : inst.opcode = .wait) :
    y.interp.Rests (waitLength x.interp.framesPerSecond (inst.param 0)) ∧
      (0 ≤ waitLength x.interp.framesPerSecond (inst.param 0) →
        y.interp.isSuspended = false → y.interp.yieldRequested = true) := by
  obtain ⟨top, below, hstack, hcurrent⟩ := Interpreter.exists_of_current? hfits.2
  exact (h.perform_moves hstack hcurrent).rests hwait hfits.1

/-- A wait is the last thing that an update performs, unless its length is negative. -/
theorem wait_last (h : Runs store c stage x log y) (hfits : stage.Fits x.interp)
    {before after : List (Line σ)} {line : Line σ} (hlog : log = before ++ line :: after)
    (hwait : line.inst.opcode = .wait)
    (hlength : 0 ≤ waitLength x.interp.framesPerSecond (line.inst.param 0)) :
    after = [] ∧ y.interp.Rests (waitLength x.interp.framesPerSecond (line.inst.param 0)) := by
  have performed {c : CommandSet} {x y : Execution BattleScript σ} {inst : Instruction}
    {log : List (Line σ)}
      (h : Runs store c (.perform inst) x log y) (hfits : (Stage.perform inst).Fits x.interp)
      {before : List (Line σ)} (hlog : log = before ++ line :: after) :
      after = [] ∧ y.interp.Rests (waitLength x.interp.framesPerSecond (line.inst.param 0)) := by
    obtain ⟨-, pumped, rfl⟩ := h.performs
    cases before with
    | nil =>
      obtain ⟨rfl, rfl⟩ := List.cons.inj hlog
      exact ⟨rfl, (h.perform_rests hfits hwait).1⟩
    | cons first before => simp at hlog
  induction h generalizing before with
  | held _ => simp at hlog
  | waits _ _ => simp at hlog
  | empty _ => simp at hlog
  | messageOpen _ => simp at hlog
  | spent _ _ _ => simp at hlog
  | begins hpending hwaiting _ ih =>
    rw [Execution.woken_framesPerSecond] at ih
    exact ih (Interpreter.isSuspended_eq_false hpending hwaiting) hlog hlength
  | pops _ _ _ _ ih => exact ih hfits hlog hlength
  | suspends _ hcurrent _ _ _ ih => exact ih ⟨hfits, hcurrent⟩ hlog hlength
  | yields _ hcurrent _ _ _ _ ih =>
    obtain ⟨hlast, hrests⟩ := ih ⟨hfits, hcurrent⟩ hlog hlength
    exact ⟨hlast, hrests.async, hrests.wait, hrests.stack⟩
  | @goes c limit n x y z _ rest inst _ hcurrent _ hline hsuspended hyield _ _ ihloop =>
    rw [hline.framesPerSecond_eq ⟨hfits, hcurrent⟩] at ihloop
    obtain ⟨-, pumped, rfl⟩ := hline.performs
    cases before with
    | nil =>
      -- The interpreter goes on, so it does not wait.
      obtain ⟨rfl, -⟩ := List.cons.inj hlog
      have hyields := (hline.perform_rests ⟨hfits, hcurrent⟩ hwait).2 hlength hsuspended
      exact absurd (hyield.symm.trans hyields) nofun
    | cons first before => exact ihloop hsuspended (List.cons.inj hlog).2 hlength
  | plain hstep => exact performed (.plain hstep) hfits hlog
  | refused hstep hrefused => exact performed (.refused hstep hrefused) hfits hlog
  | pumps hstep hprimed hpump hafter _ =>
    exact performed (.pumps hstep hprimed hpump hafter) hfits hlog

/-- A loop that performs nothing suspends nobody. -/
theorem loop_nil {limit performed : Nat} (h : Runs store c (.loop limit performed) x [] y) :
    y.interp.asyncOp = x.interp.asyncOp ∧ y.interp.waitFrames = x.interp.waitFrames := by
  generalize hstage : Stage.loop limit performed = stage at h
  generalize hlog : ([] : List (Line σ)) = log at h
  induction h with
  | empty _ | messageOpen _ | spent _ _ _ => exact ⟨rfl, rfl⟩
  | pops _ _ _ _ ih => exact ih hstage hlog
  | suspends _ _ _ hline _ _ | yields _ _ _ hline _ _ _ | goes _ _ _ hline _ _ _ _ _ =>
    obtain ⟨-, pumped, rfl⟩ := hline.performs
    simp at hlog
  | _ => contradiction

/-- If a wait comes last, its length stands on the counter. Where it is negative, nothing holds the
interpreter. -/
theorem last_wait (h : Runs store c stage x log y) (hfits : stage.Fits x.interp)
    {before : List (Line σ)} {line : Line σ} (hlog : log = before ++ [line])
    (hwait : line.inst.opcode = .wait) :
    y.interp.asyncOp = .none ∧ y.interp.waitFrames =
      waitLength x.interp.framesPerSecond (line.inst.param 0) := by
  have performed {c : CommandSet} {x y : Execution BattleScript σ} {inst : Instruction}
    {log : List (Line σ)}
      (h : Runs store c (.perform inst) x log y) (hfits : (Stage.perform inst).Fits x.interp)
        {before : List (Line σ)}
      (hlog : log = before ++ [line]) :
      y.interp.asyncOp = .none ∧ y.interp.waitFrames =
        waitLength x.interp.framesPerSecond (line.inst.param 0) := by
    obtain ⟨-, pumped, rfl⟩ := h.performs
    have hsplit : [] ++ [Line.mk inst x y pumped] = before ++ [line] := hlog
    obtain rfl := List.singleton_inj.mp (List.append_inj' hsplit rfl).2
    have hrests := (h.perform_rests hfits hwait).1
    exact ⟨hrests.async, hrests.wait⟩
  induction h generalizing before with
  | held _ | waits _ _ | empty _ | messageOpen _ | spent _ _ _ => simp at hlog
  | begins hpending hwaiting _ ih =>
    rw [Execution.woken_framesPerSecond] at ih
    exact ih (Interpreter.isSuspended_eq_false hpending hwaiting) hlog
  | pops _ _ _ _ ih => exact ih hfits hlog
  | suspends _ hcurrent _ _ _ ih => exact ih ⟨hfits, hcurrent⟩ hlog
  | yields _ hcurrent _ _ _ _ ih => exact ih ⟨hfits, hcurrent⟩ hlog
  | @goes c limit n x y z _ rest inst _ hcurrent _ hline hsuspended _ hloop _ ihloop =>
    rw [hline.framesPerSecond_eq ⟨hfits, hcurrent⟩] at ihloop
    rcases List.eq_nil_or_concat rest with rfl | ⟨more, last, rfl⟩
    · obtain ⟨hasync, hcounter⟩ := hloop.loop_nil
      rw [List.append_nil] at hlog
      obtain ⟨hnone, hlength⟩ := performed hline ⟨hfits, hcurrent⟩ hlog
      exact ⟨hasync.trans hnone, hcounter.trans hlength⟩
    · rw [List.concat_eq_append, ← List.append_assoc] at hlog
      obtain ⟨-, hlast⟩ := List.append_inj' hlog rfl
      obtain rfl := List.singleton_inj.mp hlast
      exact ihloop hsuspended (List.concat_eq_append ..)
  | plain hstep => exact performed (.plain hstep) hfits hlog
  | refused hstep hrefused => exact performed (.refused hstep hrefused) hfits hlog
  | pumps hstep hprimed hpump hafter _ =>
    exact performed (.pumps hstep hprimed hpump hafter) hfits hlog

/-- An update counts down a wait, and does nothing else. -/
theorem rests {n : Int} (h : Runs store c (.update true) x log y) (hx : x.interp.Rests n)
    (hn : 0 < n) :
    log = [] ∧ y.interp.Rests (n - 1) := by
  have hwoken : x.woken true = x := if_pos rfl
  have hidle : x.interp.isAsyncPending = false := by simp [Interpreter.isAsyncPending, hx.async]
  have hwaits : x.interp.isWaiting = true := by simpa [Interpreter.isWaiting, hx.wait] using hn
  cases h with
  | held hpending =>
    rw [hwoken, hidle] at hpending
    contradiction
  | waits _ _ =>
    rw [hwoken]
    refine ⟨rfl, hx.async, ?_, hx.stack⟩
    change x.interp.waitFrames - 1 = n - 1
    rw [hx.wait]
  | begins _ hwaiting _ =>
    rw [hwoken, hwaits] at hwaiting
    contradiction

/-- The counter falls below zero by waits of negative length alone. -/
theorem wait_nonneg (h : Runs store c stage x log y) (hfits : stage.Fits x.interp)
    (hx : 0 ≤ x.interp.waitFrames)
    (hlog : ∀ line ∈ log, ¬line.inst.IsNegativeWait x.interp.framesPerSecond) :
    0 ≤ y.interp.waitFrames := by
  have hresumed {allowSuspend : Bool}
    {x : Execution BattleScript σ} (hx : 0 ≤ x.interp.waitFrames) :
      0 ≤ (x.woken allowSuspend).interp.waitFrames := by
    cases allowSuspend with
    | true => exact hx
    | false => exact Int.le_refl 0
  have performed {c : CommandSet} {x y : Execution BattleScript σ} {inst : Instruction}
    {log : List (Line σ)}
      (h : Runs store c (.perform inst) x log y) (hfits : (Stage.perform inst).Fits x.interp)
      (hx : 0 ≤ x.interp.waitFrames) (hlog : ∀ line ∈ log,
        ¬line.inst.IsNegativeWait x.interp.framesPerSecond) :
      0 ≤ y.interp.waitFrames := by
    obtain ⟨top, below, hstack, hcurrent⟩ := Interpreter.exists_of_current? hfits.2
    have hmoves := h.perform_moves hstack hcurrent
    obtain ⟨-, pumped, rfl⟩ := h.performs
    exact hmoves.wait_nonneg hx (hlog _ List.mem_cons_self)
  induction h with
  | held _ => exact hresumed hx
  | waits _ hwaiting => exact Int.sub_nonneg.mpr (of_decide_eq_true hwaiting)
  | begins hpending hwaiting _ ih =>
    rw [Execution.woken_framesPerSecond] at ih
    exact ih (Interpreter.isSuspended_eq_false hpending hwaiting) (hresumed hx) hlog
  | empty _ | messageOpen _ | spent _ _ _ => exact hx
  | pops _ _ _ _ ih => exact ih hfits hx hlog
  | suspends _ hcurrent _ _ _ ih => exact ih ⟨hfits, hcurrent⟩ hx hlog
  | yields _ hcurrent _ _ _ _ ih => exact ih ⟨hfits, hcurrent⟩ hx hlog
  | goes _ hcurrent _ hline hsuspended _ _ ihline ihloop =>
    rw [hline.framesPerSecond_eq ⟨hfits, hcurrent⟩] at ihloop
    obtain ⟨hfirst, hrest⟩ := List.forall_mem_append.mp hlog
    exact ihloop hsuspended (ihline ⟨hfits, hcurrent⟩ hx hfirst) hrest
  | plain hstep => exact performed (.plain hstep) hfits hx hlog
  | refused hstep hrefused => exact performed (.refused hstep hrefused) hfits hx hlog
  | pumps hstep hprimed hpump hafter _ =>
    exact performed (.pumps hstep hprimed hpump hafter) hfits hx hlog

end Runs

end ActiveBattle
