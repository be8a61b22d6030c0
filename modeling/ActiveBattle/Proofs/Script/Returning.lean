import ActiveBattle.Proofs.Script.Transcript

/-!
# Updates return

Programs can loop and call themselves without end, and hooks can be bound to events that reach
hooks. Every update still runs to its end (`Execution.update_returns`): the loop limit bounds what
it performs, finished frames are popped but once, and no hook is called in a hook.
-/

namespace ActiveBattle

set_option autoImplicit false

theorem Interpreter.settings_upheld (store : ProgramStore) (limit : Nat) (rate : Int) :
    Interpreter.Upheld store fun i => i.loopLimit = limit ∧ i.framesPerSecond = rate where
  resume _ h := h
  countdown _ h _ := h
  pop _ _ _ h _ _ := h
  move _ _ _ _ _ h _ _ _ hmoves := by cases hmoves <;> exact h
  yield _ h := h

namespace Stage

variable {σ : Type} [AssetLoader σ]

/-- Where a stage ends. -/
def result (store : ProgramStore) (c : CommandSet) (x : Execution BattleScript σ) :
    Stage → Execution BattleScript σ
  | update allowSuspend => x.update c.commands store allowSuspend
  | loop limit performed => x.run c.commands store (limit - performed)
  | perform inst => x.step c.commands store inst

/-- How many instructions a stage can take. -/
def bound (i : Interpreter) : Stage → Nat
  | update _ => i.loopLimit
  | loop limit performed => limit - performed
  | perform _ => 1

end Stage

namespace Runs

variable {σ : Type} [AssetLoader σ] {store : ProgramStore} {c : CommandSet} {stage : Stage}
  {x y : Execution BattleScript σ} {log : List (Line σ)}

/-- There is only one way to run, and it is short. -/
theorem eq_result (h : Runs store c stage x log y) :
    y = stage.result store c x ∧ log.length ≤ stage.bound x.interp := by
  induction h with
  | held hpending =>
    refine ⟨?_, Nat.zero_le _⟩
    rw [Stage.result, Execution.update_eq_woken, if_pos hpending]
  | waits hpending hwaiting =>
    refine ⟨?_, Nat.zero_le _⟩
    rw [Stage.result, Execution.update_eq_woken, if_neg (by simp [hpending]), if_pos hwaiting]
  | begins hpending hwaiting _ ih =>
    obtain ⟨hresult, hbound⟩ := ih
    rw [Execution.woken_loopLimit] at hbound
    refine ⟨?_, hbound⟩
    rw [Stage.result, Execution.update_eq_woken, if_neg (by simp [hpending]),
      if_neg (by simp [hwaiting])]
    exact hresult
  | empty hstack => exact ⟨(Execution.run_of_empty hstack _).symm, Nat.zero_le _⟩
  | messageOpen hmessage =>
    refine ⟨?_, Nat.zero_le _⟩
    rw [Stage.result, Execution.run, if_pos hmessage]
  | pops hmessage hstack hcomplete _ ih =>
    refine ⟨?_, ih.2⟩
    rw [ih.1]
    exact (Execution.run_pop hstack hmessage hcomplete _).symm
  | spent hmessage hcurrent hlimit =>
    refine ⟨?_, Nat.zero_le _⟩
    rw [Stage.result, Execution.run_of_current? hmessage hcurrent, Nat.sub_eq_zero_of_le hlimit]
  | @suspends _ limit performed _ _ _ _ hmessage hcurrent hlimit _ hsuspended ih =>
    obtain ⟨left, hleft⟩ : ∃ left, limit - performed = left + 1 := ⟨limit - performed - 1, by omega⟩
    obtain ⟨rfl, hbound⟩ := ih
    refine ⟨?_, Nat.le_trans hbound (Nat.sub_pos_of_lt hlimit)⟩
    rw [Stage.result, Execution.run_of_current? hmessage hcurrent, hleft]
    exact (if_pos hsuspended).symm
  | @yields _ limit performed _ _ _ _ hmessage hcurrent hlimit _ hsuspended hyield ih =>
    obtain ⟨left, hleft⟩ : ∃ left, limit - performed = left + 1 := ⟨limit - performed - 1, by omega⟩
    obtain ⟨rfl, hbound⟩ := ih
    refine ⟨?_, Nat.le_trans hbound (Nat.sub_pos_of_lt hlimit)⟩
    rw [Stage.result, Execution.run_of_current? hmessage hcurrent, hleft]
    exact ((if_neg (Bool.eq_false_iff.mp hsuspended)).trans (if_pos hyield)).symm
  | @goes _ limit performed _ _ _ _ _
      _ hmessage hcurrent hlimit _ hsuspended hyield _ ihline ihloop =>
    have hleft : limit - performed = limit - (performed + 1) + 1 := by omega
    obtain ⟨rfl, hbound⟩ := ihline
    obtain ⟨rfl, hrest⟩ := ihloop
    simp only [Stage.bound, List.length_append] at hbound hrest ⊢
    refine ⟨?_, by omega⟩
    rw [Stage.result, Stage.result, Execution.run_of_current? hmessage hcurrent, hleft]
    exact ((if_neg (Bool.eq_false_iff.mp hsuspended)).trans
      (if_neg (Bool.eq_false_iff.mp hyield))).symm
  | plain hstep => exact ⟨(hstep _).symm, Nat.le_refl 1⟩
  | @refused c _ y _ kind args hstep hrefused =>
    refine ⟨?_, Nat.le_refl 1⟩
    have hfired : y.fire c.call store kind args = y := by
      unfold Execution.fire
      cases c with
      | base => rfl
      | hook => rfl
      | battle =>
        rcases hrefused with hhook | hnone
        · contradiction
        · rw [CommandSet.call, BattleScript.trigger_eq, hnone]
    rw [Stage.result, CommandSet.commands, hstep, hfired]
  | pumps hstep hprimed _ hafter ih =>
    obtain ⟨rfl, -⟩ := ih
    refine ⟨?_, Nat.le_refl 1⟩
    have hcalled := hstep BattleScript.trigger
    unfold Execution.fire at hcalled
    rw [BattleScript.trigger_eq, hprimed] at hcalled
    exact hafter.trans hcalled.symm

/-- No hook is called in a hook, nor by the base commands. -/
theorem pumped_eq_none (h : Runs store c stage x log y) (hc : c ≠ .battle) :
    ∀ line ∈ log, line.pumped = none := by
  induction h with
  | held _ => simp
  | waits _ _ => simp
  | empty _ => simp
  | messageOpen _ => simp
  | spent _ _ _ => simp
  | begins _ _ _ ih => exact ih hc
  | pops _ _ _ _ ih => exact ih hc
  | suspends _ _ _ _ _ ih => exact ih hc
  | yields _ _ _ _ _ _ ih => exact ih hc
  | goes _ _ _ _ _ _ _ ihline ihloop =>
    intro line hline
    exact (List.mem_append.mp hline).elim (ihline hc line) (ihloop hc line)
  | plain _ => simp [Line.pumped]
  | refused _ _ => simp [Line.pumped]
  | pumps _ _ _ _ _ => contradiction

theorem pumped_length (h : Runs store c stage x log y) : ∀ line ∈ log, ∀ lines ∈ line.pumped,
    lines.length ≤ x.table.hookRunner.loopLimit ∧ ∀ inner ∈ lines, inner.pumped = none := by
  refine (h.upheld_hooks (J := fun i => i.loopLimit = x.table.hookRunner.loopLimit) ?_ rfl).2
  intro kind args s w runner lines z hs hready hrun
  obtain ⟨id, event, -, rfl⟩ := BattleScript.primed?_eq_some hready
  have hlimit := (hrun.upheld (Interpreter.settings_upheld store _ _) ⟨rfl, rfl⟩ trivial).1.1
  refine ⟨hlimit.trans hs, ?_, hrun.pumped_eq_none nofun⟩
  rw [← hs]
  exact hrun.eq_result.2

end Runs

/-- Every update of an interpreter runs to its end, in one way only, and performs at most as many
instructions as its loop limit allows. Each of them updates the hook interpreter at most once, which
performs as many as its own limit allows and calls no further hook. Among the games are those with a
battler whose maximum is below its floor. The battle stops where a change raises its flag
`emptyRange`, and what the update goes on to make is not about the battle any more; sound battlers
never raise it. -/
theorem Execution.update_returns {σ : Type} [AssetLoader σ] (store : ProgramStore) (c : CommandSet)
    (allowSuspend : Bool) (x : Execution BattleScript σ) :
    (∃ log, Runs store c (.update allowSuspend) x log (x.update c.commands store allowSuspend)) ∧
      ∀ log y, Runs store c (.update allowSuspend) x log y →
        y = x.update c.commands store allowSuspend ∧ log.length ≤ x.interp.loopLimit ∧
          ∀ line ∈ log, ∀ lines ∈ line.pumped, c = .battle ∧
            lines.length ≤ x.table.hookRunner.loopLimit ∧
            ∀ inner ∈ lines, inner.pumped = none := by
  refine ⟨⟨_, Runs.transcript c store allowSuspend x⟩, fun log y h => ?_⟩
  refine ⟨h.eq_result.1, h.eq_result.2,
    fun line hline lines hlines => ⟨?_, h.pumped_length line hline lines hlines⟩⟩
  by_cases hc : c = .battle
  · exact hc
  · rw [h.pumped_eq_none hc line hline] at hlines
    contradiction

end ActiveBattle
