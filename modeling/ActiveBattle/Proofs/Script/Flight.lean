import ActiveBattle.Proofs.Script.Repertoire
import ActiveBattle.Proofs.Script.Transcript

/-!
# Where a flight and an end come from

Under the newer dialect an instruction can force the party's flight, and an interpreter stops for
good when it performs the instruction that ends the battle. So a flight that an update forces is
asked for by a line of its log, or of the log of a hook that it calls (`Runs.flight`), and what has
stopped an interpreter is a line of its own (`Runs.ended`).
-/

namespace ActiveBattle

set_option autoImplicit false

namespace Interpreter

variable {i j : Interpreter} {result : BattleResult}

theorem ended_of_resume (h : i.resume.asyncOp = .terminateBattle result) :
    i.asyncOp = .terminateBattle result := by
  unfold resume at h
  dsimp only at h
  split at h
  · contradiction
  · exact h

/-- Only the instruction that ends the battle stops an interpreter for good, and it aborts the
battle. -/
theorem Moves.ended {store : ProgramStore} {inst : Instruction} {top : Frame} {below : List Frame}
    (h : i.Moves store inst top below j) (hended : j.asyncOp = .terminateBattle result) :
    i.asyncOp = .terminateBattle result ∨ result = .abort ∧ inst.opcode = .terminateBattle := by
  cases h with
  | goes _ _ => exact .inl hended
  | calls _ _ => exact .inl hended
  | waits _ => exact .inl hended
  | shows _ => exact .inl hended
  | loads _ => contradiction
  | terminates hends => exact .inr ⟨(AsyncOp.terminateBattle.inj hended).symm, hends⟩

end Interpreter

/-- Whether scripts have forced the party's flight, and whether they can. -/
structure Flight where
  rpg2k3 : Bool
  forced : Bool

def BattleScript.flight (s : BattleScript) : Flight := ⟨s.rpg2k3, s.forceFlee⟩

namespace Flight

/-- A flight is forced only if it was asked for, under the dialect in which scripts can. -/
structure Rises (asked : Prop) (a b : Flight) : Prop where
  rpg2k3 : b.rpg2k3 = a.rpg2k3
  forced : b.forced = true → a.forced = true ∨ a.rpg2k3 = true ∧ asked

namespace Rises

variable {asked asked' : Prop} {a b c : Flight}

theorem of_eq (h : b = a) : Rises asked a b := by
  subst h
  exact ⟨rfl, .inl⟩

theorem refl (a : Flight) : Rises asked a a := of_eq rfl

theorem mono (hasked : asked → asked') (h : Rises asked a b) : Rises asked' a b :=
  ⟨h.rpg2k3, fun hforced => (h.forced hforced).imp_right (And.imp_right hasked)⟩

theorem trans (h : Rises asked a b) (h' : Rises asked b c) : Rises asked a c := by
  refine ⟨h'.rpg2k3.trans h.rpg2k3, fun hforced => ?_⟩
  rcases h'.forced hforced with hb | ⟨hdialect, hasked⟩
  · exact h.forced hb
  · exact .inr ⟨h.rpg2k3.symm.trans hdialect, hasked⟩

end Rises

end Flight

namespace Execution

variable {σ : Type}

theorem forceFlee_flight (x : Execution BattleScript σ) {inst : Instruction}
    (hcode : inst.opcode = .forceFlee) (hdialect : x.table.rpg2k3 = true) :
    x.table.flight.Rises (inst.fleesParty = true) (x.forceFlee inst).table.flight := by
  unfold forceFlee fleeParty fleeEnemies fleeEnemy
  dsimp only
  split
  · rename_i hmode
    exact ⟨by split <;> rfl, fun _ =>
      .inr ⟨hdialect, by simp [Instruction.fleesParty, hcode, hmode]⟩⟩
  · exact .of_eq (by split <;> rfl)
  · exact .of_eq (by split <;> rfl)
  · exact .refl _

variable [AssetLoader σ]

theorem perform_flight (store : ProgramStore) (inst : Instruction) (x : Execution BattleScript σ) :
    x.table.flight.Rises (inst.fleesParty = true)
      (x.perform (battleCommands noHooks) store inst).2.table.flight := by
  by_cases hflees : inst.opcode = .forceFlee
  · rw [perform_forceFlee store hflees]
    split
    · rename_i hdialect
      exact x.forceFlee_flight hflees hdialect
    · exact .refl _
  · by_cases hbinds : inst.opcode = .controlBattleHooks
    · rw [perform_controlBattleHooks store hbinds]
      unfold controlBattleHooks
      refine .of_eq ?_
      split
      · split <;> rfl
      · rfl
    · rw [perform_table store hflees hbinds]
      exact .refl _

end Execution

theorem CommandSet.step_flight {σ : Type} [AssetLoader σ] (c : CommandSet) (store : ProgramStore)
    (inst : Instruction) (x : Execution BattleScript σ) :
    x.table.flight.Rises (inst.fleesParty = true)
      (x.step (c.table noHooks) store inst).table.flight := by
  have hperformed : x.table.flight.Rises (inst.fleesParty = true)
      (x.perform (c.table noHooks) store inst).2.table.flight := by
    cases c with
    | base => exact .of_eq (congrArg BattleScript.flight (x.executeBase_table store inst))
    | battle => exact x.perform_flight store inst
    | hook => exact x.perform_flight store inst
  have hadvanced : (x.step (c.table noHooks) store inst).table =
      (x.perform (c.table noHooks) store inst).2.table := by
    unfold Execution.step
    dsimp only
    split <;> rfl
  rwa [hadvanced]

/-- Some line of a log has the party flee, or one of a hook that is called on the way. -/
def Flees {σ : Type} (log : List (Line σ)) : Prop :=
  ∃ line ∈ log, ∃ inst ∈ line.performed, inst.fleesParty = true

namespace Flees

variable {σ : Type} {log log' : List (Line σ)}

theorem append_left (h : Flees log) : Flees (log ++ log') :=
  h.imp fun _ hline => ⟨List.mem_append_left _ hline.1, hline.2⟩

theorem append_right (h : Flees log') : Flees (log ++ log') :=
  h.imp fun _ hline => ⟨List.mem_append_right _ hline.1, hline.2⟩

theorem single {line : Line σ} (h : line.inst.fleesParty = true) : Flees [line] :=
  ⟨line, List.mem_singleton_self line, line.inst, List.mem_cons_self, h⟩

end Flees

namespace Runs

variable {σ : Type} [AssetLoader σ] {store : ProgramStore} {c : CommandSet} {stage : Stage}
  {x y : Execution BattleScript σ} {log : List (Line σ)}

/-- Hooks call no hooks. -/
theorem hook_pumped (h : Runs store .hook stage x log y) : ∀ line ∈ log, line.pumped = none := by
  generalize hc : CommandSet.hook = c at h
  induction h with
  | held _ => exact nofun
  | waits _ _ => exact nofun
  | begins _ _ _ ih => exact ih hc
  | empty _ => exact nofun
  | messageOpen _ => exact nofun
  | pops _ _ _ _ ih => exact ih hc
  | spent _ _ _ => exact nofun
  | suspends _ _ _ _ _ ih => exact ih hc
  | yields _ _ _ _ _ _ ih => exact ih hc
  | goes _ _ _ _ _ _ _ ihline ihloop =>
    intro line hline
    exact (List.mem_append.mp hline).elim (ihline hc line) (ihloop hc line)
  | plain _ => simp [Line.pumped]
  | refused _ _ => simp [Line.pumped]
  | pumps _ _ _ _ _ => contradiction

/-- A flight that an update forces is asked for by an instruction that it performs, or that a hook
performs for it. -/
theorem flight (h : Runs store c stage x log y) :
    x.table.flight.Rises (Flees log) y.table.flight := by
  induction h with
  | @held _ allowSuspend x _ =>
    exact .of_eq (congrArg BattleScript.flight (Execution.woken_table allowSuspend x))
  | @waits _ allowSuspend x _ _ =>
    exact .of_eq (congrArg BattleScript.flight (Execution.woken_table allowSuspend x))
  | begins _ _ _ ih => rwa [Execution.woken_table] at ih
  | empty _ => exact .refl _
  | messageOpen _ => exact .refl _
  | pops _ _ _ _ ih => exact ih
  | spent _ _ _ => exact .refl _
  | suspends _ _ _ _ _ ih => exact ih
  | yields _ _ _ _ _ _ ih => exact ih
  | goes _ _ _ _ _ _ _ ihline ihloop =>
    exact (ihline.mono .append_left).trans (ihloop.mono .append_right)
  | @plain c x y inst hstep =>
    have hstepped := c.step_flight store inst x
    rw [hstep noHooks] at hstepped
    exact hstepped.mono .single
  | @refused c x y inst kind args hstep _ =>
    have hstepped := c.step_flight store inst x
    rw [hstep noHooks] at hstepped
    exact hstepped.mono .single
  | @pumps x y z t log inst kind args runner hstep _ hpump hafter ih =>
    have hstepped := CommandSet.battle.step_flight store inst x
    rw [CommandSet.table, hstep noHooks] at hstepped
    subst hafter
    refine (hstepped.mono fun h => .single h).trans (ih.mono ?_)
    rintro ⟨line, hline, inst', hinst', hflees⟩
    -- what a line of a hook performs is its own instruction
    rw [Line.performed, hpump.hook_pumped line hline] at hinst'
    obtain rfl := List.mem_singleton.mp hinst'
    exact ⟨_, List.mem_singleton_self _, _,
      List.mem_cons_of_mem _ (List.mem_map_of_mem hline), hflees⟩

/-- What has stopped an interpreter for good is an instruction that it performs, and it aborts the
battle. -/
theorem ended {result : BattleResult} (h : Runs store c stage x log y) (hfits : stage.Fits x.interp)
    (hended : y.interp.asyncOp = .terminateBattle result) :
    x.interp.asyncOp = .terminateBattle result ∨
      result = .abort ∧ ∃ line ∈ log, line.inst.opcode = .terminateBattle := by
  have woken {allowSuspend : Bool} {x : Execution BattleScript σ}
      (h : (x.woken allowSuspend).interp.asyncOp = .terminateBattle result) :
      x.interp.asyncOp = .terminateBattle result := by
    cases allowSuspend with
    | true => exact h
    | false => exact Interpreter.ended_of_resume h
  have performed {c : CommandSet} {inst : Instruction} {x y : Execution BattleScript σ}
    {log : List (Line σ)}
      (h : Runs store c (.perform inst) x log y) (hfits : (Stage.perform inst).Fits x.interp)
      (hended : y.interp.asyncOp = .terminateBattle result) :
      x.interp.asyncOp = .terminateBattle result ∨
        result = .abort ∧ ∃ line ∈ log, line.inst.opcode = .terminateBattle := by
    obtain ⟨top, below, hstack, hcurrent⟩ := Interpreter.exists_of_current? hfits.2
    have hmoves := h.perform_moves hstack hcurrent
    obtain ⟨-, pumped, rfl⟩ := h.performs
    rcases hmoves.ended hended with hx | ⟨hresult, hcode⟩
    · exact .inl hx
    · exact .inr ⟨hresult, _, List.mem_singleton_self _, hcode⟩
  induction h with
  | held _ => exact .inl (woken hended)
  | waits _ _ => exact .inl (woken hended)
  | begins hpending hwaiting _ ih =>
    exact (ih (Interpreter.isSuspended_eq_false hpending hwaiting) hended).imp_left woken
  | empty _ => exact .inl hended
  | messageOpen _ => exact .inl hended
  | spent _ _ _ => exact .inl hended
  | pops _ _ _ _ ih => exact ih hfits hended
  | suspends _ hcurrent _ _ _ ih => exact ih ⟨hfits, hcurrent⟩ hended
  | yields _ hcurrent _ _ _ _ ih => exact ih ⟨hfits, hcurrent⟩ hended
  | goes _ hcurrent _ _ hsuspended _ _ ihline ihloop =>
    rcases ihloop hsuspended hended with hy | ⟨hresult, line, hline, hcode⟩
    · obtain hx | ⟨hresult, line, hline, hcode⟩ := ihline ⟨hfits, hcurrent⟩ hy
      · exact .inl hx
      · exact .inr ⟨hresult, line, List.mem_append_left _ hline, hcode⟩
    · exact .inr ⟨hresult, line, List.mem_append_right _ hline, hcode⟩
  | plain hstep => exact performed (.plain hstep) hfits hended
  | refused hstep hrefused => exact performed (.refused hstep hrefused) hfits hended
  | pumps hstep hprimed hpump hafter _ =>
    exact performed (.pumps hstep hprimed hpump hafter) hfits hended

end Runs

end ActiveBattle
