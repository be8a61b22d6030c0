import ActiveBattle.Proofs.Script.Transcript

/-!
# Battle commands over base commands

The state of a command table travels along with the execution, and the base commands do not look at
it (`Execution.executeBase_carrying`). So where a command table leaves every instruction that can
come up to the base commands, an update under it is an update under the base commands alone, for the
interpreter and the world, and the state of the table stays as it is (`Execution.update_carrying`).
The commands of a battle leave all that are not meant for a battle.
-/

namespace ActiveBattle

set_option autoImplicit false

/-- The command table leaves an instruction to the base commands. -/
def Leaves {δ σ : Type} (table : CommandTable δ σ) (inst : Instruction) : Prop :=
  ∀ store x, table store inst x = none

/-- The command table leaves all of a program to the base commands. -/
def Program.LeftBy {δ σ : Type} (program : Program) (table : CommandTable δ σ) : Prop :=
  ∀ inst ∈ program, Leaves table inst

/-- No command of the program means something only during a battle. -/
def Program.IsBase (program : Program) : Prop := ∀ inst ∈ program, inst.opcode.isBattleOnly = false

theorem battleCommands_leaves {σ : Type} (hook : HookCall σ) {inst : Instruction}
    (h : inst.opcode.isBattleOnly = false) : Leaves (battleCommands hook) inst := by
  intro store x
  unfold battleCommands
  cases hcode : inst.opcode
  all_goals first
    | rfl
    | exact absurd h (by rw [hcode]; decide)

theorem Program.IsBase.leftBy {σ : Type} {program : Program} (h : program.IsBase)
    (hook : HookCall σ) :
    program.LeftBy (battleCommands hook) := by
  intro inst hinst
  exact battleCommands_leaves hook (h inst hinst)

namespace Execution

variable {δ δ' σ : Type}

/-- The same execution with the state of its command table told in another way. -/
def mapTable (f : δ → δ') (x : Execution δ σ) : Execution δ' σ := ⟨x.interp, f x.table, x.world⟩

theorem executeBase_mapTable [AssetLoader σ] (f : δ → δ') (store : ProgramStore)
    (inst : Instruction) (x : Execution δ σ) :
    (x.mapTable f).executeBase store inst =
      Prod.map id (mapTable f) (x.executeBase store inst) := by
  unfold executeBase
  cases inst.opcode
  case showPicture =>
    dsimp only [showPicture, proceed, mapTable]
    split <;> rfl
  all_goals rfl

/-- The same execution with another state of the command table. -/
def carrying (state : δ') (x : Execution δ σ) : Execution δ' σ := ⟨x.interp, state, x.world⟩

@[simp] theorem carrying_interp (state : δ') (x : Execution δ σ) :
    (x.carrying state).interp = x.interp := rfl

@[simp] theorem carrying_game (state : δ') (x : Execution δ σ) : (x.carrying state).game = x.game :=
  rfl

section Carrying

variable [AssetLoader σ] {table : CommandTable δ' σ} {store : ProgramStore} {inst : Instruction}
  (state : δ')

theorem executeBase_carrying (store : ProgramStore) (inst : Instruction) (x : Execution δ σ) :
    (x.carrying state).executeBase store inst =
      Prod.map id (carrying state) (x.executeBase store inst) :=
  executeBase_mapTable (fun _ => state) store inst x

theorem perform_carrying (hleaves : Leaves table inst) (x : Execution δ σ) :
    (x.carrying state).perform table store inst =
      Prod.map id (carrying state) (x.perform noCommands store inst) := by
  unfold perform
  rw [hleaves, Option.getD_none, executeBase_carrying]
  rfl

theorem step_carrying (hleaves : Leaves table inst) (x : Execution δ σ) :
    (x.carrying state).step table store inst = (x.step noCommands store inst).carrying state := by
  unfold step
  rw [perform_carrying state hleaves]
  obtain ⟨go, y⟩ := x.perform noCommands store inst
  cases go <;> rfl

/-- What a run does when it comes to an instruction. -/
theorem run_of_next {table : CommandTable δ σ} {x y : Execution δ σ}
    (hmessage : ¬x.game.message.isActive = true)
    (hcurrent : (x.modifyInterp (·.dropComplete)).interp.current? = some inst)
    (hstep : (x.modifyInterp (·.dropComplete)).step table store inst = y) (budget : Nat) :
    x.run table store (budget + 1) =
      if y.interp.isSuspended then y
      else if y.interp.yieldRequested then y.modifyInterp ({ · with yieldRequested := false })
      else y.run table store budget := by
  rw [run, if_neg hmessage]
  simp only [hcurrent, hstep]

variable (hevents : ∀ e ∈ store.events, e.instructions.LeftBy table) {x : Execution δ σ}
  (hx : x.interp.Executes (·.LeftBy table))
include hevents hx

/-- An instruction that comes up is left to the base commands, which put nothing but common events
on the interpreter. -/
theorem next_carrying (hcurrent : x.interp.current? = some inst) :
    (x.carrying state).step table store inst = (x.step noCommands store inst).carrying state ∧
      (x.step noCommands store inst).interp.Executes (·.LeftBy table) := by
  obtain ⟨top, below, hstack, htop⟩ := Interpreter.exists_of_current? hcurrent
  have hleaves : Leaves table inst := hx top (by simp [hstack]) inst (List.mem_of_getElem? htop)
  have hmoves : x.interp.Moves store inst top below (x.step noCommands store inst).interp :=
    step_moves hstack (executeBase_moves hstack htop)
  exact ⟨step_carrying state hleaves x, hmoves.executes hevents hx hstack⟩

theorem run_carrying (budget : Nat) :
    (x.carrying state).run table store budget = (x.run noCommands store budget).carrying state ∧
      (x.run noCommands store budget).interp.Executes (·.LeftBy table) := by
  -- along the base run: an open message, a suspension, a yield, the next instruction, or nothing
  -- left
  fun_induction run noCommands store budget x with
  | case1 budget x hmessage =>
    rw [run, carrying_game, if_pos hmessage]
    exact ⟨rfl, hx⟩
  | case2 x hmessage dropped inst budget hcurrent y hsuspended =>
    obtain ⟨hy, hexecutes⟩ : (dropped.carrying state).step table store inst =
        y.carrying state ∧ _ :=
      next_carrying state hevents (x := dropped) hx.dropComplete hcurrent
    rw [run_of_next (x := x.carrying state) hmessage hcurrent hy, carrying_interp,
      if_pos hsuspended]
    exact ⟨rfl, hexecutes⟩
  | case3 x hmessage dropped inst budget hcurrent y hsuspended hyield =>
    obtain ⟨hy, hexecutes⟩ : (dropped.carrying state).step table store inst =
        y.carrying state ∧ _ :=
      next_carrying state hevents (x := dropped) hx.dropComplete hcurrent
    rw [run_of_next (x := x.carrying state) hmessage hcurrent hy, carrying_interp,
      if_neg hsuspended, if_pos hyield]
    exact ⟨rfl, hexecutes⟩
  | case4 x hmessage dropped inst budget hcurrent y hsuspended hyield ih =>
    obtain ⟨hy, hexecutes⟩ : (dropped.carrying state).step table store inst =
        y.carrying state ∧ _ :=
      next_carrying state hevents (x := dropped) hx.dropComplete hcurrent
    rw [run_of_next (x := x.carrying state) hmessage hcurrent hy, carrying_interp,
      if_neg hsuspended, if_neg hyield]
    exact ih hexecutes
  | case5 budget x hmessage dropped hnext =>
    refine ⟨?_, hx.dropComplete⟩
    rw [run, carrying_game, if_neg hmessage]
    dsimp only
    split
    · rename_i inst budget hcurrent
      exact absurd rfl (hnext inst budget hcurrent)
    · rfl

/-- Nor does an update look at the state of the command table. -/
theorem update_carrying (allowSuspend : Bool) :
    (x.carrying state).update table store allowSuspend =
      (x.update noCommands store allowSuspend).carrying state ∧
      (x.update noCommands store allowSuspend).interp.Executes (·.LeftBy table) := by
  have hwoken : (x.woken allowSuspend).interp.Executes (·.LeftBy table) := by
    rw [Interpreter.Executes, woken_stack]
    exact hx
  have hcarried : (x.carrying state).woken allowSuspend =
      (x.woken allowSuspend).carrying state := by
    cases allowSuspend <;> rfl
  rw [update_eq_woken, update_eq_woken, hcarried, carrying_interp]
  split
  · exact ⟨rfl, hwoken⟩
  · split
    · exact ⟨rfl, hwoken⟩
    · exact run_carrying state hevents hwoken _

end Carrying

/-- What the host does to the world before it updates, and whether the update may suspend. -/
structure Round (σ : Type) where
  interferes : World σ → World σ := id
  allowSuspend : Bool := true

variable [AssetLoader σ]

def rounds (table : CommandTable δ σ) (store : ProgramStore) :
    List (Round σ) → Execution δ σ → Execution δ σ
  | [], x => x
  | r :: rest, x =>
    rounds table store rest ((x.modifyWorld r.interferes).update table store r.allowSuspend)

theorem rounds_carrying {table : CommandTable δ' σ} {store : ProgramStore} (state : δ')
    (hevents : ∀ e ∈ store.events, e.instructions.LeftBy table) (rs : List (Round σ))
    {x : Execution δ σ} (hx : x.interp.Executes (·.LeftBy table)) :
    rounds table store rs (x.carrying state) = (rounds noCommands store rs x).carrying state := by
  induction rs generalizing x with
  | nil => rfl
  | cons r rest ih =>
    obtain ⟨hupdate, hexecutes⟩ :=
      update_carrying state hevents (x := x.modifyWorld r.interferes) hx r.allowSuspend
    rw [rounds, rounds, ← ih hexecutes, ← hupdate]
    rfl

/-- Programs of base commands run under the commands of a battle as they run without, whatever hooks
come to: after any updates the interpreter and the world are the same, and the state of the battle
commands is as it was. -/
theorem battle_extends_base {store : ProgramStore}
    (hevents : ∀ e ∈ store.events, e.instructions.IsBase) {i : Interpreter}
    (hframes : i.Executes Program.IsBase) (hook : HookCall σ) (s : BattleScript) (w : World σ)
    (rs : List (Round σ)) :
    rounds (battleCommands hook) store rs ⟨i, s, w⟩ =
      (rounds noCommands store rs (⟨i, (), w⟩ : Execution Unit σ)).carrying s := by
  have hleft : ∀ e ∈ store.events, e.instructions.LeftBy (battleCommands hook) := by
    intro e he
    exact (hevents e he).leftBy hook
  have hstart : i.Executes (·.LeftBy (battleCommands hook)) := by
    intro f hf
    exact (hframes f hf).leftBy hook
  exact rounds_carrying s hleft rs (x := (⟨i, (), w⟩ : Execution Unit σ)) hstart

/-- A common event that plays a sound and shows a picture. -/
def gallery : ProgramStore :=
  .ofEvents
    [{ id := 1
       instructions := [{ opcode := .playSound }, { opcode := .showPicture, text := some "" }] }] {}

/-- Calls the event, tells something, and waits for a tenth of a second. -/
def tour : Interpreter :=
  ({} : Interpreter).push [{ opcode := .callEvent, params := [1] }, { opcode := .showMessage },
    { opcode := .wait, params := [1] }] .synthetic

/-- A world in which pictures come late. -/
def scenery : World DeferredAssets := { game := {}, assets := { latency := 9 } }

/-- A host that goes on without the picture and reads the message. -/
def tourists : List (Round DeferredAssets) :=
  [{}, { allowSuspend := false }, { interferes := (·.modifyGame ({ · with message := {} })) },
    { allowSuspend := false }]

theorem battle_extends_base_of_tour :
    (∀ e ∈ gallery.events, e.instructions.IsBase) ∧ tour.Executes Program.IsBase ∧
      rounds sceneCommands gallery tourists ⟨tour, { rpg2k3 := true, maniac := true }, scenery⟩ =
        (rounds noCommands gallery tourists (⟨tour, (), scenery⟩ : Execution Unit _)).carrying
          { rpg2k3 := true, maniac := true } ∧
      (rounds noCommands gallery (tourists.take 1)
        (⟨tour, (), scenery⟩ : Execution Unit _)).interp.stack.length = 2 ∧
      (rounds noCommands gallery tourists (⟨tour, (), scenery⟩ : Execution Unit _)).interp.stack =
        [] := by
  have hevents : ∀ e ∈ gallery.events, e.instructions.IsBase := by
    unfold Program.IsBase
    decide
  have hframes : tour.Executes Program.IsBase := by
    unfold Interpreter.Executes Program.IsBase
    decide
  exact ⟨hevents, hframes, battle_extends_base hevents hframes _ _ _ _, by decide +kernel,
    by decide +kernel⟩

end Execution

end ActiveBattle
