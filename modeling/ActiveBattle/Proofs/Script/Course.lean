import Mathlib.Data.List.DropRight
import ActiveBattle.Proofs.Script.Returning

/-!
# The course of a program

What holds an interpreter up has no part in what it does once it goes on (`step_bare`), be it a
wait, a load, an open message or the end of the loop limit. So with the base commands its
instructions follow one another in a single course, and every update performs the next part of it
(`update_onCourse`).
-/

namespace ActiveBattle

set_option autoImplicit false

namespace Execution

section Freeing

variable {δ σ : Type}

/-- The execution without what its updates count. -/
def bare (x : Execution δ σ) : Execution δ σ :=
  x.modifyInterp ({ · with waitFrames := 0, yieldRequested := false, loopLimit := 0 })

/-- The execution once nothing holds it up: what it waits for is over, the message is read, finished
frames are gone. -/
def freed (x : Execution δ σ) : Execution δ σ where
  interp := { x.bare.interp.dropComplete with asyncOp := .none }
  table := x.table
  world := x.world.modifyGame ({ · with message := {} })

theorem freed_dropComplete (x : Execution δ σ) :
    (x.modifyInterp (·.dropComplete)).freed = x.freed := by
  simp [freed, bare, modifyInterp, Interpreter.dropComplete, List.dropWhile_idempotent]

theorem freed_freed (x : Execution δ σ) : x.freed.freed = x.freed := by
  simp [freed, bare, modifyInterp, Interpreter.dropComplete, World.modifyGame,
    List.dropWhile_idempotent]

theorem freed_woken (allowSuspend : Bool) (x : Execution δ σ) :
    (x.woken allowSuspend).freed = x.freed := by
  cases allowSuspend <;> rfl

/-- Nothing holds an execution up that is about to perform an instruction. -/
theorem freed_of_current? {x : Execution δ σ} {inst : Instruction}
    (hmessage : x.game.message.isActive = false) (hfree : x.interp.asyncOp = .none)
    (hcurrent : x.interp.current? = some inst) : x.freed = x.bare := by
  have hread : x.world.modifyGame ({ · with message := {} }) = x.world := by
    have hpages : x.world.game.message.pages = [] := by
      simpa [MessageBox.isActive, game] using hmessage
    have hempty : x.world.game.message = {} := congrArg MessageBox.mk hpages
    unfold World.modifyGame
    rw [← hempty]
  unfold freed
  rw [hread, Interpreter.dropComplete_of_current? (i := x.bare.interp) hcurrent]
  unfold bare modifyInterp
  rw [← hfree]

variable [AssetLoader σ]

/-- What the updates count has no part in what an instruction does. -/
theorem executeBase_bare (store : ProgramStore) (inst : Instruction) (x : Execution δ σ) :
    Prod.map id bare (x.bare.executeBase store inst) =
      Prod.map id bare (x.executeBase store inst) := by
  unfold executeBase
  cases inst.opcode
  case conditionalBranch =>
    have hsame : x.bare.game.branchTest inst = x.game.branchTest inst := rfl
    dsimp only [viaInterp, Interpreter.branchOn]
    rw [hsame]
    cases x.game.branchTest inst <;> rfl
  case elseBranch =>
    have hsame : x.bare.interp.branchAt inst.indent = x.interp.branchAt inst.indent := rfl
    dsimp only [viaInterp, Interpreter.chooseOption]
    rw [hsame]
    split <;> rfl
  case breakLoop =>
    have hsame : x.bare.interp.stack = x.interp.stack := rfl
    dsimp only [viaInterp, Interpreter.breakLoop]
    rw [hsame]
    cases x.interp.stack with
    | nil => rfl
    | cons top rest =>
      dsimp only
      split <;> rfl
  case callEvent =>
    dsimp only [proceed, modifyInterp, Interpreter.call]
    cases store.event? (inst.param 0) <;> rfl
  case showPicture =>
    have hsame : x.bare.world = x.world := rfl
    dsimp only [proceed, showPicture]
    rw [hsame]
    split <;> rfl
  all_goals rfl

theorem step_bare (store : ProgramStore) (inst : Instruction) (x : Execution δ σ) :
    (x.bare.step noCommands store inst).bare = (x.step noCommands store inst).bare := by
  obtain ⟨hgo, hbare⟩ := Prod.mk.inj (executeBase_bare store inst x)
  change (x.bare.perform noCommands store inst).1 = (x.perform noCommands store inst).1 at hgo
  change (x.bare.perform noCommands store inst).2.bare =
    (x.perform noCommands store inst).2.bare at hbare
  unfold step
  dsimp only
  by_cases h : (x.perform noCommands store inst).1 = true
  · rw [if_pos (hgo.trans h), if_pos h]
    -- the frame that goes on is counted from below, over the same frames
    exact congrArg (fun z => (z.modifyInterp fun i =>
      { i with stack := i.stack.modify (i.stack.length - x.interp.stack.length) (·.advance) }).bare)
        hbare
  · rw [if_neg (hgo ▸ h), if_neg h]
    exact hbare

end Freeing

end Execution

/-- An instruction with the frames, the load and the world it leaves behind. -/
structure Deed (σ : Type) where
  inst : Instruction
  stack : List Frame
  asyncOp : AsyncOp
  world : World σ

namespace Execution

variable {σ : Type}

def deed (inst : Instruction) (y : Execution BattleScript σ) : Deed σ :=
  ⟨inst, y.interp.stack, y.interp.asyncOp, y.world⟩

theorem deed_of_bare {y z : Execution BattleScript σ} (h : y.bare = z.bare) (inst : Instruction) :
    y.deed inst = z.deed inst := congrArg (fun x => x.deed inst) h

theorem freed_of_bare {y z : Execution BattleScript σ} (h : y.bare = z.bare) : y.freed = z.freed :=
  congrArg (fun x => x.freed) h

end Execution

def Line.deed {σ : Type} (l : Line σ) : Deed σ := l.after.deed l.inst

namespace Execution

variable {σ : Type} [AssetLoader σ] (store : ProgramStore)

/-- So many instructions in a row with nothing to hold them up, and where the last of them leaves
the execution. -/
def course : Nat → Execution BattleScript σ → List (Deed σ) × Execution BattleScript σ
  | 0, x => ([], x.freed)
  | k + 1, x =>
    match x.freed.interp.current? with
    | none => ([], x.freed)
    | some inst =>
      let after := x.freed.step noCommands store inst
      let (deeds, last) := course k after
      (after.deed inst :: deeds, last)

variable {store} {x y z : Execution BattleScript σ}

theorem course_of_none (hend : x.freed.interp.current? = none) (k : Nat) :
    course store k x = ([], x.freed) := by
  cases k with
  | zero => rfl
  | succ k => rw [course, hend]

variable (store) in
theorem course_of_current? {inst : Instruction} (hcurrent : x.freed.interp.current? = some inst)
    (k : Nat) :
    course store (k + 1) x =
      ((x.freed.step noCommands store inst).deed inst ::
        (course store k (x.freed.step noCommands store inst)).1,
        (course store k (x.freed.step noCommands store inst)).2) := by
  rw [course, hcurrent]

/-- What holds an execution up does not change its course. -/
theorem course_congr (h : x.freed = y.freed) (k : Nat) : course store k x = course store k y := by
  cases k with
  | zero => rw [course, course, h]
  | succ k => rw [course, course, h]

theorem freed_course (k : Nat) (x : Execution BattleScript σ) :
    (course store k x).2.freed = (course store k x).2 := by
  induction k generalizing x with
  | zero => exact freed_freed x
  | succ k ih =>
    cases hcurrent : x.freed.interp.current? with
    | none =>
      rw [course_of_none hcurrent]
      exact freed_freed x
    | some inst =>
      rw [course_of_current? store hcurrent]
      exact ih _

variable (store) in
theorem course_add (j k : Nat) (x : Execution BattleScript σ) : course store (j + k) x =
    ((course store j x).1 ++ (course store k (course store j x).2).1,
      (course store k (course store j x).2).2) := by
  induction j generalizing x with
  | zero =>
    rw [Nat.zero_add]
    exact course_congr (freed_freed x).symm k
  | succ j ih =>
    rw [Nat.succ_add]
    cases hcurrent : x.freed.interp.current? with
    | none =>
      have hend : x.freed.freed.interp.current? = none := by rw [freed_freed, hcurrent]
      rw [course_of_none hcurrent, course_of_none hcurrent, course_of_none hend, freed_freed]
      rfl
    | some inst =>
      rw [course_of_current? store hcurrent, course_of_current? store hcurrent, ih]
      rfl

variable (store) in
theorem length_course_le (k : Nat) (x : Execution BattleScript σ) :
    (course store k x).1.length ≤ k := by
  induction k generalizing x with
  | zero => exact Nat.le_refl 0
  | succ k ih =>
    cases hcurrent : x.freed.interp.current? with
    | none =>
      rw [course_of_none hcurrent]
      exact Nat.zero_le _
    | some inst =>
      rw [course_of_current? store hcurrent]
      exact Nat.succ_le_succ (ih _)

theorem course_mono (j k : Nat) (x : Execution BattleScript σ) :
    (course store j x).1 <+: (course store (j + k) x).1 := by
  rw [course_add]
  exact List.prefix_append _ _

/-- What has more of its course before it has something to perform. -/
theorem course_next {j k : Nat} (hlt : j < (course store k x).1.length) :
    (course store j x).2.interp.current? ≠ none := by
  intro hend
  have hk := length_course_le store k x
  have hrest : (course store (k - j) (course store j x).2).1 = [] := by
    rw [← freed_course] at hend
    rw [course_of_none hend]
  have hjoined := course_add store j (k - j) x
  rw [Nat.add_sub_cancel' (by omega), hrest, List.append_nil] at hjoined
  have hj := length_course_le store j x
  rw [hjoined] at hlt
  exact absurd (Nat.lt_of_lt_of_le hlt hj) (Nat.lt_irrefl j)

theorem course_end_of_nil {k : Nat} (h : (course store k x).1 = []) :
    (course store k x).2 = x.freed := by
  cases k with
  | zero => rfl
  | succ k =>
    cases hcurrent : x.freed.interp.current? with
    | none => rw [course_of_none hcurrent]
    | some inst => simp [course_of_current? store hcurrent] at h

/-- A course ends where its last deed left the execution, once it is let go on. -/
theorem course_last {k : Nat} {init : List (Deed σ)} {d : Deed σ}
    (h : (course store k x).1 = init ++ [d]) :
    (course store k x).2.interp.stack = d.stack.dropWhile (·.isComplete) ∧
      (course store k x).2.world = d.world.modifyGame ({ · with message := {} }) := by
  induction k generalizing x init with
  | zero => simp [course] at h
  | succ k ih =>
    cases hcurrent : x.freed.interp.current? with
    | none => simp [course_of_none hcurrent] at h
    | some inst =>
      rw [course_of_current? store hcurrent] at h ⊢
      cases init with
      | cons first init => exact ih (List.cons.inj h).2
      | nil =>
        obtain ⟨rfl, hnothing⟩ := List.cons.inj h
        rw [course_end_of_nil hnothing]
        exact ⟨rfl, rfl⟩

variable (store)

/-- The deeds lie on the course, and the last of them is where the execution ends up. -/
structure OnCourse (x : Execution BattleScript σ) (deeds : List (Deed σ))
    (y : Execution BattleScript σ) : Prop where
  performs : deeds = (course store deeds.length x).1
  ends : y.freed = (course store deeds.length x).2

variable {store}

namespace OnCourse

variable {ps qs : List (Deed σ)}

theorem of_freed (h : y.freed = x.freed) : OnCourse store x [] y := ⟨rfl, h⟩

theorem trans (h : OnCourse store x ps y) (h' : OnCourse store y qs z) :
    OnCourse store x (ps ++ qs) z := by
  have hjoined : course store (ps ++ qs).length x =
      (ps ++ (course store qs.length y).1, (course store qs.length y).2) := by
    have hstands : (course store ps.length x).2.freed = y.freed := by rw [freed_course, h.ends]
    rw [List.length_append, course_add, course_congr hstands, ← h.performs]
  constructor
  · rw [hjoined, ← h'.performs]
  · rw [hjoined]
    exact h'.ends

theorem of_step {inst : Instruction} (hmessage : x.game.message.isActive = false)
    (hfree : x.interp.asyncOp = .none) (hcurrent : x.interp.current? = some inst) :
    OnCourse store x [(x.step noCommands store inst).deed inst] (x.step noCommands store inst) := by
  have hfreed := freed_of_current? hmessage hfree hcurrent
  have hstep := step_bare store inst x
  have hbare : x.freed.interp.current? = some inst := by
    rw [hfreed]
    exact hcurrent
  have hcourse := course_of_current? store hbare 0
  rw [hfreed] at hcourse
  constructor
  · rw [List.length_singleton, hcourse, deed_of_bare hstep]
    rfl
  · rw [List.length_singleton, hcourse]
    exact (freed_of_bare hstep).symm

end OnCourse

end Execution

/-- No deed but the last leaves a load behind, and the last leaves what is left in the end. -/
inductive Unheld {σ : Type} : AsyncOp → List (Deed σ) → AsyncOp → Prop
  | nil (op : AsyncOp) : Unheld op [] op
  | cons {d : Deed σ} {ds : List (Deed σ)} {op : AsyncOp} (hloads : ∀ result,
    d.asyncOp ≠ .terminateBattle result)
      (hrest : Unheld d.asyncOp ds op) : Unheld .none (d :: ds) op

namespace Unheld

variable {σ : Type} {ds es : List (Deed σ)} {d e : Deed σ} {a b c : AsyncOp}

theorem trans (h : Unheld a ds b) (h' : Unheld b es c) : Unheld a (ds ++ es) c := by
  induction h with
  | nil => exact h'
  | cons hloads _ ih => exact .cons hloads (ih h')

theorem loads (h : Unheld a ds b) (ha : ∀ result, a ≠ .terminateBattle result)
    (result : BattleResult) :
    b ≠ .terminateBattle result := by
  induction h with
  | nil => exact ha result
  | cons hloads _ ih => exact ih hloads

/-- What is left in the end is what there was, or what the last deed left. -/
theorem last (h : Unheld a ds b) :
    ds = [] ∧ b = a ∨ ∃ init d, ds = init ++ [d] ∧ b = d.asyncOp := by
  induction h with
  | nil => exact .inl ⟨rfl, rfl⟩
  | @cons d ds b _ _ ih =>
    rcases ih with ⟨rfl, rfl⟩ | ⟨init, e, rfl, rfl⟩
    · exact .inr ⟨[], d, rfl, rfl⟩
    · exact .inr ⟨d :: init, e, rfl, rfl⟩

theorem free (h : Unheld a (d :: ds) b) : a = .none := by
  cases h
  rfl

theorem before {init rest : List (Deed σ)} (h : Unheld a (init ++ d :: e :: rest) b) :
    d.asyncOp = .none := by
  induction init generalizing a with
  | nil =>
    cases h with
    | cons _ hrest => exact hrest.free
  | cons first init ih =>
    cases h with
    | cons _ hrest => exact ih hrest

end Unheld

namespace Execution

variable {σ : Type} [AssetLoader σ] {store : ProgramStore} {x y : Execution BattleScript σ}

variable (store) in
theorem step_loads {inst : Instruction} (hfree : x.interp.asyncOp = .none)
    (hcurrent : x.interp.current? = some inst) (result : BattleResult) :
    (x.step noCommands store inst).interp.asyncOp ≠ .terminateBattle result := by
  by_cases hends : inst.opcode = .terminateBattle
  · have hsame : (x.step noCommands store inst).interp.asyncOp = x.interp.asyncOp := by
      unfold step perform executeBase
      rw [hends]
      rfl
    simp [hsame, hfree]
  · obtain ⟨top, below, hstack, htop⟩ := Interpreter.exists_of_current? hcurrent
    have hmoves : x.interp.Moves store inst top below (x.step noCommands store inst).interp :=
      step_moves hstack (executeBase_moves hstack htop)
    generalize (x.step noCommands store inst).interp = moved at hmoves
    cases hmoves with
    | goes _ _ => simp [hfree]
    | calls _ _ => simp [hfree, Interpreter.pushEvent, Interpreter.push]
    | waits _ => simp [hfree, Interpreter.waitTenths]
    | shows _ => simp [hfree, Interpreter.waitFor]
    | loads _ => simp
    | terminates h => contradiction

variable (store) in
/-- A run performs the next part of the course. -/
theorem run_onCourse (budget : Nat) (hfree : x.interp.asyncOp = .none) :
    OnCourse store x ((x.linesFrom (CommandSet.base.plainLine store) budget).map Line.deed)
        (x.run noCommands store budget) ∧
      Unheld x.interp.asyncOp ((x.linesFrom (CommandSet.base.plainLine store) budget).map Line.deed)
        (x.run noCommands store budget).interp.asyncOp := by
  induction budget generalizing x with
  | zero =>
    rw [linesFrom, run]
    split
    · exact ⟨.of_freed rfl, .nil _⟩
    · dsimp only
      cases (x.modifyInterp (·.dropComplete)).interp.current? <;>
        exact ⟨.of_freed (freed_dropComplete x), .nil _⟩
  | succ budget ih =>
    rw [linesFrom, run]
    by_cases hmessage : x.game.message.isActive = true
    · rw [if_pos hmessage, if_pos hmessage]
      exact ⟨.of_freed rfl, .nil _⟩
    · rw [if_neg hmessage, if_neg hmessage, hfree]
      have hpops : OnCourse store x [] (x.modifyInterp (·.dropComplete)) :=
        .of_freed (freed_dropComplete x)
      have hquiet : (x.modifyInterp (·.dropComplete)).game.message.isActive = false :=
        Bool.eq_false_iff.mpr hmessage
      have hpopped : (x.modifyInterp (·.dropComplete)).interp.asyncOp = .none := hfree
      generalize x.modifyInterp (·.dropComplete) = y at hpops hquiet hpopped
      dsimp only
      cases hcurrent : y.interp.current? with
      | none => exact ⟨hpops, hpopped ▸ .nil _⟩
      | some inst =>
        have hperforms := hpops.trans (.of_step hquiet hpopped hcurrent)
        have hloads := step_loads store hpopped hcurrent
        have hafter : (CommandSet.base.plainLine store inst y).after =
            y.step noCommands store inst :=
          rfl
        dsimp only
        rw [hafter]
        cases hsuspended : (y.step noCommands store inst).interp.isSuspended with
        | true => exact ⟨hperforms, .cons hloads (.nil _)⟩
        | false =>
          cases hyield : (y.step noCommands store inst).interp.yieldRequested with
          | true => exact ⟨hperforms.trans (.of_freed rfl), .cons hloads (.nil _)⟩
          | false =>
            have hgoes : (y.step noCommands store inst).interp.asyncOp = .none := by
              simpa [Interpreter.isAsyncPending] using (Bool.or_eq_false_iff.mp hsuspended).1
            obtain ⟨hrest, hheld⟩ := ih hgoes
            exact ⟨hperforms.trans hrest, .cons hloads hheld⟩

variable (store) in
/-- What an update performs of the base commands. -/
def deeds (allowSuspend : Bool) (x : Execution BattleScript σ) : List (Deed σ) :=
  (CommandSet.base.transcript store allowSuspend x).map Line.deed

variable (store) in
theorem update_onCourse (allowSuspend : Bool) (x : Execution BattleScript σ) :
    OnCourse store x (x.deeds store allowSuspend) (x.update noCommands store allowSuspend) ∧
      Unheld (x.woken allowSuspend).interp.asyncOp (x.deeds store allowSuspend)
        (x.update noCommands store allowSuspend).interp.asyncOp := by
  have hwoken : OnCourse store x [] (x.woken allowSuspend) := .of_freed (freed_woken allowSuspend x)
  rw [update_eq_woken]
  unfold deeds CommandSet.transcript lines
  dsimp only
  by_cases hpending : (x.woken allowSuspend).interp.isAsyncPending = true
  · rw [if_pos hpending, if_pos hpending]
    exact ⟨hwoken, .nil _⟩
  · rw [if_neg hpending, if_neg hpending]
    by_cases hwaiting : (x.woken allowSuspend).interp.isWaiting = true
    · rw [if_pos hwaiting, if_pos hwaiting]
      exact ⟨hwoken.trans (.of_freed rfl), .nil _⟩
    · have hfree : (x.woken allowSuspend).interp.asyncOp = .none := by
        simpa [Interpreter.isAsyncPending] using hpending
      obtain ⟨hrun, hheld⟩ := run_onCourse store (x.woken allowSuspend).interp.loopLimit hfree
      rw [if_neg hwaiting, if_neg hwaiting]
      exact ⟨hwoken.trans hrun, hheld⟩

end Execution

end ActiveBattle
