import Mathlib.Logic.Function.Iterate
import ActiveBattle.Proofs.Script.Frame
import ActiveBattle.Script.Command

/-!
# Walking through a program

Updates together with the lines they perform, and walks, the ways a single frame goes line by line.
While nothing suspends the interpreter and no message opens, updates perform the lines of a walk, as
many in each as the loop limit allows (`updatesLogged_of_walk`).
-/

namespace ActiveBattle

set_option autoImplicit false

namespace Execution

variable {δ σ : Type} [AssetLoader σ]

/-- A run with the lines it performs. -/
def runLogged (table : CommandTable δ σ) (store : ProgramStore) :
    Nat → Execution δ σ → List Instruction × Execution δ σ
  | budget, x =>
    if x.game.message.isActive then ([], x)
    else
      let x := x.modifyInterp (·.dropComplete)
      match x.interp.current?, budget with
      | some inst, budget + 1 =>
        let x := x.step table store inst
        if x.interp.isSuspended then ([inst], x)
        else if x.interp.yieldRequested then
          ([inst], x.modifyInterp ({ · with yieldRequested := false }))
        else
          let (lines, y) := runLogged table store budget x
          (inst :: lines, y)
      | _, _ => ([], x)

theorem runLogged_snd (table : CommandTable δ σ) (store : ProgramStore) (budget : Nat)
    (x : Execution δ σ) : (x.runLogged table store budget).2 = x.run table store budget := by
  induction budget generalizing x with
  | zero =>
    rw [runLogged, run]
    split
    · rfl
    · generalize x.modifyInterp (·.dropComplete) = y
      dsimp only
      cases y.interp.current? <;> rfl
  | succ budget ih =>
    rw [runLogged, run]
    split
    · rfl
    · generalize x.modifyInterp (·.dropComplete) = y
      dsimp only
      cases y.interp.current? with
      | none => rfl
      | some inst =>
        dsimp only
        split
        · rfl
        · split
          · rfl
          · exact ih _

/-- An update with the lines it performs. -/
def updateLogged (table : CommandTable δ σ) (store : ProgramStore) (allowSuspend : Bool)
    (x : Execution δ σ) : List Instruction × Execution δ σ :=
  let x := if allowSuspend then x else x.modifyInterp (·.resume)
  if x.interp.isAsyncPending then ([], x)
  else if x.interp.isWaiting then
    ([], x.modifyInterp fun i => { i with waitFrames := i.waitFrames - 1 })
  else x.runLogged table store x.interp.loopLimit

theorem updateLogged_snd (table : CommandTable δ σ) (store : ProgramStore) (allowSuspend : Bool)
    (x : Execution δ σ) :
    (x.updateLogged table store allowSuspend).2 = x.update table store allowSuspend := by
  unfold updateLogged update
  dsimp only
  generalize (if allowSuspend then x else x.modifyInterp (·.resume)) = y
  split
  · rfl
  · split
    · rfl
    · exact runLogged_snd table store _ y

/-- A number of updates with the lines they perform. -/
def updatesLogged (table : CommandTable δ σ) (store : ProgramStore) (allowSuspend : Bool) :
    Nat → Execution δ σ → List Instruction × Execution δ σ
  | 0, x => ([], x)
  | n + 1, x =>
    let (lines, y) := x.updateLogged table store allowSuspend
    let (rest, z) := updatesLogged table store allowSuspend n y
    (lines ++ rest, z)

theorem updatesLogged_snd (table : CommandTable δ σ) (store : ProgramStore) (allowSuspend : Bool)
    (n : Nat) (x : Execution δ σ) : (x.updatesLogged table store allowSuspend n).2 =
      (update table store allowSuspend)^[n] x := by
  induction n generalizing x with
  | zero => rfl
  | succ n ih =>
    rw [Function.iterate_succ_apply, ← updateLogged_snd]
    exact ih _

/-- An interpreter at work on a single frame. -/
def standing (i : Interpreter) (f : Frame) (s : δ × World σ) : Execution δ σ :=
  ⟨{ i with stack := [f] }, s.1, s.2⟩

/-- The same once a finished frame has left. -/
def parked (i : Interpreter) (f : Frame) (s : δ × World σ) : Execution δ σ :=
  (standing i f s).modifyInterp (·.dropComplete)

section Parked

omit [AssetLoader σ]

theorem parked_of_isComplete (i : Interpreter) {f : Frame} (s : δ × World σ)
    (h : f.isComplete = true) :
    parked i f s = ⟨{ i with stack := [] }, s.1, s.2⟩ := by
  simp [parked, standing, modifyInterp, Interpreter.dropComplete, h]

theorem parked_of_not_isComplete (i : Interpreter) {f : Frame} (s : δ × World σ)
    (h : f.isComplete = false) : parked i f s = standing i f s := by
  simp [parked, standing, modifyInterp, Interpreter.dropComplete, h]

theorem parked_dropComplete (i : Interpreter) (f : Frame) (s : δ × World σ) :
    (parked i f s).modifyInterp (·.dropComplete) = parked i f s := by
  cases h : f.isComplete with
  | true =>
    rw [parked_of_isComplete i s h]
    rfl
  | false =>
    rw [parked_of_not_isComplete i s h]
    exact parked_of_not_isComplete i s h

end Parked

end Execution

/-- Nothing holds the interpreter. -/
structure Interpreter.Calm (i : Interpreter) : Prop where
  asyncOp : i.asyncOp = .none
  waitFrames : i.waitFrames = 0
  yieldRequested : i.yieldRequested = false

/-- No message is open. -/
def World.IsQuiet {σ : Type} (w : World σ) : Prop := w.game.message.isActive = false

open Execution

section Walk

variable {δ σ : Type} [AssetLoader σ]

/-- The way of a single frame over a number of lines, or as many as the program has. -/
inductive Walk (table : CommandTable δ σ) (store : ProgramStore) (i : Interpreter) :
    Nat → Frame → δ × World σ → List Instruction → Frame → δ × World σ → Prop
  | stay (f : Frame) (s : δ × World σ) : Walk table store i 0 f s [] f s
  | ended (n : Nat) {f : Frame} (s : δ × World σ) (h : f.isComplete = true) : Walk table store
    i n f s [] f s
  | line {n : Nat} {f g h : Frame} {s t u : δ × World σ} {inst : Instruction}
    {lines : List Instruction} (hcurrent : f.current? = some inst)
      (hstep : (standing i f s).step table store inst = standing i g t) (hquiet : t.2.IsQuiet)
      (hrest : Walk table store i n g t lines h u) : Walk table store i (n + 1) f s
        (inst :: lines) h u

namespace Walk

variable {table : CommandTable δ σ} {store : ProgramStore} {i : Interpreter} {m n : Nat}
  {f g h : Frame} {s t u : δ × World σ} {lines rest : List Instruction}

theorem isComplete_eq_false {inst : Instruction} (hcurrent : f.current? = some inst) :
    f.isComplete = false := by
  unfold Frame.current? at hcurrent
  obtain ⟨hlt, -⟩ := List.getElem?_eq_some_iff.mp hcurrent
  simp only [Frame.isComplete, decide_eq_false_iff_not]
  omega

/-- Nothing follows the last line. -/
theorem eq_of_isComplete (hw : Walk table store i n f s lines g t) (hf : f.isComplete = true) :
    lines = [] ∧ g = f ∧ t = s := by
  cases hw with
  | stay => exact ⟨rfl, rfl, rfl⟩
  | ended _ _ _ => exact ⟨rfl, rfl, rfl⟩
  | line hcurrent _ _ _ =>
    rw [isComplete_eq_false hcurrent] at hf
    contradiction

/-- No message opens on the way. -/
theorem isQuiet (hw : Walk table store i n f s lines g t) (hs : s.2.IsQuiet) : t.2.IsQuiet := by
  induction hw with
  | stay => exact hs
  | ended => exact hs
  | line _ _ hquiet _ ih => exact ih hquiet

theorem trans (hw : Walk table store i m f s lines g t) (hw' : Walk table store i n g t rest h u) :
    Walk table store i (m + n) f s (lines ++ rest) h u := by
  induction hw with
  | stay =>
    rw [Nat.zero_add]
    exact hw'
  | ended k _ hf =>
    obtain ⟨rfl, rfl, rfl⟩ := hw'.eq_of_isComplete hf
    exact .ended _ _ hf
  | line hcurrent hstep hquiet _ ih =>
    rw [Nat.succ_add]
    exact .line hcurrent hstep hquiet (ih hw')

/-- A walk in two stages. -/
theorem split (hw : Walk table store i (m + n) f s lines h u) :
    ∃ g t first second, Walk table store i m f s first g t ∧ Walk table store i n g t second h u ∧
      lines = first ++ second := by
  induction m generalizing f s lines with
  | zero =>
    rw [Nat.zero_add] at hw
    exact ⟨f, s, [], lines, .stay f s, hw, rfl⟩
  | succ m ih =>
    rw [Nat.succ_add] at hw
    cases hw with
    | ended _ _ hf => exact ⟨_, _, [], [], .ended _ _ hf, .ended _ _ hf, rfl⟩
    | line hcurrent hstep hquiet hrest =>
      obtain ⟨g, t, first, second, hfirst, hsecond, rfl⟩ := ih hrest
      exact ⟨g, t, _, second, .line hcurrent hstep hquiet hfirst, hsecond, rfl⟩

end Walk

end Walk

namespace Execution

variable {δ σ : Type} [AssetLoader σ] {table : CommandTable δ σ} {store : ProgramStore}
  {i : Interpreter} {f g : Frame} {s t : δ × World σ} {lines : List Instruction}

omit [AssetLoader σ] in
theorem isQuiet_of_parked {x : Execution δ σ} (hs : s.2.IsQuiet)
    (hx : x.modifyInterp (·.dropComplete) = parked i f s) : x.game.message.isActive = false := by
  have hworld : x.world = s.2 := congrArg Execution.world hx
  unfold game
  rw [hworld]
  exact hs

/-- With a walk ahead of it, a run performs just the lines of the walk. -/
theorem runLogged_of_walk {n : Nat} (hi : i.Calm) (hs : s.2.IsQuiet)
    (hw : Walk table store i n f s lines g t) (x : Execution δ σ)
    (hx : x.modifyInterp (·.dropComplete) = parked i f s) :
    x.runLogged table store n = (lines, parked i g t) := by
  induction hw generalizing x with
  | stay f s =>
    rw [runLogged, isQuiet_of_parked hs hx]
    simp only [hx, Bool.false_eq_true, if_false]
    cases (parked i f s).interp.current? <;> rfl
  | ended n s hf =>
    rename_i f
    have hnone : (parked i f s).interp.current? = none := by
      rw [parked_of_isComplete i s hf]
      rfl
    rw [runLogged, isQuiet_of_parked hs hx]
    simp only [hx, hnone, Bool.false_eq_true, if_false]
  | line hcurrent hstep hquiet _ ih =>
    rename_i n f g h s t u inst lines _
    have hparked : parked i f s = standing i f s :=
      parked_of_not_isComplete i s (Walk.isComplete_eq_false hcurrent)
    have hstands : (standing i f s).interp.current? = some inst := hcurrent
    have hfree : (standing i g t).interp.isSuspended = false := by
      simp [standing, Interpreter.isSuspended, Interpreter.isAsyncPending,
        Interpreter.isWaiting, hi.asyncOp, hi.waitFrames]
    have hgoes : (standing i g t).interp.yieldRequested = false := hi.yieldRequested
    rw [runLogged, isQuiet_of_parked hs hx]
    simp only [hx, hparked, hstands, hstep, hfree, hgoes, Bool.false_eq_true, if_false]
    rw [ih hquiet (standing i g t) rfl]

/-- There is only one way to go. -/
theorem lines_unique {n : Nat} {lines' : List Instruction} {g' : Frame} {t' : δ × World σ}
    (hi : i.Calm) (hs : s.2.IsQuiet) (hw : Walk table store i n f s lines g t)
    (hw' : Walk table store i n f s lines' g' t') : lines = lines' := by
  have h := runLogged_of_walk hi hs hw (parked i f s) (parked_dropComplete i f s)
  have h' := runLogged_of_walk hi hs hw' (parked i f s) (parked_dropComplete i f s)
  exact (Prod.mk.inj (h.symm.trans h')).1

omit [AssetLoader σ] in
theorem calm_of_parked {x : Execution δ σ} (hi : i.Calm)
    (hx : x.modifyInterp (·.dropComplete) = parked i f s) :
    x.interp.Calm ∧ x.interp.loopLimit = i.loopLimit := by
  have hasync : x.interp.asyncOp = i.asyncOp := congrArg (fun y => y.interp.asyncOp) hx
  have hwait : x.interp.waitFrames = i.waitFrames := congrArg (fun y => y.interp.waitFrames) hx
  have hyield : x.interp.yieldRequested = i.yieldRequested :=
    congrArg (fun y => y.interp.yieldRequested) hx
  refine ⟨⟨?_, ?_, ?_⟩, congrArg (fun y => y.interp.loopLimit) hx⟩
  · rw [hasync, hi.asyncOp]
  · rw [hwait, hi.waitFrames]
  · rw [hyield, hi.yieldRequested]

theorem resume_of_calm (hi : i.Calm) : i.resume = i := by
  obtain ⟨hasync, hwait, -⟩ := hi
  unfold Interpreter.resume
  rw [hasync]
  cases i
  subst hasync hwait
  rfl

theorem updateLogged_of_walk {allowSuspend : Bool} (hi : i.Calm) (hs : s.2.IsQuiet)
    (hw : Walk table store i i.loopLimit f s lines g t) (x : Execution δ σ)
    (hx : x.modifyInterp (·.dropComplete) = parked i f s) :
    x.updateLogged table store allowSuspend = (lines, parked i g t) := by
  obtain ⟨hcalm, hlimit⟩ := calm_of_parked hi hx
  have hresumed : (if allowSuspend then x else x.modifyInterp (·.resume)) = x := by
    split
    · rfl
    · simp only [modifyInterp, resume_of_calm hcalm]
  have hasync : x.interp.isAsyncPending = false := by
    simp [Interpreter.isAsyncPending, hcalm.asyncOp]
  have hwait : x.interp.isWaiting = false := by simp [Interpreter.isWaiting, hcalm.waitFrames]
  unfold updateLogged
  simp only [hresumed, hasync, hwait, hlimit, Bool.false_eq_true, if_false]
  exact runLogged_of_walk hi hs hw x hx

/-- With a walk ahead of them that is as long as the loop limit lets them go, updates perform its
lines. -/
theorem updatesLogged_of_walk (allowSuspend : Bool) {m : Nat} (hi : i.Calm) (hs : s.2.IsQuiet)
    (hw : Walk table store i ((m + 1) * i.loopLimit) f s lines g t) (x : Execution δ σ)
    (hx : x.modifyInterp (·.dropComplete) = parked i f s) :
    x.updatesLogged table store allowSuspend (m + 1) = (lines, parked i g t) := by
  induction m generalizing f s lines x with
  | zero =>
    rw [Nat.zero_add, Nat.one_mul] at hw
    rw [updatesLogged, updateLogged_of_walk hi hs hw x hx]
    simp only [updatesLogged, List.append_nil]
  | succ m ih =>
    rw [Nat.succ_mul, Nat.add_comm] at hw
    obtain ⟨mid, u, first, second, hfirst, hsecond, rfl⟩ := hw.split
    have hrest := ih (hfirst.isQuiet hs) hsecond (parked i mid u) (parked_dropComplete i mid u)
    rw [updatesLogged, updateLogged_of_walk hi hs hfirst x hx]
    simp only [hrest]

end Execution

end ActiveBattle
