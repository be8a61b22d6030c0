import ActiveBattle.Proofs.Script.Frame
import ActiveBattle.Script.BattleCommand

/-!
# What an instruction does to its interpreter

Whatever an instruction does to the battle, to its interpreter it does one of a few things
(`Interpreter.Moves`): it moves the running frame on within its program, puts a called event over
it, or suspends the interpreter. The frames below stay as they are. So what each of these keeps,
whole updates keep (`Runs.upheld`).
-/

namespace ActiveBattle

set_option autoImplicit false

namespace Frame

/-- The frame has moved within its program; it may have chosen a branch at an indent. -/
structure Moved (indent : Int) (f g : Frame) : Prop where
  ownerTag : g.ownerTag = f.ownerTag
  program : g.program = f.program
  cursor : g.cursor ≤ g.program.length
  choices : g.branchChoices = f.branchChoices ∨
    ∃ choice, (choice = branchTaken ∨ choice = branchElse) ∧
    g.branchChoices = (f.setBranch indent choice).branchChoices

theorem setBranch_ownerTag (f : Frame) (indent choice : Int) :
    (f.setBranch indent choice).ownerTag = f.ownerTag := by
  unfold setBranch
  split <;> rfl

/-- Where the cursor of a frame stands does not matter for the branches it chooses. -/
theorem setBranch_jump (f : Frame) (cursor : Nat) (indent choice : Int) :
    (f.jump cursor).setBranch indent choice = (f.setBranch indent choice).jump cursor := by
  unfold setBranch jump
  split <;> rfl

theorem cursor_lt {f : Frame} {inst : Instruction} (h : f.current? = some inst) :
    f.cursor < f.program.length :=
  (List.getElem?_eq_some_iff.mp h).1

theorem seek_le {f : Frame} (h : f.cursor < f.program.length) (stops : Instruction → Bool) :
    f.seek stops ≤ f.program.length := by
  have hfound : (f.program.drop (f.cursor + 1)).findIdx stops ≤
      (f.program.drop (f.cursor + 1)).length :=
    List.findIdx_le_length
  rw [List.length_drop] at hfound
  unfold seek
  omega

theorem seekBack?_lt {f : Frame} {stops : Instruction → Bool} {target : Nat}
    (h : f.seekBack? stops = some target) :
    target < f.program.length := by
  unfold seekBack? at h
  obtain ⟨k, hk, rfl⟩ := Option.map_eq_some_iff.mp h
  obtain ⟨hlt, -⟩ := List.findIdx?_eq_some_iff_getElem.mp hk
  rw [List.length_reverse, List.length_take] at hlt
  rw [List.length_take]
  omega

namespace Moved

variable {indent : Int} {f : Frame}

theorem jump {cursor : Nat} (h : cursor ≤ f.program.length) : f.Moved indent (f.jump cursor) :=
  ⟨rfl, rfl, h, .inl rfl⟩

theorem advance (h : f.cursor < f.program.length) : f.Moved indent f.advance := .jump h

/-- A frame that has chosen a branch stands where another cursor would. -/
theorem choose {cursor : Nat} {choice : Int} (hchoice : choice = branchTaken ∨ choice = branchElse)
    (h : cursor ≤ f.program.length) : f.Moved indent ((f.setBranch indent choice).jump cursor) :=
  ⟨f.setBranch_ownerTag indent choice, f.setBranch_program indent choice,
    by simpa [Frame.jump] using h, .inr ⟨choice, hchoice, rfl⟩⟩

end Moved

end Frame

namespace Interpreter

/-- What an instruction of the running frame `top` does to the interpreter. -/
inductive Moves (store : ProgramStore) (inst : Instruction) (top : Frame) (below : List Frame)
    (i : Interpreter) :
    Interpreter → Prop
  | goes {g : Frame} (hwait : inst.opcode ≠ .wait) (h : top.Moved inst.indent g) :
      Moves store inst top below i { i with stack := g :: below }
  | calls {id : Int} {event : CommonEvent} (hwait : inst.opcode ≠ .wait)
    (h : store.event? id = some event) :
      Moves store inst top below i ({ i with stack := top.advance :: below }.pushEvent event)
  | waits (h : inst.opcode = .wait) :
      Moves store inst top below i
        ({ i with stack := top.advance :: below }.waitTenths (inst.param 0))
  /-- An animation is shown until its end. -/
  | shows {frames : Int} (hwait : inst.opcode ≠ .wait) :
      Moves store inst top below i ({ i with stack := top.advance :: below }.waitFor frames)
  | loads {request : AssetRequest} {name : String} (hwait : inst.opcode ≠ .wait) :
      Moves store inst top below i
        { i with stack := top.advance :: below, asyncOp := .loadAsset request .picture name }
  | terminates (hends : inst.opcode = .terminateBattle) :
      Moves store inst top below i
        { i with stack := top :: below, asyncOp := .terminateBattle .abort }

/-- Every program under way, on top or below, has the property. -/
def Executes (P : Program → Prop) (i : Interpreter) : Prop := ∀ f ∈ i.stack, P f.program

section Executes

variable {P : Program → Prop} {store : ProgramStore} {inst : Instruction} {top : Frame}
  {below : List Frame} {i j : Interpreter}

theorem Executes.of_mem (h : i.Executes P) (hstack : ∀ f ∈ j.stack, f ∈ i.stack) : j.Executes P :=
  fun f hf => h f (hstack f hf)

theorem Executes.dropComplete (h : i.Executes P) : i.dropComplete.Executes P :=
  h.of_mem fun _ hf => (List.dropWhile_sublist _).mem hf

/-- What the common events have, the programs under way keep having. -/
theorem Moves.executes (hevents : ∀ e ∈ store.events, P e.instructions) (hi : i.Executes P)
    (hstack : i.stack = top :: below) (h : i.Moves store inst top below j) : j.Executes P := by
  have hbelow : ∀ f ∈ below, P f.program := fun f hf => hi f (by simp [hstack, hf])
  have moved {g : Frame} (hprogram : g.program = top.program) : ∀ f ∈ g :: below, P f.program := by
    intro f hf
    rcases List.mem_cons.mp hf with rfl | hf
    · rw [hprogram]
      exact hi top (by simp [hstack])
    · exact hbelow f hf
  cases h with
  | goes _ hmoved => exact moved hmoved.program
  | @calls _ event _ hevent =>
    intro f hf
    rcases List.mem_cons.mp hf with rfl | hf
    · exact hevents event (List.mem_of_find?_eq_some hevent)
    · exact moved (g := top.advance) rfl f hf
  | terminates _ => exact moved rfl
  | _ => exact moved (g := top.advance) rfl

end Executes

/-- An interpreter once an instruction is done: if it says so, the frame it came from, which `depth`
counts from below, goes on to the next. -/
def settled (i : Interpreter) (depth : Nat) (go : Bool) : Interpreter :=
  if go then { i with stack := i.stack.modify (i.stack.length - depth) (·.advance) } else i

theorem settled_of_stack_eq {i : Interpreter} {f : Frame} {below : List Frame}
    (h : i.stack = f :: below) :
    i.settled (below.length + 1) true = { i with stack := f.advance :: below } := by
  simp [settled, h]

section Settled

variable {store : ProgramStore} {inst : Instruction} {top : Frame} {below : List Frame}
  {i : Interpreter}

theorem proceed_moves (hstack : i.stack = top :: below) (hcurrent : top.current? = some inst)
    (hwait : inst.opcode ≠ .wait) :
    Moves store inst top below i (i.settled (below.length + 1) true) := by
  rw [settled_of_stack_eq hstack]
  exact .goes hwait (.advance (Frame.cursor_lt hcurrent))

theorem modifyTop_eq (hstack : i.stack = top :: below) (f : Frame → Frame) :
    i.modifyTop f = { i with stack := f top :: below } := by
  simp [modifyTop, hstack]

theorem skipTo_moves (hstack : i.stack = top :: below) (hcurrent : top.current? = some inst)
    (hwait : inst.opcode ≠ .wait) (codes : List Opcode) :
    Moves store inst top below i (i.skipTo codes inst.indent) := by
  unfold skipTo
  rw [modifyTop_eq hstack]
  exact .goes hwait (.jump (Frame.seek_le (Frame.cursor_lt hcurrent) _))

theorem setBranch_moves (hstack : i.stack = top :: below) (hcurrent : top.current? = some inst)
    (hwait : inst.opcode ≠ .wait) {choice : Int}
    (hchoice : choice = branchTaken ∨ choice = branchElse) :
    Moves store inst top below i
      ((i.setBranch inst.indent choice).settled (below.length + 1) true) := by
  have hset : (i.setBranch inst.indent choice).stack =
      top.setBranch inst.indent choice :: below := by
    simp [setBranch, modifyTop, hstack]
  have hadvanced : (top.setBranch inst.indent choice).advance =
      (top.setBranch inst.indent choice).jump (top.cursor + 1) := by
    simp [Frame.advance, Frame.jump]
  rw [settled_of_stack_eq hset, hadvanced]
  exact .goes hwait (.choose hchoice (Frame.cursor_lt hcurrent))

theorem chooseOption_moves (hstack : i.stack = top :: below) (hcurrent : top.current? = some inst)
    (hwait : inst.opcode ≠ .wait) (option : Int) (codes : List Opcode) :
    Moves store inst top below i
      ((i.chooseOption inst option codes).2.settled (below.length + 1)
        (i.chooseOption inst option codes).1) := by
  unfold chooseOption
  split
  · exact setBranch_moves hstack hcurrent hwait (.inl rfl)
  · exact skipTo_moves hstack hcurrent hwait codes

theorem branchOn_moves (hstack : i.stack = top :: below) (hcurrent : top.current? = some inst)
    (hwait : inst.opcode ≠ .wait) (test : Bool) (codes : List Opcode) :
    Moves store inst top below i
      ((i.branchOn inst test codes).2.settled (below.length + 1)
        (i.branchOn inst test codes).1) := by
  unfold branchOn
  split
  · exact setBranch_moves hstack hcurrent hwait (.inl rfl)
  · have hskipped : (i.skipTo codes inst.indent).setBranch inst.indent branchElse =
        { i with stack := ((top.setBranch inst.indent branchElse).jump
            (top.seek fun other => other.indent ≤ inst.indent && codes.contains other.opcode)) ::
              below } := by
      unfold skipTo setBranch
      rw [modifyTop_eq hstack, modifyTop_eq rfl, Frame.setBranch_jump]
    simp only [settled, hskipped, Bool.false_eq_true, if_false]
    exact .goes hwait (.choose (.inr rfl) (Frame.seek_le (Frame.cursor_lt hcurrent) _))

theorem breakLoop_moves (hstack : i.stack = top :: below) (hwait : inst.opcode ≠ .wait) :
    Moves store inst top below i
      ((i.breakLoop inst).2.settled (below.length + 1) (i.breakLoop inst).1) := by
  unfold breakLoop
  rw [hstack]
  dsimp only
  split
  · rename_i htarget
    rw [settled_of_stack_eq rfl]
    exact .goes hwait (.jump htarget)
  · exact .goes hwait (.jump (Nat.le_refl _))

theorem jump_moves (hstack : i.stack = top :: below) (hcurrent : top.current? = some inst)
    (hwait : inst.opcode ≠ .wait) {f : Frame → Frame}
    (hf : f top = top ∨ ∃ n, n < top.program.length ∧ f top = top.jump n) :
    Moves store inst top below i ((i.modifyTop f).settled (below.length + 1) true) := by
  rw [modifyTop_eq hstack, settled_of_stack_eq rfl]
  rcases hf with h | ⟨n, hn, h⟩
  · rw [h]
    exact .goes hwait (.advance (Frame.cursor_lt hcurrent))
  · rw [h]
    exact .goes hwait (.jump hn)

theorem endLoop_moves (hstack : i.stack = top :: below) (hcurrent : top.current? = some inst)
    (hwait : inst.opcode ≠ .wait) :
    Moves store inst top below i ((i.endLoop inst).settled (below.length + 1) true) := by
  refine jump_moves hstack hcurrent hwait ?_
  split
  · rename_i target htarget
    exact .inr ⟨target, Frame.seekBack?_lt htarget, rfl⟩
  · exact .inl rfl

theorem jumpToLabel_moves (hstack : i.stack = top :: below) (hcurrent : top.current? = some inst)
    (hwait : inst.opcode ≠ .wait) (label : Int) :
    Moves store inst top below i ((i.jumpToLabel label).settled (below.length + 1) true) := by
  refine jump_moves hstack hcurrent hwait ?_
  split
  · rename_i target htarget
    obtain ⟨hlt, -⟩ := List.findIdx?_eq_some_iff_getElem.mp htarget
    exact .inr ⟨target, hlt, rfl⟩
  · exact .inl rfl

theorem call_moves (hstack : i.stack = top :: below) (hcurrent : top.current? = some inst)
    (hwait : inst.opcode ≠ .wait) (id : Int) :
    Moves store inst top below i ((i.call store id).settled (below.length + 1) true) := by
  unfold call
  split
  · rename_i event hevent
    have hsettled : (i.pushEvent event).settled (below.length + 1) true =
        { i with stack := top.advance :: below }.pushEvent event := by
      simp [settled, pushEvent, push, hstack]
    rw [hsettled]
    exact .calls hwait hevent
  · exact proceed_moves hstack hcurrent hwait

end Settled

end Interpreter

namespace Execution

variable {δ σ : Type} {store : ProgramStore} {inst : Instruction} {top : Frame} {below : List Frame}

/-- Executing an instruction makes a move. -/
def MakesMove (store : ProgramStore) (inst : Instruction) (top : Frame) (below : List Frame)
    (i : Interpreter) (done : Bool × Execution δ σ) : Prop :=
  i.Moves store inst top below (done.2.interp.settled (below.length + 1) done.1)

theorem makesMove_of_interp_eq {x y : Execution δ σ} (hstack : x.interp.stack = top :: below)
    (hcurrent : top.current? = some inst) (hwait : inst.opcode ≠ .wait) (h : y.interp = x.interp) :
    MakesMove store inst top below x.interp y.proceed := by
  unfold MakesMove proceed
  rw [h]
  exact Interpreter.proceed_moves hstack hcurrent hwait

theorem step_settled [AssetLoader σ] (table : CommandTable δ σ) (store : ProgramStore)
    (inst : Instruction) {x : Execution δ σ} (hstack : x.interp.stack = top :: below) :
    (x.step table store inst).interp =
      (x.perform table store inst).2.interp.settled (below.length + 1)
        (x.perform table store inst).1 := by
  unfold step Interpreter.settled
  rw [hstack]
  dsimp only [List.length_cons]
  split <;> rfl

theorem step_moves {table : CommandTable δ σ} {x : Execution δ σ} [AssetLoader σ]
    (hstack : x.interp.stack = top :: below)
    (h : MakesMove store inst top below x.interp (x.perform table store inst)) :
    x.interp.Moves store inst top below (x.step table store inst).interp := by
  rw [step_settled table store inst hstack]
  exact h

section Base

variable [AssetLoader σ]

theorem showPicture_moves {x : Execution δ σ} (hstack : x.interp.stack = top :: below)
    (hcurrent : top.current? = some inst) (hwait : inst.opcode ≠ .wait) :
    MakesMove store inst top below x.interp (x.showPicture inst).proceed := by
  dsimp only [showPicture]
  split
  · exact makesMove_of_interp_eq hstack hcurrent hwait rfl
  · unfold MakesMove proceed
    rw [Interpreter.settled_of_stack_eq (f := top) (by exact hstack)]
    exact .loads hwait

theorem executeBase_moves {x : Execution δ σ} (hstack : x.interp.stack = top :: below)
    (hcurrent : top.current? = some inst) :
    MakesMove store inst top below x.interp (x.executeBase store inst) := by
  have proceeds {y : Execution δ σ} (hwait : inst.opcode ≠ .wait) (h : y.interp = x.interp) :
      MakesMove store inst top below x.interp y.proceed :=
    makesMove_of_interp_eq hstack hcurrent hwait h
  unfold executeBase
  cases hcode : inst.opcode
  case conditionalBranch => exact Interpreter.branchOn_moves hstack hcurrent (by simp [hcode]) _ _
  case elseBranch => exact Interpreter.chooseOption_moves hstack hcurrent (by simp [hcode]) _ _
  case breakLoop => exact Interpreter.breakLoop_moves hstack (by simp [hcode])
  case endLoop => exact Interpreter.endLoop_moves hstack hcurrent (by simp [hcode])
  case jumpToLabel => exact Interpreter.jumpToLabel_moves hstack hcurrent (by simp [hcode]) _
  case wait =>
    have hwaiting : MakesMove store inst top below x.interp
        (x.modifyInterp (·.waitTenths (inst.param 0))).proceed := by
      unfold MakesMove modifyInterp proceed
      rw [Interpreter.settled_of_stack_eq (f := top) (by exact hstack)]
      exact .waits hcode
    exact hwaiting
  case callEvent => exact Interpreter.call_moves hstack hcurrent (by simp [hcode]) _
  case showPicture => exact showPicture_moves hstack hcurrent (by simp [hcode])
  case endEventProcessing =>
    have hfinished : (x.modifyInterp (·.modifyTop (·.finish))).interp =
        { x.interp with stack := top.finish :: below } := Interpreter.modifyTop_eq hstack _
    unfold MakesMove stay Interpreter.settled
    rw [hfinished]
    exact .goes (by simp [hcode]) (.jump (Nat.le_refl _))
  all_goals exact proceeds (by simp [hcode]) rfl

end Base

section Battle

variable {x : Execution BattleScript σ} {hook : HookCall σ}

@[simp] theorem fire_interp (x : Execution BattleScript σ) (hook : HookCall σ)
    (store : ProgramStore) (kind : HookKind) (args : HookArgs) :
    (x.fire hook store kind args).interp = x.interp := rfl

theorem forceFlee_interp (x : Execution BattleScript σ) (inst : Instruction) :
    (x.forceFlee inst).interp = x.interp := by
  unfold forceFlee fleeParty fleeEnemies fleeEnemy
  dsimp only
  split
  · split <;> rfl
  · split <;> rfl
  · split <;> rfl
  · rfl

theorem enableCombo_interp (x : Execution BattleScript σ) (inst : Instruction) :
    (x.enableCombo inst).interp = x.interp := by
  unfold enableCombo
  split <;> rfl

theorem changeMonsterHp_interp (x : Execution BattleScript σ) (inst : Instruction) :
    (x.changeMonsterHp hook store inst).interp = x.interp := by
  unfold changeMonsterHp
  dsimp only
  split
  · rfl
  · split
    · rfl
    · rw [fire_interp]
      split <;> rfl

theorem changeMonsterMp_interp (x : Execution BattleScript σ) (inst : Instruction) :
    (x.changeMonsterMp hook store inst).interp = x.interp := by
  unfold changeMonsterMp
  dsimp only
  split <;> rfl

theorem changeMonsterCondition_interp (x : Execution BattleScript σ) (inst : Instruction) :
    (x.changeMonsterCondition hook store inst).interp = x.interp := by
  unfold changeMonsterCondition
  dsimp only
  split
  · rfl
  · split
    · split <;> rfl
    · split <;> rfl

theorem controlBattleHooks_interp (x : Execution BattleScript σ) (inst : Instruction) :
    (x.controlBattleHooks inst).interp = x.interp := by
  unfold controlBattleHooks
  split
  · split <;> rfl
  · rfl

theorem showBattleAnimation_moves (hstack : x.interp.stack = top :: below)
    (hcurrent : top.current? = some inst) (hwait : inst.opcode ≠ .wait) :
    MakesMove store inst top below x.interp (x.showBattleAnimation inst).proceed := by
  have shows {y : Execution BattleScript σ} (hy : y.interp = x.interp) (frames : Int) :
      MakesMove store inst top below x.interp
        (if inst.param 2 ≠ 0 then y.modifyInterp (·.waitFor frames) else y).proceed := by
    split
    · unfold MakesMove modifyInterp proceed
      rw [hy, Interpreter.settled_of_stack_eq (f := top) (by exact hstack)]
      exact .shows hwait
    · exact makesMove_of_interp_eq hstack hcurrent hwait hy
  dsimp only [showBattleAnimation]
  generalize x.playedAnimation? inst = shown
  cases shown with
  | none => exact shows rfl 0
  | some animation =>
    refine shows ?_ animation.frames
    dsimp only
    cases animation.se <;> rfl

/-- Whatever a command of a battle does, it makes a move. -/
theorem battleCommands_moves (hstack : x.interp.stack = top :: below)
    (hcurrent : top.current? = some inst) {done : Bool × Execution BattleScript σ}
    (h : battleCommands hook store inst x = some done) :
    MakesMove store inst top below x.interp done := by
  have proceeds {y : Execution BattleScript σ} (hwait : inst.opcode ≠ .wait)
    (hy : y.interp = x.interp)
      (hdone : some y.proceed = some done) : MakesMove store inst top below x.interp done := by
    rw [← Option.some.inj hdone]
    exact makesMove_of_interp_eq hstack hcurrent hwait hy
  unfold battleCommands at h
  cases hcode : inst.opcode <;> rw [hcode] at h <;> dsimp only at h
  case callCommonEvent =>
    rw [← Option.some.inj h]
    split
    · exact Interpreter.call_moves hstack hcurrent (by simp [hcode]) _
    · exact makesMove_of_interp_eq hstack hcurrent (by simp [hcode]) rfl
  case forceFlee => exact proceeds (by simp [hcode]) (by split <;> simp [forceFlee_interp]) h
  case enableCombo => exact proceeds (by simp [hcode]) (by split <;> simp [enableCombo_interp]) h
  case changeMonsterHp => exact proceeds (by simp [hcode]) (changeMonsterHp_interp x inst) h
  case changeMonsterMp => exact proceeds (by simp [hcode]) (changeMonsterMp_interp x inst) h
  case changeMonsterCondition =>
    exact proceeds (by simp [hcode]) (changeMonsterCondition_interp x inst) h
  case showBattleAnimation =>
    rw [← Option.some.inj h]
    exact showBattleAnimation_moves hstack hcurrent (by simp [hcode])
  case terminateBattle =>
    have hended : (x.modifyInterp ({ · with asyncOp := .terminateBattle .abort })).interp =
        { x.interp with stack := top :: below, asyncOp := .terminateBattle .abort } := by
      unfold modifyInterp
      rw [← hstack]
    rw [← Option.some.inj h]
    unfold MakesMove stay Interpreter.settled
    rw [hended]
    exact .terminates hcode
  case conditionalBranchBattle =>
    rw [← Option.some.inj h]
    exact Interpreter.branchOn_moves hstack hcurrent (by simp [hcode]) _ _
  case elseBranchBattle =>
    rw [← Option.some.inj h]
    exact Interpreter.chooseOption_moves hstack hcurrent (by simp [hcode]) _ _
  case controlBattleHooks => exact proceeds (by simp [hcode]) (controlBattleHooks_interp x inst) h
  case showHiddenMonster | changeBattleBackground | endBranchBattle =>
    exact proceeds (by simp [hcode]) (by rfl) h
  all_goals contradiction

theorem perform_battleCommands_moves [AssetLoader σ] (hstack : x.interp.stack = top :: below)
    (hcurrent : top.current? = some inst) :
    MakesMove store inst top below x.interp (x.perform (battleCommands hook) store inst) := by
  unfold perform
  cases h : battleCommands hook store inst x with
  | none => exact executeBase_moves hstack hcurrent
  | some done => exact battleCommands_moves hstack hcurrent h

end Battle

end Execution

end ActiveBattle
