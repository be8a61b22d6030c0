import ActiveBattle.Script.Execution

/-!
# Base commands

The commands every script has: messages, switches and variables, branches, loops and labels, waits,
calls, sounds and pictures. Each tells whether to go on with the next instruction.
-/

namespace ActiveBattle

set_option autoImplicit false

/-- The relations a branch can test, by number; any other number never holds. -/
def compareBy (op lhs rhs : Int) : Bool :=
  match op with
  | 0 => lhs = rhs
  | 1 => lhs ≥ rhs
  | 2 => lhs ≤ rhs
  | 3 => lhs > rhs
  | 4 => lhs < rhs
  | 5 => lhs ≠ rhs
  | _ => false

/-- The cells of a one-based range that a storage of some size has. -/
def cellsIn (first last : Int) (size : Nat) : List Int :=
  let lo := max first 1
  (List.range (min last size + 1 - lo).toNat).map fun k => lo + Int.ofNat k

theorem mem_cellsIn {first last id : Int} {size : Nat} :
    id ∈ cellsIn first last size ↔ first ≤ id ∧ id ≤ last ∧ 1 ≤ id ∧ id ≤ size := by
  simp only [cellsIn, List.mem_map, List.mem_range, Int.ofNat_eq_natCast]
  constructor
  · rintro ⟨k, hk, rfl⟩
    omega
  · rintro ⟨h1, h2, h3, h4⟩
    exact ⟨(id - max first 1).toNat, by omega, by omega⟩

namespace GameState

/-- The range a switch or variable command addresses: one cell, a range, or the cell a variable
names. -/
def addressed? (g : GameState) (inst : Instruction) : Option (Int × Int) :=
  match inst.param 0 with
  | 0 => some (inst.param 1, inst.param 1)
  | 1 => some (inst.param 1, inst.param 2)
  | 2 => some (g.vars.get (inst.param 1), g.vars.get (inst.param 1))
  | _ => none

def writeSwitch (mode : Int) (g : GameState) (id : Int) : GameState :=
  match mode with
  | 0 => g.setSwitch id true
  | 1 => g.setSwitch id false
  | _ => { g with switches := g.switches.flip id }

def controlSwitches (inst : Instruction) (g : GameState) : GameState :=
  match g.addressed? inst with
  | some (first, last) =>
    (cellsIn first last g.switches.size).foldl (writeSwitch (inst.param 3)) g
  | none => g

/-- The operand of a variable command; a random one is drawn between its bounds in either order. -/
def operand? (inst : Instruction) (g : GameState) : Option (Int × GameState) :=
  match inst.param 4 with
  | 0 => some (inst.param 5, g)
  | 1 => some (g.vars.get (inst.param 5), g)
  | 2 =>
    let (a, b) := (inst.param 5, inst.param 6)
    let (roll, dice) := g.dice.between (min a b) (max a b)
    some (roll, { g with dice := dice })
  | _ => none

/-- What an operation makes of a variable's value; division by zero and unknown operations keep
it. -/
def combine (op current value : Int) : Int :=
  match op with
  | 0 => value
  | 1 => saturate (current + value)
  | 2 => saturate (current - value)
  | 3 => saturate (current * value)
  | 4 => if value ≠ 0 then current.tdiv value else current
  | 5 => if value ≠ 0 then current.tmod value else current
  | _ => current

def writeVariable (op value : Int) (g : GameState) (id : Int) : GameState :=
  g.setVariable id (combine op (g.vars.get id) value)

def controlVariables (inst : Instruction) (g : GameState) : GameState :=
  match g.operand? inst with
  | none => g
  | some (value, g) =>
    match g.addressed? inst with
    | some (first, last) =>
      (cellsIn first last g.vars.size).foldl (writeVariable (inst.param 3) value) g
    | none => g

def switchTest (g : GameState) (inst : Instruction) : Bool :=
  g.switches.get (inst.param 1) == decide (inst.param 2 = 0)

/-- The test of a variable against a number or another variable. -/
def variableTest (g : GameState) (inst : Instruction) : Bool :=
  let rhs := if inst.param 2 = 0 then inst.param 3 else g.vars.get (inst.param 3)
  compareBy (inst.param 4) (g.vars.get (inst.param 1)) rhs

def branchTest (g : GameState) (inst : Instruction) : Bool :=
  match inst.param 0 with
  | 0 => g.switchTest inst
  | 1 => g.variableTest inst
  | _ => false

end GameState

namespace Interpreter

/-- Leaves the loop around an instruction: past the next loop end that is indented less, or out of
the program when there is none. -/
def breakLoop (i : Interpreter) (inst : Instruction) : Bool × Interpreter :=
  match i.stack with
  | [] => (true, i)
  | top :: rest =>
    let target := top.seek fun other => other.opcode = .endLoop && other.indent < inst.indent
    if target < top.program.length then (true, { i with stack := top.jump target :: rest })
    else (false, { i with stack := top.finish :: rest })

/-- Goes back to the loop head of the same indent, if there is one. -/
def endLoop (i : Interpreter) (inst : Instruction) : Interpreter :=
  i.modifyTop fun top =>
    match top.seekBack? fun other => other.opcode = .loop && other.indent = inst.indent with
    | some target => top.jump target
    | none => top

/-- Goes to the first label of a number, if there is one. -/
def jumpToLabel (i : Interpreter) (label : Int) : Interpreter :=
  i.modifyTop fun top =>
    match top.program.findIdx? fun other => other.opcode = .label && other.param 0 = label with
    | some target => top.jump target
    | none => top

def call (i : Interpreter) (store : ProgramStore) (id : Int) : Interpreter :=
  match store.event? id with
  | some event => i.pushEvent event
  | none => i

end Interpreter

/-- The sound an instruction plays: full volume and tempo where it gives none. -/
def Instruction.sound (inst : Instruction) : SoundEffect where
  name := inst.textOrEmpty
  volume := inst.params.getD 0 100
  tempo := inst.params.getD 1 100

namespace Execution

variable {δ σ : Type} [AssetLoader σ]

def showPicture (x : Execution δ σ) (inst : Instruction) : Execution δ σ :=
  let name := inst.textOrEmpty
  let (request, world) := x.world.request .picture name
  let world := world.modifyGame (·.modifyStatus (·.showPicture (inst.param 0) name))
  let (ready, world) := world.isReady request
  let x := { x with world := world }
  if ready then x else x.modifyInterp ({ · with asyncOp := .loadAsset request .picture name })

def executeBase (store : ProgramStore) (inst : Instruction) (x : Execution δ σ) :
    Bool × Execution δ σ :=
  match inst.opcode with
  | .showMessage => (x.modifyGame (·.showMessage inst.textOrEmpty)).proceed
  | .controlSwitches => (x.modifyGame (·.controlSwitches inst)).proceed
  | .controlVariables => (x.modifyGame (·.controlVariables inst)).proceed
  | .conditionalBranch =>
    x.viaInterp (·.branchOn inst (x.game.branchTest inst) [.elseBranch, .endBranch])
  | .elseBranch => x.viaInterp (·.chooseOption inst branchElse [.endBranch])
  | .breakLoop => x.viaInterp (·.breakLoop inst)
  | .endLoop => (x.modifyInterp (·.endLoop inst)).proceed
  | .jumpToLabel => (x.modifyInterp (·.jumpToLabel (inst.param 0))).proceed
  | .wait => (x.modifyInterp (·.waitTenths (inst.param 0))).proceed
  | .callEvent => (x.modifyInterp (·.call store (inst.param 0))).proceed
  | .playSound => (x.modifyWorld (·.play inst.sound)).proceed
  | .showPicture => (x.showPicture inst).proceed
  | .endEventProcessing => (x.modifyInterp (·.modifyTop (·.finish))).stay
  | _ => x.proceed

/-- One instruction: the command table's, or else the base commands'. -/
def perform (table : CommandTable δ σ) (store : ProgramStore) (inst : Instruction)
    (x : Execution δ σ) : Bool × Execution δ σ :=
  (table store inst x).getD (x.executeBase store inst)

/-- Performs an instruction and, if it says so, moves the frame it came from to the next one. Frames
pushed meanwhile lie above that frame. -/
def step (table : CommandTable δ σ) (store : ProgramStore) (inst : Instruction)
    (x : Execution δ σ) : Execution δ σ :=
  let depth := x.interp.stack.length
  let (go, x) := x.perform table store inst
  if go then
    x.modifyInterp fun i => { i with stack := i.stack.modify (i.stack.length - depth) (·.advance) }
  else x

/-- Runs at most `budget` instructions. -/
def run (table : CommandTable δ σ) (store : ProgramStore) :
    Nat → Execution δ σ → Execution δ σ
  | budget, x =>
    if x.game.message.isActive then x
    else
      let x := x.modifyInterp (·.dropComplete)
      match x.interp.current?, budget with
      | some inst, budget + 1 =>
        let x := x.step table store inst
        if x.interp.isSuspended then x
        else if x.interp.yieldRequested then
          x.modifyInterp ({ · with yieldRequested := false })
        else run table store budget x
      | _, _ => x

/-- One update. A pending operation holds the interpreter and a wait counts down by one; without
`allowSuspend` a load and a wait count as done first. -/
def update (table : CommandTable δ σ) (store : ProgramStore) (allowSuspend : Bool)
    (x : Execution δ σ) : Execution δ σ :=
  let x := if allowSuspend then x else x.modifyInterp (·.resume)
  if x.interp.isAsyncPending then x
  else if x.interp.isWaiting then
    x.modifyInterp fun i => { i with waitFrames := i.waitFrames - 1 }
  else x.run table store x.interp.loopLimit

end Execution

end ActiveBattle
