import ActiveBattle.Host
import ActiveBattle.Script.Frame

/-!
# Interpreters

A stack of frames with what suspends it: a wait, an asset load or the end of the battle. The frame
on top is the one that runs; those below continue where they called.
-/

namespace ActiveBattle

set_option autoImplicit false

/-- What an interpreter is suspended on, for its owner to act upon. -/
inductive AsyncOp where
  | none
  | loadAsset (request : AssetRequest) (kind : AssetKind) (name : String)
  | terminateBattle (result : BattleResult)
deriving DecidableEq

structure Interpreter where
  /-- The running frame first. -/
  stack : List Frame := []
  asyncOp : AsyncOp := .none
  waitFrames : Int := 0
  /-- A wait of no length asks for the next frame. -/
  yieldRequested : Bool := false
  loopLimit : Nat := 10000
  framesPerSecond : Int := 60
deriving DecidableEq

/-- How many frames a wait lasts that is given in tenths of a second, at so many frames a second.
The product of tenths and rate wraps; if that makes the length negative, the wait does not wait. -/
def waitLength (rate tenths : Int) : Int := (wrapOperand (max tenths 0 * rate)).tdiv 10

/-- As long as the product is an operand, the length is what it says. -/
theorem waitLength_eq {rate tenths : Int} (hrate : 0 ≤ rate)
    (h : max tenths 0 * rate ≤ operandMax) :
    waitLength rate tenths = max tenths 0 * rate / 10 := by
  have hpos : 0 ≤ max tenths 0 * rate := Int.mul_nonneg (Int.le_max_right _ _) hrate
  have hoperand : IsOperand (max tenths 0 * rate) := ⟨Int.le_trans (by decide) hpos, h⟩
  unfold waitLength
  rw [wrapOperand_of_isOperand hoperand, Int.tdiv_eq_ediv_of_nonneg hpos]

theorem waitLength_nonneg {rate tenths : Int} (hrate : 0 ≤ rate)
    (h : max tenths 0 * rate ≤ operandMax) :
    0 ≤ waitLength rate tenths := by
  rw [waitLength_eq hrate h]
  exact Int.ediv_nonneg (Int.mul_nonneg (Int.le_max_right _ _) hrate) (by decide)

theorem isOperand_waitLength (rate tenths : Int) : IsOperand (waitLength rate tenths) := by
  obtain ⟨hlo, hhi⟩ := isOperand_wrapOperand (max tenths 0 * rate)
  have hsign : Int.sign 10 = 1 := rfl
  unfold operandMin at hlo
  unfold operandMax at hhi
  unfold waitLength IsOperand operandMin operandMax
  rw [Int.tdiv_eq_ediv, hsign]
  split <;> omega

namespace Interpreter

def ofConfig (c : BattleConfig) : Interpreter where
  loopLimit := c.interpreterLoopLimit
  framesPerSecond := c.framesPerSecond

/-- Puts a program on top, at its first instruction. -/
def push (i : Interpreter) (program : Program) (owner : OwnerTag) : Interpreter :=
  { i with stack := ⟨owner, program, 0, []⟩ :: i.stack }

def pushEvent (i : Interpreter) (e : CommonEvent) : Interpreter :=
  i.push e.instructions (.ofCommonEvent e.id)

def isRunning (i : Interpreter) : Bool := !i.stack.isEmpty

def isAsyncPending (i : Interpreter) : Bool := i.asyncOp ≠ .none

def isWaiting (i : Interpreter) : Bool := i.waitFrames > 0

/-- Drops every frame and everything that suspends. -/
def clear (i : Interpreter) : Interpreter :=
  { i with stack := [], asyncOp := .none, waitFrames := 0, yieldRequested := false }

def retainFrames (i : Interpreter) (keep : Frame → Bool) : Interpreter :=
  { i with stack := i.stack.filter keep }

def saveState (i : Interpreter) : ExecutionSnapshot :=
  ⟨(i.stack.map (·.snapshot)).reverse, i.waitFrames⟩

/-- The frame of a snapshot, if its owner still has a program. -/
def restoreFrame? (store : ProgramStore) (s : FrameSnapshot) : Option Frame :=
  (store.resolve s.ownerTag).map (Frame.restore s)

/-- Replaces the stack by a snapshot; frames without a program are dropped. -/
def setState (i : Interpreter) (s : ExecutionSnapshot) (store : ProgramStore) : Interpreter :=
  { i.clear with
    stack := (s.stack.filterMap (restoreFrame? store)).reverse
    waitFrames := max s.waitFrames 0 }

def modifyTop (i : Interpreter) (f : Frame → Frame) : Interpreter :=
  { i with stack := i.stack.modifyHead f }

/-- Starts a wait given in tenths of a second; a wait of no length still gives up the frame. -/
def waitTenths (i : Interpreter) (tenths : Int) : Interpreter :=
  let frames := waitLength i.framesPerSecond tenths
  { i with waitFrames := frames, yieldRequested := i.yieldRequested || frames = 0 }

/-- Starts a wait of so many frames. -/
def waitFor (i : Interpreter) (frames : Int) : Interpreter :=
  { i with waitFrames := max (wrapOperand frames) 0 }

def branchAt (i : Interpreter) (indent : Int) : Int :=
  match i.stack with
  | [] => branchTaken
  | top :: _ => top.branchAt indent

def setBranch (i : Interpreter) (indent choice : Int) : Interpreter :=
  i.modifyTop (·.setBranch indent choice)

/-- Moves the running frame to the next of `codes` at an indent or shallower, or to its end. -/
def skipTo (i : Interpreter) (codes : List Opcode) (indent : Int) : Interpreter :=
  i.modifyTop fun f =>
    f.jump (f.seek fun inst => inst.indent ≤ indent && codes.contains inst.opcode)

/-- An option of a branch: runs when the branch at its indent chose it, else skips to the next of
`codes`. The flag tells whether to go on with the next instruction. -/
def chooseOption (i : Interpreter) (inst : Instruction) (option : Int) (codes : List Opcode) :
    Bool × Interpreter :=
  if i.branchAt inst.indent = option then (true, i.setBranch inst.indent branchTaken)
  else (false, i.skipTo codes inst.indent)

/-- A branch whose test came out: the true arm follows, or the else arm is looked for. The flag
tells whether to go on with the next instruction. -/
def branchOn (i : Interpreter) (inst : Instruction) (test : Bool) (codes : List Opcode) :
    Bool × Interpreter :=
  if test then (true, i.setBranch inst.indent branchTaken)
  else (false, (i.skipTo codes inst.indent).setBranch inst.indent branchElse)

def dropComplete (i : Interpreter) : Interpreter :=
  { i with stack := i.stack.dropWhile (·.isComplete) }

def current? (i : Interpreter) : Option Instruction := i.stack.head?.bind (·.current?)

/-- Takes a load and a wait as done, so that the next update makes progress. -/
def resume (i : Interpreter) : Interpreter :=
  { i with
    asyncOp := match i.asyncOp with
      | .loadAsset .. => .none
      | other => other
    waitFrames := 0 }

/-- Something holds the interpreter until a later update. -/
def isSuspended (i : Interpreter) : Bool := i.isAsyncPending || i.isWaiting

end Interpreter

end ActiveBattle
