import ActiveBattle.Script.Interpreter

/-!
# Running scripts

An update runs instructions until the stack is empty, something suspends the interpreter, a message
opens or the loop limit is reached. Which instructions there are is up to a command table; one that
leaves an instruction to the base commands gives `none`.
-/

namespace ActiveBattle

set_option autoImplicit false

/-- An interpreter at work: with the state of its command table and the world it acts on. -/
structure Execution (δ σ : Type) where
  interp : Interpreter
  table : δ
  world : World σ

namespace Execution

variable {δ σ : Type}

def modifyInterp (x : Execution δ σ) (f : Interpreter → Interpreter) : Execution δ σ :=
  { x with interp := f x.interp }

def modifyTable (x : Execution δ σ) (f : δ → δ) : Execution δ σ := { x with table := f x.table }

def modifyWorld (x : Execution δ σ) (f : World σ → World σ) : Execution δ σ :=
  { x with world := f x.world }

def modifyGame (x : Execution δ σ) (f : GameState → GameState) : Execution δ σ :=
  x.modifyWorld (·.modifyGame f)

def game (x : Execution δ σ) : GameState := x.world.game

def proceed (x : Execution δ σ) : Bool × Execution δ σ := (true, x)

def stay (x : Execution δ σ) : Bool × Execution δ σ := (false, x)

/-- Lets the interpreter alone decide. -/
def viaInterp (x : Execution δ σ) (f : Interpreter → Bool × Interpreter) : Bool × Execution δ σ :=
  let (go, interp) := f x.interp
  (go, { x with interp := interp })

end Execution

/-- What an instruction does: whether to go on with the next one, and everything it changed. -/
abbrev CommandTable (δ σ : Type) :=
  ProgramStore → Instruction → Execution δ σ → Option (Bool × Execution δ σ)

/-- The command table that owns no instruction. -/
def noCommands {δ σ : Type} : CommandTable δ σ := fun _ _ _ => none

end ActiveBattle
