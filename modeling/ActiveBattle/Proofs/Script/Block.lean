import ActiveBattle.Script.Command

/-!
# Blocks

Programs as trees. A program has no structure but the indents of its lines; the ones that scripts
are written in come from trees of commands, branches and loops, each body one indent deeper than
what opens and closes it.
-/

namespace ActiveBattle

set_option autoImplicit false

/-- The lines that open, part and close blocks. -/
def Opcode.isBlock : Opcode → Bool
  | conditionalBranch | elseBranch | endBranch | conditionalBranchBattle | elseBranchBattle
  | endBranchBattle | loop | endLoop => true
  | _ => false

/-- The two sets of branch commands. -/
inductive Flavour where
  | base
  | battle
deriving DecidableEq

namespace Flavour

def head : Flavour → Opcode
  | base => .conditionalBranch
  | battle => .conditionalBranchBattle

def middle : Flavour → Opcode
  | base => .elseBranch
  | battle => .elseBranchBattle

def finish : Flavour → Opcode
  | base => .endBranch
  | battle => .endBranchBattle

end Flavour

/-- What a line says besides its opcode and its indent. -/
structure Operands where
  params : List Int := []
  text : Option String := none
deriving DecidableEq

def Operands.line (o : Operands) (opcode : Opcode) (indent : Int) : Instruction :=
  ⟨opcode, indent, o.params, o.text⟩

def Instruction.indented (inst : Instruction) (indent : Int) : Instruction :=
  { inst with indent := indent }

/-- A well-nested program. Every form goes on with the rest of the block it stands in. -/
inductive Block where
  | nil
  | command (inst : Instruction) (rest : Block)
  | branch (flavour : Flavour) (head finish : Operands) (arm rest : Block)
  | branchElse (flavour : Flavour) (head middle finish : Operands) (arm other rest : Block)
  | loop (head finish : Operands) (body rest : Block)
deriving DecidableEq

namespace Block

/-- The lines of a block at an indent. -/
def code (k : Int) : Block → Program
  | nil => []
  | command inst rest => inst.indented k :: rest.code k
  | branch flavour head finish arm rest =>
    head.line flavour.head k :: (arm.code (k + 1) ++ finish.line flavour.finish k :: rest.code k)
  | branchElse flavour head middle finish arm other rest =>
    head.line flavour.head k :: (arm.code (k + 1) ++ middle.line flavour.middle k ::
      (other.code (k + 1) ++ finish.line flavour.finish k :: rest.code k))
  | loop head finish body rest =>
    head.line .loop k :: (body.code (k + 1) ++ finish.line .endLoop k :: rest.code k)

def size : Block → Nat
  | nil => 0
  | command _ rest => rest.size + 1
  | branch _ _ _ arm rest => arm.size + rest.size + 2
  | branchElse _ _ _ _ arm other rest => arm.size + other.size + rest.size + 3
  | loop _ _ body rest => body.size + rest.size + 2

/-- What holds of all commands in a block, whatever their indents. -/
def AllCommands (P : Instruction → Prop) : Block → Prop
  | nil => True
  | command inst rest => (∀ k, P (inst.indented k)) ∧ rest.AllCommands P
  | branch _ _ _ arm rest => arm.AllCommands P ∧ rest.AllCommands P
  | branchElse _ _ _ _ arm other rest =>
    arm.AllCommands P ∧ other.AllCommands P ∧ rest.AllCommands P
  | loop _ _ body rest => body.AllCommands P ∧ rest.AllCommands P

theorem length_code (b : Block) (k : Int) : (b.code k).length = b.size := by
  induction b generalizing k with
  | nil => rfl
  | command inst rest ih => simp [code, size, ih]
  | branch flavour head finish arm rest iharm ihrest =>
    simp only [code, size, List.length_cons, List.length_append, iharm, ihrest]
    omega
  | branchElse flavour head middle finish arm other rest iharm ihother ihrest =>
    simp only [code, size, List.length_cons, List.length_append, iharm, ihother, ihrest]
    omega
  | loop head finish body rest ihbody ihrest =>
    simp only [code, size, List.length_cons, List.length_append, ihbody, ihrest]
    omega

/-- No line of a block is indented less than the block. -/
theorem le_indent {b : Block} {k : Int} {inst : Instruction} (h : inst ∈ b.code k) :
    k ≤ inst.indent := by
  induction b generalizing k with
  | nil => exact absurd h List.not_mem_nil
  | command line rest ih =>
    rcases List.mem_cons.mp h with rfl | h
    · exact Int.le_refl k
    · exact ih h
  | branch flavour head finish arm rest iharm ihrest =>
    simp only [code, List.mem_cons, List.mem_append] at h
    rcases h with rfl | h | rfl | h
    · exact Int.le_refl k
    · have hdeeper := iharm h
      omega
    · exact Int.le_refl k
    · exact ihrest h
  | branchElse flavour head middle finish arm other rest iharm ihother ihrest =>
    simp only [code, List.mem_cons, List.mem_append] at h
    rcases h with rfl | h | rfl | h | rfl | h
    · exact Int.le_refl k
    · have hdeeper := iharm h
      omega
    · exact Int.le_refl k
    · have hdeeper := ihother h
      omega
    · exact Int.le_refl k
    · exact ihrest h
  | loop head finish body rest ihbody ihrest =>
    simp only [code, List.mem_cons, List.mem_append] at h
    rcases h with rfl | h | rfl | h
    · exact Int.le_refl k
    · have hdeeper := ihbody h
      omega
    · exact Int.le_refl k
    · exact ihrest h

end Block

end ActiveBattle
