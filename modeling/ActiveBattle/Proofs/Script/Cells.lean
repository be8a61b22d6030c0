import ActiveBattle.Proofs.Action.Aiming
import ActiveBattle.Proofs.Script.Memory

/-!
# Writing a range of cells

A command writes the cells it addresses one after the other, and only those the storage has. Each is
written once and comes out changed from its own old value (`foldl_write`); the operand is read
before the first of them is written. So a command changes what it addresses and nothing else
(`control_writes`), with as many writes as there are cells at most.
-/

namespace ActiveBattle

set_option autoImplicit false

/-- A range of operands holds what is drawn from it. -/
theorem Dice.between_mem_of_operands {lo hi : Int} (hle : lo ≤ hi) (hlow : operandMin ≤ lo)
    (hhigh : hi ≤ operandMax) (d : Dice) : lo ≤ (d.between lo hi).1 ∧ (d.between lo hi).1 ≤ hi := by
  by_cases hsize : (hi - lo + 1) % 4294967296 = 0
  · -- only the range of all operands has so many
    have hall : (d.between lo hi).1 = wrapOperand d.next.1 := by
      unfold between
      simp [hsize]
    rw [hall]
    have hleast : -2147483648 ≤ wrapOperand d.next.1 := Int.le_bmod (by decide)
    have hgreatest : wrapOperand d.next.1 < 2147483648 := Int.bmod_lt (by decide)
    unfold operandMin at hlow
    unfold operandMax at hhigh
    omega
  · exact between_mem_of_size hle hsize d

theorem nodup_cellsIn (first last : Int) (size : Nat) : (cellsIn first last size).Nodup := by
  apply List.Pairwise.map _ _ List.nodup_range
  intro i j hne heq
  exact hne (Int.ofNat.inj (Int.add_left_cancel heq))

theorem length_cellsIn_le (first last : Int) (size : Nat) :
    (cellsIn first last size).length ≤ size := by
  unfold cellsIn
  rw [List.length_map, List.length_range]
  omega

section Folding

variable {α β : Type} (size : α → Nat) (get : α → Int → β) (write : α → Int → α) (change : β → β)

/-- Cells written one after the other, each once, come out changed from their own old values. -/
theorem foldl_write (hsize : ∀ a id, size (write a id) = size a)
    (hget : ∀ a id other, get (write a id) other =
      if id = other ∧ 1 ≤ id ∧ id ≤ size a then change (get a id) else get a other)
    {cells : List Int} (hnodup : cells.Nodup) (a : α) :
    size (cells.foldl write a) = size a ∧
      ∀ id, get (cells.foldl write a) id =
        if id ∈ cells ∧ 1 ≤ id ∧ id ≤ size a then change (get a id) else get a id := by
  induction cells generalizing a with
  | nil => exact ⟨rfl, fun id => by simp⟩
  | cons first rest ih =>
    obtain ⟨hfirst, hrest⟩ := List.nodup_cons.mp hnodup
    obtain ⟨hkept, hlater⟩ := ih hrest (write a first)
    refine ⟨hkept.trans (hsize a first), fun id => ?_⟩
    rw [List.foldl_cons, hlater id, hget a first id, hsize a first]
    by_cases hid : first = id
    · subst hid
      simp [hfirst]
    · simp [hid, Ne.symm hid]

end Folding

/-- A value that a variable can hold. -/
def Variables.Holds (value : Int) : Prop := minValue ≤ value ∧ value ≤ maxValue

theorem Variables.holds_get {v : Variables} (h : ∀ value ∈ v.data, Holds value) (id : Int) :
    Holds (v.get id) := by
  unfold get
  split
  · rename_i i hi
    have hlt : i < v.data.size := cellIndex?_lt hi
    rw [Array.getD_eq_getD_getElem?, Array.getElem?_eq_getElem hlt]
    exact h _ (Array.getElem_mem hlt)
  · exact ⟨by decide, by decide⟩

theorem Instruction.isOperand_param {inst : Instruction} (h : ∀ p ∈ inst.params, IsOperand p)
    (i : Nat) :
    IsOperand (inst.param i) := by
  unfold param
  rw [List.getD_eq_getElem?_getD]
  cases hp : inst.params[i]? with
  | none => exact ⟨by decide, by decide⟩
  | some p => exact h p (List.mem_of_getElem? hp)

namespace GameState

section Addressing

variable (g : GameState) (inst : Instruction)

/-- A command addresses a cell by its number, within a range, or as the one a variable names. -/
def Addresses (id : Int) : Prop :=
  inst.param 0 = 0 ∧ id = inst.param 1 ∨
    inst.param 0 = 1 ∧ inst.param 1 ≤ id ∧ id ≤ inst.param 2 ∨
    inst.param 0 = 2 ∧ id = g.vars.get (inst.param 1)

instance (id : Int) : Decidable (g.Addresses inst id) := by
  unfold Addresses
  infer_instance

/-- The cells of a storage that a command addresses, in the order it writes them. -/
def cellsOf (size : Nat) : List Int :=
  (g.addressed? inst).elim [] fun (first, last) => cellsIn first last size

theorem mem_cellsOf (size : Nat) (id : Int) :
    id ∈ g.cellsOf inst size ↔ g.Addresses inst id ∧ 1 ≤ id ∧ id ≤ size := by
  unfold cellsOf addressed? Addresses
  split <;> simp_all [mem_cellsIn] <;> omega

/-- Those that a command writes are in the storage anyway. -/
theorem mem_cellsOf_and_stored (size : Nat) (id : Int) :
    id ∈ g.cellsOf inst size ∧ 1 ≤ id ∧ id ≤ size ↔ g.Addresses inst id ∧ 1 ≤ id ∧ id ≤ size := by
  rw [mem_cellsOf]
  tauto

theorem nodup_cellsOf (size : Nat) : (g.cellsOf inst size).Nodup := by
  unfold cellsOf
  cases g.addressed? inst with
  | none => exact List.nodup_nil
  | some range => exact nodup_cellsIn range.1 range.2 size

theorem length_cellsOf_le (size : Nat) : (g.cellsOf inst size).length ≤ size := by
  unfold cellsOf
  cases g.addressed? inst with
  | none => exact Nat.zero_le size
  | some range => exact length_cellsIn_le range.1 range.2 size

end Addressing

section Switching

variable {g g' : GameState} {inst : Instruction}

/-- What a switch becomes: on, off, or the other way round. -/
def switched (mode : Int) (old : Bool) : Bool :=
  if mode = 0 then true else if mode = 1 then false else !old

/-- A switch command takes the game to another, in as many writes as there are switches at most. -/
structure Sets (inst : Instruction) (g g' : GameState) : Prop where
  rest : g' = { g with switches := g'.switches }
  size : g'.switches.size = g.switches.size
  get : ∀ id, g'.switches.get id =
    if g.Addresses inst id ∧ 1 ≤ id ∧ id ≤ g.switches.size then
      switched (inst.param 3) (g.switches.get id)
    else g.switches.get id
  writes : g' = (g.cellsOf inst g.switches.size).foldl (writeSwitch (inst.param 3)) g
  work : (g.cellsOf inst g.switches.size).length ≤ g.switches.size

theorem writeSwitch_switched (mode : Int) (g : GameState) (id : Int) :
    g.writeSwitch mode id = g.setSwitch id (switched mode (g.switches.get id)) := by
  unfold writeSwitch switched
  split <;> simp_all [setSwitch, Switches.flip]

theorem foldl_writeSwitch (mode : Int) (cells : List Int) (g : GameState) :
    cells.foldl (writeSwitch mode) g =
      { g with
        switches := cells.foldl (fun s id => s.set id (switched mode (s.get id))) g.switches } := by
  induction cells generalizing g with
  | nil => rfl
  | cons first rest ih =>
    rw [List.foldl_cons, List.foldl_cons, writeSwitch_switched, ih]
    rfl

theorem controlSwitches_eq_foldl (inst : Instruction) (g : GameState) :
    g.controlSwitches inst =
      (g.cellsOf inst g.switches.size).foldl (writeSwitch (inst.param 3)) g := by
  unfold controlSwitches cellsOf
  cases g.addressed? inst <;> rfl

theorem controlSwitches_sets (inst : Instruction) (g : GameState) :
    Sets inst g (g.controlSwitches inst) := by
  have hwrites := controlSwitches_eq_foldl inst g
  have hfold := hwrites.trans (foldl_writeSwitch _ _ g)
  obtain ⟨hsize, hget⟩ := foldl_write Switches.size Switches.get _ (switched (inst.param 3))
    (fun s id => s.size_set id _) (fun s id other => s.get_set id other _)
    (nodup_cellsOf g inst g.switches.size) g.switches
  constructor
  case rest => rw [hfold]
  case size =>
    rw [hfold]
    exact hsize
  case get =>
    intro id
    rw [hfold]
    exact (hget id).trans (if_congr (mem_cellsOf_and_stored g inst _ id) rfl rfl)
  case writes => exact hwrites
  case work => exact length_cellsOf_le g inst _

end Switching

section Reckoning

variable {g g' : GameState} {inst : Instruction}

/-- What an operation makes of two numbers, if it makes anything of them. -/
def reckon? (op current value : Int) : Option Int :=
  match op with
  | 0 => some value
  | 1 => some (current + value)
  | 2 => some (current - value)
  | 3 => some (current * value)
  | 4 => if value = 0 then none else some (current.tdiv value)
  | 5 => if value = 0 then none else some (current.tmod value)
  | _ => none

/-- The operand's bounds lie outside those of a variable, so that stopping at them first makes no
difference. -/
theorem clamp_saturate (n : Int) :
    clamp Variables.minValue Variables.maxValue (saturate n) =
      clamp Variables.minValue Variables.maxValue n := by
  simp only [clamp, saturate, Variables.minValue, Variables.maxValue, operandMin, operandMax]
  omega

theorem clamp_combine {op current value : Int} (hcurrent : Variables.Holds current) :
    clamp Variables.minValue Variables.maxValue (combine op current value) =
      (reckon? op current value).elim current (clamp Variables.minValue Variables.maxValue) := by
  have hkept := clamp_of_mem hcurrent.1 hcurrent.2
  fun_cases combine op current value
  case case1 => rfl
  case case2 => exact clamp_saturate _
  case case3 => exact clamp_saturate _
  case case4 => exact clamp_saturate _
  all_goals simp_all [reckon?]

/-- A number no larger than what a variable holds is held as well. -/
theorem holds_of_natAbs_le {current n : Int} (hcurrent : Variables.Holds current)
    (hle : n.natAbs ≤ current.natAbs) :
    Variables.Holds n := by
  obtain ⟨hlow, hhigh⟩ := hcurrent
  unfold Variables.Holds
  simp only [Variables.minValue, Variables.maxValue] at *
  omega

/-- No division leaves the range of a variable. -/
theorem reckon?_division {op current value result : Int} (hcurrent : Variables.Holds current)
    (hop : op = 4 ∨ op = 5) (hresult : reckon? op current value = some result) :
    Variables.Holds result := by
  rcases hop with rfl | rfl
  · simp only [reckon?, Option.ite_none_left_eq_some, Option.some.injEq] at hresult
    rw [← hresult.2]
    apply holds_of_natAbs_le hcurrent
    rw [Int.natAbs_tdiv]
    exact Nat.div_le_self _ _
  · simp only [reckon?, Option.ite_none_left_eq_some, Option.some.injEq] at hresult
    rw [← hresult.2]
    apply holds_of_natAbs_le hcurrent
    rw [Int.natAbs_tmod]
    exact Nat.mod_le _ _

/-- What the operand of a command comes to, and the dice once it is read. -/
inductive Operand (g : GameState) (inst : Instruction) : Int → Dice → Prop
  | number (hkind : inst.param 4 = 0) : Operand g inst (inst.param 5) g.dice
  | cell (hkind : inst.param 4 = 1) : Operand g inst (g.vars.get (inst.param 5)) g.dice
  | roll {value : Int} {dice : Dice} (hkind : inst.param 4 = 2)
      (hdraw : g.dice.between (min (inst.param 5) (inst.param 6))
        (max (inst.param 5) (inst.param 6)) = (value, dice))
      (hlow : min (inst.param 5) (inst.param 6) ≤ value)
        (hhigh : value ≤ max (inst.param 5) (inst.param 6)) :
      Operand g inst value dice

/-- A variable command takes the game to another by its operand, in as many writes as there are
variables at most. -/
structure Reckons (inst : Instruction) (value : Int) (dice : Dice) (g g' : GameState) : Prop where
  rest : g' = { g with vars := g'.vars, dice := dice }
  size : g'.vars.size = g.vars.size
  get : ∀ id, g'.vars.get id =
    if g.Addresses inst id ∧ 1 ≤ id ∧ id ≤ g.vars.size then
      (reckon? (inst.param 3) (g.vars.get id) value).elim (g.vars.get id)
        (clamp Variables.minValue Variables.maxValue)
    else g.vars.get id
  held : ∀ id, Variables.Holds (g'.vars.get id)
  division : inst.param 3 = 4 ∨ inst.param 3 = 5 →
    ∀ id result, reckon? (inst.param 3) (g.vars.get id) value = some result → Variables.Holds result
  writes : g' = (g.cellsOf inst g.vars.size).foldl (writeVariable (inst.param 3) value)
    { g with dice := dice }
  work : (g.cellsOf inst g.vars.size).length ≤ g.vars.size

theorem foldl_writeVariable (op value : Int) (cells : List Int) (g : GameState) :
    cells.foldl (writeVariable op value) g =
      { g with
        vars := cells.foldl (fun v id => v.set id (combine op (v.get id) value)) g.vars } := by
  induction cells generalizing g with
  | nil => rfl
  | cons first rest ih =>
    rw [List.foldl_cons, List.foldl_cons, ih]
    rfl

theorem controlVariables_eq_foldl {inst : Instruction} {g : GameState} {value : Int} {dice : Dice}
    (hoperand : g.operand? inst = some (value, { g with dice := dice })) :
    g.controlVariables inst =
      (g.cellsOf inst g.vars.size).foldl
        (writeVariable (inst.param 3) value) { g with dice := dice } := by
  unfold controlVariables cellsOf
  rw [hoperand]
  -- the dice have no part in what is addressed
  have hrolled : addressed? { g with dice := dice } inst = g.addressed? inst := rfl
  dsimp only
  rw [hrolled]
  cases g.addressed? inst <;> rfl

/-- An operand that is known is read before anything is written. -/
theorem operand?_cases (inst : Instruction) (g : GameState)
    (hparams : ∀ p ∈ inst.params, IsOperand p) :
    (inst.param 4 ≠ 0 ∧ inst.param 4 ≠ 1 ∧ inst.param 4 ≠ 2 ∧ g.operand? inst = none) ∨
      ∃ value dice, g.operand? inst = some (value, { g with dice := dice }) ∧
        Operand g inst value dice := by
  fun_cases operand? inst g
  case case1 hkind => exact .inr ⟨_, g.dice, rfl, .number hkind⟩
  case case2 hkind => exact .inr ⟨_, g.dice, rfl, .cell hkind⟩
  case case3 hkind a b hpair value dice hdraw =>
    obtain ⟨rfl, rfl⟩ := Prod.mk.inj hpair
    obtain ⟨hfirst, hfirst'⟩ := Instruction.isOperand_param hparams 5
    obtain ⟨hsecond, hsecond'⟩ := Instruction.isOperand_param hparams 6
    have hle : min (inst.param 5) (inst.param 6) ≤ max (inst.param 5) (inst.param 6) := by omega
    have hleast : operandMin ≤ min (inst.param 5) (inst.param 6) := by omega
    have hgreatest : max (inst.param 5) (inst.param 6) ≤ operandMax := by omega
    obtain ⟨hlow, hhigh⟩ := Dice.between_mem_of_operands hle hleast hgreatest g.dice
    rw [hdraw] at hlow hhigh
    exact .inr ⟨value, dice, rfl, .roll hkind hdraw hlow hhigh⟩
  case case4 hnumber hcell hroll => exact .inl ⟨hnumber, hcell, hroll, rfl⟩

theorem controlVariables_reckons (inst : Instruction) {g : GameState} {value : Int} {dice : Dice}
    (hvars : ∀ id, Variables.Holds (g.vars.get id))
    (hoperand : g.operand? inst = some (value, { g with dice := dice })) :
    Reckons inst value dice g (g.controlVariables inst) := by
  have hwrites := controlVariables_eq_foldl hoperand
  have hfold := hwrites.trans (foldl_writeVariable _ _ _ _)
  obtain ⟨hsize, hget⟩ := foldl_write Variables.size Variables.get _
    (fun old => clamp Variables.minValue Variables.maxValue (combine (inst.param 3) old value))
    (fun v id => v.size_set id _) (fun v id other => v.get_set id other _)
    (nodup_cellsOf g inst g.vars.size) g.vars
  have hcell (id : Int) : (g.controlVariables inst).vars.get id =
      if g.Addresses inst id ∧ 1 ≤ id ∧ id ≤ g.vars.size then
        (reckon? (inst.param 3) (g.vars.get id) value).elim (g.vars.get id)
          (clamp Variables.minValue Variables.maxValue)
      else g.vars.get id := by
    rw [hfold, ← clamp_combine (hvars id)]
    exact (hget id).trans (if_congr (mem_cellsOf_and_stored g inst _ id) rfl rfl)
  constructor
  case rest => rw [hfold]
  case size =>
    rw [hfold]
    exact hsize
  case get => exact hcell
  case held =>
    intro id
    rw [hcell, ← clamp_combine (hvars id)]
    split
    · exact ⟨le_clamp _ _ _, clamp_le (by decide) _⟩
    · exact hvars id
  case division => exact fun hop id result => reckon?_division (hvars id) hop
  case writes => exact hwrites
  case work => exact length_cellsOf_le g inst _

end Reckoning

end GameState

namespace Execution

variable {δ σ : Type} [AssetLoader σ] {x : Execution δ σ} {inst : Instruction}

/-- A command on switches or variables changes each cell it addresses, within the storage, from its
own old value, and nothing else but the dice a random operand rolls. -/
theorem control_writes (store : ProgramStore) (hvars : ∀ id, Variables.Holds (x.game.vars.get id))
    (hparams : ∀ p ∈ inst.params, IsOperand p) :
    (inst.opcode = .controlSwitches →
      ∃ g', x.executeBase store inst = (true, x.modifyGame fun _ => g') ∧
      GameState.Sets inst x.game g') ∧
    (inst.opcode = .controlVariables →
      ∃ g', x.executeBase store inst = (true, x.modifyGame fun _ => g') ∧
      ((inst.param 4 ≠ 0 ∧ inst.param 4 ≠ 1 ∧ inst.param 4 ≠ 2 ∧ g' = x.game) ∨
        ∃ value dice, GameState.Operand x.game inst value dice ∧
          GameState.Reckons inst value dice x.game g')) := by
  refine ⟨fun hop => ⟨x.game.controlSwitches inst, ?_, GameState.controlSwitches_sets inst x.game⟩,
    fun hop => ⟨x.game.controlVariables inst, ?_, ?_⟩⟩
  · unfold executeBase
    rw [hop]
    rfl
  · unfold executeBase
    rw [hop]
    rfl
  · rcases GameState.operand?_cases inst x.game hparams with ⟨hnumber, hcell, hroll,
      hnone⟩ | ⟨value, dice, hread, hvalue⟩
    · refine .inl ⟨hnumber, hcell, hroll, ?_⟩
      unfold GameState.controlVariables
      rw [hnone]
    · exact .inr ⟨value, dice, hvalue, GameState.controlVariables_reckons inst hvars hread⟩

/-- Three variables and a command that divides them all, however many there are, by the second. -/
def ledger : Execution Unit InstantAssets where
  interp := {}
  table := ()
  world := { game := { vars := ⟨#[7, -3, 100]⟩ }, assets := {} }

def division : Instruction where
  opcode := .controlVariables
  params := [1, -5, 2147483647, 4, 1, 2]

/-- All are divided by what the second held before it was divided itself. -/
theorem control_writes_of_division :
    (∀ id, Variables.Holds (ledger.game.vars.get id)) ∧ (∀ p ∈ division.params, IsOperand p) ∧
      ((ledger.executeBase {} division).2.game.vars.get 1 = -2 ∧
        (ledger.executeBase {} division).2.game.vars.get 2 = 1 ∧
        (ledger.executeBase {} division).2.game.vars.get 3 = -33) := by
  have hvars : ∀ id, Variables.Holds (ledger.game.vars.get id) := by
    apply Variables.holds_get
    simp [ledger, game, Variables.Holds, Variables.minValue, Variables.maxValue]
  have hparams : ∀ p ∈ division.params, IsOperand p := by
    simp [division, IsOperand, operandMin, operandMax]
  refine ⟨hvars, hparams, ?_⟩
  obtain ⟨g', hrun, hcase⟩ := (control_writes {} hvars hparams).2 rfl
  have hgame : (ledger.executeBase {} division).2.game = g' := by rw [hrun]; rfl
  rcases hcase with ⟨-, hcell, -⟩ | ⟨value, dice, hvalue, hreckons⟩
  · exact absurd rfl hcell
  · -- the operand is the second variable, and every variable is addressed
    have hthree : value = -3 := by
      cases hvalue with
      | number hkind => exact absurd hkind (by decide)
      | cell hkind => rfl
      | roll hkind => exact absurd hkind (by decide)
    subst hthree
    rw [hgame, hreckons.get, hreckons.get, hreckons.get]
    decide

end Execution

end ActiveBattle
