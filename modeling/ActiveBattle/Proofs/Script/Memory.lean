import ActiveBattle.Script.Command

/-!
# Commands on switches and variables

A command on a range of cells writes these one by one. Whatever they are, nothing else in the game
changes, except that a random operand rolls the dice.
-/

namespace ActiveBattle.GameState

set_option autoImplicit false

theorem writeSwitch_eq (mode : Int) (g : GameState) (id : Int) :
    ∃ switches, g.writeSwitch mode id = { g with switches := switches } := by
  unfold writeSwitch
  split
  · exact ⟨_, rfl⟩
  · exact ⟨_, rfl⟩
  · exact ⟨_, rfl⟩

theorem controlSwitches_eq (inst : Instruction) (g : GameState) :
    ∃ switches, g.controlSwitches inst = { g with switches := switches } := by
  unfold controlSwitches
  split
  · apply List.foldlRecOn (motive := fun g' : GameState => ∃ switches,
      g' = { g with switches := switches })
    · exact ⟨g.switches, rfl⟩
    · rintro _ ⟨switches, rfl⟩ id -
      obtain ⟨written, h⟩ := writeSwitch_eq (inst.param 3) { g with switches := switches } id
      exact ⟨written, h⟩
  · exact ⟨g.switches, rfl⟩

theorem operand?_eq {inst : Instruction} {g rolled : GameState} {value : Int}
    (h : g.operand? inst = some (value, rolled)) : ∃ dice, rolled = { g with dice := dice } := by
  unfold operand? at h
  split at h
  · obtain ⟨-, rfl⟩ := Prod.mk.inj (Option.some.inj h)
    exact ⟨g.dice, rfl⟩
  · obtain ⟨-, rfl⟩ := Prod.mk.inj (Option.some.inj h)
    exact ⟨g.dice, rfl⟩
  · obtain ⟨-, rfl⟩ := Prod.mk.inj (Option.some.inj h)
    exact ⟨_, rfl⟩
  · contradiction

theorem controlVariables_eq (inst : Instruction) (g : GameState) :
    ∃ vars dice, g.controlVariables inst = { g with vars := vars, dice := dice } := by
  unfold controlVariables
  split
  · exact ⟨g.vars, g.dice, rfl⟩
  · rename_i value rolled h
    obtain ⟨dice, rfl⟩ := operand?_eq h
    split
    · apply List.foldlRecOn (motive := fun g' : GameState => ∃ vars dice,
        g' = { g with vars := vars, dice := dice })
      · exact ⟨g.vars, dice, rfl⟩
      · rintro _ ⟨vars, dice, rfl⟩ id -
        exact ⟨_, dice, rfl⟩
    · exact ⟨g.vars, dice, rfl⟩

end ActiveBattle.GameState
