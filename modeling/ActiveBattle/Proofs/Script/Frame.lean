import ActiveBattle.Script.Frame

/-!
# Where a frame stands

A frame splits its program into what is behind the cursor and what is to come. The searches that
branches and loops make are told from the lines they pass.
-/

namespace ActiveBattle

set_option autoImplicit false

namespace Frame

@[simp] theorem setBranch_program (f : Frame) (indent choice : Int) :
    (f.setBranch indent choice).program = f.program := by
  unfold setBranch
  split <;> rfl

@[simp] theorem setBranch_cursor (f : Frame) (indent choice : Int) :
    (f.setBranch indent choice).cursor = f.cursor := by
  unfold setBranch
  split <;> rfl

/-- The frame has `before` behind it and `after` to come. -/
structure Stands (f : Frame) (before after : Program) : Prop where
  program : f.program = before ++ after
  cursor : f.cursor = before.length

namespace Stands

variable {f : Frame} {before after : Program} {inst : Instruction}

theorem current? (h : f.Stands before (inst :: after)) : f.current? = some inst := by
  unfold Frame.current?
  rw [h.program, h.cursor]
  simp

theorem isComplete_eq_false (h : f.Stands before (inst :: after)) : f.isComplete = false := by
  unfold isComplete
  rw [h.program, h.cursor]
  simp

theorem isComplete (h : f.Stands before []) : f.isComplete = true := by
  unfold Frame.isComplete
  rw [h.program, h.cursor]
  simp

theorem advance (h : f.Stands before (inst :: after)) :
    f.advance.Stands (before ++ [inst]) after := by
  constructor
  · rw [List.append_assoc]
    exact h.program
  · simp [Frame.advance, h.cursor]

/-- Jumping over the lines between. -/
theorem jump {between : Program} {target : Nat} (h : f.Stands before (between ++ after))
    (htarget : target = before.length + between.length) :
    (f.jump target).Stands (before ++ between) after := by
  constructor
  · rw [List.append_assoc]
    exact h.program
  · rw [List.length_append]
    exact htarget

theorem drop_eq (h : f.Stands before (inst :: after)) : f.program.drop (f.cursor + 1) = after := by
  rw [h.program, h.cursor, ← List.drop_drop, List.drop_left]
  rfl

theorem setBranch (h : f.Stands before after) (indent choice : Int) :
    (f.setBranch indent choice).Stands before after :=
  ⟨by rw [setBranch_program]; exact h.program, by rw [setBranch_cursor]; exact h.cursor⟩

/-- A search forward ends at the first line that stops it. -/
theorem seek_eq_iff {between : Program} {stop : Instruction} {stops : Instruction → Bool}
    (h : f.Stands before (inst :: (between ++ stop :: after))) (hstop : stops stop = true) :
    f.seek stops = before.length + 1 + between.length ↔ ∀ line ∈ between, stops line = false := by
  have hhead : (stop :: after).findIdx stops = 0 := by simp [List.findIdx_cons, hstop]
  unfold seek
  rw [h.drop_eq, h.cursor, List.findIdx_append, hhead]
  constructor
  · intro heq line hline
    split at heq
    · omega
    · rename_i hnone
      exact Bool.eq_false_iff.mpr fun hstops =>
        hnone (List.findIdx_lt_length_of_exists ⟨line, hline, hstops⟩)
  · intro hnone
    rw [List.findIdx_eq_length_of_false hnone, if_neg (Nat.lt_irrefl _)]
    omega

theorem seek_eq {between : Program} {stop : Instruction} {stops : Instruction → Bool}
    (h : f.Stands before (inst :: (between ++ stop :: after)))
    (hbetween : ∀ line ∈ between, stops line = false) (hstop : stops stop = true) :
    f.seek stops = before.length + 1 + between.length :=
  (h.seek_eq_iff hstop).mpr hbetween

/-- A search ends within the program when a line to come stops it. -/
theorem seek_lt {between : Program} {stop : Instruction} {stops : Instruction → Bool}
    (h : f.Stands before (inst :: (between ++ stop :: after))) (hstop : stops stop = true) :
    f.seek stops < f.program.length := by
  have hfound : (between ++ stop :: after).findIdx stops < (between ++ stop :: after).length :=
    List.findIdx_lt_length_of_exists ⟨stop, by simp, hstop⟩
  have hlength : f.program.length = before.length + 1 + (between ++ stop :: after).length := by
    rw [h.program, List.length_append, List.length_cons]
    omega
  unfold seek
  rw [h.drop_eq, hlength, h.cursor]
  omega

/-- A search backward ends at the last line that stops it. -/
theorem seekBack?_eq {between : Program} {stop : Instruction} {stops : Instruction → Bool}
    (h : f.Stands (before ++ stop :: between) after)
    (hbetween : ∀ line ∈ between, stops line = false) (hstop : stops stop = true) :
    f.seekBack? stops = some before.length := by
  have hbehind : f.program.take f.cursor = before ++ stop :: between := by
    rw [h.program, h.cursor, List.take_left]
  have hnone : between.reverse.findIdx? stops = none := by
    rw [List.findIdx?_eq_none_iff]
    intro line hline
    rw [hbetween line (List.mem_reverse.mp hline)]
  have hback : (before ++ stop :: between).reverse = between.reverse ++ stop :: before.reverse := by
    simp
  unfold seekBack?
  dsimp only
  rw [hbehind, hback, List.findIdx?_append, hnone, List.findIdx?_cons, hstop]
  simp

end Stands

end Frame

end ActiveBattle
