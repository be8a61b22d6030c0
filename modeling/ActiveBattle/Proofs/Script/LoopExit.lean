import ActiveBattle.Proofs.Script.Block
import ActiveBattle.Proofs.Script.Frame
import ActiveBattle.Script.BattleCommand

/-!
# Leaving loops

A break looks for the next loop end that is indented less than itself. That is the end of its own
loop unless the break stands in a branch and another loop follows that branch within the same body
(`breakLoop_iff`): the end of that other loop comes first.
-/

namespace ActiveBattle

set_option autoImplicit false

namespace Block

/-- The places of the breaks of a block whose first line has the number `first`, each with the place
of the line that closes the innermost loop around it. The block itself stands in a loop that closes
at `closing`, if in any. -/
def breaks (first : Nat) (closing : Option Nat) : Block → List (Nat × Option Nat)
  | nil => []
  | command inst rest =>
    (if inst.opcode = .breakLoop then [(first, closing)] else []) ++ rest.breaks (first + 1) closing
  | branch _ _ _ arm rest =>
    arm.breaks (first + 1) closing ++ rest.breaks (first + arm.size + 2) closing
  | branchElse _ _ _ _ arm other rest =>
    arm.breaks (first + 1) closing ++ other.breaks (first + arm.size + 2) closing ++
      rest.breaks (first + arm.size + other.size + 3) closing
  | loop _ _ body rest =>
    body.breaks (first + 1) (some (first + body.size + 1)) ++
      rest.breaks (first + body.size + 2) closing

/-- A break at a place of a block: the lines around it, and where its loop closes if it is in the
block itself. -/
structure BreakAt (b : Block) (k : Int) (first : Nat) (closing : Option Nat) (index : Nat)
    (exit : Option Nat) (before : Program) (line : Instruction) (after : Program) : Prop where
  code : b.code k = before ++ line :: after
  place : index = first + before.length
  opcode : line.opcode = .breakLoop
  leaves : exit = closing ∨ ∃ inside finish outside, after = inside ++ finish :: outside ∧
    exit = some (index + 1 + inside.length) ∧ finish.opcode = .endLoop ∧
      finish.indent < line.indent ∧ ∀ other ∈ inside, finish.indent < other.indent

/-- Around a part of a block: the same break, with more lines on both sides. -/
theorem BreakAt.within {part b : Block} {k j : Int} {first start : Nat} {closing : Option Nat}
    {index : Nat} {exit : Option Nat} {before after : Program} {line : Instruction}
    (h : BreakAt part j start closing index exit before line after) (front back : Program)
    (hcode : b.code k = front ++ (part.code j ++ back)) (hstart : start = first + front.length) :
    BreakAt b k first closing index exit (front ++ before) line (after ++ back) := by
  refine ⟨?_, ?_, h.opcode, ?_⟩
  · rw [hcode, h.code]
    simp
  · rw [h.place, hstart, List.length_append]
    omega
  · rcases h.leaves with hexit | ⟨inside, finish, outside, rfl, hexit⟩
    · exact .inl hexit
    · exact .inr ⟨inside, finish, outside ++ back, by simp, hexit⟩

theorem exists_breakAt {b : Block} {k : Int} {first : Nat} {closing : Option Nat} {index : Nat}
    {exit : Option Nat} (h : (index, exit) ∈ b.breaks first closing) :
    ∃ before line after, BreakAt b k first closing index exit before line after := by
  induction b generalizing k first closing with
  | nil => exact absurd h List.not_mem_nil
  | command inst rest ih =>
    rcases List.mem_append.mp h with h | h
    · split at h
      · rename_i hopcode
        obtain ⟨rfl, rfl⟩ := Prod.mk.inj (List.mem_singleton.mp h)
        exact ⟨[], inst.indented k, rest.code k, rfl, rfl, hopcode, .inl rfl⟩
      · exact absurd h List.not_mem_nil
    · obtain ⟨before, line, after, hbreak⟩ := ih (k := k) h
      exact ⟨_, line, _, hbreak.within [inst.indented k] [] (by simp [code]) rfl⟩
  | branch flavour head finish arm rest iharm ihrest =>
    rcases List.mem_append.mp h with h | h
    · obtain ⟨before, line, after, hbreak⟩ := iharm (k := k + 1) h
      exact ⟨_, line, _, hbreak.within [head.line flavour.head k] _ rfl rfl⟩
    · obtain ⟨before, line, after, hbreak⟩ := ihrest (k := k) h
      refine ⟨_, line, _, hbreak.within (head.line flavour.head k :: arm.code (k + 1) ++
        [finish.line flavour.finish k]) [] (by simp [code]) ?_⟩
      simp [length_code]
      omega
  | branchElse flavour head middle finish arm other rest iharm ihother ihrest =>
    rcases List.mem_append.mp h with h | h
    · rcases List.mem_append.mp h with h | h
      · obtain ⟨before, line, after, hbreak⟩ := iharm (k := k + 1) h
        exact ⟨_, line, _, hbreak.within [head.line flavour.head k] _ rfl rfl⟩
      · obtain ⟨before, line, after, hbreak⟩ := ihother (k := k + 1) h
        refine ⟨_, line, _, hbreak.within (head.line flavour.head k :: arm.code (k + 1) ++
          [middle.line flavour.middle k]) (finish.line flavour.finish k :: rest.code k)
          (by simp [code]) ?_⟩
        simp [length_code]
        omega
    · obtain ⟨before, line, after, hbreak⟩ := ihrest (k := k) h
      refine ⟨_, line, _, hbreak.within (head.line flavour.head k :: arm.code (k + 1) ++
        middle.line flavour.middle k :: other.code (k + 1) ++ [finish.line flavour.finish k])
        [] (by simp [code]) ?_⟩
      simp [length_code]
      omega
  | loop head finish body rest ihbody ihrest =>
    rcases List.mem_append.mp h with h | h
    · obtain ⟨before, line, after, hbreak⟩ := ihbody (k := k + 1) h
      -- A break outside the loops of the body leaves this one.
      have hbody : BreakAt (loop head finish body rest) k first _ _ _ _ _ _ :=
        hbreak.within [head.line .loop k] (finish.line .endLoop k :: rest.code k) rfl rfl
      refine ⟨_, line, _, hbody.code, hbody.place, hbody.opcode, .inr ?_⟩
      rcases hbody.leaves with hexit | hexit
      · have hdeeper (inst : Instruction) (hinst : inst ∈ line :: after) : k < inst.indent := by
          have hle : k + 1 ≤ inst.indent := le_indent (b := body) (by
            rw [hbreak.code]
            exact List.mem_append_right before hinst)
          omega
        refine ⟨after, finish.line .endLoop k, rest.code k, rfl, ?_, rfl, ?_, ?_⟩
        · have hsize := congrArg List.length hbreak.code
          rw [length_code, List.length_append, List.length_cons] at hsize
          rw [hexit, hbreak.place]
          congr 1
          omega
        · exact hdeeper line List.mem_cons_self
        · intro other hother
          exact hdeeper other (List.mem_cons_of_mem line hother)
      · exact hexit
    · obtain ⟨before, line, after, hbreak⟩ := ihrest (k := k) h
      refine ⟨_, line, _, hbreak.within (head.line .loop k :: body.code (k + 1) ++
        [finish.line .endLoop k]) [] (by simp [code]) ?_⟩
      simp [length_code]
      omega

end Block

namespace Interpreter

/-- Breaking leads to the first loop end to come that is indented less. -/
theorem breakLoop_eq {i : Interpreter} {f : Frame} {below : List Frame} {line finish : Instruction}
    {before inside outside : Program} (hstack : i.stack = f :: below)
    (hf : f.Stands before (line :: (inside ++ finish :: outside)))
    (hfinish : finish.opcode = .endLoop) (hindent : finish.indent < line.indent) :
    ∃ target, i.breakLoop line = (true, { i with stack := f.jump target :: below }) ∧
      (target = before.length + 1 + inside.length ↔
        ∀ other ∈ inside, other.opcode = .endLoop → line.indent ≤ other.indent) := by
  let stops (other : Instruction) : Bool := other.opcode = .endLoop && other.indent < line.indent
  have hstop : stops finish = true := by simp [stops, hfinish, hindent]
  refine ⟨f.seek stops, ?_, ?_⟩
  · simp only [breakLoop, hstack]
    exact if_pos (hf.seek_lt hstop)
  · rw [hf.seek_eq_iff hstop]
    simp [stops]

end Interpreter

namespace Execution

variable {δ σ : Type} [AssetLoader σ]

/-- A break goes on right after its own loop just when no loop end before that is indented less than
the break. It always does when it stands directly in the body of its loop. -/
theorem breakLoop_iff {table : CommandTable δ σ} {store : ProgramStore} {b : Block} {k : Int}
    {index exit : Nat} {x : Execution δ σ} {f : Frame} {below : List Frame} {line : Instruction}
    (htable : ∀ inst, inst.opcode = .breakLoop → table store inst x = none)
    (hbreak : (index, some exit) ∈ b.breaks 0 none) (hstack : x.interp.stack = f :: below)
    (hprogram : f.program = b.code k) (hcursor : f.cursor = index)
    (hline : f.current? = some line) :
    ((x.step table store line).interp.stack = f.jump (exit + 1) :: below ↔
      ∀ other ∈ ((b.code k).take exit).drop (index + 1),
        other.opcode = .endLoop → line.indent ≤ other.indent) ∧
      ∃ finish, (b.code k)[exit]? = some finish ∧ finish.opcode = .endLoop ∧
        finish.indent < line.indent ∧
        (line.indent = finish.indent + 1 →
          (x.step table store line).interp.stack = f.jump (exit + 1) :: below) := by
  obtain ⟨before, found, after, hcode, hplace, hopcode, hexit⟩ :=
    Block.exists_breakAt (k := k) hbreak
  rw [Nat.zero_add] at hplace
  have hf : f.Stands before (found :: after) := ⟨hprogram.trans hcode, hcursor.trans hplace⟩
  obtain rfl : line = found := Option.some.inj (hline.symm.trans hf.current?)
  rcases hexit with hexit | ⟨inside, finish, outside, rfl, hexit, hfinish, hindent, hinside⟩
  · contradiction
  have hexit : exit = before.length + 1 + inside.length := by
    rw [← hplace]
    exact Option.some.inj hexit
  obtain ⟨target, hperform, htarget⟩ := Interpreter.breakLoop_eq hstack hf hfinish hindent
  have hstep : (x.step table store line).interp.stack = f.jump (target + 1) :: below := by
    have hbase : x.executeBase store line =
        (true, { x with interp := { x.interp with stack := f.jump target :: below } }) := by
      simp only [executeBase, hopcode, viaInterp, hperform]
    simp only [step, perform, htable line hopcode, Option.getD_none, hbase, if_true,
      modifyInterp, hstack]
    simp [Frame.advance, Frame.jump]
  have hlands : (x.step table store line).interp.stack = f.jump (exit + 1) :: below ↔
      ∀ other ∈ inside, other.opcode = .endLoop → line.indent ≤ other.indent := by
    rw [hstep, ← htarget, hexit]
    simp [Frame.jump]
  have hsplit : b.code k = (before ++ [line]) ++ inside ++ finish :: outside := by
    rw [hcode]
    simp
  have hbehind : ((before ++ [line]) ++ inside).length = exit := by
    rw [hexit]
    simp
    omega
  have hbetween : ((b.code k).take exit).drop (index + 1) = inside := by
    rw [hsplit, List.take_left' hbehind, List.drop_left' (by simp [hplace])]
  refine ⟨?_, finish, ?_, hfinish, hindent, ?_⟩
  · rw [hbetween]
    exact hlands
  · rw [hsplit, List.getElem?_append_right (Nat.le_of_eq hbehind), hbehind, Nat.sub_self]
    rfl
  · intro hdirect
    apply hlands.mpr
    intro other hother _
    have hdeeper := hinside other hother
    omega

/-! ### A loop after the branch of a break -/

namespace Detour

/-- A loop that breaks in a branch, and what follows the branch. -/
def block (follower : Block) : Block :=
  .loop {} {} (.branch .base { params := [0, 1, 1] } {} (.command { opcode := .breakLoop } .nil)
    follower) .nil

def frame (follower : Block) : Frame := ⟨.synthetic, (block follower).code 0, 2, []⟩

def execution (follower : Block) : Execution BattleScript InstantAssets :=
  ⟨{ stack := [frame follower] }, {}, ⟨{}, #[], {}⟩⟩

def breakLine : Instruction := { opcode := .breakLoop, indent := 2 }

end Detour

theorem breakLoop_iff_of_no_follower :
    ((Detour.execution .nil).step sceneCommands {} Detour.breakLine).interp.stack =
      [(Detour.frame .nil).jump 5] := by
  have htable (inst : Instruction) (h : inst.opcode = .breakLoop) :
      sceneCommands {} inst (Detour.execution .nil) = none := by
    simp only [sceneCommands, battleCommands, h]
  have hbetween : ∀ other ∈ (((Detour.block .nil).code 0).take 4).drop 3,
      other.opcode = .endLoop → Detour.breakLine.indent ≤ other.indent := by decide
  have hbreak : (2, some 4) ∈ (Detour.block .nil).breaks 0 none := by decide
  have hprogram : (Detour.frame .nil).program = (Detour.block .nil).code 0 := rfl
  exact (breakLoop_iff htable hbreak rfl hprogram rfl rfl).1.mpr hbetween

/-- With a loop after the branch the break ends up right before the end of its own loop. -/
theorem breakLoop_follower :
    (2, some 6) ∈ (Detour.block (.loop {} {} .nil .nil)).breaks 0 none ∧
      ((Detour.execution (.loop {} {} .nil .nil)).step sceneCommands {}
        Detour.breakLine).interp.stack ≠
        [(Detour.frame (.loop {} {} .nil .nil)).jump 7] := by
  refine ⟨by decide, ?_⟩
  have hlands : ((Detour.execution (.loop {} {} .nil .nil)).step sceneCommands {}
    Detour.breakLine).interp.stack = [(Detour.frame (.loop {} {} .nil .nil)).jump 6] := by
    decide
  rw [hlands]
  decide

end Execution

end ActiveBattle
