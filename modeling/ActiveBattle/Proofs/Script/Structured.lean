import ActiveBattle.Proofs.Script.Play

/-!
# Blocks as the interpreter runs them

The interpreter knows nothing of blocks. It searches for the lines that end an arm and keeps a
choice for every indent, and never clears one. Searches pass over deeper lines and so end within
their own block; choices are made anew by each branch before its else arm asks for them, and deeper
branches make theirs at other indents. So updates perform the commands that a block plays, all of
them and no others (`updates_play`).
-/

namespace ActiveBattle

set_option autoImplicit false

/-- Where a branch goes on whose test fails. -/
def Flavour.stops : Flavour → List Opcode
  | base => [.elseBranch, .endBranch]
  | battle => battleBranchStops

/-- Where an else arm ends that is not taken. -/
def Flavour.ends : Flavour → List Opcode
  | base => [.endBranch]
  | battle => [.endBranchBattle, .endBranch]

/-- The lines at which a search over deeper ones stops. -/
def Instruction.stopsAt (codes : List Opcode) (k : Int) (line : Instruction) : Bool :=
  line.indent ≤ k && codes.contains line.opcode

/-- The lines at which the end of a loop finds its head. -/
def Instruction.opensLoop (k : Int) (line : Instruction) : Bool :=
  line.opcode = .loop && line.indent = k

theorem stopsAt_eq_false {b : Block} {codes : List Opcode} {k : Int} (line : Instruction)
    (h : line ∈ b.code (k + 1)) : line.stopsAt codes k = false := by
  have hdeeper := Block.le_indent h
  have hnot : ¬line.indent ≤ k := by omega
  simp [Instruction.stopsAt, hnot]

theorem stops_middle (flavour : Flavour) (o : Operands) (k : Int) :
    (o.line flavour.middle k).stopsAt flavour.stops k = true := by
  cases flavour <;> simp [Instruction.stopsAt, Operands.line, Flavour.stops, Flavour.middle,
    battleBranchStops]

theorem stops_finish (flavour : Flavour) (o : Operands) (k : Int) :
    (o.line flavour.finish k).stopsAt flavour.stops k = true := by
  cases flavour <;> simp [Instruction.stopsAt, Operands.line, Flavour.stops, Flavour.finish,
    battleBranchStops]

theorem ends_finish (flavour : Flavour) (o : Operands) (k : Int) :
    (o.line flavour.finish k).stopsAt flavour.ends k = true := by
  cases flavour <;> simp [Instruction.stopsAt, Operands.line, Flavour.ends, Flavour.finish]

theorem isBlock_line (flavour : Flavour) (o : Operands) (k : Int) :
    (o.line flavour.head k).opcode.isBlock = true ∧
      (o.line flavour.middle k).opcode.isBlock = true ∧
      (o.line flavour.finish k).opcode.isBlock = true := by
  cases flavour <;> exact ⟨rfl, rfl, rfl⟩

theorem opensLoop_eq_false {b : Block} {k : Int} (line : Instruction) (h : line ∈ b.code (k + 1)) :
    line.opensLoop k = false := by
  have hdeeper := Block.le_indent h
  have hnot : line.indent ≠ k := by omega
  simp [Instruction.opensLoop, hnot]

section Lines

variable {σ : Type} [AssetLoader σ] {store : ProgramStore} {i : Interpreter} {f : Frame}
  {s : BattleScript × World σ} {flavour : Flavour} {o : Operands} {k : Int}

open Execution

theorem step_of_perform {inst : Instruction} {go : Bool} {g : Frame} {t : BattleScript × World σ}
    (h : (standing i f s).perform sceneCommands store inst = (go, standing i g t)) :
    (standing i f s).step sceneCommands store inst =
      standing i (if go then g.advance else g) t := by
  unfold step
  dsimp only
  rw [h]
  cases go <;> rfl

theorem step_simple {inst : Instruction} (hinst : inst.IsSimple σ store) (hs : s.2.IsQuiet) :
    (standing i f s).step sceneCommands store inst = standing i f.advance (inst.effect store s) :=
  step_of_perform (hinst.perform (standing i f s) hs)

theorem perform_head : (standing i f s).perform sceneCommands store (o.line flavour.head k) =
    (standing i f s).viaInterp (·.branchOn (o.line flavour.head k)
      (flavour.test (o.line flavour.head k) s) flavour.stops) := by
  cases flavour <;> rfl

/-- A branch whose test holds goes on with its first arm. -/
theorem step_head_of_test (h : flavour.test (o.line flavour.head k) s = true) :
    (standing i f s).step sceneCommands store (o.line flavour.head k) =
      standing i (f.setBranch k branchTaken).advance s := by
  have hperform : (standing i f s).perform sceneCommands store (o.line flavour.head k) = _ :=
    perform_head
  rw [h] at hperform
  exact step_of_perform hperform

/-- A branch whose test fails looks for its else arm or its end. -/
theorem step_head_of_not_test (h : flavour.test (o.line flavour.head k) s = false) :
    (standing i f s).step sceneCommands store (o.line flavour.head k) =
      standing i ((f.jump (f.seek (·.stopsAt flavour.stops k))).setBranch k branchElse) s := by
  have hperform : (standing i f s).perform sceneCommands store (o.line flavour.head k) = _ :=
    perform_head
  rw [h] at hperform
  exact step_of_perform hperform

theorem perform_middle : (standing i f s).perform sceneCommands store (o.line flavour.middle k) =
    (standing i f s).viaInterp
      (·.chooseOption (o.line flavour.middle k) branchElse flavour.ends) := by
  cases flavour <;> rfl

/-- The else arm runs when the branch at its indent chose it. -/
theorem step_middle_of_else (h : f.branchAt k = branchElse) :
    (standing i f s).step sceneCommands store (o.line flavour.middle k) =
      standing i (f.setBranch k branchTaken).advance s := by
  have hchoose : (standing i f s).interp.chooseOption (o.line flavour.middle k) branchElse
    flavour.ends = (true, { i with stack := [f.setBranch k branchTaken] }) := if_pos h
  have hperform : (standing i f s).perform sceneCommands store (o.line flavour.middle k) =
      (true, standing i (f.setBranch k branchTaken) s) := by
    rw [perform_middle, viaInterp, hchoose]
    rfl
  exact step_of_perform hperform

/-- The else arm is passed over after the first one. -/
theorem step_middle_of_taken (h : f.branchAt k = branchTaken) :
    (standing i f s).step sceneCommands store (o.line flavour.middle k) =
      standing i (f.jump (f.seek (·.stopsAt flavour.ends k))) s := by
  have hother : ¬f.branchAt k = branchElse := by
    rw [h]
    decide
  have hchoose : (standing i f s).interp.chooseOption (o.line flavour.middle k) branchElse
    flavour.ends =
      (false, { i with stack := [f.jump (f.seek (·.stopsAt flavour.ends k))] }) := if_neg hother
  have hperform : (standing i f s).perform sceneCommands store (o.line flavour.middle k) =
      (false, standing i (f.jump (f.seek (·.stopsAt flavour.ends k))) s) := by
    rw [perform_middle, viaInterp, hchoose]
    rfl
  exact step_of_perform hperform

theorem step_finish : (standing i f s).step sceneCommands store (o.line flavour.finish k) =
    standing i f.advance s := by
  cases flavour <;> rfl

theorem step_loop :
    (standing i f s).step sceneCommands store (o.line .loop k) = standing i f.advance s := rfl

/-- The end of a loop leads back to its head. -/
theorem step_endLoop {target : Nat}
    (h : f.seekBack? (·.opensLoop k) = some target) :
    (standing i f s).step sceneCommands store (o.line .endLoop k) =
      standing i (f.jump target).advance s := by
  have hback : (standing i f s).interp.endLoop (o.line .endLoop k) =
      { i with stack := [f.jump target] } := by
    have hloop : f.seekBack? (fun other =>
        other.opcode = .loop && other.indent = (o.line .endLoop k).indent) = some target := h
    simp only [Interpreter.endLoop, Interpreter.modifyTop, standing, List.modifyHead_cons, hloop]
  have hperform : (standing i f s).perform sceneCommands store (o.line .endLoop k) =
      (true, standing i (f.jump target) s) := by
    change (true, (standing i f s).modifyInterp (·.endLoop (o.line .endLoop k))) = _
    simp only [modifyInterp, hback]
    rfl
  exact step_of_perform hperform

end Lines

section Simulation

variable {σ : Type} [AssetLoader σ] {store : ProgramStore} {i : Interpreter} {m n : Nat}
  {f g h : Frame} {s t : BattleScript × World σ} {before between after : Program}
  {inst stop : Instruction} {k : Int}

/-- The frame has come to a place of its program without touching the choices at lesser indents. -/
structure Arrives (f : Frame) (k : Int) (before after : Program) (g : Frame) : Prop where
  stands : g.Stands before after
  choices : ∀ j, j < k → g.branchAt j = f.branchAt j

namespace Arrives

theorem start (hf : f.Stands before after) : Arrives f k before after f := ⟨hf, fun _ _ => rfl⟩

theorem trans {j : Int} {before' after' : Program} (hg : Arrives f k before after g)
    (hh : Arrives g j before' after' h) (hjk : k ≤ j) : Arrives f k before' after' h :=
  ⟨hh.stands, fun l hl => (hh.choices l (by omega)).trans (hg.choices l hl)⟩

theorem advance (hg : Arrives f k before (inst :: after) g) :
    Arrives f k (before ++ [inst]) after g.advance :=
  ⟨hg.stands.advance, hg.choices⟩

theorem setBranch (hg : Arrives f k before after g) (choice : Int) :
    Arrives f k before after (g.setBranch k choice) := by
  refine ⟨hg.stands.setBranch k choice, ?_⟩
  intro j hj
  rw [Frame.branchAt_setBranch, if_neg (by omega)]
  exact hg.choices j hj

/-- A search forward over lines that do not stop it. -/
theorem seek {stops : Instruction → Bool}
    (hg : Arrives f k before (inst :: (between ++ stop :: after)) g)
    (hbetween : ∀ line ∈ between, stops line = false) (hstop : stops stop = true) :
    Arrives f k (before ++ inst :: between) (stop :: after) (g.jump (g.seek stops)) := by
  refine ⟨?_, hg.choices⟩
  have hstands : g.Stands before ((inst :: between) ++ stop :: after) := hg.stands
  apply hstands.jump
  rw [hg.stands.seek_eq hbetween hstop, List.length_cons]
  omega

end Arrives

/-- The frame goes on as an outcome tells: it performs its commands and, if it ends, arrives with
what it leaves behind. If it does not, the frame goes on for `n` lines or more. -/
def Follows (store : ProgramStore) (i : Interpreter) (n : Nat) (f : Frame)
    (s : BattleScript × World σ) (arrives : Frame → Prop)
    (outcome : List Instruction × Option (BattleScript × World σ)) : Prop :=
  ∃ count lines g t, Walk sceneCommands store i count f s lines g t ∧
    lines.filter (!·.opcode.isBlock) = outcome.1 ∧
    ((outcome.2 = none ∧ n ≤ count ∧ g.isComplete = false) ∨ (outcome.2 = some t ∧ arrives g))

namespace Follows

variable {arrives mid : Frame → Prop}
  {outcome first : List Instruction × Option (BattleScript × World σ)}

theorem here (hf : arrives f) : Follows store i n f s arrives ([], some s) :=
  ⟨0, [], f, s, .stay f s, rfl, .inr ⟨rfl, hf⟩⟩

theorem mono (hmn : m ≤ n) (hf : Follows store i n f s arrives outcome) :
    Follows store i m f s arrives outcome := by
  obtain ⟨count, lines, g, t, hwalk, hlines, hend⟩ := hf
  refine ⟨count, lines, g, t, hwalk, hlines, ?_⟩
  rcases hend with ⟨hnone, hle, hrunning⟩ | hend
  · exact .inl ⟨hnone, Nat.le_trans hmn hle, hrunning⟩
  · exact .inr hend

theorem imp (hf : Follows store i n f s mid outcome) (harrives : ∀ g, mid g → arrives g) :
    Follows store i n f s arrives outcome := by
  obtain ⟨count, lines, g, t, hwalk, hlines, hend⟩ := hf
  exact ⟨count, lines, g, t, hwalk,
    hlines, hend.imp_right fun ⟨hsome, hg⟩ => ⟨hsome, harrives g hg⟩⟩

/-- The lines of a block's own do not count as commands. -/
theorem line (hcurrent : f.current? = some inst)
    (hstep : (Execution.standing i f s).step sceneCommands store inst = Execution.standing i g t)
    (ht : t.2.IsQuiet) (hblock : inst.opcode.isBlock = true)
    (hg : Follows store i n g t arrives outcome) : Follows store i (n + 1) f s arrives outcome := by
  obtain ⟨count, lines, h, u, hwalk, hlines, hend⟩ := hg
  refine ⟨count + 1, inst :: lines, h, u, .line hcurrent hstep ht hwalk, ?_, ?_⟩
  · rw [List.filter_cons_of_neg (by simp [hblock])]
    exact hlines
  · rcases hend with ⟨hnone, hle, hrunning⟩ | hend
    · exact .inl ⟨hnone, Nat.succ_le_succ hle, hrunning⟩
    · exact .inr hend

theorem command (hcurrent : f.current? = some inst) (hinst : inst.IsSimple σ store)
    (hs : s.2.IsQuiet) (hf : arrives f.advance) :
    Follows store i n f s arrives ([inst], some (inst.effect store s)) := by
  have hstep := step_simple (i := i) (f := f) hinst hs
  refine ⟨1, [inst], f.advance, inst.effect store s,
    .line hcurrent hstep (hinst.quiet s hs) (.stay _ _), ?_, .inr ⟨rfl, hf⟩⟩
  rw [List.filter_cons_of_pos (by simp [hinst.command]), List.filter_nil]

theorem andThen {next : BattleScript × World σ → List Instruction × Option (BattleScript × World σ)}
    (hs : s.2.IsQuiet) (hfirst : Follows store i n f s mid first)
    (hnext : ∀ g t, mid g → t.2.IsQuiet → Follows store i n g t arrives (next t)) :
    Follows store i n f s arrives (andThen first next) := by
  obtain ⟨count, lines, g, t, hwalk, hlines, hend⟩ := hfirst
  obtain ⟨commands, outcome⟩ := first
  rcases hend with ⟨rfl, hle, hrunning⟩ | ⟨rfl, hg⟩
  · exact ⟨count, lines, g, t, hwalk, hlines, .inl ⟨rfl, hle, hrunning⟩⟩
  · obtain ⟨count', lines', h, u, hwalk', hlines', hend'⟩ := hnext g t hg (hwalk.isQuiet hs)
    refine ⟨count + count', lines ++ lines', h, u, hwalk.trans hwalk', ?_, ?_⟩
    · rw [List.filter_append, hlines, hlines']
      rfl
    · rcases hend' with ⟨hnone, hle, hrunning⟩ | hend'
      · exact .inl ⟨hnone, Nat.le_trans hle (Nat.le_add_left _ _), hrunning⟩
      · exact .inr hend'

end Follows

/-- A frame goes through the lines of the block as the block plays. -/
def Block.Faithful (σ : Type) [AssetLoader σ] (store : ProgramStore) (i : Interpreter) (n : Nat)
    (b : Block) :
    Prop :=
  ∀ (k : Int) (f : Frame) (s : BattleScript × World σ) (before after : Program),
    f.Stands before (b.code k ++ after) → s.2.IsQuiet →
      Follows store i n f s (Arrives f k (before ++ b.code k) after) (b.play store n k s)

/-- A body is gone through without touching the choice of the block around it. -/
theorem body_follows {body : Block} (hbody : body.Faithful σ store i n)
    (hg : Arrives f k before (body.code (k + 1) ++ after) g) (ht : t.2.IsQuiet) :
    Follows store i n g t
      (fun h => Arrives f k (before ++ body.code (k + 1)) after h ∧ h.branchAt k = g.branchAt k)
      (body.play store n (k + 1) t) :=
  (hbody (k + 1) g t _ _ hg.stands ht).imp fun h hh =>
    ⟨hg.trans hh (by omega), hh.choices k (by omega)⟩

/-- After an arm the rest of the block follows its end. -/
theorem finish_follows {rest : Block} {flavour : Flavour} {finish : Operands}
    (hrest : rest.Faithful σ store i n)
    (hg : Arrives f k before (finish.line flavour.finish k :: (rest.code k ++ after)) g)
    (ht : t.2.IsQuiet) :
    Follows store i n g t
      (Arrives f k (before ++ finish.line flavour.finish k :: rest.code k) after)
      (rest.play store n k t) := by
  have hblock := (isBlock_line flavour finish k).2.2
  have hnext := hrest k g.advance t _ _ hg.advance.stands ht
  refine (Follows.line hg.stands.current? step_finish ht hblock (hnext.imp ?_)).mono (Nat.le_succ n)
  intro h hh
  have h := hg.advance.trans hh (Int.le_refl k)
  rw [List.append_assoc] at h
  exact h

theorem command_faithful {rest : Block} (hinst : ∀ k, (inst.indented k).IsSimple σ store)
    (hrest : rest.Faithful σ store i n) : (Block.command inst rest).Faithful σ store i n := by
  intro k f s before after hf hs
  have hstart : Arrives f k before (inst.indented k :: (rest.code k ++ after)) f := .start hf
  refine .andThen hs (.command hstart.stands.current? (hinst k) hs hstart.advance) ?_
  intro g t hg ht
  apply (hrest k g t _ _ hg.stands ht).imp
  intro h hh
  have h := hg.trans hh (Int.le_refl k)
  rw [List.append_assoc] at h
  exact h

theorem branch_faithful {flavour : Flavour} {head finish : Operands} {arm rest : Block}
    (harm : arm.Faithful σ store i n) (hrest : rest.Faithful σ store i n) :
    (Block.branch flavour head finish arm rest).Faithful σ store i n := by
  intro k f s before after hf hs
  simp only [Block.code, List.cons_append, List.append_assoc] at hf
  have hstart := Arrives.start (k := k) hf
  have hblock := (isBlock_line flavour head k).1
  -- However the arm was dealt with, its end comes next.
  have hfinish (g : Frame) (t : BattleScript × World σ)
      (hg : Arrives f k (before ++ head.line flavour.head k :: arm.code (k + 1))
        (finish.line flavour.finish k :: (rest.code k ++ after)) g) (ht : t.2.IsQuiet) :
      Follows store i n g t
        (Arrives f k (before ++ (Block.branch flavour head finish arm rest).code k) after)
        (rest.play store n k t) := by
    have h := finish_follows hrest hg ht
    rw [List.append_assoc] at h
    exact h
  unfold Block.play
  split
  · rename_i htest
    have htaken := (hstart.setBranch branchTaken).advance
    have hbody := body_follows harm htaken hs
    rw [List.append_assoc] at hbody
    exact (Follows.line hstart.stands.current? (step_head_of_test htest) hs hblock
      (.andThen hs hbody fun g t hg ht => hfinish g t hg.1 ht)).mono (Nat.le_succ n)
  · rename_i htest
    rw [Bool.not_eq_true] at htest
    have hpassed := (hstart.seek (fun line => stopsAt_eq_false line)
      (stops_finish flavour finish k)).setBranch branchElse
    exact (Follows.line hstart.stands.current? (step_head_of_not_test htest) hs hblock
      (.andThen hs (.here hpassed) fun g t hg ht => hfinish g t hg ht)).mono (Nat.le_succ n)

theorem branchElse_faithful {flavour : Flavour} {head middle finish : Operands}
    {arm other rest : Block} (harm : arm.Faithful σ store i n) (hother : other.Faithful σ store i n)
    (hrest : rest.Faithful σ store i n) :
    (Block.branchElse flavour head middle finish arm other rest).Faithful σ store i n := by
  intro k f s before after hf hs
  simp only [Block.code, List.cons_append, List.append_assoc] at hf
  have hstart := Arrives.start (k := k) hf
  have hblock := (isBlock_line flavour head k).1
  have hmiddle := (isBlock_line flavour middle k).2.1
  have hfinish (g : Frame) (t : BattleScript × World σ)
      (hg : Arrives f k (before ++ head.line flavour.head k :: (arm.code (k + 1) ++
        middle.line flavour.middle k :: other.code (k + 1)))
        (finish.line flavour.finish k :: (rest.code k ++ after)) g) (ht : t.2.IsQuiet) :
      Follows store i n g t
        (Arrives f k (before ++ (Block.branchElse flavour head middle finish arm other rest).code k)
          after)
        (rest.play store n k t) := by
    have h := finish_follows hrest hg ht
    simp only [List.append_assoc, List.cons_append] at h
    exact h
  unfold Block.play
  split
  · rename_i htest
    have htaken := (hstart.setBranch branchTaken).advance
    have hbody := body_follows harm htaken hs
    refine (Follows.line hstart.stands.current? (step_head_of_test htest) hs hblock
      (.andThen hs hbody ?_)).mono (Nat.le_succ n)
    intro g t hg ht
    -- The choice that the head made is still there: the arm made its own at other indents.
    have hchoice : g.branchAt k = branchTaken := by
      rw [hg.2]
      exact (Frame.branchAt_setBranch f k branchTaken k).trans (if_pos rfl)
    have hpassed := hg.1.seek (fun line => stopsAt_eq_false line) (ends_finish flavour finish k)
    simp only [List.append_assoc, List.cons_append, List.nil_append] at hpassed
    exact (Follows.line hg.1.stands.current? (step_middle_of_taken hchoice) ht hmiddle
      (hfinish _ t hpassed ht)).mono (Nat.le_succ n)
  · rename_i htest
    rw [Bool.not_eq_true] at htest
    have hpassed := (hstart.seek (fun line => stopsAt_eq_false line)
      (stops_middle flavour middle k)).setBranch branchElse
    have hchoice :
        ((f.jump (f.seek (·.stopsAt flavour.stops k))).setBranch k branchElse).branchAt k =
        branchElse :=
      (Frame.branchAt_setBranch _ k branchElse k).trans (if_pos rfl)
    have hbody := body_follows hother (hpassed.setBranch branchTaken).advance hs
    simp only [List.append_assoc, List.cons_append, List.nil_append] at hbody
    exact (Follows.line hstart.stands.current? (step_head_of_not_test htest) hs hblock
      ((Follows.line hpassed.stands.current? (step_middle_of_else hchoice) hs hmiddle
        (.andThen hs hbody fun g t hg ht => hfinish g t hg.1 ht)).mono (Nat.le_succ n))).mono
          (Nat.le_succ n)

/-- A loop goes on for as many rounds as one likes. -/
theorem rounds_follows {body : Block} {head finish : Operands} (hbody : body.Faithful σ store i n)
    (hm : m ≤ n) (hs : s.2.IsQuiet)
    (hf : f.Stands (before ++ [head.line .loop k]) (body.code (k + 1) ++
      finish.line .endLoop k :: after)) :
    Follows store i m f s (fun _ => False) (rounds (body.play store n (k + 1)) m s) := by
  induction m generalizing f s with
  | zero =>
    have hrunning : f.isComplete = false := by
      cases hcode : body.code (k + 1) <;> rw [hcode] at hf <;> exact hf.isComplete_eq_false
    exact ⟨0, [], f, s, .stay f s, rfl, .inl ⟨rfl, Nat.le_refl 0, hrunning⟩⟩
  | succ m ih =>
    refine .andThen hs ((hbody (k + 1) f s _ _ hf hs).mono hm) ?_
    intro g t hg ht
    have hstands : g.Stands (before ++ head.line .loop k :: body.code (k + 1))
        (finish.line .endLoop k :: after) := by
      have h := hg.stands
      rw [List.append_assoc] at h
      exact h
    have hback : g.seekBack? (·.opensLoop k) = some before.length :=
      hstands.seekBack?_eq (fun line => opensLoop_eq_false line)
        (by simp [Instruction.opensLoop, Operands.line])
    have hhead : (g.jump before.length).Stands before (head.line .loop k ::
        (body.code (k + 1) ++ finish.line .endLoop k :: after)) := by
      refine ⟨?_, rfl⟩
      rw [show (g.jump before.length).program = g.program from rfl, hstands.program]
      simp
    exact .line hstands.current? (step_endLoop hback) ht rfl
      (ih (Nat.le_of_succ_le hm) ht hhead.advance)

theorem loop_faithful {head finish : Operands} {body rest : Block}
    (hbody : body.Faithful σ store i n) :
    (Block.loop head finish body rest).Faithful σ store i n := by
  intro k f s before after hf hs
  simp only [Block.code, List.cons_append, List.append_assoc] at hf
  have hrounds := rounds_follows hbody (Nat.le_refl n) hs hf.advance
  exact (Follows.line hf.current? step_loop hs rfl (hrounds.imp fun _ h => h.elim)).mono
    (Nat.le_succ n)

/-- Frames go through blocks of simple commands as these play. -/
theorem faithful {b : Block} (hb : b.AllCommands (Instruction.IsSimple σ store)) :
    b.Faithful σ store i n := by
  induction b with
  | nil =>
    intro k f s before after hf hs
    rw [Block.code, List.append_nil]
    exact .here (.start hf)
  | command inst rest ih => exact command_faithful hb.1 (ih hb.2)
  | branch flavour head finish arm rest iharm ihrest =>
    exact branch_faithful (iharm hb.1) (ihrest hb.2)
  | branchElse flavour head middle finish arm other rest iharm ihother ihrest =>
    exact branchElse_faithful (iharm hb.1) (ihother hb.2.1) (ihrest hb.2.2)
  | loop head finish body rest ihbody ihrest => exact loop_faithful (ihbody hb.1)

/-- However far a frame is to go in a block, it goes as some number of rounds tells, and is through
only when the block has ended. -/
theorem exists_walk {b : Block} (hb : b.AllCommands (Instruction.IsSimple σ store))
    (hs : s.2.IsQuiet) (hf : f.Stands [] (b.code k)) (count : Nat) :
    ∃ n lines g t, Walk sceneCommands store i count f s lines g t ∧
      lines.filter (!·.opcode.isBlock) <+: (b.play store n k s).1 ∧
      (g.isComplete = true → b.play store n k s = (lines.filter (!·.opcode.isBlock), some t)) := by
  have hcode : f.Stands [] (b.code k ++ []) := by
    rw [List.append_nil]
    exact hf
  obtain ⟨steps, lines, g, t, hwalk, hlines, hend⟩ :=
    faithful hb (i := i) (n := count) k f s [] [] hcode hs
  rcases Nat.lt_or_ge steps count with hlt | hle
  · -- The block ends before that, and the frame is through.
    rcases hend with ⟨-, hle, -⟩ | ⟨hsome, hg⟩
    · omega
    · obtain ⟨left, rfl⟩ := Nat.exists_eq_add_of_lt hlt
      have hstay : Walk sceneCommands store i (left + 1) g t [] g t :=
        .ended _ t hg.stands.isComplete
      have hlong := hwalk.trans hstay
      rw [List.append_nil] at hlong
      refine ⟨_, lines, g, t, hlong, ?_, fun _ => Prod.ext hlines.symm hsome⟩
      exact hlines ▸ List.prefix_refl _
  · -- The walk goes at least this far; what is behind the frame by then is a part of what it
    -- performs.
    obtain ⟨left, rfl⟩ := Nat.exists_eq_add_of_le hle
    obtain ⟨mid, u, first, second, hfirst, hsecond, rfl⟩ := hwalk.split
    refine ⟨count, first, mid, u, hfirst, ?_, ?_⟩
    · rw [← hlines, List.filter_append]
      exact List.prefix_append _ _
    · intro hmid
      obtain ⟨rfl, rfl, rfl⟩ := hsecond.eq_of_isComplete hmid
      rcases hend with ⟨-, -, hrunning⟩ | ⟨hsome, -⟩
      · rw [hmid] at hrunning
        contradiction
      · rw [List.append_nil] at hlines
        exact Prod.ext hlines.symm hsome

end Simulation

namespace Block

variable {σ : Type} [AssetLoader σ]

/-- A block about to run in a fresh interpreter. -/
def start (c : BattleConfig) (owner : OwnerTag) (k : Int) (b : Block) (s : BattleScript × World σ) :
    Execution BattleScript σ :=
  ⟨(Interpreter.ofConfig c).push (b.code k) owner, s.1, s.2⟩

/-- The commands that a number of updates perform. -/
def performed (store : ProgramStore) (allowSuspend : Bool) (m : Nat)
    (x : Execution BattleScript σ) :
    List Instruction :=
  (x.updatesLogged sceneCommands store allowSuspend m).1.filter (!·.opcode.isBlock)

def updated (store : ProgramStore) (allowSuspend : Bool) (m : Nat) (x : Execution BattleScript σ) :
    Execution BattleScript σ :=
  (Execution.update sceneCommands store allowSuspend)^[m] x

variable {store : ProgramStore} {c : BattleConfig} {b : Block} {k : Int} {owner : OwnerTag}
  {s : BattleScript × World σ}

/-- Updates perform the commands of a walk that is long enough. -/
theorem updated_of_walk (allowSuspend : Bool) {m : Nat} {lines : List Instruction} {g : Frame}
    {t : BattleScript × World σ} (hs : s.2.IsQuiet)
    (hw : Walk sceneCommands store (.ofConfig c) ((m + 1) * c.interpreterLoopLimit)
      ⟨owner, b.code k, 0, []⟩ s lines g t) :
    performed store allowSuspend (m + 1) (b.start c owner k s) = lines.filter (!·.opcode.isBlock) ∧
      updated store allowSuspend (m + 1) (b.start c owner k s) =
        Execution.parked (.ofConfig c) g t := by
  have hlogged := Execution.updatesLogged_of_walk allowSuspend ⟨rfl, rfl, rfl⟩ hs hw
    (b.start c owner k s) rfl
  constructor
  · unfold performed
    rw [hlogged]
  · unfold updated
    rw [← Execution.updatesLogged_snd, hlogged]

section Simple

variable (allowSuspend : Bool) (hb : b.AllCommands (Instruction.IsSimple σ store))
  (hs : s.2.IsQuiet)
include hb hs

/-- What updates perform is the beginning of what some number of rounds makes the block play. -/
theorem performed_prefix (m : Nat) :
    ∃ n, performed store allowSuspend m (b.start c owner k s) <+: (b.play store n k s).1 := by
  cases m with
  | zero => exact ⟨0, List.nil_prefix⟩
  | succ m =>
    obtain ⟨n, lines, g, t, hwalk, hprefix, -⟩ := exists_walk (i := .ofConfig c) hb hs
      (f := ⟨owner, b.code k, 0, []⟩) ⟨rfl, rfl⟩ ((m + 1) * c.interpreterLoopLimit)
    refine ⟨n, ?_⟩
    rw [(updated_of_walk allowSuspend hs hwalk).1]
    exact hprefix

/-- Once the interpreter is empty, the block has been performed to its end. -/
theorem play_of_empty {m : Nat}
    (hempty : (updated store allowSuspend m (b.start c owner k s)).interp.stack = []) :
    ∃ n, b.play store n k s = (performed store allowSuspend m (b.start c owner k s),
      some ((updated store allowSuspend m (b.start c owner k s)).table,
        (updated store allowSuspend m (b.start c owner k s)).world)) := by
  cases m with
  | zero => contradiction
  | succ m =>
    obtain ⟨n, lines, g, t, hwalk, -, hplay⟩ := exists_walk (i := .ofConfig c) hb hs
      (f := ⟨owner, b.code k, 0, []⟩) ⟨rfl, rfl⟩ ((m + 1) * c.interpreterLoopLimit)
    obtain ⟨hperformed, hupdated⟩ := updated_of_walk allowSuspend hs hwalk
    rw [hupdated] at hempty
    have hdone : g.isComplete = true := by
      by_contra hrunning
      rw [Bool.not_eq_true] at hrunning
      rw [Execution.parked_of_not_isComplete _ t hrunning] at hempty
      contradiction
    refine ⟨n, ?_⟩
    rw [hperformed, hupdated]
    exact hplay hdone

variable (hlimit : 0 < c.interpreterLoopLimit)
include hlimit

/-- Whatever a block plays, enough updates perform. -/
theorem play_prefix (n : Nat) :
    ∃ m, (b.play store n k s).1 <+: performed store allowSuspend m (b.start c owner k s) := by
  obtain ⟨steps, lines, g, t, hwalk, hlines, -⟩ := faithful hb (i := .ofConfig c) (n := n) k
    ⟨owner, b.code k, 0, []⟩ s [] [] ⟨by simp, rfl⟩ hs
  have hfar : steps ≤ (steps + 1) * c.interpreterLoopLimit :=
    Nat.le_trans (Nat.le_succ steps) (Nat.le_mul_of_pos_right _ hlimit)
  obtain ⟨left, hleft⟩ := Nat.exists_eq_add_of_le hfar
  obtain ⟨-, all, h, u, hlong, -, -⟩ := exists_walk (i := .ofConfig c) hb hs
    (f := ⟨owner, b.code k, 0, []⟩) ⟨rfl, rfl⟩ ((steps + 1) * c.interpreterLoopLimit)
  refine ⟨steps + 1, ?_⟩
  rw [(updated_of_walk allowSuspend hs hlong).1, ← hlines]
  rw [hleft] at hlong
  obtain ⟨mid, v, first, second, hfirst, -, rfl⟩ := hlong.split
  rw [Execution.lines_unique ⟨rfl, rfl, rfl⟩ hs hwalk hfirst, List.filter_append]
  exact List.prefix_append _ _

/-- A block that ends has been performed from some update on, and is gone. -/
theorem updated_of_ends {n : Nat} {t : BattleScript × World σ}
    (hend : (b.play store n k s).2 = some t) :
    ∃ m, ∀ later, m ≤ later →
      performed store allowSuspend later (b.start c owner k s) = (b.play store n k s).1 ∧
        updated store allowSuspend later (b.start c owner k s) = ⟨.ofConfig c, t.1, t.2⟩ := by
  obtain ⟨steps, lines, g, u, hwalk, hlines, hdone⟩ := faithful hb (i := .ofConfig c) (n := n) k
    ⟨owner, b.code k, 0, []⟩ s [] [] ⟨by simp, rfl⟩ hs
  rcases hdone with ⟨hnone, -, -⟩ | ⟨hsome, hg⟩
  · rw [hnone] at hend
    contradiction
  · obtain rfl := Option.some.inj (hend.symm.trans hsome)
    refine ⟨steps + 1, ?_⟩
    intro later hlater
    obtain ⟨m, rfl⟩ := Nat.exists_eq_add_of_le' hlater
    have hfar : steps ≤ (m + steps + 1) * c.interpreterLoopLimit :=
      Nat.le_trans (by omega) (Nat.le_mul_of_pos_right _ hlimit)
    obtain ⟨left, hleft⟩ := Nat.exists_eq_add_of_le hfar
    have hlong : Walk sceneCommands store (.ofConfig c) ((m + steps + 1) * c.interpreterLoopLimit)
        ⟨owner, b.code k, 0, []⟩ s (lines ++ []) g t := by
      rw [hleft]
      exact hwalk.trans (.ended left t hg.stands.isComplete)
    rw [List.append_nil] at hlong
    obtain ⟨hperformed, hupdated⟩ := updated_of_walk allowSuspend hs hlong
    refine ⟨hperformed.trans hlines, hupdated.trans ?_⟩
    exact Execution.parked_of_isComplete _ t hg.stands.isComplete

end Simple

/-- A block of simple commands runs as it plays. Whatever a number of updates perform is the
beginning of what some number of rounds makes the block play, and the other way round; once the
block ends, it has been performed to the end, the interpreter is empty and everything is as the
block leaves it, and before that the interpreter is not empty. The battle stops where a change
raises the flag `emptyRange` of a battler, which sound battlers never raise, and both with it. -/
theorem updates_play (allowSuspend : Bool) (hlimit : 0 < c.interpreterLoopLimit)
    (hb : b.AllCommands (Instruction.IsSimple σ store)) (hs : s.2.IsQuiet) :
    (∀ m, ∃ n, performed store allowSuspend m (b.start c owner k s) <+: (b.play store n k s).1) ∧
      (∀ n, ∃ m, (b.play store n k s).1 <+: performed store allowSuspend m (b.start c owner k s)) ∧
      (∀ n t, (b.play store n k s).2 = some t → ∃ m, ∀ later, m ≤ later →
        performed store allowSuspend later (b.start c owner k s) = (b.play store n k s).1 ∧
          updated store allowSuspend later (b.start c owner k s) = ⟨.ofConfig c, t.1, t.2⟩) ∧
      ∀ m, (updated store allowSuspend m (b.start c owner k s)).interp.stack = [] →
        ∃ n, b.play store n k s = (performed store allowSuspend m (b.start c owner k s),
          some ((updated store allowSuspend m (b.start c owner k s)).table,
            (updated store allowSuspend m (b.start c owner k s)).world)) := by
  refine ⟨?_, ?_, ?_, ?_⟩
  · intro m
    exact performed_prefix allowSuspend hb hs m
  · intro n
    exact play_prefix allowSuspend hb hs hlimit n
  · intro n t hend
    exact updated_of_ends allowSuspend hb hs hlimit hend
  · intro m hempty
    exact play_of_empty allowSuspend hb hs hempty

/-! ### A branch in the else arm of another -/

namespace Fork

def turnOn : Instruction := { opcode := .controlSwitches, params := [0, 2, 2, 0] }

def assign : Instruction := { opcode := .controlVariables, params := [0, 1, 1, 0, 0, 7, 0] }

def remark : Instruction := { opcode := .comment }

/-- The first switch is off, so the else arm is taken, and in it the branch that asks for just
that. -/
def block : Block :=
  .branchElse .battle { params := [0, 1, 0] } {} {} (.command turnOn .nil)
    (.branch .base { params := [0, 1, 1] } {} (.command assign .nil) .nil) (.command remark .nil)

def state : BattleScript × World InstantAssets := ({}, ⟨{}, #[], {}⟩)

end Fork

theorem performed_fork : ∃ m, ∀ later, m ≤ later →
    performed {} true later (Fork.block.start {} .synthetic 0 Fork.state) =
      [Fork.assign.indented 2, Fork.remark.indented 0] := by
  have hlimit : 0 < ({} : BattleConfig).interpreterLoopLimit := by decide
  have hsimple : Fork.block.AllCommands (Instruction.IsSimple InstantAssets {}) :=
    ⟨⟨fun _ => isSimple_of_isPlain rfl, trivial⟩,
      ⟨⟨fun _ => isSimple_of_isPlain rfl, trivial⟩, trivial⟩,
      fun _ => isSimple_of_isPlain rfl, trivial⟩
  have hquiet : Fork.state.2.IsQuiet := rfl
  have hends : (Fork.block.play {} 0 0 Fork.state).2.isSome = true := by decide +kernel
  obtain ⟨t, hend⟩ := Option.isSome_iff_exists.mp hends
  have hcommands : (Fork.block.play {} 0 0 Fork.state).1 =
      [Fork.assign.indented 2, Fork.remark.indented 0] := by
    decide +kernel
  obtain ⟨m, hm⟩ := (updates_play true hlimit hsimple hquiet).2.2.1 0 t hend
  exact ⟨m, fun later hlater => (hm later hlater).1.trans hcommands⟩

end Block

end ActiveBattle
