import Mathlib.Data.List.Forall2
import ActiveBattle.Proofs.Script.Transcript

/-!
# Arguments of hooks

A hook hands its arguments over by a program of assignments that lies on its event's frame. When
nothing holds the hook interpreter the update that the call makes performs this program before
anything else; while it waits, or while a message is open, the program stays where it is, and the
caller's arguments with it (`BattleScript.trigger_delivers_iff`).
-/

namespace ActiveBattle

set_option autoImplicit false

/-! ### Assignments -/

/-- The line that puts a value into a variable. -/
def assignment (cell : Int × Int) : Instruction :=
  { opcode := .controlVariables, params := [0, cell.1, cell.1, 0, 0, cell.2, 0] }

theorem cellsIn_self (id : Int) (size : Nat) :
    cellsIn id id size = if 1 ≤ id ∧ id ≤ size then [id] else [] := by
  unfold cellsIn
  dsimp only
  split
  · obtain ⟨hcount, hlow⟩ : (min id size + 1 - max id 1).toNat = 1 ∧ max id 1 = id := by omega
    rw [hcount, hlow]
    simp
  · obtain hcount : (min id size + 1 - max id 1).toNat = 0 := by omega
    rw [hcount, List.range_zero, List.map_nil]

theorem Variables.set_of_not_mem (v : Variables) {id : Int} (value : Int)
    (h : ¬(1 ≤ id ∧ id ≤ v.size)) :
    v.set id value = v := by
  have hnone : cellIndex? v.data.size id = none := cellIndex?_eq_none.mpr h
  unfold Variables.set
  rw [hnone]

theorem GameState.controlVariables_assignment (cell : Int × Int) (g : GameState) :
    g.controlVariables (assignment cell) = g.setVariable cell.1 cell.2 := by
  change (cellsIn cell.1 cell.1 g.vars.size).foldl (writeVariable 0 cell.2) g = _
  rw [cellsIn_self]
  split
  · rfl
  · rename_i hnone
    unfold setVariable
    rw [List.foldl_nil, g.vars.set_of_not_mem cell.2 hnone]

/-- Puts values into variables, one after the other. -/
def GameState.receive (cells : List (Int × Int)) (g : GameState) : GameState :=
  cells.foldl (fun g cell => g.setVariable cell.1 cell.2) g

@[simp] theorem GameState.size_setVariable (g : GameState) (id value : Int) :
    (g.setVariable id value).vars.size = g.vars.size :=
  g.vars.size_set id value

theorem GameState.get_setVariable_self {g : GameState} {cell : Int × Int} (hlow : 1 ≤ cell.1)
    (hhigh : cell.1 ≤ g.vars.size) :
    (g.setVariable cell.1 cell.2).vars.get cell.1 =
      clamp Variables.minValue Variables.maxValue cell.2 := by
  change (g.vars.set cell.1 cell.2).get cell.1 = _
  rw [Variables.get_set, if_pos ⟨rfl, hlow, hhigh⟩]

theorem GameState.get_setVariable_of_ne {g : GameState} {id other value : Int} (h : id ≠ other) :
    (g.setVariable id value).vars.get other = g.vars.get other := by
  change (g.vars.set id value).get other = _
  rw [Variables.get_set, if_neg fun hid => h hid.1]

@[simp] theorem GameState.size_receive (cells : List (Int × Int)) (g : GameState) :
    (g.receive cells).vars.size = g.vars.size := by
  induction cells generalizing g with
  | nil => rfl
  | cons cell cells ih => exact (ih _).trans (g.size_setVariable _ _)

theorem GameState.get_receive_of_not_mem {cells : List (Int × Int)} {g : GameState} {id : Int}
    (h : ∀ cell ∈ cells, cell.1 ≠ id) : (g.receive cells).vars.get id = g.vars.get id := by
  induction cells generalizing g with
  | nil => rfl
  | cons cell cells ih =>
    obtain ⟨hcell, hcells⟩ := List.forall_mem_cons.mp h
    exact (ih hcells).trans (get_setVariable_of_ne hcell)

/-- Of different variables each keeps the value it got. -/
theorem GameState.get_receive {cells : List (Int × Int)} {g : GameState}
    (hcells : cells.Pairwise (·.1 ≠ ·.1)) {cell : Int × Int} (hcell : cell ∈ cells)
    (hlow : 1 ≤ cell.1) (hhigh : cell.1 ≤ g.vars.size) :
    (g.receive cells).vars.get cell.1 = clamp Variables.minValue Variables.maxValue cell.2 := by
  induction cells generalizing g with
  | nil => exact absurd hcell List.not_mem_nil
  | cons head cells ih =>
    obtain ⟨hhead, hrest⟩ := List.pairwise_cons.mp hcells
    rcases List.mem_cons.mp hcell with rfl | hcell
    · have hkept : ((g.setVariable cell.1 cell.2).receive cells).vars.get cell.1 = _ :=
        get_receive_of_not_mem fun other hother => (hhead other hother).symm
      exact hkept.trans (get_setVariable_self hlow hhigh)
    · exact ih hrest hcell (by simpa using hhigh)

namespace Execution

variable {σ : Type} [AssetLoader σ] (store : ProgramStore) {below : List Frame} {f : Frame}

theorem step_assignment (cell : Int × Int) {x : Execution BattleScript σ}
    (hstack : x.interp.stack = f :: below) :
    x.step (CommandSet.hook.table noHooks) store (assignment cell) =
      ⟨{ x.interp with stack := f.advance :: below }, x.table,
        x.world.modifyGame (·.setVariable cell.1 cell.2)⟩ := by
  have hperform : x.perform (CommandSet.hook.table noHooks) store (assignment cell) =
      (true, x.modifyGame (·.setVariable cell.1 cell.2)) := by
    change (x.modifyGame (·.controlVariables (assignment cell))).proceed = _
    simp only [GameState.controlVariables_assignment]
    rfl
  have hdepth : (x.modifyGame (·.setVariable cell.1 cell.2)).interp.stack = f :: below := hstack
  unfold step
  simp only [hperform, if_true, modifyInterp, hdepth, hstack, Nat.sub_self]
  rfl

end Execution

/-- A line that puts a value into its variable, if there is one, and changes nothing else but the
frame it stands in. -/
structure Line.Assigns {σ : Type} (below : List Frame) (cell : Int × Int) (line : Line σ) :
    Prop where
  inst : line.inst = assignment cell
  stack : line.before.interp.stack.tail = below ∧ line.after.interp.stack.tail = below
  table : line.after.table = line.before.table
  world : line.after.world = line.before.world.modifyGame fun g =>
    { g with vars := g.vars.set cell.1 cell.2 }
  assigned : 1 ≤ cell.1 → cell.1 ≤ line.before.game.vars.size →
    line.after.game.vars.get cell.1 = clamp Variables.minValue Variables.maxValue cell.2

namespace Execution

variable {σ : Type} [AssetLoader σ] (store : ProgramStore) {below : List Frame}

theorem plainLine_assigns (cell : Int × Int) {x : Execution BattleScript σ} {f : Frame}
    (hstack : x.interp.stack = f :: below) :
    (CommandSet.hook.plainLine store (assignment cell) x).Assigns below cell := by
  have hafter : (CommandSet.hook.plainLine store (assignment cell) x).after = _ :=
    x.step_assignment store cell hstack
  constructor
  · rfl
  · rw [hafter]
    exact ⟨congrArg List.tail hstack, rfl⟩
  · rw [hafter]
    rfl
  · rw [hafter]
    rfl
  · intro hlow hhigh
    rw [hafter]
    exact GameState.get_setVariable_self hlow hhigh

/-- Nothing stops a program of assignments on top of the stack: it runs first, and to its end. -/
theorem linesFrom_assignments {owner : OwnerTag} {choices : List (Int × Int)} (budget : Nat)
    (done todo : List (Int × Int)) (x : Execution BattleScript σ)
    (hstack : x.interp.stack = ⟨owner,
      (done ++ todo).map assignment, done.length, choices⟩ :: below)
    (hsuspended : x.interp.isSuspended = false) (hyield : x.interp.yieldRequested = false)
    (hmessage : x.game.message.isActive = false) :
    ∃ handed, handed <+: x.linesFrom (CommandSet.hook.plainLine store) (todo.length + budget) ∧
      List.Forall₂ (Line.Assigns below) todo handed ∧
      ((handed.getLast?.map Line.after).getD x).world = x.world.modifyGame (·.receive todo) := by
  induction todo generalizing done x with
  | nil => exact ⟨[], List.nil_prefix, .nil, rfl⟩
  | cons cell todo ih =>
    have hcurrent : x.interp.current? = some (assignment cell) := by
      simp [Interpreter.current?, Frame.current?, hstack]
    have hline := x.plainLine_assigns store cell hstack
    have hafter : (CommandSet.hook.plainLine store (assignment cell) x).after = _ :=
      x.step_assignment store cell hstack
    -- An assignment neither suspends the interpreter nor yields, so the loop goes on with the next.
    have hgoes : ((CommandSet.hook.plainLine store (assignment cell) x).after.interp.isSuspended ||
        (CommandSet.hook.plainLine store (assignment cell) x).after.interp.yieldRequested) =
          false := by
      rw [hafter]
      exact Bool.or_eq_false_iff.mpr ⟨hsuspended, hyield⟩
    obtain ⟨handed, hprefix, hassigns, hworld⟩ := ih (done ++ [cell])
      (CommandSet.hook.plainLine store (assignment cell) x).after
      (by rw [hafter]; simp [Frame.advance]) (by rw [hafter]; exact hsuspended)
        (by rw [hafter]; exact hyield)
      (by rw [hafter]; exact hmessage)
    refine ⟨CommandSet.hook.plainLine store (assignment cell) x :: handed, ?_,
      .cons hline hassigns, ?_⟩
    · rw [List.length_cons, Nat.add_right_comm, linesFrom_of_current? hmessage hcurrent]
      simp only [hgoes]
      exact List.cons_prefix_cons.mpr ⟨rfl, hprefix⟩
    · rw [List.getLast?_cons, Option.map_some, Option.getD_some, ← Option.getD_map Line.after,
        hworld, hafter]
      rfl

/-- An interpreter that is held performs nothing, keeps its stack and leaves the world alone. -/
theorem update_of_held (table : CommandTable BattleScript σ)
    (line : Instruction → Execution BattleScript σ → Line σ) {x : Execution BattleScript σ}
    (h : x.interp.isSuspended = true ∨ x.game.message.isActive = true) :
    x.lines line true = [] ∧ (x.update table store true).world = x.world ∧
      (x.update table store true).interp.stack = x.interp.stack := by
  have hlines : x.lines line true = if x.interp.isAsyncPending then []
    else if x.interp.isWaiting then []
    else x.linesFrom line x.interp.loopLimit := rfl
  have hupdate : x.update table store true = if x.interp.isAsyncPending then x
    else if x.interp.isWaiting then
      x.modifyInterp fun i => { i with waitFrames := i.waitFrames - 1 }
    else x.run table store x.interp.loopLimit := rfl
  rw [hlines, hupdate]
  by_cases hpending : x.interp.isAsyncPending = true
  · simp only [if_pos hpending, and_self]
  · by_cases hwaiting : x.interp.isWaiting = true
    · simp only [if_neg hpending, if_pos hwaiting]
      exact ⟨trivial, rfl, rfl⟩
    · -- What holds it can only be the message, which stops the loop before its first round.
      have hrunning : ¬x.interp.isSuspended = true := by
        simp [Interpreter.isSuspended, hpending, hwaiting]
      have hmessage := h.resolve_left hrunning
      rw [if_neg hpending, if_neg hpending, if_neg hwaiting, if_neg hwaiting, linesFrom, run,
        if_pos hmessage, if_pos hmessage]
      exact ⟨rfl, rfl, rfl⟩

omit [AssetLoader σ] in
theorem lines_of_running {line : Instruction → Execution BattleScript σ → Line σ}
    {x : Execution BattleScript σ} (h : x.interp.isSuspended = false) :
    x.lines line true = x.linesFrom line x.interp.loopLimit := by
  obtain ⟨hpending, hwaiting⟩ := Bool.or_eq_false_iff.mp h
  have hlines : x.lines line true = if x.interp.isAsyncPending then []
    else if x.interp.isWaiting then []
    else x.linesFrom line x.interp.loopLimit := rfl
  rw [hlines, if_neg (by simp [hpending]), if_neg (by simp [hwaiting])]

/-- A yield request that is left over stops the interpreter after an assignment. -/
theorem length_linesFrom_of_yield {cell : Int × Int} {f : Frame} {x : Execution BattleScript σ}
    (hstack : x.interp.stack = f :: below) (hcurrent : f.current? = some (assignment cell))
    (hyield : x.interp.yieldRequested = true) (hmessage : x.game.message.isActive = false)
    (budget : Nat) :
    (x.linesFrom (CommandSet.hook.plainLine store) budget).length ≤ 1 := by
  have htop : x.interp.current? = some (assignment cell) := by
    rw [Interpreter.current?, hstack]
    exact hcurrent
  have hafter : (CommandSet.hook.plainLine store (assignment cell) x).after = _ :=
    x.step_assignment store cell hstack
  have hstops : ((CommandSet.hook.plainLine store (assignment cell) x).after.interp.isSuspended ||
      (CommandSet.hook.plainLine store (assignment cell) x).after.interp.yieldRequested) =
        true := by
    rw [hafter, Bool.or_eq_true]
    exact .inr hyield
  rw [linesFrom_of_current? hmessage htop]
  cases budget with
  | zero => exact Nat.zero_le _
  | succ budget =>
    simp only [hstops]
    exact Nat.le_refl 1

end Execution

/-! ### Calls -/

namespace BattleScript

variable {σ : Type} [AssetLoader σ]

/-- The variables that the arguments of a hook go to. -/
def argumentCells (start : Int) (args : HookArgs) : List (Int × Int) :=
  args.toList.mapIdx fun i value => (start + i, value)

theorem handOver_eq (start : Int) (args : HookArgs) :
    handOver start args = (argumentCells start args).map assignment := by
  unfold handOver argumentCells
  rw [List.mapIdx_eq_zipIdx_map, List.mapIdx_eq_zipIdx_map, List.map_map]
  rfl

theorem length_argumentCells (start : Int) (args : HookArgs) :
    (argumentCells start args).length = 6 := by
  unfold argumentCells
  rw [List.length_mapIdx, Vector.length_toList]

/-- The frame that hands over the arguments of a hook. -/
def handOverFrame (start : Int) (args : HookArgs) : Frame :=
  ⟨.synthetic, handOver start args, 0, []⟩

theorem current?_handOverFrame (start : Int) (args : HookArgs) :
    (handOverFrame start args).current? = some (assignment (start, args[0])) := by
  simp [handOverFrame, Frame.current?, handOver_eq, argumentCells]

/-- The frames of the hook interpreter, with the event of a hook on them. -/
def queued (s : BattleScript) (event : CommonEvent) : List Frame :=
  ⟨.ofCommonEvent event.id, event.instructions, 0, []⟩ :: s.hookRunner.stack

/-- The hook interpreter as a call updates it. -/
def called (store : ProgramStore) (kind : HookKind) (args : HookArgs) (s : BattleScript)
    (w : World σ) :
    Execution BattleScript σ :=
  ⟨(s.primed? store kind args).getD s.hookRunner, { s with hookRunner := {} }, w⟩

/-- What a call performs before it returns. -/
def callLines (store : ProgramStore) (kind : HookKind) (args : HookArgs) (s : BattleScript)
    (w : World σ) :
    List (Line σ) :=
  (s.called store kind args w).lines (CommandSet.hook.plainLine store) true

/-- A transcript begins with the assignments of all arguments, over frames that stay as they are,
and after these each variable that there is holds its argument. -/
def Delivers (start : Int) (args : HookArgs) (below : List Frame) (log : List (Line σ)) : Prop :=
  ∃ handed, handed <+: log ∧ List.Forall₂ (Line.Assigns below) (argumentCells start args) handed ∧
    ∀ last ∈ handed.getLast?, ∀ cell ∈ argumentCells start args, 1 ≤ cell.1 →
      cell.1 ≤ last.after.game.vars.size →
      last.after.game.vars.get cell.1 = clamp Variables.minValue Variables.maxValue cell.2

omit [AssetLoader σ] in
theorem Delivers.length_le {start : Int} {args : HookArgs} {below : List Frame}
    {log : List (Line σ)} (h : Delivers start args below log) : 6 ≤ log.length := by
  obtain ⟨handed, hprefix, hassigns, -⟩ := h
  rw [← length_argumentCells start args, hassigns.length_eq]
  exact hprefix.length_le

theorem exists_primed?_of_trigger {store : ProgramStore} {kind : HookKind} {args : HookArgs}
    {s : BattleScript} {w : World σ} (h : (trigger store kind args s w).1 = true) :
    ∃ event, store.event? (s.hooks.get kind).commonEventId = some event ∧
      s.primed? store kind args =
      some { s.hookRunner with
        stack := handOverFrame (s.hooks.get kind).variableStart args :: s.queued event } := by
  rw [trigger_eq] at h
  cases hprimed : s.primed? store kind args with
  | none => simp [hprimed] at h
  | some runner =>
    unfold primed? at hprimed
    dsimp only at hprimed
    split at hprimed
    · obtain ⟨event, hevent, rfl⟩ := Option.map_eq_some_iff.mp hprimed
      exact ⟨event, hevent, rfl⟩
    · contradiction

omit [AssetLoader σ] in
theorem called_eq {store : ProgramStore} {kind : HookKind} {args : HookArgs} {s : BattleScript}
    {runner : Interpreter} (w : World σ) (h : s.primed? store kind args = some runner) :
    s.called store kind args w = ⟨runner, { s with hookRunner := {} }, w⟩ := by
  unfold called
  rw [h, Option.getD_some]

theorem trigger_eq_update {store : ProgramStore} {kind : HookKind} {args : HookArgs}
    {s : BattleScript} {runner : Interpreter} (w : World σ)
    (h : s.primed? store kind args = some runner) :
    trigger store kind args s w =
      let z := (s.called store kind args w).update (battleCommands noHooks) store true
      (true, { z.table with hookRunner := z.interp }, z.world) := by
  rw [trigger_eq, h, called_eq w h]
  rfl

theorem pairwise_argumentCells (start : Int) (args : HookArgs) :
    (argumentCells start args).Pairwise (·.1 ≠ ·.1) := by
  unfold argumentCells
  rw [List.pairwise_iff_getElem]
  intro i j hi hj hlt
  simp only [List.getElem_mapIdx]
  omega

/-- A free hook interpreter performs the assignments at once. -/
theorem delivers_of_free {start : Int} {args : HookArgs} {below : List Frame} {store : ProgramStore}
    {x : Execution BattleScript σ} (hstack : x.interp.stack = handOverFrame start args :: below)
    (hlimit : 6 ≤ x.interp.loopLimit) (hsuspended : x.interp.isSuspended = false)
    (hyield : x.interp.yieldRequested = false) (hmessage : x.game.message.isActive = false) :
    Delivers start args below (x.lines (CommandSet.hook.plainLine store) true) := by
  have hprogram : x.interp.stack =
      ⟨.synthetic, ([] ++ argumentCells start args).map assignment, 0, []⟩ :: below := by
    rw [hstack, List.nil_append, ← handOver_eq]
    rfl
  obtain ⟨budget, hbudget⟩ : ∃ budget,
      x.interp.loopLimit = (argumentCells start args).length + budget :=
    Nat.exists_eq_add_of_le (by rwa [length_argumentCells])
  obtain ⟨handed, hprefix, hassigns, hworld⟩ :=
    Execution.linesFrom_assignments store budget [] _ x hprogram hsuspended hyield hmessage
  rw [Execution.lines_of_running hsuspended, hbudget]
  refine ⟨handed, hprefix, hassigns, ?_⟩
  intro last hlast cell hcell hlow hhigh
  rw [Option.mem_def.mp hlast, Option.map_some, Option.getD_some] at hworld
  have hgame : last.after.game = x.game.receive (argumentCells start args) :=
    congrArg World.game hworld
  rw [hgame] at hhigh ⊢
  exact GameState.get_receive (pairwise_argumentCells start args) hcell hlow (by simpa using hhigh)

theorem delivers_iff {start : Int} {args : HookArgs} {below : List Frame} {store : ProgramStore}
    {x : Execution BattleScript σ} (hstack : x.interp.stack = handOverFrame start args :: below)
    (hlimit : 6 ≤ x.interp.loopLimit) :
    Delivers start args below (x.lines (CommandSet.hook.plainLine store) true) ↔
      x.interp.isSuspended = false ∧ x.interp.yieldRequested = false ∧
        x.game.message.isActive = false := by
  constructor
  · intro hdelivers
    have hlength := hdelivers.length_le
    have hrunning : ¬(x.interp.isSuspended = true ∨ x.game.message.isActive = true) := by
      intro hheld
      rw [(x.update_of_held store (battleCommands noHooks) _ hheld).1] at hlength
      contradiction
    rw [not_or, Bool.not_eq_true, Bool.not_eq_true] at hrunning
    obtain ⟨hsuspended, hmessage⟩ := hrunning
    refine ⟨hsuspended, Bool.eq_false_iff.mpr fun hyield => ?_, hmessage⟩
    -- A yield request that is left over lets one assignment through, and there are six.
    have hshort := Execution.length_linesFrom_of_yield store hstack
      (current?_handOverFrame start args) hyield hmessage x.interp.loopLimit
    rw [Execution.lines_of_running hsuspended] at hlength
    exact absurd (Nat.le_trans hlength hshort) (by decide)
  · rintro ⟨hsuspended, hyield, hmessage⟩
    exact delivers_of_free hstack hlimit hsuspended hyield hmessage

/-- A call that finds an event to run has delivered its arguments when it returns just when the hook
interpreter neither waits nor has a yield request left and no message is open. When it waits or a
message is open, the world is as it was, and the arguments lie on the event's frame, over whatever
earlier hooks left there. -/
theorem trigger_delivers_iff (store : ProgramStore) (kind : HookKind) (args : HookArgs)
    (s : BattleScript) (w : World σ) (hlimit : 6 ≤ s.hookRunner.loopLimit)
    (hcalled : (trigger store kind args s w).1 = true) :
    ∃ event z, store.event? (s.hooks.get kind).commonEventId = some event ∧
      Runs store .hook (.update true) (s.called store kind args w)
        (s.callLines store kind args w) z ∧
      trigger store kind args s w = (true, { z.table with hookRunner := z.interp }, z.world) ∧
      (Delivers (s.hooks.get kind).variableStart args (s.queued event)
        (s.callLines store kind args w) ↔
        s.hookRunner.isSuspended = false ∧
          s.hookRunner.yieldRequested = false ∧ w.game.message.isActive = false) ∧
      (s.hookRunner.isSuspended = true ∨ w.game.message.isActive = true →
        z.world = w ∧ z.interp.stack = handOverFrame (s.hooks.get kind).variableStart args ::
          s.queued event) := by
  obtain ⟨event, hevent, hprimed⟩ := exists_primed?_of_trigger hcalled
  have hbegins := called_eq w hprimed
  refine ⟨event, _, hevent, Runs.hook_lines true _, trigger_eq_update w hprimed, ?_,
    fun hheld => ?_⟩
  · rw [callLines, hbegins]
    exact delivers_iff rfl hlimit
  · have hidle := (s.called store kind args w).update_of_held store (battleCommands noHooks)
      (CommandSet.hook.plainLine store) (by rwa [hbegins])
    rw [hbegins] at hidle ⊢
    exact hidle.2

/-! ### An event that waits -/

namespace Dozing

/-- An event that waits for a second. -/
def event : CommonEvent := { id := 5, instructions := [{ opcode := .wait, params := [10] }] }

def store : ProgramStore := { events := [event] }

def idle : BattleScript := { maniac := true, hooks := ({} : HookTable).bind .damagePop 5 10 }

def world : World InstantAssets := ⟨{ ({} : GameState) with vars := .ofCount 20 }, #[], {}⟩

/-- After a first call. -/
def waiting : BattleScript × World InstantAssets :=
  (trigger store .damagePop #v[1, 2, 3, 4, 5, 6] idle world).2

end Dozing

theorem trigger_delivers_iff_at_rest :
    6 ≤ Dozing.idle.hookRunner.loopLimit ∧
      (trigger Dozing.store .damagePop #v[1, 2, 3, 4, 5, 6] Dozing.idle Dozing.world).1 = true ∧
      Delivers 10 #v[1, 2, 3, 4, 5, 6] [⟨.ofCommonEvent 5, Dozing.event.instructions, 0, []⟩]
        (Dozing.idle.callLines Dozing.store .damagePop #v[1, 2, 3, 4, 5, 6] Dozing.world) := by
  have hlimit : 6 ≤ Dozing.idle.hookRunner.loopLimit := by decide
  have hcalled : (trigger Dozing.store .damagePop #v[1, 2, 3, 4, 5, 6] Dozing.idle Dozing.world).1 =
      true :=
    rfl
  refine ⟨hlimit, hcalled, ?_⟩
  obtain ⟨event, -, hevent, -, -, hdelivers, -⟩ := trigger_delivers_iff _ _ _ _ _ hlimit hcalled
  obtain rfl : Dozing.event = event := Option.some.inj hevent
  exact hdelivers.mpr ⟨rfl, rfl, rfl⟩

/-- A second call, while the event of the first one waits, performs nothing: its caller finds the
arguments of the first. -/
theorem not_delivers_while_waiting :
    Dozing.waiting.1.maniac = true ∧ 6 ≤ Dozing.waiting.1.hookRunner.loopLimit ∧
      (trigger Dozing.store .damagePop #v[7, 8, 9, 10, 11,
        12] Dozing.waiting.1 Dozing.waiting.2).1 = true ∧
      Dozing.waiting.1.callLines Dozing.store .damagePop #v[7, 8, 9, 10, 11,
        12] Dozing.waiting.2 = [] ∧
      (trigger Dozing.store .damagePop #v[7, 8, 9, 10, 11,
        12] Dozing.waiting.1 Dozing.waiting.2).2.2.game.vars.get 10
        = 1 := by
  refine ⟨?_, ?_, ?_, ?_, ?_⟩
  · decide +kernel
  · decide +kernel
  · decide +kernel
  · exact List.isEmpty_iff.mp (by decide +kernel)
  · decide +kernel

end BattleScript

end ActiveBattle
