import Mathlib.Logic.Relation
import ActiveBattle.Proofs.Script.Calls
import ActiveBattle.Proofs.Script.Waiting

/-!
# Discipline on the stack

Whatever is done to the battle interpreter and its hooks, from calls and pages to snapshots of any
kind, their frames stand within their programs (`Director.orderly_calls`). While an update runs,
only the frame on top moves: those below it lie as they are until all above them are gone
(`Interpreter.Turns.returns`). The wait counter keeps less discipline, for the length of a wait may
come out negative.
-/

namespace ActiveBattle

set_option autoImplicit false

namespace Interpreter

/-- Every frame stands within its program or at its end. -/
def Bounded (i : Interpreter) : Prop := ∀ f ∈ i.stack, f.cursor ≤ f.program.length

/-- So it is between updates, when no yield request is left over either. -/
structure Orderly (i : Interpreter) : Prop where
  cursor : i.Bounded
  yield : i.yieldRequested = false

namespace Bounded

variable {i : Interpreter}

theorem of_stack (h : i.Bounded) {j : Interpreter}
    (hstack : ∀ f ∈ j.stack, f ∈ i.stack ∨ f.cursor ≤ f.program.length) : j.Bounded :=
  fun f hf => (hstack f hf).elim (h f) id

theorem push (h : i.Bounded) (program : Program) (owner : OwnerTag) :
    (i.push program owner).Bounded := by
  refine h.of_stack fun f hf => ?_
  rcases List.mem_cons.mp hf with rfl | hf
  · exact .inr (Nat.zero_le _)
  · exact .inl hf

end Bounded

theorem setState_bounded (i : Interpreter) (s : ExecutionSnapshot) (store : ProgramStore) :
    (i.setState s store).Bounded := by
  intro f hf
  obtain ⟨kept, -, hkept⟩ := List.mem_filterMap.mp (List.mem_reverse.mp hf)
  obtain ⟨program, -, rfl⟩ := Option.map_eq_some_iff.mp hkept
  exact Nat.min_le_right _ _

theorem clear_orderly (i : Interpreter) : i.clear.Orderly := ⟨nofun, rfl⟩

theorem Orderly.push {i : Interpreter} (h : i.Orderly) (program : Program) (owner : OwnerTag) :
    (i.push program owner).Orderly :=
  ⟨h.cursor.push program owner, h.yield⟩

theorem ofConfig_orderly (config : BattleConfig) : (ofConfig config).Orderly := ⟨nofun, rfl⟩

theorem moves_bounded {store : ProgramStore} {inst : Instruction} {top : Frame} {below : List Frame}
    {i j : Interpreter} (hi : i.Bounded) (hstack : i.stack = top :: below)
    (hcurrent : top.current? = some inst) (h : i.Moves store inst top below j) : j.Bounded := by
  have moved {g : Frame} (hg : g.cursor ≤ g.program.length) :
      ∀ f ∈ g :: below, f.cursor ≤ f.program.length := by
    intro f hf
    rcases List.mem_cons.mp hf with rfl | hf
    · exact hg
    · exact hi f (by rw [hstack]; exact List.mem_cons_of_mem _ hf)
  have hadvanced : top.advance.cursor ≤ top.advance.program.length := Frame.cursor_lt hcurrent
  cases h with
  | goes _ hmoved => exact moved hmoved.cursor
  | calls _ _ =>
    have hbounded : ({ i with stack := top.advance :: below } : Interpreter).Bounded :=
      moved hadvanced
    exact hbounded.push _ _
  | terminates _ => exact moved (Nat.le_of_lt (Frame.cursor_lt hcurrent))
  | _ => exact moved hadvanced

theorem bounded_upheld (store : ProgramStore) : Upheld store Bounded where
  resume _ h := h
  countdown _ h _ := h
  pop i f rest h _ hstack := fun g hg => h g (by rw [hstack]; exact List.mem_cons_of_mem _ hg)
  move _ _ _ _ _ h _ hstack hcurrent hmoves := moves_bounded h hstack hcurrent hmoves
  yield _ h := h

/-- What the loop of an update can do to the interpreter at once. -/
inductive Turn (store : ProgramStore) (i : Interpreter) : Interpreter → Prop
  | pops {f : Frame} {rest : List Frame} (hstack : i.stack = f :: rest)
    (hcomplete : f.isComplete = true) :
      Turn store i { i with stack := rest }
  | moves {inst : Instruction} {top : Frame} {below : List Frame} {j : Interpreter}
    (hstack : i.stack = top :: below)
      (hcurrent : top.current? = some inst) (h : i.Moves store inst top below j) : Turn store i j
  | rests {j : Interpreter} (hstack : j.stack = i.stack) : Turn store i j

abbrev Turns (store : ProgramStore) : Interpreter → Interpreter → Prop :=
  Relation.ReflTransGen (Turn store)

/-- Only a wait of no length asks for the next frame, and that does not suspend. -/
theorem Moves.yieldRequested_eq_false {store : ProgramStore} {inst : Instruction} {top : Frame}
    {below : List Frame} {i j : Interpreter} (h : i.Moves store inst top below j)
    (hi : i.isSuspended = false) (hyield : i.yieldRequested = false) (hj : j.isSuspended = true) :
    j.yieldRequested = false := by
  cases h with
  | waits _ =>
    obtain ⟨hasync, -⟩ := Bool.or_eq_false_iff.mp hi
    have hpending :
        ({ i with stack := top.advance :: below }.waitTenths (inst.param 0)).isAsyncPending =
          false :=
      hasync
    have hlong :
        0 < ({ i with stack := top.advance :: below }.waitTenths (inst.param 0)).waitFrames := by
      simpa [isSuspended, hpending, isWaiting] using hj
    unfold waitTenths at hlong ⊢
    dsimp only at hlong ⊢
    rw [hyield, Bool.false_or, decide_eq_false_iff_not]
    omega
  | _ => exact hyield

/-- Some frames lie as they are in the end, or did so when all frames above them were gone. -/
def Returns (store : ProgramStore) (frames : List Frame) (i j : Interpreter) : Prop :=
  (∃ above, j.stack = above ++ frames) ∨ ∃ k, Turns store i k ∧ k.stack = frames ∧ Turns store k j

theorem Moves.exists_above {store : ProgramStore} {inst : Instruction} {top : Frame}
    {below : List Frame} {i j : Interpreter} (h : i.Moves store inst top below j) :
    ∃ above, j.stack = above ++ below := by
  cases h with
  | @goes g _ _ => exact ⟨[g], rfl⟩
  | @calls _ event _ _ => exact ⟨[_, top.advance], rfl⟩
  | waits _ => exact ⟨[top.advance], rfl⟩
  | shows _ => exact ⟨[top.advance], rfl⟩
  | loads _ => exact ⟨[top.advance], rfl⟩
  | terminates _ => exact ⟨[top], rfl⟩

/-- Only the frame on top moves, so all others are found as they were left. -/
theorem Turns.returns {store : ProgramStore} {i j : Interpreter} (h : Turns store i j)
    {above frames : List Frame} (hi : i.stack = above ++ frames) : Returns store frames i j := by
  induction h with
  | refl => exact .inl ⟨above, hi⟩
  | tail hturns hturn ih =>
    rename_i k l
    rcases ih with ⟨above', hk⟩ | ⟨m, hm, hframes, hrest⟩
    · cases above' with
      | nil => exact .inr ⟨k, hturns, hk, .single hturn⟩
      | cons f above' =>
        left
        cases hturn with
        | pops hstack _ =>
          obtain ⟨rfl, rfl⟩ := List.cons.inj (hstack.symm.trans hk)
          exact ⟨above', rfl⟩
        | moves hstack _ h =>
          obtain ⟨rfl, rfl⟩ := List.cons.inj (hstack.symm.trans hk)
          obtain ⟨front, hl⟩ := h.exists_above
          exact ⟨front ++ above', hl.trans (List.append_assoc front above' frames).symm⟩
        | rests hstack => exact ⟨f :: above', hstack.trans hk⟩
    · exact .inr ⟨m, hm, hframes, hrest.tail hturn⟩

end Interpreter

open Interpreter

namespace Runs

variable {σ : Type} [AssetLoader σ] {store : ProgramStore} {c : CommandSet} {stage : Stage}
  {x y : Execution BattleScript σ} {log : List (Line σ)}

theorem turns_perform {inst : Instruction} (h : Runs store c (.perform inst) x log y)
    (hcurrent : x.interp.current? = some inst) :
    Turns store x.interp y.interp ∧ ∀ line ∈ log, Turns store line.after.interp y.interp := by
  obtain ⟨top, below, hstack, htop⟩ := exists_of_current? hcurrent
  have hmoves := h.perform_moves hstack htop
  obtain ⟨-, pumped, rfl⟩ := h.performs
  refine ⟨.single (.moves hstack htop hmoves), fun line hline => ?_⟩
  rw [List.mem_singleton.mp hline]
  exact .refl

/-- An update turns the interpreter, and so does what is left of it after a line. -/
theorem turns (h : Runs store c stage x log y) (hfits : stage.Fits x.interp) :
    Turns store x.interp y.interp ∧ ∀ line ∈ log, Turns store line.after.interp y.interp := by
  induction h with
  | held _ => exact ⟨.single (.rests (Execution.woken_stack _ _)), nofun⟩
  | waits _ _ => exact ⟨.single (.rests (Execution.woken_stack _ _)), nofun⟩
  | begins hpending hwaiting _ ih =>
    obtain ⟨hy, hlog⟩ := ih (isSuspended_eq_false hpending hwaiting)
    exact ⟨.head (.rests (Execution.woken_stack _ _)) hy, hlog⟩
  | empty _ => exact ⟨.refl, nofun⟩
  | messageOpen _ => exact ⟨.refl, nofun⟩
  | spent _ _ _ => exact ⟨.refl, nofun⟩
  | pops _ hstack hcomplete _ ih =>
    obtain ⟨hy, hlog⟩ := ih hfits
    exact ⟨.head (.pops hstack hcomplete) hy, hlog⟩
  | suspends _ hcurrent _ _ _ ih => exact ih ⟨hfits, hcurrent⟩
  | yields _ hcurrent _ _ _ _ ih =>
    obtain ⟨hy, hlog⟩ := ih ⟨hfits, hcurrent⟩
    exact ⟨hy.tail (.rests rfl), fun line hline => (hlog line hline).tail (.rests rfl)⟩
  | goes _ hcurrent _ _ hsuspended _ _ ihline ihloop =>
    obtain ⟨hy, hlog⟩ := ihline ⟨hfits, hcurrent⟩
    obtain ⟨hz, hrest⟩ := ihloop hsuspended
    refine ⟨hy.trans hz, fun line hline => ?_⟩
    exact (List.mem_append.mp hline).elim (fun h => (hlog line h).trans hz) (hrest line)
  | plain hstep => exact (Runs.plain hstep).turns_perform hfits.2
  | refused hstep hrefused => exact (Runs.refused hstep hrefused).turns_perform hfits.2
  | pumps hstep hprimed hpump hafter _ =>
    exact (Runs.pumps hstep hprimed hpump hafter).turns_perform hfits.2

theorem yieldRequested_eq_false (h : Runs store c stage x log y)
    (hx : x.interp.yieldRequested = false) (hfits : stage.Fits x.interp)
    (hstage : ∀ inst, stage ≠ .perform inst) : y.interp.yieldRequested = false := by
  induction h with
  | held _ => rwa [Execution.woken_yieldRequested]
  | waits _ _ =>
    change (Execution.woken _ _).interp.yieldRequested = false
    rwa [Execution.woken_yieldRequested]
  | begins hpending hwaiting _ ih =>
    refine ih ?_ (isSuspended_eq_false hpending hwaiting) nofun
    rwa [Execution.woken_yieldRequested]
  | empty _ => exact hx
  | messageOpen _ => exact hx
  | spent _ _ _ => exact hx
  | pops _ _ _ _ ih => exact ih hx hfits nofun
  | suspends _ hcurrent _ hline hsuspended _ =>
    obtain ⟨top, below, hstack, htop⟩ := exists_of_current? hcurrent
    exact (hline.perform_moves hstack htop).yieldRequested_eq_false hfits hx hsuspended
  | yields _ _ _ _ _ _ _ => rfl
  | goes _ _ _ _ hsuspended hyield _ _ ih => exact ih hyield hsuspended nofun
  | plain _ => exact absurd rfl (hstage _)
  | refused _ _ => exact absurd rfl (hstage _)
  | pumps _ _ _ _ _ => exact absurd rfl (hstage _)

end Runs

/-- The line is fetched from within the program of the frame on top. It moves that frame, or calls
from it: then the frame goes on with the line after. All frames below those it leaves on top are
found as they were left, up to the end of the update. -/
structure Line.Disciplined {σ : Type} (store : ProgramStore) (last : Interpreter) (line : Line σ)
    (top : Frame) (below : List Frame) : Prop where
  stack : line.before.interp.stack = top :: below
  fetch : ∃ h : top.cursor < top.program.length, top.program[top.cursor] = line.inst
  frames : (∃ g, g.ownerTag = top.ownerTag ∧ g.program = top.program ∧ g.cursor ≤ g.program.length ∧
      line.after.interp.stack = g :: below) ∨
    ∃ callee, callee.cursor = 0 ∧ line.after.interp.stack = callee :: top.advance :: below
  returns : ∀ above frames, line.after.interp.stack = above ++ frames →
    Returns store frames line.after.interp last

theorem Interpreter.Moves.stack_cases {store : ProgramStore} {inst : Instruction} {top : Frame}
    {below : List Frame} {i j : Interpreter} (h : i.Moves store inst top below j)
    (hcurrent : top.current? = some inst) :
    (∃ g, g.ownerTag = top.ownerTag ∧ g.program = top.program ∧ g.cursor ≤ g.program.length ∧
      j.stack = g :: below) ∨
      ∃ callee : Frame, callee.cursor = 0 ∧ j.stack = callee :: top.advance :: below := by
  have hlt := Frame.cursor_lt hcurrent
  cases h with
  | @goes g _ hmoved => exact .inl ⟨g, hmoved.ownerTag, hmoved.program, hmoved.cursor, rfl⟩
  | calls _ _ => exact .inr ⟨_, rfl, rfl⟩
  | terminates _ => exact .inl ⟨top, rfl, rfl, Nat.le_of_lt hlt, rfl⟩
  | _ => exact .inl ⟨top.advance, rfl, rfl, hlt, rfl⟩

theorem Runs.disciplined {σ : Type} [AssetLoader σ] {store : ProgramStore} {c : CommandSet}
    {allowSuspend : Bool} {x y : Execution BattleScript σ} {log : List (Line σ)}
    (h : Runs store c (.update allowSuspend) x log y) :
    ∀ line ∈ log, ∃ top below, line.Disciplined store y.interp top below := by
  have hupheld : Upheld store fun _ => True := ⟨by simp, by simp, by simp, by simp, by simp⟩
  intro line hline
  obtain ⟨-, -, top, below, hstack, hcurrent, hmoves⟩ :=
    (h.upheld hupheld trivial trivial).2 line hline
  have hturns := (h.turns trivial).2 line hline
  refine ⟨top, below, hstack, List.getElem?_eq_some_iff.mp hcurrent,
    hmoves.stack_cases hcurrent, ?_⟩
  intro above frames hframes
  exact hturns.returns hframes

section Update

variable {σ : Type} [AssetLoader σ]

theorem Runs.orderly {store : ProgramStore} {c : CommandSet} {allowSuspend : Bool}
    {x y : Execution BattleScript σ} {log : List (Line σ)}
    (h : Runs store c (.update allowSuspend) x log y) (hx : x.interp.Orderly) :
    y.interp.Orderly :=
  ⟨(h.upheld (bounded_upheld store) hx.cursor trivial).1,
    h.yieldRequested_eq_false hx.yield trivial nofun⟩

namespace Director

/-- Both interpreters of a battle are orderly. -/
structure Orderly (d : Director) : Prop where
  main : d.interp.Orderly
  hooks : d.script.hookRunner.Orderly

/-- Neither has less than nothing to wait. -/
structure WaitsNonneg (d : Director) : Prop where
  main : 0 ≤ d.interp.waitFrames
  hooks : 0 ≤ d.script.hookRunner.waitFrames

theorem orderly_kept (σ : Type) [AssetLoader σ] (store : ProgramStore) :
    Kept σ store (fun _ => True) Interpreter.Orderly where
  push _ program owner h := h.push program owner
  clear i _ := i.clear_orderly
  retain _ _ h := ⟨h.cursor.of_stack fun _ hf => .inl (List.mem_filter.mp hf).1, h.yield⟩
  setState i kept _ := ⟨i.setState_bounded kept store, rfl⟩
  updates _ _ _ _ _ hruns _ h := hruns.orderly h

theorem wait_nonneg_kept (σ : Type) [AssetLoader σ] (store : ProgramStore) (rate : Int) :
    Kept σ store (fun inst => ¬inst.IsNegativeWait rate) fun i => i.framesPerSecond = rate ∧
      0 ≤ i.waitFrames where
  push _ _ _ h := h
  clear _ h := ⟨h.1, Int.le_refl 0⟩
  retain _ _ h := h
  setState _ _ h := ⟨h.1, Int.le_max_right _ _⟩
  updates _ _ x _ _ hruns hallowed h := by
    obtain ⟨rfl, hwait⟩ := h
    exact ⟨hruns.framesPerSecond_eq trivial, hruns.wait_nonneg trivial hwait hallowed⟩

/-- From a valid configuration on, whatever is asked of the battle interpreter and its hooks in
whatever order: between calls every frame stands within its program, and no yield request is left
over. No wait counter is below zero, unless a wait has been performed whose length came out
negative, and that takes a product of tenths and rate beyond the operands. And every line that any
update performs is fetched from within its program, and leaves the frames below it as they are. -/
theorem orderly_calls {config : BattleConfig} (hvalid : config.Valid) (store : ProgramStore)
    (pageCount : Nat) (calls : List (Call σ)) :
    (calls.foldl (perform store) (ofConfig config pageCount)).Orderly ∧
      ((∀ inst ∈ (ofConfig config pageCount).performedIn store calls,
        ¬inst.IsNegativeWait config.framesPerSecond) →
        (calls.foldl (perform store) (ofConfig config pageCount)).WaitsNonneg) ∧
      (∀ inst : Instruction, inst.IsNegativeWait config.framesPerSecond →
        operandMax < max (inst.param 0) 0 * config.framesPerSecond) ∧
      ∀ (c : CommandSet) (allowSuspend : Bool) (x y : Execution BattleScript σ)
        (log : List (Line σ)),
        Runs store c (.update allowSuspend) x log y →
          ∀ line ∈ log, ∃ top below, line.Disciplined store y.interp top below := by
  have horderly := Interpreter.ofConfig_orderly config
  have hrate := Int.le_of_lt hvalid.rate_pos
  refine ⟨?_, fun hallowed => ?_, fun inst h => h.overflows hrate,
    fun c allowSuspend x y log h => h.disciplined⟩
  · obtain ⟨hmain, hhooks⟩ :=
      (orderly_kept σ store).calls (d := ofConfig config pageCount) calls (fun _ _ => trivial)
        horderly horderly
    exact ⟨hmain, hhooks⟩
  · obtain ⟨⟨-, hmain⟩, ⟨-, hhooks⟩⟩ := (wait_nonneg_kept σ store config.framesPerSecond).calls
      (d := ofConfig config pageCount) calls hallowed ⟨rfl, Int.le_refl 0⟩ ⟨rfl, Int.le_refl 0⟩
    exact ⟨hmain, hhooks⟩

end Director

end Update

/-! ### A snapshot from outside -/

namespace Tampered

/-- An event that calls itself. -/
def store : ProgramStore :=
  .ofEvents [{ id := 1, instructions := [{ opcode := .callEvent, params := [1] }] }] {}

/-- The cursor is far outside of the program, and the wait is negative. -/
def snapshot : ExecutionSnapshot := ⟨[⟨.ofCommonEvent 1, 99, []⟩, ⟨.ofCommonEvent 1, -1, []⟩], -5⟩

def calls : List (Director.Call InstantAssets) :=
  [.setState snapshot, .update .battle true ⟨{}, #[], {}⟩, .push [] .synthetic, .clear,
    .setState snapshot]

/-- A wait of four million seconds, at sixty frames a second. -/
def overflow : List (Director.Call InstantAssets) :=
  [.push [{ opcode := .wait, params := [40000000] }] .synthetic, .update .battle true ⟨{}, #[], {}⟩]

end Tampered

theorem Director.orderly_calls_of_snapshot : ({} : BattleConfig).Valid ∧
    (Tampered.calls.foldl (perform Tampered.store) (ofConfig {} 0)).Orderly := by
  have hvalid : ({} : BattleConfig).Valid := (BattleConfig.fault?_eq_none_iff {}).mp rfl
  exact ⟨hvalid, (orderly_calls hvalid Tampered.store 0 Tampered.calls).1⟩

-- The product is 2400000000, which wraps; the tenth of it is what the counter holds after the
-- update.
theorem Director.not_waitsNonneg_of_overflow : ({} : BattleConfig).Valid ∧
    (Tampered.overflow.foldl (perform Tampered.store) (ofConfig {} 0)).interp.waitFrames =
      -189496729 ∧
      ¬(Tampered.overflow.foldl (perform Tampered.store) (ofConfig {} 0)).WaitsNonneg := by
  have hcounter :
      (Tampered.overflow.foldl (perform Tampered.store) (ofConfig {} 0)).interp.waitFrames =
        -189496729 := by
    decide +kernel
  refine ⟨(BattleConfig.fault?_eq_none_iff {}).mp rfl, hcounter, fun h => ?_⟩
  have hmain := h.main
  rw [hcounter] at hmain
  contradiction

end ActiveBattle
