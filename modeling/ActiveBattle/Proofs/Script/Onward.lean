import Mathlib.Data.List.Basic
import ActiveBattle.Proofs.Script.Running

/-!
# Going forward

Only the end of a loop and a jump to a label take a frame back. Any other instruction takes the
running frame to a later line of its program, or puts the event that it calls over it
(`CommandSet.step_forward`). So along a run each frame goes through its program in order, however
many frames come and go above it (`Passage.inOrder`).
-/

namespace ActiveBattle

set_option autoImplicit false

/-- Commands that neither take a frame back nor end the battle. -/
def Opcode.isForward : Opcode → Bool
  | endLoop | jumpToLabel | terminateBattle => false
  | _ => true

/-- The event that an instruction calls. -/
def Instruction.Calls (store : ProgramStore) (inst : Instruction) (e : CommonEvent) : Prop :=
  (inst.opcode = .callEvent ∨ inst.opcode = .callCommonEvent) ∧ store.event? (inst.param 0) = some e

theorem Frame.lt_seek (f : Frame) (stops : Instruction → Bool) : f.cursor < f.seek stops := by
  unfold seek
  omega

namespace Interpreter

/-- What an instruction of the running frame `top` makes of the frames. -/
inductive Forward (store : ProgramStore) (inst : Instruction) (top : Frame) (below : List Frame) :
    List Frame → Prop
  | goes {g : Frame} (owner : g.ownerTag = top.ownerTag) (program : g.program = top.program)
      (cursor : top.cursor < g.cursor) : Forward store inst top below (g :: below)
  | calls {e : CommonEvent} (h : inst.Calls store e) :
      Forward store inst top below
        (⟨.ofCommonEvent e.id, e.instructions, 0, []⟩ :: top.advance :: below)

/-- The frames go forward once an instruction that leaves the interpreter so is done. -/
def Onward (store : ProgramStore) (inst : Instruction) (top : Frame) (below : List Frame)
    (go : Bool) (i : Interpreter) : Prop :=
  Forward store inst top below (i.settled (below.length + 1) go).stack

variable {store : ProgramStore} {inst : Instruction} {top f : Frame} {below : List Frame}
  {i j : Interpreter}

theorem onward_of_go (hstack : i.stack = f :: below) (howner : f.ownerTag = top.ownerTag)
    (hprogram : f.program = top.program) (hcursor : top.cursor ≤ f.cursor) :
    Onward store inst top below true i := by
  unfold Onward
  rw [settled_of_stack_eq hstack]
  exact .goes howner hprogram (Nat.lt_succ_of_le hcursor)

theorem onward_of_stay (hstack : i.stack = f :: below) (howner : f.ownerTag = top.ownerTag)
    (hprogram : f.program = top.program) (hcursor : top.cursor < f.cursor) :
    Onward store inst top below false i := by
  unfold Onward settled
  rw [if_neg Bool.false_ne_true, hstack]
  exact .goes howner hprogram hcursor

section Commands

variable (hstack : i.stack = top :: below)
include hstack

theorem proceed_onward (h : j.stack = i.stack) : Onward store inst top below true j :=
  onward_of_go (h.trans hstack) rfl rfl (Nat.le_refl _)

theorem setBranch_onward (indent choice : Int) :
    Onward store inst top below true (i.setBranch indent choice) := by
  have hset : (i.setBranch indent choice).stack = top.setBranch indent choice :: below := by
    simp [setBranch, modifyTop, hstack]
  exact onward_of_go hset (top.setBranch_ownerTag _ _) (top.setBranch_program _ _)
    (Nat.le_of_eq (top.setBranch_cursor _ _).symm)

theorem chooseOption_onward (option : Int) (codes : List Opcode) :
    Onward store inst top below (i.chooseOption inst option codes).1
      (i.chooseOption inst option codes).2 := by
  unfold chooseOption
  split
  · exact setBranch_onward hstack _ _
  · unfold skipTo
    rw [modifyTop_eq hstack]
    exact onward_of_stay rfl rfl rfl (top.lt_seek _)

theorem branchOn_onward (test : Bool) (codes : List Opcode) :
    Onward store inst top below (i.branchOn inst test codes).1 (i.branchOn inst test codes).2 := by
  unfold branchOn
  split
  · exact setBranch_onward hstack _ _
  · unfold skipTo setBranch
    rw [modifyTop_eq hstack, modifyTop_eq rfl]
    apply onward_of_stay rfl
    · exact Frame.setBranch_ownerTag _ _ _
    · exact Frame.setBranch_program _ _ _
    · rw [Frame.setBranch_cursor]
      exact top.lt_seek _

theorem breakLoop_onward (hcurrent : top.current? = some inst) :
    Onward store inst top below (i.breakLoop inst).1 (i.breakLoop inst).2 := by
  unfold breakLoop
  rw [hstack]
  dsimp only
  split
  · exact onward_of_go rfl rfl rfl (Nat.le_of_lt (top.lt_seek _))
  · exact onward_of_stay rfl rfl rfl (Frame.cursor_lt hcurrent)

theorem call_onward (hcode : inst.opcode = .callEvent ∨ inst.opcode = .callCommonEvent) :
    Onward store inst top below true (i.call store (inst.param 0)) := by
  unfold call
  split
  · rename_i e he
    unfold Onward
    have hsettled : ((i.pushEvent e).settled (below.length + 1) true).stack =
        ⟨.ofCommonEvent e.id, e.instructions, 0, []⟩ :: top.advance :: below := by
      simp [settled, pushEvent, push, hstack]
    rw [hsettled]
    exact .calls ⟨hcode, he⟩
  · exact proceed_onward hstack rfl

end Commands

end Interpreter

open Interpreter

namespace Execution

variable {δ σ : Type} {store : ProgramStore} {inst : Instruction} {top : Frame} {below : List Frame}

theorem executeBase_onward [AssetLoader σ] {x : Execution δ σ}
    (hstack : x.interp.stack = top :: below) (hcurrent : top.current? = some inst)
    (hforward : inst.opcode.isForward = true) :
    Onward store inst top below (x.executeBase store inst).1
      (x.executeBase store inst).2.interp := by
  unfold executeBase
  cases hcode : inst.opcode
  case conditionalBranch => exact branchOn_onward hstack _ _
  case elseBranch => exact chooseOption_onward hstack _ _
  case breakLoop => exact breakLoop_onward hstack hcurrent
  case endLoop => simp [hcode, Opcode.isForward] at hforward
  case jumpToLabel => simp [hcode, Opcode.isForward] at hforward
  case callEvent => exact call_onward hstack (.inl hcode)
  case showPicture =>
    dsimp only [proceed, showPicture]
    split <;> exact proceed_onward hstack rfl
  case endEventProcessing =>
    have hfinished : (x.interp.modifyTop (·.finish)).stack = top.finish :: below := by
      rw [modifyTop_eq hstack]
    exact onward_of_stay hfinished rfl rfl (Frame.cursor_lt hcurrent)
  all_goals exact proceed_onward hstack rfl

theorem battleCommands_onward {hook : HookCall σ} {x : Execution BattleScript σ}
    (hstack : x.interp.stack = top :: below) (hforward : inst.opcode.isForward = true)
    {done : Bool × Execution BattleScript σ} (h : battleCommands hook store inst x = some done) :
    Onward store inst top below done.1 done.2.interp := by
  have proceeds {y : Execution BattleScript σ} (hy : y.interp.stack = x.interp.stack)
      (hdone : some y.proceed = some done) : Onward store inst top below done.1 done.2.interp := by
    rw [← Option.some.inj hdone]
    exact proceed_onward hstack hy
  unfold battleCommands at h
  cases hcode : inst.opcode <;> rw [hcode] at h <;> dsimp only at h
  case callCommonEvent =>
    rw [← Option.some.inj h]
    split
    · exact call_onward hstack (.inr hcode)
    · exact proceed_onward hstack rfl
  case forceFlee => exact proceeds (by split <;> simp [forceFlee_interp]) h
  case enableCombo => exact proceeds (by split <;> simp [enableCombo_interp]) h
  case changeMonsterHp => exact proceeds (congrArg _ (changeMonsterHp_interp x inst)) h
  case changeMonsterMp => exact proceeds (congrArg _ (changeMonsterMp_interp x inst)) h
  case changeMonsterCondition =>
    exact proceeds (congrArg _ (changeMonsterCondition_interp x inst)) h
  case showBattleAnimation => exact proceeds (x.showBattleAnimation_keeps inst).2 h
  case terminateBattle => simp [hcode, Opcode.isForward] at hforward
  case conditionalBranchBattle =>
    rw [← Option.some.inj h]
    exact branchOn_onward hstack _ _
  case elseBranchBattle =>
    rw [← Option.some.inj h]
    exact chooseOption_onward hstack _ _
  case controlBattleHooks => exact proceeds (congrArg _ (controlBattleHooks_interp x inst)) h
  case showHiddenMonster | changeBattleBackground | endBranchBattle => exact proceeds (by rfl) h
  all_goals contradiction

end Execution

/-- Any instruction but a jump back, or one that ends the battle, goes forward. -/
theorem CommandSet.step_forward {σ : Type} [AssetLoader σ] (c : CommandSet) (call : HookCall σ)
    {store : ProgramStore} {inst : Instruction} {top : Frame} {below : List Frame}
    {x : Execution BattleScript σ} (hstack : x.interp.stack = top :: below)
    (hcurrent : top.current? = some inst) (hforward : inst.opcode.isForward = true) :
    Forward store inst top below (x.step (c.table call) store inst).interp.stack := by
  rw [Execution.step_settled _ store inst hstack]
  have hbattle : Onward store inst top below (x.perform (battleCommands call) store inst).1
      (x.perform (battleCommands call) store inst).2.interp := by
    unfold Execution.perform
    cases h : battleCommands call store inst x with
    | none => exact Execution.executeBase_onward hstack hcurrent hforward
    | some done => exact Execution.battleCommands_onward hstack hforward h
  cases c with
  | base => exact Execution.executeBase_onward hstack hcurrent hforward
  | battle => exact hbattle
  | hook => exact hbattle

/-! ### Frames that come and go -/

section Passages

variable {σ : Type} {store : ProgramStore} {frames next : List Frame} {top : Frame}
  {below : List Frame}

/-- From some frames on, lines are performed and frames that are done are popped. -/
inductive Passage (store : ProgramStore) (frames : List Frame) : List (Line σ) → List Frame → Prop
  | start : Passage store frames [] frames
  | pops {log : List (Line σ)} {f : Frame} {rest : List Frame}
    (h : Passage store frames log (f :: rest))
      (hcomplete : f.isComplete = true) : Passage store frames log rest
  | performs {log : List (Line σ)} {l : Line σ} {top : Frame} {below next : List Frame}
      (h : Passage store frames log (top :: below)) (hline : l.before.interp.stack = top :: below)
      (hcurrent : top.current? = some l.inst) (hforward : Forward store l.inst top below next) :
      Passage store frames (log ++ [l]) next

theorem Passage.trans {log log' : List (Line σ)} {frames' frames'' : List Frame}
    (h : Passage store frames log frames') (h' : Passage store frames' log' frames'') :
    Passage store frames (log ++ log') frames'' := by
  induction h' with
  | start =>
    rw [List.append_nil]
    exact h
  | pops _ hcomplete ih => exact .pops ih hcomplete
  | performs _ hline hcurrent hforward ih =>
    rw [← List.append_assoc]
    exact .performs ih hline hcurrent hforward

theorem Passage.of_nil {log : List (Line σ)} (h : Passage store frames log next)
    (hframes : frames = []) : next = [] := by
  induction h with
  | start => exact hframes
  | pops _ _ ih => contradiction
  | performs _ _ _ _ ih => contradiction

namespace Line

/-- How many frames there are when the line is performed. -/
def depth (l : Line σ) : Nat := l.before.interp.stack.length

/-- Both lines are of one frame, the later one further on in its program. -/
def Precedes (l m : Line σ) : Prop :=
  ∃ top top' below, l.before.interp.stack = top :: below ∧ m.before.interp.stack = top' :: below ∧
    top'.ownerTag = top.ownerTag ∧ top'.program = top.program ∧ top.cursor < top'.cursor ∧
    top.program[top.cursor]? = some l.inst ∧ top'.program[top'.cursor]? = some m.inst

/-- The frame that performed the line lies among the frames, further on in its program, or it is
gone. -/
def Left (l : Line σ) (frames : List Frame) : Prop :=
  ∃ top below, l.before.interp.stack = top :: below ∧ top.current? = some l.inst ∧
    (frames.length ≤ below.length ∨ ∃ above f, frames = above ++ f :: below ∧
      f.ownerTag = top.ownerTag ∧ f.program = top.program ∧ top.cursor < f.cursor)

variable {l m : Line σ}

theorem Left.start (hline : l.before.interp.stack = top :: below)
    (hcurrent : top.current? = some l.inst) (hforward : Forward store l.inst top below next) :
    l.Left next := by
  refine ⟨top, below, hline, hcurrent, .inr ?_⟩
  cases hforward with
  | @goes g howner hprogram hcursor => exact ⟨[], g, rfl, howner, hprogram, hcursor⟩
  | calls _ => exact ⟨[_], top.advance, rfl, rfl, rfl, Nat.lt_succ_self _⟩

theorem Left.pops {f : Frame} {rest : List Frame} (h : l.Left (f :: rest)) : l.Left rest := by
  obtain ⟨top, below, hline, hcurrent, hgone | ⟨above, g, hframes, hkept⟩⟩ := h
  · refine ⟨top, below, hline, hcurrent, .inl ?_⟩
    rw [List.length_cons] at hgone
    omega
  · cases above with
    | nil =>
      obtain ⟨-, rfl⟩ := List.cons.inj hframes
      exact ⟨top, _, hline, hcurrent, .inl (Nat.le_refl _)⟩
    | cons a above =>
      obtain ⟨-, rfl⟩ := List.cons.inj hframes
      exact ⟨top, below, hline, hcurrent, .inr ⟨above, g, rfl, hkept⟩⟩

/-- A line that is performed no less deep does not touch the frames below that of the first. -/
theorem Left.performs (h : l.Left (top :: below)) (hdepth : l.depth ≤ (top :: below).length)
    {inst : Instruction} (hforward : Forward store inst top below next) : l.Left next := by
  obtain ⟨first, bottom, hline, hcurrent, hgone | ⟨above, g, hframes, howner, hprogram, hcursor⟩⟩ :=
    h
  · rw [depth, hline, List.length_cons] at hdepth
    omega
  · refine ⟨first, bottom, hline, hcurrent, .inr ?_⟩
    cases above with
    | nil =>
      obtain ⟨rfl, rfl⟩ := List.cons.inj hframes
      cases hforward with
      | @goes k howner' hprogram' hcursor' =>
        exact ⟨[], k, rfl, howner'.trans howner, hprogram'.trans hprogram,
          Nat.lt_trans hcursor hcursor'⟩
      | calls _ => exact ⟨[_], top.advance, rfl, howner, hprogram, Nat.lt_succ_of_lt hcursor⟩
    | cons a above =>
      obtain ⟨rfl, rfl⟩ := List.cons.inj hframes
      cases hforward with
      | @goes k _ _ _ => exact ⟨k :: above, g, rfl, howner, hprogram, hcursor⟩
      | calls _ => exact ⟨_ :: top.advance :: above, g, rfl, howner, hprogram, hcursor⟩

theorem Left.precedes (h : l.Left (top :: below)) (hline : m.before.interp.stack = top :: below)
    (hcurrent : top.current? = some m.inst) (hdepth : m.depth = l.depth) : l.Precedes m := by
  obtain ⟨first, bottom, hfirst, hinst, hgone | ⟨above, g, hframes, howner, hprogram, hcursor⟩⟩ := h
  · rw [depth, depth, hline, hfirst, List.length_cons] at hdepth
    simp only [List.length_cons] at hgone hdepth
    omega
  · cases above with
    | nil =>
      obtain ⟨rfl, rfl⟩ := List.cons.inj hframes
      exact ⟨first, top, below, hfirst, hline, howner, hprogram, hcursor, hinst, hcurrent⟩
    | cons a above =>
      have hlength := congrArg List.length hframes
      rw [depth, depth, hline, hfirst, hlength] at hdepth
      simp only [List.length_cons, List.length_append] at hdepth
      omega

end Line

/-- Each frame goes through its program in order: of two lines at one depth, with none less deep in
between, the later one is of the same frame and further on. -/
def InOrder (log : List (Line σ)) : Prop :=
  ∀ before l between m after, log = before ++ l :: (between ++ m :: after) → m.depth = l.depth →
    (∀ k ∈ between, l.depth ≤ k.depth) → l.Precedes m

theorem Passage.left {log : List (Line σ)} (h : Passage store frames log next)
    {before between : List (Line σ)} {l : Line σ} (hlog : log = before ++ l :: between)
    (hdeep : ∀ k ∈ between, l.depth ≤ k.depth) : l.Left next := by
  induction h generalizing before between with
  | start => simp at hlog
  | pops _ _ ih => exact (ih hlog hdeep).pops
  | @performs log m top below next _ hline hcurrent hforward ih =>
    rcases List.eq_nil_or_concat' between with rfl | ⟨between, k, rfl⟩
    · obtain ⟨-, rfl⟩ := List.append_singleton_inj.mp hlog
      exact .start hline hcurrent hforward
    · rw [← List.cons_append, ← List.append_assoc] at hlog
      obtain ⟨hinit, rfl⟩ := List.append_singleton_inj.mp hlog
      have hmost : l.depth ≤ m.depth := hdeep m (by simp)
      rw [Line.depth, Line.depth, hline] at hmost
      have hleft : l.Left (top :: below) := ih hinit fun k hk => hdeep k (List.mem_append_left _ hk)
      exact hleft.performs hmost hforward

/-- Every passage is in order. -/
theorem Passage.inOrder {log : List (Line σ)} (h : Passage store frames log next) :
    InOrder log := by
  induction h with
  | start =>
    intro before l between m after hlog
    simp at hlog
  | pops _ _ ih => exact ih
  | @performs log k top below next h hline hcurrent hforward ih =>
    intro before l between m after hlog hdepth hdeep
    rcases List.eq_nil_or_concat' after with rfl | ⟨after, last, rfl⟩
    · rw [← List.cons_append, ← List.append_assoc] at hlog
      obtain ⟨hinit, rfl⟩ := List.append_singleton_inj.mp hlog
      exact (h.left hinit hdeep).precedes hline hcurrent hdepth
    · refine ih before l between m after ?_ hdepth hdeep
      have hsplit : log ++ [k] = (before ++ l :: (between ++ m :: after)) ++ [last] := by
        simp [hlog]
      exact (List.append_singleton_inj.mp hsplit).1

end Passages

/-! ### Programs that go forward -/

/-- A kind of programs that go forward, with all that they call. -/
structure ProgramStore.Forwards (store : ProgramStore) (P : Program → Prop) : Prop where
  forward : ∀ program, P program → ∀ inst ∈ program, inst.opcode.isForward = true
  calls : ∀ program, P program → ∀ inst ∈ program, ∀ e, inst.Calls store e → P e.instructions

namespace Interpreter

/-- Programs of the kind are under way, and none of them ended the battle. -/
structure Flows (P : Program → Prop) (i : Interpreter) : Prop where
  executes : i.Executes P
  goesOn : ∀ result, i.asyncOp ≠ .terminateBattle result

variable {P : Program → Prop} {store : ProgramStore} {inst : Instruction} {top : Frame}
  {below next : List Frame} {i j : Interpreter}

theorem Flows.resume (h : i.Flows P) : i.resume.Flows P := by
  refine ⟨h.executes, fun result hended => ?_⟩
  unfold Interpreter.resume at hended
  cases hop : i.asyncOp with
  | none => simp [hop] at hended
  | loadAsset _ _ _ => simp [hop] at hended
  | terminateBattle other => exact h.goesOn other hop

theorem Flows.woken {σ : Type} (allowSuspend : Bool) {x : Execution BattleScript σ}
    (h : x.interp.Flows P) :
    (x.woken allowSuspend).interp.Flows P := by
  cases allowSuspend with
  | true => exact h
  | false => exact h.resume

theorem Forward.executes (hP : store.Forwards P) (hframes : ∀ f ∈ top :: below, P f.program)
    (hcurrent : top.current? = some inst) (h : Forward store inst top below next) :
    ∀ f ∈ next, P f.program := by
  have htop : P top.program := hframes top List.mem_cons_self
  have hbelow : ∀ f ∈ below, P f.program := fun f hf => hframes f (List.mem_cons_of_mem top hf)
  cases h with
  | goes _ hprogram _ =>
    rw [List.forall_mem_cons, hprogram]
    exact ⟨htop, hbelow⟩
  | calls hcalls =>
    rw [List.forall_mem_cons, List.forall_mem_cons]
    exact ⟨hP.calls _ htop inst (List.mem_of_getElem? hcurrent) _ hcalls, htop, hbelow⟩

theorem Moves.goesOn (hforward : inst.opcode.isForward = true)
    (hi : ∀ result, i.asyncOp ≠ .terminateBattle result) (h : i.Moves store inst top below j) :
    ∀ result, j.asyncOp ≠ .terminateBattle result := by
  cases h with
  | loads _ => exact nofun
  | terminates hends => simp [hends, Opcode.isForward] at hforward
  | _ => exact hi

end Interpreter

namespace Runs

variable {σ : Type} [AssetLoader σ] {store : ProgramStore} {c : CommandSet} {stage : Stage}
  {P : Program → Prop} {x y : Execution BattleScript σ} {log : List (Line σ)}

theorem passage_perform (hP : store.Forwards P) {inst : Instruction}
    (h : Runs store c (.perform inst) x log y) (hx : x.interp.Flows P)
    (hcurrent : x.interp.current? = some inst) :
    Passage store x.interp.stack log y.interp.stack ∧ y.interp.Flows P := by
  obtain ⟨top, below, hstack, htop⟩ := exists_of_current? hcurrent
  have hframes : ∀ f ∈ top :: below, P f.program := by
    rw [← hstack]
    exact hx.executes
  have hforward : inst.opcode.isForward = true :=
    hP.forward _ (hframes top List.mem_cons_self) inst (List.mem_of_getElem? htop)
  have hnext : Forward store inst top below y.interp.stack := by
    rw [h.performs.1]
    exact c.step_forward noHooks hstack htop hforward
  have hgoesOn := (h.perform_moves hstack htop).goesOn hforward hx.goesOn
  obtain ⟨-, pumped, rfl⟩ := h.performs
  refine ⟨?_, hnext.executes hP hframes htop, hgoesOn⟩
  rw [hstack]
  have hstart : @Passage σ store (top :: below) [] (top :: below) := .start
  exact hstart.performs hstack htop hnext

/-- Programs that go forward pass frame by frame. -/
theorem passage (hP : store.Forwards P) (h : Runs store c stage x log y) (hx : x.interp.Flows P)
    (hfits : stage.Fits x.interp) :
    Passage store x.interp.stack log y.interp.stack ∧ y.interp.Flows P := by
  induction h with
  | held _ =>
    rw [Execution.woken_stack]
    exact ⟨.start, hx.woken _⟩
  | @waits _ allowSuspend x _ _ =>
    have hwoken : (x.woken allowSuspend).interp.Flows P := hx.woken allowSuspend
    refine ⟨?_, hwoken.executes, hwoken.goesOn⟩
    change Passage store x.interp.stack [] (x.woken allowSuspend).interp.stack
    rw [Execution.woken_stack]
    exact .start
  | begins hpending hwaiting _ ih =>
    rw [Execution.woken_stack] at ih
    exact ih (hx.woken _) (isSuspended_eq_false hpending hwaiting)
  | empty _ => exact ⟨.start, hx⟩
  | messageOpen _ => exact ⟨.start, hx⟩
  | spent _ _ _ => exact ⟨.start, hx⟩
  | @pops _ _ _ x y log f rest _ hstack hcomplete _ ih =>
    have hrest : Interpreter.Flows P { x.interp with stack := rest } :=
      ⟨hx.executes.of_mem fun f hf => by simpa [hstack] using .inr hf, hx.goesOn⟩
    obtain ⟨hpassage, hy⟩ := ih hrest hfits
    have hpopped : @Passage σ store x.interp.stack [] rest := by
      rw [hstack]
      exact .pops .start hcomplete
    exact ⟨hpopped.trans hpassage, hy⟩
  | suspends _ hcurrent _ hline _ _ => exact hline.passage_perform hP hx hcurrent
  | yields _ hcurrent _ hline _ _ _ =>
    obtain ⟨hpassage, hy⟩ := hline.passage_perform hP hx hcurrent
    exact ⟨hpassage, hy.executes, hy.goesOn⟩
  | goes _ hcurrent _ hline hsuspended _ _ _ ih =>
    obtain ⟨hpassage, hy⟩ := hline.passage_perform hP hx hcurrent
    obtain ⟨hrest, hz⟩ := ih hy hsuspended
    exact ⟨hpassage.trans hrest, hz⟩
  | plain hstep => exact (Runs.plain hstep).passage_perform hP hx hfits.2
  | refused hstep hrefused => exact (Runs.refused hstep hrefused).passage_perform hP hx hfits.2
  | pumps hstep hprimed hpump hafter _ =>
    exact (Runs.pumps hstep hprimed hpump hafter).passage_perform hP hx hfits.2

end Runs

end ActiveBattle
