import ActiveBattle.Proofs.Script.Effect
import ActiveBattle.Proofs.Script.Frame

/-!
# Programs of a kind

What the scripts of a battle can do depends on the instructions of its programs. A `Repertoire` is a
kind of instruction for all programs, and a narrower one for the common events, which alone run in
parallel and in hooks. Interpreters whose programs are of the kind stay so, they are suspended on
what instructions of the kind ask for, and what no instruction of the kind does, no update of an
interpreter and no hook does (`Execution.update_confined`, `BattleScript.trigger_bound`).
-/

namespace ActiveBattle

set_option autoImplicit false

namespace Instruction

def fleesParty (inst : Instruction) : Bool := inst.opcode = .forceFlee && inst.param 0 = 0

/-- Can kill an enemy or make it vanish. -/
def removesEnemies (inst : Instruction) : Bool :=
  match inst.opcode with
  | .changeMonsterHp | .changeMonsterCondition => true
  | .forceFlee => inst.param 0 = 1 || inst.param 0 = 2
  | _ => false

def enablesCombo (inst : Instruction) : Bool := inst.opcode = .enableCombo

end Instruction

structure Repertoire where
  any : Instruction → Prop
  event : Instruction → Prop
  /-- Hooks can be bound and run. -/
  hooks : Prop
  any_of_event : ∀ inst, event inst → any inst
  /-- Hooks are handed their arguments by assignments. -/
  assign : ∀ inst, inst.opcode = .controlVariables → event inst

/-- The repertoire of an interpreter that runs common events alone. -/
def Repertoire.ofEvents (P : Repertoire) : Repertoire :=
  ⟨P.event, P.event, P.hooks, fun _ h => h, P.assign⟩

namespace ProgramStore

def EventsWithin (P : Instruction → Prop) (store : ProgramStore) : Prop :=
  ∀ e ∈ store.events, ∀ inst ∈ e.instructions, P inst

def PagesWithin (P : Instruction → Prop) (store : ProgramStore) : Prop :=
  ∀ page ∈ store.troop.pages, ∀ inst ∈ page.instructions, P inst

/-- No program has an instruction that `p` tells. -/
def Lacks (p : Instruction → Bool) (store : ProgramStore) : Prop :=
  store.EventsWithin (p · = false) ∧ store.PagesWithin (p · = false)

end ProgramStore

/-- The instructions of the programs of a store. -/
def Repertoire.ofStore (store : ProgramStore) : Repertoire where
  any inst := (∃ page ∈ store.troop.pages, inst ∈ page.instructions) ∨
    (∃ e ∈ store.events, inst ∈ e.instructions) ∨ inst.opcode = .controlVariables
  event inst := (∃ e ∈ store.events, inst ∈ e.instructions) ∨ inst.opcode = .controlVariables
  hooks := True
  any_of_event _ h := .inr h
  assign _ h := .inr h

/-- What no program has, the repertoire of the programs lacks. -/
theorem ProgramStore.Lacks.of_any {p : Instruction → Bool} {store : ProgramStore}
    (h : store.Lacks p) (hassign : ∀ inst, inst.opcode = .controlVariables → p inst = false) :
    ∀ inst, (Repertoire.ofStore store).any inst → p inst = false := by
  rintro inst (⟨page, hpage, hinst⟩ | ⟨e, he, hinst⟩ | hcode)
  · exact h.2 page hpage inst hinst
  · exact h.1 e he inst hinst
  · exact hassign inst hcode

namespace Interpreter

/-- What instructions of a kind can suspend an interpreter on. A battle that a script ends is
aborted. -/
def Raises (P : Instruction → Prop) : AsyncOp → Prop
  | .none => True
  | .loadAsset .. => ∃ inst, P inst ∧ inst.opcode = .showPicture
  | .terminateBattle result => result = .abort ∧ ∃ inst, P inst ∧ inst.opcode = .terminateBattle

/-- Every instruction the interpreter can come to is of a kind, and so was the one that suspended
it. -/
structure Within (P : Instruction → Prop) (i : Interpreter) : Prop where
  programs : ∀ f ∈ i.stack, ∀ inst ∈ f.program, P inst
  op : Raises P i.asyncOp

namespace Within

variable {P : Instruction → Prop} {i j : Interpreter}

theorem of_idle (hstack : i.stack = []) (hop : i.asyncOp = .none) : i.Within P := by
  refine ⟨?_, ?_⟩
  · rw [hstack]
    exact fun _ hf => absurd hf List.not_mem_nil
  · rw [hop]
    trivial

theorem of_stack_eq (h : i.Within P) (hstack : j.stack = i.stack) (hop : Raises P j.asyncOp) :
    j.Within P := by
  refine ⟨?_, hop⟩
  rw [hstack]
  exact h.programs

theorem of_programs (h : i.Within P) (hstack : ∀ f ∈ j.stack, ∃ g ∈ i.stack, f.program = g.program)
    (hop : j.asyncOp = i.asyncOp) : j.Within P := by
  refine ⟨fun f hf inst hinst => ?_, by rw [hop]; exact h.op⟩
  obtain ⟨g, hg, hprogram⟩ := hstack f hf
  rw [hprogram] at hinst
  exact h.programs g hg inst hinst

theorem push (h : i.Within P) (program : Program) (owner : OwnerTag)
    (hprogram : ∀ inst ∈ program, P inst) :
    (i.push program owner).Within P := by
  refine ⟨fun f hf inst hinst => ?_, h.op⟩
  rcases List.mem_cons.mp hf with rfl | hf
  · exact hprogram inst hinst
  · exact h.programs f hf inst hinst

theorem clear (i : Interpreter) : i.clear.Within P := .of_idle rfl rfl

theorem resume (h : i.Within P) : i.resume.Within P := by
  refine h.of_stack_eq rfl ?_
  unfold Interpreter.resume
  dsimp only
  split
  · trivial
  · exact h.op

theorem modifyTop (h : i.Within P) (g : Frame → Frame) (hg : ∀ f, (g f).program = f.program) :
    (i.modifyTop g).Within P := by
  refine h.of_programs (fun f hf => ?_) rfl
  unfold Interpreter.modifyTop at hf
  cases hstack : i.stack with
  | nil => simp [hstack] at hf
  | cons top rest =>
    rw [hstack, List.modifyHead_cons] at hf
    rcases List.mem_cons.mp hf with rfl | hf
    · exact ⟨top, List.mem_cons_self, hg top⟩
    · exact ⟨f, List.mem_cons_of_mem _ hf, rfl⟩

theorem dropComplete (h : i.Within P) : i.dropComplete.Within P :=
  h.of_programs (fun f hf => ⟨f, (List.dropWhile_sublist _).mem hf, rfl⟩) rfl

theorem advance (h : i.Within P) (n : Nat) :
    ({ i with stack := i.stack.modify n (·.advance) } : Interpreter).Within P := by
  refine ⟨fun f hf inst hinst => ?_, h.op⟩
  obtain ⟨k, hk⟩ := List.mem_iff_getElem?.mp hf
  dsimp only at hk
  rw [List.getElem?_modify] at hk
  obtain ⟨g, hg, hgf⟩ := Option.map_eq_some_iff.mp hk
  have hprogram : f.program = g.program := by
    rw [← hgf]
    split <;> rfl
  rw [hprogram] at hinst
  exact h.programs g (List.mem_of_getElem? hg) inst hinst

theorem call {P : Repertoire} {R : Instruction → Prop} {store : ProgramStore} {i : Interpreter}
    (hevents : store.EventsWithin P.event) (hR : ∀ inst, P.event inst → R inst) (h : i.Within R)
    (id : Int) :
    (i.call store id).Within R := by
  unfold Interpreter.call
  split
  · rename_i event hevent
    exact h.push _ _ fun inst hinst =>
      hR inst (hevents event (List.mem_of_find?_eq_some hevent) inst hinst)
  · exact h

theorem current? (h : i.Within P) {inst : Instruction} (hinst : i.current? = some inst) :
    P inst := by
  unfold Interpreter.current? at hinst
  cases hstack : i.stack with
  | nil => simp [hstack] at hinst
  | cons top rest =>
    simp only [hstack, List.head?_cons, Option.bind_some] at hinst
    exact h.programs top (by rw [hstack]; exact List.mem_cons_self) inst
      (List.mem_of_getElem? hinst)

end Within

end Interpreter

/-- The programs under way in hooks are of the repertoire; where hooks cannot run, none is
suspended. -/
structure BattleScript.Within (P : Repertoire) (s : BattleScript) : Prop where
  enabled : s.maniac = true → P.hooks
  runner : s.hookRunner.Within P.event
  silent : ¬P.hooks → s.hookRunner.asyncOp = .none

theorem BattleScript.Within.of_eq {P : Repertoire} {s s' : BattleScript} (hs : s.Within P)
    (hmaniac : s'.maniac = s.maniac) (hrunner : s'.hookRunner = s.hookRunner) : s'.Within P := by
  refine ⟨?_, ?_, ?_⟩
  · rw [hmaniac]
    exact hs.enabled
  · rw [hrunner]
    exact hs.runner
  · rw [hrunner]
    exact hs.silent

/-- An enemy that was present still is. -/
def Battler.Stays (b b' : Battler) : Prop := b.isPresent = true → b'.isPresent = true

namespace Battler.Stays

theorem refl (b : Battler) : Stays b b := fun h => h

theorem trans (a b c : Battler) (h : Stays a b) (h' : Stays b c) : Stays a c := h' ∘ h

end Battler.Stays

/-- What scripts of a repertoire leave behind in the game and in the state they share. -/
structure BattleScript.Bound (P : Repertoire) (g : GameState) (s : BattleScript) (g' : GameState)
    (s' : BattleScript) : Prop where
  within : s'.Within P
  flight : (∀ inst, P.any inst → inst.fleesParty = false) → s'.forceFlee = s.forceFlee
  combos : (∀ inst, P.any inst → inst.enablesCombo = false) → g'.roster.actors = g.roster.actors
  enemies : (∀ inst, P.any inst → inst.removesEnemies = false) →
    List.Forall₂ Battler.Stays g.roster.enemies g'.roster.enemies

namespace BattleScript.Bound

variable {P : Repertoire} {g g' g'' : GameState} {s s' s'' : BattleScript}

theorem of_eq (hs' : s'.Within P) (hroster : g'.roster = g.roster)
    (hflee : s'.forceFlee = s.forceFlee) :
    Bound P g s g' s' := by
  refine ⟨hs', fun _ => hflee, fun _ => by rw [hroster], fun _ => ?_⟩
  rw [hroster]
  exact List.forall₂_same.mpr fun b _ => .refl b

theorem refl (hs : s.Within P) : Bound P g s g s := .of_eq hs rfl rfl

theorem trans (h : Bound P g s g' s') (h' : Bound P g' s' g'' s'') : Bound P g s g'' s'' :=
  ⟨h'.within, fun hP => (h'.flight hP).trans (h.flight hP),
    fun hP => (h'.combos hP).trans (h.combos hP),
    fun hP => forall₂_trans Battler.Stays.trans (h.enemies hP) (h'.enemies hP)⟩

theorem of_events (h : Bound P.ofEvents g s g' s') : Bound P g s g' s' :=
  ⟨⟨h.within.enabled, h.within.runner, h.within.silent⟩,
    fun hP => h.flight fun inst hinst => hP inst (P.any_of_event inst hinst),
    fun hP => h.combos fun inst hinst => hP inst (P.any_of_event inst hinst),
    fun hP => h.enemies fun inst hinst => hP inst (P.any_of_event inst hinst)⟩

/-- Only enemies change, by an instruction that can remove them or in a way that does not. -/
theorem of_enemies (hs : s.Within P) (hactors : g'.roster.actors = g.roster.actors)
    (henemies : (∀ inst, P.any inst → inst.removesEnemies = false) →
      List.Forall₂ Battler.Stays g.roster.enemies g'.roster.enemies) : Bound P g s g' s :=
  ⟨hs, fun _ => rfl, fun _ => hactors, henemies⟩

end BattleScript.Bound

namespace Execution

variable {σ : Type} {P : Repertoire} {store : ProgramStore}

/-- The programs under way are of the repertoire. -/
structure Within (P : Repertoire) (x : Execution BattleScript σ) : Prop where
  interp : x.interp.Within P.any
  table : x.table.Within P

/-- Scripts of a repertoire got from `x` to `y`. -/
structure Confined (P : Repertoire) (x y : Execution BattleScript σ) : Prop where
  interp : y.interp.Within P.any
  bound : BattleScript.Bound P x.game x.table y.game y.table

namespace Confined

variable {x y z : Execution BattleScript σ}

theorem within (h : Confined P x y) : y.Within P := ⟨h.interp, h.bound.within⟩

theorem trans (h : Confined P x y) (h' : Confined P y z) : Confined P x z :=
  ⟨h'.interp, h.bound.trans h'.bound⟩

theorem of_interp (hx : x.Within P) (interp : y.interp.Within P.any)
    (hgame : y.game.roster = x.game.roster) (htable : y.table = x.table) : Confined P x y :=
  ⟨interp, .of_eq (by rw [htable]; exact hx.table) hgame (by rw [htable])⟩

theorem of_game (hx : x.Within P) (hinterp : y.interp = x.interp)
    (hgame : y.game.roster = x.game.roster) (htable : y.table = x.table) : Confined P x y :=
  .of_interp hx (by rw [hinterp]; exact hx.interp) hgame htable

theorem refl (hx : x.Within P) : Confined P x x := .of_game hx rfl rfl rfl

theorem modifyTop (hx : x.Within P) (f : Frame → Frame)
    (hf : ∀ frame, (f frame).program = frame.program) :
    Confined P x (x.modifyInterp (·.modifyTop f)) :=
  .of_interp hx (hx.interp.modifyTop f hf) rfl rfl

end Confined

/-- A hook keeps to the repertoire. -/
def HookBound (P : Repertoire) (store : ProgramStore) (hook : HookCall σ) : Prop :=
  ∀ kind args s w, s.Within P →
    BattleScript.Bound P w.game s (hook store kind args s w).2.2.game (hook store kind args s w).2.1

theorem noHooks_bound : HookBound P store (noHooks (σ := σ)) := fun _ _ _ _ hs => .refl hs

section Branching

variable {x : Execution BattleScript σ}

theorem chooseOption_confined (hx : x.Within P) (inst : Instruction) (option : Int)
    (codes : List Opcode) :
    Confined P x (x.viaInterp (·.chooseOption inst option codes)).2 := by
  dsimp only [viaInterp, Interpreter.chooseOption]
  split
  · exact .modifyTop hx _ fun f => f.setBranch_program _ _
  · exact .modifyTop hx _ fun _ => rfl

theorem branchOn_confined (hx : x.Within P) (inst : Instruction) (test : Bool)
    (codes : List Opcode) :
    Confined P x (x.viaInterp (·.branchOn inst test codes)).2 := by
  dsimp only [viaInterp, Interpreter.branchOn]
  split
  · exact .modifyTop hx _ fun f => f.setBranch_program _ _
  · have hskipped : Confined P x (x.modifyInterp (·.skipTo codes inst.indent)) :=
      .modifyTop hx _ fun _ => rfl
    exact hskipped.trans (.modifyTop hskipped.within _ fun f => f.setBranch_program _ _)

theorem breakLoop_confined (hx : x.Within P) (inst : Instruction) :
    Confined P x (x.viaInterp (·.breakLoop inst)).2 := by
  have hbroken : (x.interp.breakLoop inst).2.Within P.any := by
    unfold Interpreter.breakLoop
    split
    · exact hx.interp
    · rename_i top rest hstack
      have hmoved (cursor : Nat) :
          ({ x.interp with stack := top.jump cursor :: rest } : Interpreter).Within P.any := by
        refine hx.interp.of_programs (fun f hf => ?_) rfl
        rw [hstack]
        rcases List.mem_cons.mp hf with rfl | hf
        · exact ⟨top, List.mem_cons_self, rfl⟩
        · exact ⟨f, List.mem_cons_of_mem _ hf, rfl⟩
      dsimp only
      split
      · exact hmoved _
      · exact hmoved _
  exact .of_interp hx hbroken rfl rfl

theorem jumpBack_confined (hx : x.Within P) (target? : Frame → Option Nat) :
    Confined P x (x.modifyInterp (·.modifyTop fun top =>
      match target? top with
      | some target => top.jump target
      | none => top)) := by
  refine .modifyTop hx _ fun top => ?_
  split <;> rfl

theorem call_confined (hevents : store.EventsWithin P.event) (hx : x.Within P) (id : Int) :
    Confined P x (x.modifyInterp (·.call store id)) := by
  exact .of_interp hx (hx.interp.call hevents P.any_of_event id) rfl rfl

end Branching

section Base

variable [AssetLoader σ] {x : Execution BattleScript σ}

theorem showPicture_confined (hx : x.Within P) {inst : Instruction} (hinst : P.any inst)
    (hcode : inst.opcode = .showPicture) : Confined P x (x.showPicture inst) := by
  dsimp only [showPicture]
  split
  · exact .of_game hx rfl rfl rfl
  · exact .of_interp hx (hx.interp.of_stack_eq rfl ⟨inst, hinst, hcode⟩) rfl rfl

theorem executeBase_confined (hevents : store.EventsWithin P.event) (hx : x.Within P)
    {inst : Instruction} (hinst : P.any inst) : Confined P x (x.executeBase store inst).2 := by
  unfold executeBase
  cases hcode : inst.opcode
  case showMessage => exact .of_game hx rfl rfl rfl
  case controlSwitches =>
    obtain ⟨switches, h⟩ := GameState.controlSwitches_eq inst x.game
    exact .of_game hx rfl (congrArg (·.roster) h) rfl
  case controlVariables =>
    obtain ⟨vars, dice, h⟩ := GameState.controlVariables_eq inst x.game
    exact .of_game hx rfl (congrArg (·.roster) h) rfl
  case conditionalBranch => exact branchOn_confined hx inst _ _
  case elseBranch => exact chooseOption_confined hx inst _ _
  case breakLoop => exact breakLoop_confined hx inst
  case endLoop => exact jumpBack_confined hx fun top => top.seekBack? _
  case jumpToLabel => exact jumpBack_confined hx fun top => top.program.findIdx? _
  case wait => exact .of_interp hx (hx.interp.of_stack_eq rfl hx.interp.op) rfl rfl
  case callEvent => exact call_confined hevents hx _
  case showPicture => exact showPicture_confined hx hinst hcode
  case endEventProcessing => exact .modifyTop hx _ fun _ => rfl
  all_goals exact .of_game hx rfl rfl rfl

end Base

section Battle

variable {hook : HookCall σ} {x : Execution BattleScript σ}

theorem fire_confined (hhook : HookBound P store hook) (hx : x.Within P) (kind : HookKind)
    (args : HookArgs) : Confined P x (x.fire hook store kind args) :=
  ⟨hx.interp, hhook kind args x.table x.world hx.table⟩

theorem Confined.fire {y : Execution BattleScript σ} (h : Confined P x y)
    (hhook : HookBound P store hook) (kind : HookKind) (args : HookArgs) :
    Confined P x (y.fire hook store kind args) :=
  h.trans (fire_confined hhook h.within kind args)

/-- Enemies change, by an instruction that can remove them or in a way that does not. -/
theorem Confined.of_enemies {y : Execution BattleScript σ} (hx : x.Within P)
    (hinterp : y.interp = x.interp) (htable : y.table = x.table)
    (hactors : y.game.roster.actors = x.game.roster.actors)
    (henemies : (∀ inst, P.any inst → inst.removesEnemies = false) →
      List.Forall₂ Battler.Stays x.game.roster.enemies y.game.roster.enemies) :
    Confined P x y := by
  refine ⟨by rw [hinterp]; exact hx.interp, ?_⟩
  rw [htable]
  exact .of_enemies hx.table hactors henemies

theorem modifyEnemy_actors (r : Roster) (index : Int) (f : Battler → Battler) :
    (r.modifyEnemy index f).actors = r.actors := by
  unfold Roster.modifyEnemy
  split <;> rfl

/-- No instruction that can remove enemies is of a repertoire without them. -/
theorem not_removesEnemies {inst : Instruction} (hinst : P.any inst)
    (h : inst.removesEnemies = true) :
    ¬∀ other, P.any other → other.removesEnemies = false := fun hP => by
  rw [hP inst hinst] at h
  contradiction

theorem forceFlee_confined (hx : x.Within P) {inst : Instruction} (hinst : P.any inst)
    (hcode : inst.opcode = .forceFlee) : Confined P x (x.forceFlee inst) := by
  have harmful (hmode : inst.param 0 = 1 ∨ inst.param 0 = 2) : inst.removesEnemies = true := by
    simpa [Instruction.removesEnemies, hcode] using hmode
  dsimp only [forceFlee]
  split
  · rename_i hmode
    unfold fleeParty
    split
    · refine ⟨hx.interp, hx.table.of_eq rfl rfl, fun hP => ?_, fun _ => rfl, fun _ => ?_⟩
      · have hfalse := hP inst hinst
        simp [Instruction.fleesParty, hcode, hmode] at hfalse
      · exact List.forall₂_same.mpr fun b _ => .refl b
    · exact .refl hx
  · rename_i hmode
    unfold fleeEnemies
    split
    · exact .of_enemies hx rfl rfl rfl fun hP =>
        absurd hP (not_removesEnemies hinst (harmful (.inl hmode)))
    · exact .refl hx
  · rename_i hmode
    unfold fleeEnemy
    split
    · exact .of_enemies hx rfl rfl (modifyEnemy_actors _ _ _) fun hP =>
        absurd hP (not_removesEnemies hinst (harmful (.inr hmode)))
    · exact .refl hx
  · exact .refl hx

theorem enableCombo_confined (hx : x.Within P) {inst : Instruction} (hinst : P.any inst)
    (hcode : inst.opcode = .enableCombo) : Confined P x (x.enableCombo inst) := by
  unfold enableCombo
  split
  · refine ⟨hx.interp, hx.table, fun _ => rfl, fun hP => ?_, fun _ => ?_⟩
    · have hfalse := hP inst hinst
      simp [Instruction.enablesCombo, hcode] at hfalse
    · exact List.forall₂_same.mpr fun b _ => .refl b
  · exact .refl hx

theorem changeMonsterHp_confined (hhook : HookBound P store hook) (hx : x.Within P)
    {inst : Instruction} (hinst : P.any inst) (hcode : inst.opcode = .changeMonsterHp) :
    Confined P x (x.changeMonsterHp hook store inst) := by
  have hharms : inst.removesEnemies = true := by simp [Instruction.removesEnemies, hcode]
  dsimp only [changeMonsterHp]
  split
  · exact .refl hx
  · split
    · exact .refl hx
    · refine Confined.fire (.of_enemies hx ?_ ?_ ?_ fun hP =>
        absurd hP (not_removesEnemies hinst hharms)) hhook _ _
      · split <;> rfl
      · split <;> rfl
      · split
        · exact (modifyEnemy_actors _ _ _).trans (modifyEnemy_actors _ _ _)
        · exact modifyEnemy_actors _ _ _

theorem changeMonsterMp_confined (hhook : HookBound P store hook) (hx : x.Within P)
    (inst : Instruction) :
    Confined P x (x.changeMonsterMp hook store inst) := by
  dsimp only [changeMonsterMp]
  split
  · exact .refl hx
  · rename_i enemy he
    have hspent : Confined P x (x.modifyGame (·.modifyEnemy (inst.param 0) fun _ =>
        enemy.setSp (saturate (enemy.sp + signedChange inst (spOperand x.game inst))))) := by
      refine .of_enemies hx rfl rfl (modifyEnemy_actors _ _ _) fun _ => ?_
      refine (Roster.Pointwise.modifyEnemy Battler.Stays.refl x.game.roster _ _ ?_).enemies
      intro b hb
      obtain rfl : enemy = b := Option.some.inj (he.symm.trans hb)
      exact fun hpresent => (enemy.setSp_isPresent _).trans hpresent
    exact hspent.fire hhook _ _

theorem changeMonsterCondition_confined (hhook : HookBound P store hook) (hx : x.Within P)
    {inst : Instruction} (hinst : P.any inst) (hcode : inst.opcode = .changeMonsterCondition) :
    Confined P x (x.changeMonsterCondition hook store inst) := by
  have hharms : inst.removesEnemies = true := by simp [Instruction.removesEnemies, hcode]
  dsimp only [changeMonsterCondition]
  split
  · exact .refl hx
  · have hchanged (f : Battler → Battler) :
        Confined P x (x.modifyGame (·.modifyEnemy (inst.param 0) f)) :=
      .of_enemies hx rfl rfl (modifyEnemy_actors _ _ _) fun hP =>
        absurd hP (not_removesEnemies hinst hharms)
    by_cases hremove : inst.param 1 > 0
    · simp only [hremove, if_true]
      split
      · exact (hchanged _).fire hhook _ _
      · exact hchanged _
    · simp only [hremove, if_false]
      split
      · exact (hchanged _).fire hhook _ _
      · exact hchanged _

theorem showHiddenMonster_confined (hx : x.Within P) (inst : Instruction) :
    Confined P x (x.showHiddenMonster inst) := by
  refine .of_enemies hx rfl rfl (modifyEnemy_actors x.game.roster _ _) fun _ => ?_
  refine (Roster.Pointwise.modifyEnemy Battler.Stays.refl x.game.roster _ _ ?_).enemies
  intro b _ hpresent
  exact (Bool.and_eq_true_iff.mp hpresent).2

theorem showBattleAnimation_confined (hx : x.Within P) (inst : Instruction) :
    Confined P x (x.showBattleAnimation inst) := by
  dsimp only [showBattleAnimation, playedAnimation?, animationScope]
  split <;> split <;> (try split) <;>
    first
    | exact .of_game hx rfl rfl rfl
    | exact .of_interp hx (hx.interp.of_stack_eq rfl hx.interp.op) rfl rfl

theorem controlBattleHooks_confined (hx : x.Within P) (inst : Instruction) :
    Confined P x (x.controlBattleHooks inst) := by
  unfold controlBattleHooks
  split
  · split
    · exact ⟨hx.interp, .of_eq (hx.table.of_eq rfl rfl) rfl rfl⟩
    · exact .refl hx
  · exact .refl hx

theorem battleCommands_confined (hevents : store.EventsWithin P.event)
    (hhook : HookBound P store hook) (hx : x.Within P) {inst : Instruction} (hinst : P.any inst)
    {go : Bool} {y : Execution BattleScript σ}
    (h : battleCommands hook store inst x = some (go, y)) : Confined P x y := by
  unfold battleCommands at h
  split at h <;> rename_i hcode <;>
    simp only [Option.some.injEq, reduceCtorEq, proceed, stay, Prod.mk.injEq] at h
  · obtain ⟨-, rfl⟩ := h
    split
    · exact call_confined hevents hx _
    · exact .refl hx
  · obtain ⟨-, rfl⟩ := h
    split
    · exact forceFlee_confined hx hinst hcode
    · exact .refl hx
  · obtain ⟨-, rfl⟩ := h
    split
    · exact enableCombo_confined hx hinst hcode
    · exact .refl hx
  · obtain ⟨-, rfl⟩ := h
    exact changeMonsterHp_confined hhook hx hinst hcode
  · obtain ⟨-, rfl⟩ := h
    exact changeMonsterMp_confined hhook hx inst
  · obtain ⟨-, rfl⟩ := h
    exact changeMonsterCondition_confined hhook hx hinst hcode
  · obtain ⟨-, rfl⟩ := h
    exact showHiddenMonster_confined hx inst
  · obtain ⟨-, rfl⟩ := h
    exact .of_game hx rfl rfl rfl
  · obtain ⟨-, rfl⟩ := h
    exact showBattleAnimation_confined hx inst
  · obtain ⟨-, rfl⟩ := h
    exact .of_interp hx (hx.interp.of_stack_eq rfl ⟨rfl, inst, hinst, hcode⟩) rfl rfl
  · obtain rfl := congrArg Prod.snd h
    exact branchOn_confined hx inst _ _
  · obtain rfl := congrArg Prod.snd h
    exact chooseOption_confined hx inst _ _
  · obtain ⟨-, rfl⟩ := h
    exact .refl hx
  · obtain ⟨-, rfl⟩ := h
    exact controlBattleHooks_confined hx inst

end Battle

section Running

variable [AssetLoader σ] {hook : HookCall σ} {x : Execution BattleScript σ}

theorem perform_confined (hevents : store.EventsWithin P.event) (hhook : HookBound P store hook)
    (hx : x.Within P) {inst : Instruction} (hinst : P.any inst) :
    Confined P x (x.perform (battleCommands hook) store inst).2 := by
  unfold perform
  cases h : battleCommands hook store inst x with
  | none => exact executeBase_confined hevents hx hinst
  | some performed => exact battleCommands_confined hevents hhook hx hinst h

theorem step_confined (hevents : store.EventsWithin P.event) (hhook : HookBound P store hook)
    (hx : x.Within P) {inst : Instruction} (hinst : P.any inst) :
    Confined P x (x.step (battleCommands hook) store inst) := by
  have h := perform_confined hevents hhook hx hinst
  dsimp only [step]
  split
  · exact h.trans (.of_interp h.within (h.interp.advance _) rfl rfl)
  · exact h

theorem run_confined (hevents : store.EventsWithin P.event) (hhook : HookBound P store hook)
    (budget : Nat) (hx : x.Within P) : Confined P x (x.run (battleCommands hook) store budget) := by
  induction budget generalizing x with
  | zero =>
    unfold run
    split
    · exact .refl hx
    · dsimp only
      split
      · contradiction
      · exact .of_interp hx hx.interp.dropComplete rfl rfl
  | succ budget ih =>
    unfold run
    split
    · exact .refl hx
    · dsimp only
      have hdropped : Confined P x (x.modifyInterp (·.dropComplete)) :=
        .of_interp hx hx.interp.dropComplete rfl rfl
      split
      · rename_i inst _ hcurrent hbudget
        obtain rfl := Nat.succ.inj hbudget
        have hstep :=
          hdropped.trans (step_confined hevents hhook hdropped.within
            (hdropped.interp.current? hcurrent))
        split
        · exact hstep
        · split
          · exact hstep.trans
              (.of_interp hstep.within (hstep.interp.of_stack_eq rfl hstep.interp.op) rfl rfl)
          · exact hstep.trans (ih hstep.within)
      · exact hdropped

theorem update_confined (hevents : store.EventsWithin P.event) (hhook : HookBound P store hook)
    (allowSuspend : Bool) (hx : x.Within P) :
    Confined P x (x.update (battleCommands hook) store allowSuspend) := by
  have awake {y : Execution BattleScript σ} (hy : y.Within P) : Confined P y
      (if y.interp.isAsyncPending then y
        else if y.interp.isWaiting then
          y.modifyInterp fun i => { i with waitFrames := i.waitFrames - 1 }
        else y.run (battleCommands hook) store y.interp.loopLimit) := by
    split
    · exact .refl hy
    · split
      · exact .of_interp hy (hy.interp.of_stack_eq rfl hy.interp.op) rfl rfl
      · exact run_confined hevents hhook _ hy
  unfold update
  cases allowSuspend
  · have hresumed : Confined P x (x.modifyInterp (·.resume)) :=
      .of_interp hx hx.interp.resume rfl rfl
    exact hresumed.trans (awake hresumed.within)
  · exact awake hx

end Running

end Execution

namespace BattleScript

variable {σ : Type} [AssetLoader σ] {P : Repertoire} {store : ProgramStore} {s : BattleScript}

theorem pump_bound (hevents : store.EventsWithin P.event) (w : World σ) (hs : s.Within P)
    (hon : s.maniac = true) : Bound P w.game s (pump store s w).2.game (pump store s w).1 := by
  have h := Execution.update_confined (P := P.ofEvents) hevents Execution.noHooks_bound true
    (x := (⟨s.hookRunner, { s with hookRunner := {} }, w⟩ : Execution BattleScript σ))
    ⟨hs.runner, hs.enabled, .of_idle rfl rfl, fun _ => rfl⟩
  refine .of_events ⟨⟨fun _ => hs.enabled hon, h.interp, fun hoff => absurd (hs.enabled hon) hoff⟩,
    h.bound.flight, h.bound.combos, h.bound.enemies⟩

theorem trigger_bound (hevents : store.EventsWithin P.event) :
    Execution.HookBound P store (trigger (σ := σ)) := by
  intro kind args s w hs
  dsimp only [trigger]
  split
  · rename_i hon
    split
    · rename_i event hevent
      have hcalled := (hs.runner.push event.instructions (.ofCommonEvent event.id)
        (hevents event (List.mem_of_find?_eq_some hevent))).push
        (handOver (s.hooks.get kind).variableStart args) .synthetic fun inst hinst => by
          obtain ⟨i, h, rfl⟩ := List.mem_mapIdx.mp hinst
          exact P.assign _ rfl
      have hready : ({ s with
          hookRunner := (s.hookRunner.pushEvent event).push
            (handOver (s.hooks.get kind).variableStart args) .synthetic } : BattleScript).Within
              P :=
        ⟨hs.enabled, hcalled, hs.silent⟩
      obtain ⟨within, flight, combos, enemies⟩ :=
        pump_bound hevents w hready (Bool.and_eq_true_iff.mp hon).1
      exact ⟨within, flight, combos, enemies⟩
    · exact .refl hs
  · exact .refl hs

theorem continueHooks_bound (hevents : store.EventsWithin P.event) (w : World σ) (hs : s.Within P) :
    Bound P w.game s (continueHooks store s w).2.2.game (continueHooks store s w).2.1 := by
  unfold continueHooks
  split
  · rename_i hon
    exact pump_bound hevents w hs (Bool.and_eq_true_iff.mp hon).1
  · exact .refl hs

end BattleScript

namespace Director

variable {P : Repertoire} {store : ProgramStore} {d : Director}

/-- The programs under way on the main interpreter and in hooks are of the repertoire. -/
structure Within (P : Repertoire) (d : Director) : Prop where
  interp : d.interp.Within P.any
  script : d.script.Within P

/-- The page that is scheduled is one of the store's. -/
theorem schedule_within (hpages : store.PagesWithin P.any) (hd : d.Within P) (g : GameState)
    (required : ConditionFlags) (source : Option BattlerId) :
    (d.schedule store g required source).2.Within P := by
  unfold schedule
  split
  · exact hd
  · dsimp only
    split
    · rename_i index page hpage
      refine ⟨(Interpreter.Within.clear d.interp).push _ _ (hpages page ?_), hd.script⟩
      obtain ⟨i, -, hmap⟩ := Option.bind_eq_some_iff.mp hpage
      obtain ⟨found, hfound, heq⟩ := Option.map_eq_some_iff.mp hmap
      obtain ⟨-, rfl⟩ := Prod.mk.inj heq
      exact List.mem_of_getElem? hfound
    · exact ⟨hd.interp, hd.script⟩

theorem startEvent_within (hevents : store.EventsWithin P.event) (hd : d.Within P) (id : Int) :
    (d.startEvent store id).2.Within P := by
  unfold startEvent
  split
  · exact hd
  · rename_i event hevent
    dsimp only
    split
    · exact hd
    · exact ⟨hd.interp.push _ _ fun inst hinst =>
        P.any_of_event inst (hevents event (List.mem_of_find?_eq_some hevent) inst hinst),
          hd.script⟩

variable {σ : Type} [AssetLoader σ]

theorem update_bound (hevents : store.EventsWithin P.event) (hd : d.Within P) (allowSuspend : Bool)
    (w : World σ) :
    (d.update store allowSuspend w).1.Within P ∧
      BattleScript.Bound P w.game d.script (d.update store allowSuspend w).2.game
        (d.update store allowSuspend w).1.script := by
  have h := Execution.update_confined hevents (BattleScript.trigger_bound hevents) allowSuspend
    (x := ⟨d.interp, d.script, w⟩) ⟨hd.interp, hd.script⟩
  exact ⟨⟨h.interp, h.bound.within⟩, h.bound⟩

end Director

namespace EventRunner

variable {P : Repertoire} {store : ProgramStore} {r : EventRunner}

/-- The programs of a parallel event, under way or to be started over, are of a kind. -/
structure Within (P : Instruction → Prop) (r : EventRunner) : Prop where
  event : ∀ inst ∈ r.event.instructions, P inst
  interp : ∀ i, r.interp = some i → i.Within P

variable {σ : Type} [AssetLoader σ] {s : BattleScript}

theorem update_bound (hevents : store.EventsWithin P.event) (hr : r.Within P.event)
    (hs : s.Within P) (resume : Bool) (w : World σ) :
    (r.update sceneCommands store resume s w).runner.Within P.event ∧
      BattleScript.Bound P w.game s (r.update sceneCommands store resume s w).world.game
        (r.update sceneCommands store resume s w).table := by
  unfold update
  split
  · cases hi : r.interp with
    | none => exact ⟨⟨hr.event, hr.interp⟩, .refl hs⟩
    | some i =>
      have hstarted : (started r.event i).Within P.event := by
        unfold started
        split
        · exact hr.interp i hi
        · exact (hr.interp i hi).push _ _ hr.event
      have h := Execution.update_confined
        (P := P.ofEvents) hevents (BattleScript.trigger_bound hevents) (!resume)
        (x := ⟨started r.event i, s, w⟩) ⟨hstarted, hs.enabled, hs.runner, hs.silent⟩
      dsimp only
      refine ⟨⟨hr.event, fun j hj => ?_⟩, .of_events h.bound⟩
      obtain rfl := Option.some.inj hj
      exact h.interp
  · exact ⟨hr, .refl hs⟩

end EventRunner

end ActiveBattle
