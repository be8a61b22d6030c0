import ActiveBattle.Proofs.Script.Block
import ActiveBattle.Proofs.Script.Memory
import ActiveBattle.Proofs.Script.Walk
import ActiveBattle.Script.BattleCommand

/-!
# Playing blocks

What a block means, told from its structure alone: an arm is chosen by the test of its branch, and a
loop plays its body again and again.
-/

namespace ActiveBattle

set_option autoImplicit false

section Semantics

variable {σ : Type} [AssetLoader σ]

/-- What a command makes of the scripts' state and the world. -/
def Instruction.effect (store : ProgramStore) (inst : Instruction) (s : BattleScript × World σ) :
    BattleScript × World σ :=
  let (_, x) := Execution.perform sceneCommands store inst ⟨{}, s.1, s.2⟩
  (x.table, x.world)

/-- A command that only ever goes on with the next line. It does not suspend the interpreter, call
an event, open a message or look at the interpreter at all. -/
structure Instruction.IsSimple (σ : Type) [AssetLoader σ] (store : ProgramStore)
    (inst : Instruction) : Prop where
  command : inst.opcode.isBlock = false
  perform : ∀ x : Execution BattleScript σ, x.world.IsQuiet → x.perform sceneCommands store inst =
    (true, { x with
      table := (inst.effect store (x.table, x.world)).1
      world := (inst.effect store (x.table, x.world)).2 })
  quiet : ∀ s : BattleScript × World σ, s.2.IsQuiet → (inst.effect store s).2.IsQuiet

def Flavour.test (flavour : Flavour) (head : Instruction) (s : BattleScript × World σ) : Bool :=
  match flavour with
  | base => s.2.game.branchTest head
  | battle => Execution.battleTest s.1 s.2.game head

/-- One thing after another; nothing comes after what does not end. -/
def andThen {α β : Type} (first : List α × Option β) (next : β → List α × Option β) :
    List α × Option β :=
  match first with
  | (lines, none) => (lines, none)
  | (lines, some s) =>
    let (rest, outcome) := next s
    (lines ++ rest, outcome)

/-- The first rounds of a loop that has no end. -/
def rounds {α β : Type} (body : β → List α × Option β) : Nat → β → List α × Option β
  | 0, _ => ([], none)
  | n + 1, s => andThen (body s) (rounds body n)

/-- The commands of a block, with `n` rounds of each loop that is reached, and what they leave
behind if the block ends. -/
def Block.play (store : ProgramStore) (n : Nat) (k : Int) :
    Block → BattleScript × World σ → List Instruction × Option (BattleScript × World σ)
  | nil, s => ([], some s)
  | command inst rest, s =>
    andThen ([inst.indented k], some ((inst.indented k).effect store s)) (rest.play store n k)
  | branch flavour head _ arm rest, s =>
    andThen (if flavour.test (head.line flavour.head k) s then arm.play store n (k + 1) s
      else ([], some s)) (rest.play store n k)
  | branchElse flavour head _ _ arm other rest, s =>
    andThen (if flavour.test (head.line flavour.head k) s then arm.play store n (k + 1) s
      else other.play store n (k + 1) s) (rest.play store n k)
  | loop _ _ body _, s => rounds (body.play store n (k + 1)) n s

end Semantics

section Simple

variable {σ : Type} [AssetLoader σ] {store : ProgramStore} {inst : Instruction}

/-- A command that treats all interpreters alike. -/
theorem Instruction.IsSimple.of_uniform (F : BattleScript × World σ → BattleScript × World σ)
    (hcommand : inst.opcode.isBlock = false)
    (hperform : ∀ x : Execution BattleScript σ, x.perform sceneCommands store inst =
      (true, { x with table := (F (x.table, x.world)).1, world := (F (x.table, x.world)).2 }))
    (hquiet : ∀ s, s.2.IsQuiet → (F s).2.IsQuiet) : inst.IsSimple σ store := by
  have heffect (s : BattleScript × World σ) : inst.effect store s = F s := by
    unfold Instruction.effect
    rw [hperform]
  refine ⟨hcommand, ?_, ?_⟩
  · intro x _
    rw [heffect]
    exact hperform x
  · intro s hs
    rw [heffect]
    exact hquiet s hs

/-- Commands that are simple whatever their operands are. -/
def Opcode.isPlain : Opcode → Bool
  | comment | controlSwitches | controlVariables | label | playSound | enableCombo
  | showHiddenMonster | changeBattleBackground | controlBattleHooks | unsupported => true
  | _ => false

theorem isSimple_of_isPlain (h : inst.opcode.isPlain = true) : inst.IsSimple σ store := by
  obtain ⟨opcode, indent, params, text⟩ := inst
  have hcommand : opcode.isBlock = false := by cases opcode <;> first | rfl | contradiction
  have idle (hperform : ∀ x : Execution BattleScript σ,
      x.perform sceneCommands store ⟨opcode, indent, params, text⟩ = (true, x)) :
      Instruction.IsSimple σ store ⟨opcode, indent, params, text⟩ :=
    .of_uniform id hcommand hperform fun _ hs => hs
  -- Commands that change nothing but the game, and no message.
  have onGame (f : GameState → GameState) (hf : ∀ g, (f g).message = g.message)
      (hperform : ∀ x : Execution BattleScript σ,
        x.perform sceneCommands store ⟨opcode, indent, params, text⟩ = (true, x.modifyGame f)) :
      Instruction.IsSimple σ store ⟨opcode, indent, params, text⟩ := by
    refine .of_uniform (fun s => (s.1, s.2.modifyGame f)) hcommand hperform ?_
    intro s hs
    unfold World.IsQuiet World.modifyGame
    rw [hf]
    exact hs
  cases opcode with
  | comment => exact idle fun _ => rfl
  | label => exact idle fun _ => rfl
  | unsupported => exact idle fun _ => rfl
  | controlSwitches =>
    refine onGame (·.controlSwitches _) (?_) fun _ => rfl
    intro g
    obtain ⟨switches, h⟩ := g.controlSwitches_eq ⟨.controlSwitches, indent, params, text⟩
    rw [h]
  | controlVariables =>
    refine onGame (·.controlVariables _) (?_) fun _ => rfl
    intro g
    obtain ⟨vars, dice, h⟩ := g.controlVariables_eq ⟨.controlVariables, indent, params, text⟩
    rw [h]
  | showHiddenMonster =>
    exact onGame (·.modifyEnemy _ ({ · with hidden := false })) (fun _ => rfl) fun _ => rfl
  | changeBattleBackground =>
    exact onGame (·.modifyStatus ({ · with background := text.getD "" })) (fun _ => rfl) fun _ =>
      rfl
  | playSound =>
    exact .of_uniform (fun s => (s.1,
      s.2.play (Instruction.sound ⟨.playSound, indent, params, text⟩))) rfl
      (fun _ => rfl) fun _ hs => hs
  | enableCombo =>
    let line : Instruction := ⟨.enableCombo, indent, params, text⟩
    let aims (s : BattleScript × World σ) : Bool :=
      s.1.rpg2k3 && s.2.game.roster.isActorInParty (line.param 0)
    let combine (g : GameState) : GameState :=
      g.modifyRoster (·.modifyActor (line.param 0) (·.setCombo (line.param 1) (line.param 2)))
    refine .of_uniform (fun s => if aims s then (s.1, s.2.modifyGame combine) else s) rfl (?_)
      ?_
    · intro x
      change (true, if x.table.rpg2k3 then x.enableCombo line else x) = _
      by_cases hdialect : x.table.rpg2k3 = true <;>
        by_cases hparty : x.world.game.roster.isActorInParty (line.param 0) = true <;>
        simp [aims, Execution.enableCombo, Execution.game, hdialect, hparty, combine,
          Execution.modifyGame, Execution.modifyWorld]
    · intro s hs
      split
      · exact hs
      · exact hs
  | controlBattleHooks =>
    let line : Instruction := ⟨.controlBattleHooks, indent, params, text⟩
    refine .of_uniform (fun s => ((Execution.controlBattleHooks ⟨{}, s.1, s.2⟩ line).table, s.2))
      rfl (?_) fun _ hs => hs
    intro x
    change (true, x.controlBattleHooks line) = _
    simp only [Execution.controlBattleHooks]
    split
    · split <;> rfl
    · rfl
  | _ => contradiction

end Simple

end ActiveBattle
