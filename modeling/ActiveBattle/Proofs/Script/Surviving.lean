import ActiveBattle.Proofs.Battler.Wounds
import ActiveBattle.Proofs.Roster.Pointwise
import ActiveBattle.Proofs.Script.Running

/-!
# Who may kill

Of all that changes HP only a lethal change kills, and only one that takes all the HP there is. So a
battler survives the toll of its states, and an enemy survives a script that changes its HP without
leave to kill, unless a hook runs.
-/

namespace ActiveBattle

set_option autoImplicit false

variable {b b' : Battler}

/-- Those who live on if they are alive with HP in range. -/
def Battler.Withstands (b b' : Battler) : Prop := b.AliveInRange → b.Spared b'

namespace Battler.Withstands

theorem refl (b : Battler) : Withstands b b := fun h => .refl h

theorem changeHp (b : Battler) (delta : Int) : Withstands b (b.changeHp delta false).2 := fun h =>
  h.spared (c := ⟨delta, false⟩) (h.not_fatal (.inl rfl))

end Battler.Withstands

theorem Battler.AliveInRange.applyConditions_spared (h : b.AliveInRange) (db : Database) :
    b.Spared (b.applyConditions db).2 := by
  unfold applyConditions
  split
  · exact .refl h
  · exact Withstands.changeHp b _ h

theorem Roster.modifyEnemy_modifyEnemy (r : Roster) (index : Int) (f g : Battler → Battler) :
    (r.modifyEnemy index f).modifyEnemy index g = r.modifyEnemy index (g ∘ f) := by
  unfold modifyEnemy
  split
  · rfl
  · rw [List.modify_modify_eq]

theorem Battler.applyConditions_fst (b : Battler) (db : Database) :
    (b.applyConditions db).1 = (b.applyConditions db).2.hp - b.hp := by
  unfold applyConditions
  split
  · exact (Int.sub_self b.hp).symm
  · exact b.changeHp_fst _ _

namespace Execution

variable {σ : Type} [AssetLoader σ]

/-- Inside a hook, and where nothing is bound to it, calling a hook changes nothing. -/
theorem fire_of_quiet {c : CommandSet} {store : ProgramStore} {kind : HookKind}
    {x : Execution BattleScript σ}
    (hquiet : c = .hook ∨ ∀ args, x.table.primed? store kind args = none) (args : HookArgs) :
    x.fire c.call store kind args = x := by
  cases c with
  | base => rfl
  | hook => rfl
  | battle =>
    have hnone := hquiet.resolve_left nofun args
    unfold fire
    rw [CommandSet.call, BattleScript.trigger_eq, hnone]

/-- A change of an enemy's HP that may not kill is survived by all. -/
theorem changeMonsterHp_withstands {c : CommandSet} {store : ProgramStore}
    {x : Execution BattleScript σ} {inst : Instruction} (hlethal : inst.param 4 ≤ 0)
    (hquiet : c = .hook ∨ ∀ args, x.table.primed? store .statChange args = none) :
    x.game.roster.Pointwise Battler.Withstands
      (x.changeMonsterHp c.call store inst).game.roster := by
  have hmild : decide (inst.param 4 > 0) = false := decide_eq_false (by omega)
  dsimp only [changeMonsterHp]
  rw [hmild]
  split
  · exact .refl Battler.Withstands.refl _
  · rename_i enemy hfound
    split
    · exact .refl Battler.Withstands.refl _
    · rw [fire_of_quiet]
      · split
        · -- Only who was not alive with HP in range before dies of it, and fades.
          rename_i hdead
          refine (congrArg _ (Roster.modifyEnemy_modifyEnemy _ _ _ _)).mpr ?_
          refine .modifyEnemy Battler.Withstands.refl _ _ _ fun b hb aliveInRange => ?_
          obtain rfl := Option.some.inj (hfound.symm.trans hb)
          exact absurd
            ((Battler.Withstands.changeHp enemy _ aliveInRange).aliveInRange.alive.symm.trans hdead)
            Bool.false_ne_true
        · refine .modifyEnemy Battler.Withstands.refl _ _ _ fun b hb => ?_
          obtain rfl := Option.some.inj (hfound.symm.trans hb)
          exact .changeHp enemy _
      · split <;> exact hquiet

theorem perform_withstands {c : CommandSet} {store : ProgramStore} {x : Execution BattleScript σ}
    {inst : Instruction} (hcode : inst.opcode = .changeMonsterHp) (hlethal : inst.param 4 ≤ 0)
    (hquiet : c = .hook ∨ ∀ args, x.table.primed? store .statChange args = none) :
    x.game.roster.Pointwise Battler.Withstands (x.perform c.commands store inst).2.game.roster := by
  have hchange (call : HookCall σ) :
      x.perform (battleCommands call) store inst = (true, x.changeMonsterHp call store inst) := by
    unfold perform battleCommands
    rw [hcode]
    rfl
  cases c with
  | base =>
    have hbase : (x.perform (CommandSet.base.commands) store inst).2 = x := by
      unfold perform executeBase
      rw [hcode]
      rfl
    rw [hbase]
    exact .refl Battler.Withstands.refl _
  | battle => exact (hchange _).symm ▸ changeMonsterHp_withstands hlethal hquiet
  | hook => exact (hchange _).symm ▸ changeMonsterHp_withstands hlethal hquiet

end Execution

/-- In a run of changes HP stays in range, the changes told add up to the difference, and a battler
dies of the first change that may kill and takes all its HP: no other kills, and after it nothing
changes. The toll of its states is no such change, and neither is that of a script without leave to
kill, unless a hook runs. -/
theorem Battler.killed_iff_fatal (h : b.AliveInRange) :
    (∀ calls : List HpChange,
      let d := (b.undergo calls).2
      (0 ≤ d.hp ∧ d.hp ≤ b.stats.maxHp) ∧
        (b.undergo calls).1.sum = d.hp - b.hp ∧
        d.emptyRange = b.emptyRange ∧
        (d.isDead = true ↔
          ∃ before c rest, calls = before ++ c :: rest ∧ (b.undergo before).2.Fatal c) ∧
        (d.isDead = true → ∀ more, d.undergo more = (List.replicate more.length 0, d)) ∧
        (d.isDead = false →
          ∀ c : HpChange, (c.lethal = false ∨ 0 ≤ c.delta → ¬d.Fatal c) ∧
            (¬d.Fatal c → (d.changeHp c.delta c.lethal).2 =
              { d with hp := clamp 1 d.stats.maxHp (saturate (d.hp + c.delta)) }))) ∧
      (∀ db, b.Spared (b.applyConditions db).2 ∧
        (b.applyConditions db).1 = (b.applyConditions db).2.hp - b.hp) ∧
      ∀ {σ : Type} [AssetLoader σ] (c : CommandSet) (store : ProgramStore)
        (x : Execution BattleScript σ) (inst : Instruction) (i : Nat),
        inst.opcode = .changeMonsterHp → inst.param 4 ≤ 0 →
        (c = .hook ∨ ∀ args, x.table.primed? store .statChange args = none) →
        x.game.roster.enemies[i]? = some b →
        ∃ b', (x.perform c.commands store inst).2.game.roster.enemies[i]? = some b' ∧
          b.Spared b' := by
  refine ⟨fun calls => ?_, fun db => ⟨h.applyConditions_spared db, b.applyConditions_fst db⟩, ?_⟩
  · obtain ⟨hrange, hempty⟩ := h.undergo_mem calls
    refine ⟨hrange, b.sum_undergo calls, hempty, h.isDead_undergo_iff calls, fun hdead more => ?_,
      fun hlive c => ⟨fun hmild => ?_, fun hmild => ?_⟩⟩
    · exact undergo_of_dead hdead more
    · exact (h.spared_undergo hlive).aliveInRange.not_fatal hmild
    · exact (h.spared_undergo hlive).aliveInRange.changeHp_of_not_fatal hmild
  · intro σ _ c store x inst i hcode hlethal hquiet hfound
    have hrel := forall₂_getElem? (Execution.perform_withstands hcode hlethal hquiet).enemies i
    rw [hfound] at hrel
    generalize (x.perform c.commands store inst).2.game.roster.enemies[i]? = found at hrel ⊢
    cases hrel with
    | some hwithstands => exact ⟨_, rfl, hwithstands h⟩

/-- An enemy with half its HP and a poison that takes more at once. -/
def poisoned : Battler :=
  { Battler.ofEnemy 0 { id := 1, name := "" } { enemyId := 1 } with hp := 50, states := [⟨2, 0⟩] }

/-- A script's attempt to take twice the HP of that enemy, in a battle without hooks. -/
def torment : Instruction := { opcode := .changeMonsterHp, params := [0, 1, 2, 200, 0] }

def ordeal : Execution BattleScript InstantAssets where
  interp := {}
  table := {}
  world := { game := { roster := { enemies := [poisoned] } }, assets := {} }

theorem killed_iff_fatal_of_poisoned :
    poisoned.AliveInRange ∧
      (poisoned.undergo [⟨-80, false⟩, ⟨-5, true⟩, ⟨20, false⟩]).2.isDead = true ∧
      (poisoned.undergo [⟨-80, false⟩, ⟨-5, true⟩, ⟨20, false⟩]).1.sum = -50 ∧
      poisoned.Spared (poisoned.applyConditions
        { states := [{ id := 2, name := "", hpChange := -99 }] }).2 ∧
      ∃ b', (ordeal.perform CommandSet.battle.commands {} torment).2.game.roster.enemies[0]? =
        some b' ∧
        poisoned.Spared b' := by
  have aliveInRange : poisoned.AliveInRange := ⟨by decide, by decide, by decide⟩
  obtain ⟨hrun, htoll, hscript⟩ := Battler.killed_iff_fatal aliveInRange
  obtain ⟨-, htold, -, hdies, -⟩ := hrun [⟨-80, false⟩, ⟨-5, true⟩, ⟨20, false⟩]
  refine ⟨aliveInRange, hdies.mpr ⟨[⟨-80, false⟩], ⟨-5, true⟩, [⟨20, false⟩], rfl, rfl, by decide⟩,
    htold.trans (by decide), (htoll _).1, ?_⟩
  exact hscript .battle {} ordeal torment 0 rfl (by decide) (.inr fun _ => rfl) rfl

end ActiveBattle
