import Mathlib.Logic.Basic
import Mathlib.Tactic.ByContra
import ActiveBattle.Script.Director

/-!
# What page conditions mean

Each category of a page condition is told here in its own terms, and a page applies when it flags a
category that its dialect knows and everything it flags among those holds. The evaluation agrees,
category by category; as a whole it differs in one case: the older dialect finds a page met that
flags nothing but categories it does not know.
-/

namespace ActiveBattle

set_option autoImplicit false

/-- Turn `t` is turn `start`, or follows it at a multiple of the period, where there is one. -/
def TurnDue (start period t : Int) : Prop :=
  if period ≤ 0 then t = start else ∃ k : Nat, t = start + k * period

theorem turnMatches_iff (turns period start : Int) :
    turnMatches turns period start = true ↔ TurnDue start period turns := by
  unfold turnMatches TurnDue
  by_cases hperiod : period ≤ 0
  · rw [if_neg (by omega), if_pos hperiod, decide_eq_true_eq]
  · rw [if_pos (by omega), if_neg hperiod, Bool.and_eq_true, decide_eq_true_eq, decide_eq_true_eq]
    constructor
    · rintro ⟨hstarted, hmultiple⟩
      obtain ⟨k, hk⟩ := Int.dvd_of_emod_eq_zero hmultiple
      have hnonneg : 0 ≤ k := by
        by_contra hneg
        have : period * k < 0 := Int.mul_neg_of_pos_of_neg (by omega) (by omega)
        omega
      refine ⟨k.toNat, ?_⟩
      rw [Int.toNat_of_nonneg hnonneg, Int.mul_comm]
      omega
    · rintro ⟨k, rfl⟩
      have hpassed : 0 ≤ (k : Int) * period := Int.mul_nonneg (by omega) (by omega)
      refine ⟨by omega, ?_⟩
      rw [show start + k * period - start = k * period by omega, Int.mul_emod_left]

namespace ConditionKind

/-- The older dialect evaluates six categories, the newer one all. -/
def Active (rpg2k3 : Bool) (k : ConditionKind) : Prop :=
  rpg2k3 = true ∨ k ∈ [switchA, switchB, variableAtLeast, turn, enemyHp, actorHp]

/-- Every bit of a set stands for a category. -/
theorem exists_place {i : Nat} (h : i < 10) : ∃ k : ConditionKind, k.place = i := by
  have hall : ∀ i < 10, ∃ k ∈ all, k.place = i := by decide
  obtain ⟨k, -, hk⟩ := hall i h
  exact ⟨k, hk⟩

end ConditionKind

/-- The empty set is the one without members. -/
theorem ConditionFlags.isEmpty_iff (f : ConditionFlags) :
    f.isEmpty = true ↔ ∀ k, f.contains k = false := by
  rw [ConditionFlags.isEmpty, decide_eq_true_eq]
  constructor
  · intro hzero k
    simp [contains, hzero]
  · intro hnone
    refine BitVec.eq_of_getLsbD_eq fun i hi => ?_
    obtain ⟨k, rfl⟩ := ConditionKind.exists_place hi
    exact (hnone k).trans BitVec.getLsbD_zero.symm

namespace PageCondition

/-- A category holds. Battlers are those of the roster; what a battler's own turn or command is
asked of must have been that battler's doing. -/
def Means (c : PageCondition) (g : GameState) (source : Option BattlerId) : ConditionKind → Prop
  | .switchA => g.switches.get c.switchAId = true
  | .switchB => g.switches.get c.switchBId = true
  | .variableAtLeast => c.variableValue ≤ g.vars.get c.variableId
  | .turn => TurnDue c.turnA c.turnB g.roster.turns
  | .turnEnemy => ∃ b, g.roster.enemy? c.turnEnemyId = some b ∧ (∀ s, source = some s → s = b.id) ∧
      TurnDue c.turnEnemyA c.turnEnemyB b.battleTurn
  | .turnActor => ∃ b, g.roster.actor? c.turnActorId = some b ∧ (∀ s, source = some s → s = b.id) ∧
      TurnDue c.turnActorA c.turnActorB b.battleTurn
  | .fatigue => c.fatigueMin ≤ g.roster.fatigue ∧ g.roster.fatigue ≤ c.fatigueMax
  | .enemyHp =>
    ∃ b, g.roster.enemy? c.enemyId = some b ∧ c.enemyHpMin ≤ b.hpPercent ∧
      b.hpPercent ≤ c.enemyHpMax
  | .actorHp =>
    ∃ b, g.roster.actor? c.actorId = some b ∧ c.actorHpMin ≤ b.hpPercent ∧
      b.hpPercent ≤ c.actorHpMax
  | .commandActor => ∃ b, g.roster.actor? c.commandActorId = some b ∧ source = some b.id ∧
      b.lastBattleAction = c.commandId

/-- The page applies: it flags some category of the dialect, and all it flags of them hold. -/
def Applies (c : PageCondition) (g : GameState) (source : Option BattlerId) (rpg2k3 : Bool) :
    Prop :=
  (∃ k, c.flags.contains k = true ∧ k.Active rpg2k3) ∧
    ∀ k, c.flags.contains k = true → k.Active rpg2k3 → c.Means g source k

theorem inWindow_iff (value lo hi : Int) :
    inWindow value lo hi = true ↔ lo ≤ value ∧ value ≤ hi := by
  simp [inWindow]

theorem ownTurn_iff (source : Option BattlerId) (period start : Int) (b : Battler) :
    ownTurn source period start b = true ↔
      (∀ s, source = some s → s = b.id) ∧ TurnDue start period b.battleTurn := by
  unfold ownTurn
  rw [Bool.and_eq_true, turnMatches_iff]
  cases source <;> simp

theorem isExtended_iff (k : ConditionKind) (rpg2k3 : Bool) :
    (isExtended k && !rpg2k3) = true ↔ ¬k.Active rpg2k3 := by
  unfold ConditionKind.Active
  cases k <;> cases rpg2k3 <;> decide

/-- The evaluation of one category is right. -/
theorem holds_iff (c : PageCondition) (g : GameState) (source : Option BattlerId)
    (k : ConditionKind) :
    c.holds g source k = true ↔ c.Means g source k := by
  cases k with
  | switchA => exact Iff.rfl
  | switchB => exact Iff.rfl
  | variableAtLeast => exact decide_eq_true_iff
  | turn => exact turnMatches_iff _ _ _
  | turnEnemy => simp only [holds, Means, Option.any_eq_true, ownTurn_iff]
  | turnActor => simp only [holds, Means, Option.any_eq_true, ownTurn_iff]
  | fatigue => exact inWindow_iff _ _ _
  | enemyHp => simp only [holds, Means, Option.any_eq_true, inWindow_iff]
  | actorHp => simp only [holds, Means, Option.any_eq_true, inWindow_iff]
  | commandActor =>
    simp only [holds, Means, Option.any_eq_true, Bool.and_eq_true, decide_eq_true_eq]
    constructor
    · rintro ⟨s, rfl, b, hb, rfl, hcommand⟩
      exact ⟨b, hb, rfl, hcommand⟩
    · rintro ⟨b, hb, rfl, hcommand⟩
      exact ⟨b.id, rfl, b, hb, rfl, hcommand⟩

/-- A condition is met when it flags some category, known or not, and all it flags of those the
dialect knows hold. -/
theorem isMet_iff (c : PageCondition) (g : GameState) (source : Option BattlerId) (rpg2k3 : Bool) :
    c.isMet g source rpg2k3 = true ↔
      (∃ k, c.flags.contains k = true) ∧
        ∀ k, c.flags.contains k = true → k.Active rpg2k3 → c.Means g source k := by
  have hflagged : (!c.flags.isEmpty) = true ↔ ∃ k, c.flags.contains k = true := by
    rw [Bool.not_eq_true', ← Bool.not_eq_true, ConditionFlags.isEmpty_iff]
    simp
  unfold isMet
  rw [Bool.and_eq_true, hflagged, List.all_eq_true]
  simp only [ConditionFlags.mem_toList, Bool.or_eq_true, isExtended_iff,
    holds_iff, ← imp_iff_not_or]

/-- The evaluation tells that a page applies, save in one case: a page that flags categories, but
none that the dialect knows, is met and does not apply. In the newer dialect there is no such
page. -/
theorem isMet_iff_applies_iff (c : PageCondition) (g : GameState) (source : Option BattlerId)
    (rpg2k3 : Bool) :
    (c.isMet g source rpg2k3 = true ↔
        (∃ k, c.flags.contains k = true) ∧
          ∀ k, c.flags.contains k = true → k.Active rpg2k3 → c.Means g source k) ∧
      ((c.isMet g source rpg2k3 = true ↔ c.Applies g source rpg2k3) ↔
        ((∃ k, c.flags.contains k = true) → ∃ k, c.flags.contains k = true ∧ k.Active rpg2k3)) := by
  have hmet := isMet_iff c g source rpg2k3
  refine ⟨hmet, ?_⟩
  rw [hmet]
  unfold Applies
  constructor
  · intro hagree hflagged
    by_contra hnone
    have hvacuous : ∀ k, c.flags.contains k = true → k.Active rpg2k3 → c.Means g source k :=
      fun k hk hactive => absurd ⟨k, hk, hactive⟩ hnone
    exact hnone (hagree.mp ⟨hflagged, hvacuous⟩).1
  · intro hknown
    constructor
    · rintro ⟨hflagged, hall⟩
      exact ⟨hknown hflagged, hall⟩
    · rintro ⟨⟨k, hk, -⟩, hall⟩
      exact ⟨⟨k, hk⟩, hall⟩

/-- In the older dialect a page that flags the turn of an enemy alone is met, whatever the state of
the battle. -/
theorem not_applies_of_unknown :
    isMet { flags := .ofList [.turnEnemy] } {} none false = true ∧
      ¬Applies { flags := .ofList [.turnEnemy] } {} none false := by
  refine ⟨by decide, ?_⟩
  rintro ⟨⟨k, hk, hactive⟩, -⟩
  revert hk hactive
  unfold ConditionKind.Active
  cases k <;> decide

end PageCondition

end ActiveBattle
