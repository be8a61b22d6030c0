import ActiveBattle.Proofs.Action.Aiming

/-!
# What a hit takes and gives

What a hit rolls stays within a fifth of its power (`Spread`). An attack takes what is rolled,
tripled by a critical hit and then halved by a guard; a guard changes nothing else, and no draw
(`rollAttack_cases`). So attacks and harmful skills never heal, and healing skills never harm
(`execute_damage`).
-/

namespace ActiveBattle

set_option autoImplicit false

/-- The battler with its guard up or down. -/
def Battler.guarding (b : Battler) (up : Bool) : Battler := { b with defending := up }

theorem Dice.percent_le (d : Dice) : d.percent.1 ≤ 99 := (between_mem (by decide) (by decide) d).2

namespace Action

/-- Off from a power by a fifth of it at most, rounded toward zero. -/
def Spread (power value : Int) : Prop := power - power.tdiv 5 ≤ value ∧ value ≤ power + power.tdiv 5

namespace Spread

variable {power value : Int}

theorem refl (h : 0 ≤ power) : Spread power power := by
  have hfifth : 0 ≤ power.tdiv 5 := Int.tdiv_nonneg h (by decide)
  constructor <;> omega

theorem nonneg (h : Spread power value) (hpower : 0 ≤ power) : 0 ≤ value := by
  have hfifth : power.tdiv 5 = power / 5 := Int.tdiv_eq_ediv_of_nonneg hpower
  have hleast := h.1
  omega

theorem pos (h : Spread power value) (hpower : 0 < power) : 0 < value := by
  have hfifth : power.tdiv 5 = power / 5 := Int.tdiv_eq_ediv_of_nonneg (Int.le_of_lt hpower)
  have hleast := h.1
  omega

end Spread

theorem vary_of_narrow {value : Int} (h : value.tdiv 5 ≤ 0) (dice : Dice) :
    vary value dice = (value, dice) := if_pos h

theorem vary_of_wide {value : Int} (h : ¬value.tdiv 5 ≤ 0) (dice : Dice) : vary value dice =
    (max (value + (dice.between (-value.tdiv 5) (value.tdiv 5)).1) 0,
      (dice.between (-value.tdiv 5) (value.tdiv 5)).2) :=
  if_neg h

theorem vary_spread {value : Int} (hvalue : 0 ≤ value) (dice : Dice) :
    Spread value (vary value dice).1 := by
  by_cases hnarrow : value.tdiv 5 ≤ 0
  · rw [vary_of_narrow hnarrow]
    exact .refl hvalue
  · -- The range has an odd number of members, so it never spans every operand.
    have hfifth : value.tdiv 5 = value / 5 := Int.tdiv_eq_ediv_of_nonneg hvalue
    have hroll : -value.tdiv 5 ≤ (dice.between (-value.tdiv 5) (value.tdiv 5)).1 ∧
        (dice.between (-value.tdiv 5) (value.tdiv 5)).1 ≤ value.tdiv 5 :=
      Dice.between_mem_of_size (by omega) (by omega) dice
    rw [vary_of_wide hnarrow]
    constructor <;> dsimp only <;> omega

theorem attackPower_nonneg (source target : Battler) : 0 ≤ attackPower source target :=
  Int.le_max_right _ _

theorem skillPower_nonneg (skill : SkillDef) (source target : Battler) :
    0 ≤ skillPower skill source target :=
  Int.le_max_right _ _

theorem finalDamage_eq (damage : Int) (critical defending : Bool) :
    finalDamage damage critical defending =
    if defending then (if critical then 3 * damage else damage).tdiv 2
      else if critical then 3 * damage else damage := by
  unfold finalDamage criticalMultiplier
  rw [Int.mul_comm damage 3]

theorem finalDamage_nonneg {damage : Int} (h : 0 ≤ damage) (critical defending : Bool) :
    0 ≤ finalDamage damage critical defending := by
  have hwhole : 0 ≤ if critical then 3 * damage else damage := by
    split <;> omega
  rw [finalDamage_eq]
  split
  · exact Int.tdiv_nonneg hwhole (by decide)
  · exact hwhole

section Roll

variable (source target : Battler) (dice : Dice)

/-- An attack misses or hits, guard or no guard, and with a guard it takes the final damage of the
same roll. -/
theorem rollAttack_cases :
    (source.stats.hitRate ≤ dice.percent.1 ∧ ∃ dice', ∀ up,
      rollAttack source (target.guarding up) dice = ({}, dice')) ∨
      dice.percent.1 < source.stats.hitRate ∧
        ∃ damage critical dice', Spread (attackPower source target) damage ∧
        ∀ up, rollAttack source (target.guarding up) dice =
          ({ success := true, critical := critical, hp := some (-finalDamage damage critical up) },
            dice') := by
  unfold rollAttack
  -- every draw is taken apart first, so that nothing unfolds the search behind it
  cases dice.percent with
  | mk hit dice =>
    by_cases hmisses : hit ≥ source.stats.hitRate
    · exact .inl ⟨hmisses, dice, fun up => if_pos hmisses⟩
    · cases hcritical : dice.percent with
      | mk roll dice =>
        have hspread := vary_spread (attackPower_nonneg source target) dice
        cases hvaried : vary (attackPower source target) dice with
        | mk damage dice =>
          rw [hvaried] at hspread
          refine .inr ⟨Int.not_le.mp hmisses, damage, decide (roll < source.stats.critRate),
            dice, hspread, fun up => ?_⟩
          have hpower : attackPower source (target.guarding up) = attackPower source target := rfl
          dsimp only
          rw [if_neg hmisses, hcritical, hpower, hvaried]
          rfl

/-- What a skill that hits takes or gives. -/
inductive SkillHit (skill : SkillDef) (source target : Battler) : Option Int → Prop
  | idle (hpower : skill.power = 0) : SkillHit skill source target none
  | gives {value : Int} (hheals : skill.heals = true)
      (hspread : 0 ≤ healPower skill source → Spread (healPower skill source) value) :
      SkillHit skill source target (some value)
  | takes {value : Int} (hharms : skill.heals = false)
    (hspread : Spread (skillPower skill source target) value) :
      SkillHit skill source target (some (-value))

theorem rollSkill_cases (skill : SkillDef) :
    (skill.hitRate ≤ dice.percent.1 ∧ (rollSkill skill source target dice).1 = {}) ∨
      dice.percent.1 < skill.hitRate ∧ ∃ hp, SkillHit skill source target hp ∧
        (rollSkill skill source target dice).1 = { success := true, hp := hp } := by
  unfold rollSkill
  cases dice.percent with
  | mk hit dice =>
    by_cases hmisses : hit ≥ skill.hitRate
    · exact .inl ⟨hmisses, congrArg Prod.fst (if_pos hmisses)⟩
    · refine .inr ⟨Int.not_le.mp hmisses, ?_⟩
      dsimp only
      rw [if_neg hmisses]
      split
      · rename_i hpower
        exact ⟨none, .idle hpower, rfl⟩
      · split
        · rename_i hheals
          exact ⟨_, .gives hheals fun hpower => vary_spread hpower dice, rfl⟩
        · rename_i hharms
          exact ⟨_, .takes (Bool.eq_false_iff.mpr hharms)
            (vary_spread (skillPower_nonneg skill source target) dice), rfl⟩

/-- What an attack takes is the spread of its power, tripled by a critical hit and then halved by a
guard. -/
theorem rollAttack_damage :
    let o := (rollAttack source target dice).1
    (o.success = true ↔ dice.percent.1 < source.stats.hitRate) ∧ (o.success = false → o.hp = none) ∧
      (o.success = true →
        ∃ v d, Spread (max 0 (source.stats.attack.tdiv 2 - target.stats.defense.tdiv 4)) v ∧
        d = (if target.defending then (if o.critical then 3 * v else v).tdiv 2
          else if o.critical then 3 * v else v) ∧
        0 ≤ d ∧ o.hp = some (-d)) := by
  intro o
  have ho : o = (rollAttack source (target.guarding target.defending) dice).1 := rfl
  rcases rollAttack_cases source target dice with ⟨hlow, dice', hmiss⟩ | ⟨hhigh, v, critical, dice',
    hspread, hhit⟩
  · rw [hmiss] at ho
    rw [ho]
    simp [hlow]
  · have hv : 0 ≤ v := hspread.nonneg (attackPower_nonneg source target)
    rw [attackPower, Int.max_comm] at hspread
    rw [hhit] at ho
    rw [ho]
    refine ⟨⟨fun _ => hhigh, fun _ => rfl⟩, nofun, fun _ => ⟨v, _, hspread, ?_, ?_, rfl⟩⟩
    · exact finalDamage_eq v critical target.defending
    · exact finalDamage_nonneg hv critical target.defending

/-- A harmful skill takes the spread of its power, and a healing one gives it. -/
theorem rollSkill_damage (skill : SkillDef) :
    let o := (rollSkill skill source target dice).1
    (o.success = true ↔ dice.percent.1 < skill.hitRate) ∧ (o.success = false → o.hp = none) ∧
      (o.success = true → skill.heals = false → skill.power ≠ 0 →
        ∃ v, Spread (max 0 (skill.power + source.stats.spirit.tdiv 2 - target.stats.spirit.tdiv 4))
          v ∧ 0 ≤ v ∧ o.hp = some (-v)) ∧
      (o.success = true → skill.heals = true → 0 < skill.power → 0 ≤ source.stats.spirit →
        ∃ v, Spread (skill.power + source.stats.spirit.tdiv 2) v ∧ 0 < v ∧ o.hp = some v) := by
  intro o
  rcases rollSkill_cases source target dice skill with ⟨hlow, hmiss⟩ | ⟨hhigh, hp, hshare, hhit⟩
  · have ho : o = {} := hmiss
    rw [ho]
    simp [hlow]
  · have ho : o = { success := true, hp := hp } := hhit
    rw [ho]
    refine ⟨⟨fun _ => hhigh, fun _ => rfl⟩, nofun, fun _ hharms hpower => ?_,
      fun _ hheals hpower hspirit => ?_⟩
    · cases hshare with
      | idle hnone => contradiction
      | gives hheals _ => simp [hharms] at hheals
      | takes _ hspread =>
        have hv := hspread.nonneg (skillPower_nonneg skill source target)
        rw [skillPower, healPower, Int.max_comm] at hspread
        exact ⟨_, hspread, hv, rfl⟩
    · have hhalf : 0 ≤ source.stats.spirit.tdiv 2 := Int.tdiv_nonneg hspirit (by decide)
      have hheal : 0 < healPower skill source := Int.add_pos_of_pos_of_nonneg hpower hhalf
      cases hshare with
      | idle hnone => omega
      | gives _ hspread =>
        have hspread := hspread (Int.le_of_lt hheal)
        exact ⟨_, hspread, hspread.pos hheal, rfl⟩
      | takes hharms _ => simp [hheals] at hharms

/-- A guard halves what an attack takes. -/
theorem rollAttack_guarded {d : Int}
    (h : (rollAttack source (target.guarding false) dice).1.hp = some (-d)) :
    (rollAttack source (target.guarding true) dice).1.hp = some (-d.tdiv 2) := by
  rcases rollAttack_cases source target dice with ⟨-, dice', hmiss⟩ | ⟨-, v, critical,
    dice', -, hhit⟩
  · rw [hmiss] at h
    contradiction
  · rw [hhit] at h ⊢
    obtain rfl : finalDamage v critical false = d := Int.neg_inj.mp (Option.some.inj h)
    rfl

/-- A guard shows in nothing but what an attack takes. -/
theorem roll_guarding (kind : ActionKind) (db : Database) (up : Bool) :
    (roll kind db source (target.guarding up) dice).2 =
      (roll kind db source (target.guarding false) dice).2 ∧
      (roll kind db source (target.guarding up) dice).1.success =
        (roll kind db source (target.guarding false) dice).1.success ∧
      (roll kind db source (target.guarding up) dice).1.critical =
        (roll kind db source (target.guarding false) dice).1.critical := by
  cases kind with
  | normal =>
    unfold roll
    rcases rollAttack_cases source target dice with ⟨-, dice', hmiss⟩ | ⟨-, damage, critical,
      dice', -, hhit⟩
    · rw [hmiss, hmiss]
      exact ⟨rfl, rfl, rfl⟩
    · rw [hhit, hhit]
      exact ⟨rfl, rfl, rfl⟩
  | _ => exact ⟨rfl, rfl, rfl⟩

/-- Nor does the guard of who acts show in anything. -/
theorem roll_guarding_source (kind : ActionKind) (db : Database) (up : Bool) :
    roll kind db (source.guarding up) target dice = roll kind db source target dice := by
  have hattack : rollAttack (source.guarding up) target dice = rollAttack source target dice := by
    unfold rollAttack
    rfl
  have hskill (skill : SkillDef) :
      rollSkill skill (source.guarding up) target dice = rollSkill skill source target dice := by
    unfold rollSkill
    rfl
  unfold roll
  simp only [hattack, hskill]

end Roll

section Execute

variable {a : Action} {g : GameState} {id : BattlerId} {source target : Battler}

theorem execute_eq_roll (haims : a.target? = some id) (htarget : g.roster.battler? id = some target)
    (hsource : g.roster.battler? a.source = some source) : a.execute g =
      ({ a with outcome := (roll a.kind g.database source target g.dice).1 },
        { g with dice := (roll a.kind g.database source target g.dice).2 }) := by
  unfold execute
  rw [haims, Option.bind_some, htarget, hsource]

/-- Whoever guards rolls as before, also if the target is the source. -/
theorem execute_guarding (haims : a.target? = some id)
    (htarget : g.roster.battler? id = some target)
    (hsource : g.roster.battler? a.source = some source) (up : Bool) :
    (a.execute (g.modifyBattler id (·.guarding up))).1.outcome =
        (roll a.kind g.database source (target.guarding up) g.dice).1 ∧
      (a.execute (g.modifyBattler id (·.guarding up))).2.dice =
        (roll a.kind g.database source (target.guarding up) g.dice).2 := by
  have hmodified (other : BattlerId) :=
    g.roster.battler?_modify id other (·.guarding up) fun _ => rfl
  have htarget' : (g.modifyBattler id (·.guarding up)).roster.battler? id =
      some (target.guarding up) := by
    refine (hmodified id).trans ?_
    rw [if_pos rfl, htarget, Option.map_some]
  by_cases hself : a.source = id
  · subst hself
    obtain rfl : source = target := Option.some.inj (hsource.symm.trans htarget)
    rw [execute_eq_roll haims htarget' htarget', roll_guarding_source]
    exact ⟨rfl, rfl⟩
  · have hsource' : (g.modifyBattler id (·.guarding up)).roster.battler? a.source =
        some source := by
      refine (hmodified a.source).trans ?_
      rw [if_neg hself, hsource]
    rw [execute_eq_roll haims htarget' hsource']
    exact ⟨rfl, rfl⟩

/-- What a hit takes or gives is within a fifth of its power, before a critical hit triples and a
guard halves it. A guard draws nothing and halves an attack. -/
theorem execute_damage (haims : a.target? = some id) (htarget : g.roster.battler? id = some target)
    (hsource : g.roster.battler? a.source = some source) :
    let o := (a.execute g).1.outcome
    let guarded := a.execute (g.modifyBattler id (·.guarding true))
    let bare := a.execute (g.modifyBattler id (·.guarding false))
    (a.kind = .normal →
      (o.success = true ↔ g.dice.percent.1 < source.stats.hitRate) ∧
        (o.success = false → o.hp = none) ∧
      (o.success = true →
        ∃ v d, Spread (max 0 (source.stats.attack.tdiv 2 - target.stats.defense.tdiv 4)) v ∧
        d = (if target.defending then (if o.critical then 3 * v else v).tdiv 2
          else if o.critical then 3 * v else v) ∧
        0 ≤ d ∧ o.hp = some (-d))) ∧
    (∀ n skill, a.kind = .skill n → g.database.skill? n = some skill →
      (o.success = true ↔ g.dice.percent.1 < skill.hitRate) ∧ (o.success = false → o.hp = none) ∧
      (o.success = true → skill.heals = false → skill.power ≠ 0 →
        ∃ v, Spread (max 0 (skill.power + source.stats.spirit.tdiv 2 - target.stats.spirit.tdiv 4))
          v ∧ 0 ≤ v ∧ o.hp = some (-v)) ∧
      (o.success = true → skill.heals = true → 0 < skill.power → 0 ≤ source.stats.spirit →
        ∃ v, Spread (skill.power + source.stats.spirit.tdiv 2) v ∧ 0 < v ∧ o.hp = some v)) ∧
    guarded.2.dice = bare.2.dice ∧ guarded.1.outcome.success = bare.1.outcome.success ∧
      guarded.1.outcome.critical = bare.1.outcome.critical ∧
      (a.kind = .normal → ∀ d, bare.1.outcome.hp = some (-d) →
        guarded.1.outcome.hp = some (-d.tdiv 2)) := by
  intro o guarded bare
  have ho : o = (roll a.kind g.database source target g.dice).1 := by
    have hexecuted := execute_eq_roll haims htarget hsource
    exact congrArg (·.1.outcome) hexecuted
  obtain ⟨hguarded, hguardedDice⟩ := execute_guarding haims htarget hsource true
  obtain ⟨hbare, hbareDice⟩ := execute_guarding haims htarget hsource false
  obtain ⟨hdice, hsuccess, hcritical⟩ := roll_guarding source target g.dice a.kind g.database true
  refine ⟨fun hkind => ?_, fun n skill hkind hskill => ?_, ?_, ?_, ?_, fun hkind d hd => ?_⟩
  · rw [ho, hkind]
    exact rollAttack_damage source target g.dice
  · have hroll : roll a.kind g.database source target g.dice =
        rollSkill skill source target g.dice := by
      simp only [roll, hkind, hskill]
    rw [ho, hroll]
    exact rollSkill_damage source target g.dice skill
  · rw [hguardedDice, hbareDice, hdice]
  · rw [hguarded, hbare, hsuccess]
  · rw [hguarded, hbare, hcritical]
  · rw [hbare, hkind] at hd
    rw [hguarded, hkind]
    exact rollAttack_guarded source target g.dice hd

/-- An attack of power eight on an enemy that is there hits, and takes seven at least and three
times nine at most. -/
theorem execute_damage_of_foray :
    let a := attack (.actor 1) (.enemy 1)
    a.target? = some (.enemy 1) ∧ (foray.roster.battler? (.enemy 1)).isSome = true ∧
      (foray.roster.battler? a.source).isSome = true ∧ (a.execute foray).1.outcome.success = true ∧
      ∃ d, 7 ≤ d ∧ d ≤ 27 ∧ (a.execute foray).1.outcome.hp = some (-d) := by
  intro a
  have haims : a.target? = some (.enemy 1) := rfl
  obtain ⟨hattack, -⟩ := execute_damage (g := foray) haims rfl rfl
  obtain ⟨hhits, -, htakes⟩ := hattack rfl
  have hsuccess : (a.execute foray).1.outcome.success = true :=
    hhits.mpr (Int.lt_of_le_of_lt foray.dice.percent_le (by decide))
  obtain ⟨v, d, ⟨hleast, hmost⟩, hd, -, hhp⟩ := htakes hsuccess
  have hseven : 7 ≤ v := hleast
  have hnine : v ≤ 9 := hmost
  have hbare : d = if (a.execute foray).1.outcome.critical then 3 * v else v := hd
  refine ⟨rfl, rfl, rfl, hsuccess, d, ?_, ?_, hhp⟩ <;> split at hbare <;> omega

end Execute

end Action

end ActiveBattle
