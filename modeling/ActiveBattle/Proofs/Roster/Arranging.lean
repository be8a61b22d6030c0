import ActiveBattle.Proofs.Battler.Change
import ActiveBattle.Proofs.Roster.Pointwise
import ActiveBattle.Roster.Formation
import ActiveBattle.Roster.Gauge

/-!
# Placing battlers and filling gauges

The formation and the gauges move battlers and set gauges, and do nothing else. Each of them does to
the roster what its parts do to a battler (`arrange_pointwise`, `fillGauges_pointwise`).
-/

namespace ActiveBattle

set_option autoImplicit false

namespace Roster

/-- The same battlers, some of them placed or with other gauges. -/
abbrev Arranged (max : Int) (r r' : Roster) : Prop := r.Pointwise (Battler.Arranged max) r'

theorem isDead_of_canActOrRecoverable {b : Battler} {db : Database}
    (h : b.canActOrRecoverable db = true) :
    b.isDead = false := by
  unfold Battler.canActOrRecoverable at h
  simp only [Bool.and_eq_true, Bool.not_eq_true'] at h
  exact h.1

/-- What one gain of a gauge that may fill does, a filling of gauges does to every battler. -/
theorem fillGauges_pointwise {R : Battler → Battler → Prop} (hrefl : ∀ b, R b b)
    (htrans : ∀ a b c, R a b → R b c → R a c) (db : Database) (max base average : Int)
    (hgain : ∀ b, canFill db max b = true →
      R b { b with gauge := min (b.gauge + gaugeGain base average b.stats.agility) max })
    (ids : List BattlerId) (r : Roster) :
    r.Pointwise R (fillGauges db max base average ids r).2 := by
  induction ids generalizing r with
  | nil => exact .refl hrefl r
  | cons id rest ih =>
    unfold fillGauges
    split
    · exact ih r
    · rename_i b hb
      split
      · rename_i hfill
        refine .trans htrans (Pointwise.modify hrefl r id _ ?_) (ih _)
        intro c hc
        obtain rfl := Option.some.inj (hb.symm.trans hc)
        exact hgain b hfill
      · exact ih r

theorem fillGauges_arranged (db : Database) (max base average : Int) (ids : List BattlerId)
    (r : Roster) :
    r.Arranged max (fillGauges db max base average ids r).2 := by
  refine fillGauges_pointwise Battler.Arranged.refl Battler.Arranged.trans db max base
    average ?_ ids r
  intro b hfill
  simp only [canFill, Bool.and_eq_true] at hfill
  have hgain : 1 ≤ gaugeGain base average b.stats.agility := Int.le_max_right _ _
  apply Battler.Arranged.of_gauge
  · exact isDead_of_canActOrRecoverable hfill.1.2
  · omega
  · omega

theorem updateGauges_arranged (r : Roster) (db : Database) (max fillFrames : Int) :
    r.Arranged max (r.updateGauges db max fillFrames).2 :=
  fillGauges_arranged db max _ _ _ r

end Roster

namespace Formation

variable {max : Int}

theorem startGauge_mem (condition : BattleCondition) (firstStrike : Bool) {preempt ambush : Int}
    (b : Battler) (hpreempt : 0 ≤ preempt ∧ preempt ≤ max) (hambush : 0 ≤ ambush ∧ ambush ≤ max) :
    0 ≤ startGauge condition firstStrike preempt ambush max b ∧
      startGauge condition firstStrike preempt ambush max b ≤ max := by
  have hmax : 0 ≤ max := Int.le_trans hpreempt.1 hpreempt.2
  have hhalf : max.tdiv 2 = max / 2 := Int.tdiv_eq_ediv_of_nonneg hmax
  cases condition with
  | initiative => exact hpreempt
  | surround => exact hpreempt
  | back => exact hambush
  | pincers => exact hambush
  | none =>
    simp only [startGauge]
    split
    · exact hpreempt
    · omega

theorem seedGauge_arranged (db : Database) (condition : BattleCondition) (firstStrike : Bool)
    {preempt ambush : Int} (hpreempt : 0 ≤ max → 0 ≤ preempt ∧ preempt ≤ max)
    (hambush : 0 ≤ max → 0 ≤ ambush ∧ ambush ≤ max) (b : Battler) :
    Battler.Arranged max b (seedGauge db condition firstStrike preempt ambush max b) := by
  unfold seedGauge
  split
  · exact .refl b
  · rename_i hable
    simp only [Bool.or_eq_true, Bool.not_eq_true', not_or, Bool.not_eq_false] at hable
    have hmem (h : 0 ≤ max) := startGauge_mem condition firstStrike b (hpreempt h) (hambush h)
    apply Battler.Arranged.of_gauge
    · exact Roster.isDead_of_canActOrRecoverable hable.2
    · exact fun h _ => (hmem h).1
    · exact fun h => (hmem h).2

section Arrange

variable {R : Battler → Battler → Prop} (hrefl : ∀ b, R b b)
  (htrans : ∀ a b c, R a b → R b c → R a c)
include hrefl

theorem placeEnemies_pointwise
    (hplace : ∀ b position flip, R b { b with position := position, flip := flip }) (r : Roster)
    (slots : List Point) (condition : BattleCondition) :
    r.Pointwise R (placeEnemies r slots condition) :=
  ⟨List.forall₂_same.mpr fun b _ => hrefl b, forall₂_mapIdx _ _ fun _ b => hplace b _ _, rfl⟩

include htrans

theorem placeActorsFrom_pointwise
    (hplace : ∀ b position flip, R b { b with position := position, flip := flip })
    (condition : BattleCondition) (index : Nat) (ids : List Int) (r : Roster) :
    r.Pointwise R (placeActorsFrom condition index ids r) := by
  induction ids generalizing index r with
  | nil => exact .refl hrefl r
  | cons id rest ih =>
    exact .trans htrans (.modifyActor hrefl r id _ fun b _ => hplace b _ _) (ih (index + 1) _)

theorem placeActors_pointwise
    (hplace : ∀ b position flip, R b { b with position := position, flip := flip })
    (hclose : ∀ b, R b { b with row := .front }) (r : Roster) (db : Database)
    (condition : BattleCondition) :
    r.Pointwise R (placeActors r db condition) := by
  have hclosed : r.Pointwise R (closeRanks r) :=
    .foldl hrefl htrans _ (fun r id => .modifyActor hrefl r id _ fun b _ => hclose b) _ r
  unfold placeActors
  dsimp only
  split
  · exact placeActorsFrom_pointwise hrefl htrans hplace condition 0 _ r
  · exact hclosed.trans htrans (placeActorsFrom_pointwise hrefl htrans hplace condition 0 _ _)

theorem seedGauges_pointwise_of {db : Database} {condition : BattleCondition} {firstStrike : Bool}
    {max : Int} (henemy : ∀ b, R b (seedGauge db condition firstStrike 0 max max b))
    (hactor : ∀ b, R b (seedGauge db condition firstStrike max 0 max b)) (r : Roster) :
    r.Pointwise R (seedGauges r db condition firstStrike max) := by
  have henemies : r.Pointwise R
      { r with enemies := r.enemies.map (seedGauge db condition firstStrike 0 max max) } :=
    ⟨List.forall₂_same.mpr fun b _ => hrefl b, forall₂_map _ _ fun b _ => henemy b, rfl⟩
  exact henemies.trans htrans
    (.foldl hrefl htrans _ (fun r id => .modifyActor hrefl r id _ fun b _ => hactor b) _ _)

/-- What the parts of the formation a battle starts in do to a battler, the formation does to every
battler. -/
theorem arrange_pointwise {db : Database} {condition : BattleCondition} {firstStrike : Bool}
    {max : Int} (hplace : ∀ b position flip, R b { b with position := position, flip := flip })
    (hclose : ∀ b, R b { b with row := .front })
    (henemy : ∀ b, R b (seedGauge db condition firstStrike 0 max max b))
    (hactor : ∀ b, R b (seedGauge db condition firstStrike max 0 max b)) (r : Roster)
    (slots : List Point) :
    r.Pointwise R (seedGauges (placeActors (placeEnemies r slots condition) db condition) db
      condition firstStrike max) :=
  have henemies := placeEnemies_pointwise hrefl hplace r slots condition
  have hactors :=
    placeActors_pointwise hrefl htrans hplace hclose (placeEnemies r slots condition) db condition
  (henemies.trans htrans hactors).trans htrans
    (seedGauges_pointwise_of hrefl htrans henemy hactor _)

end Arrange

/-- The formation a battle starts in. -/
theorem arrange_arranged (r : Roster) (db : Database) (slots : List Point)
    (condition : BattleCondition) (firstStrike : Bool) (max : Int) :
    r.Arranged max
      (seedGauges (placeActors (placeEnemies r slots condition) db condition) db condition
      firstStrike max) := by
  have hempty (h : 0 ≤ max) : (0 : Int) ≤ 0 ∧ (0 : Int) ≤ max := ⟨Int.le_refl _, h⟩
  have hfull (h : 0 ≤ max) : 0 ≤ max ∧ max ≤ max := ⟨h, Int.le_refl _⟩
  exact arrange_pointwise Battler.Arranged.refl Battler.Arranged.trans (fun _ _ _ => .of_place rfl)
    (fun _ => .of_place rfl) (seedGauge_arranged db condition firstStrike hempty hfull)
    (seedGauge_arranged db condition firstStrike hfull hempty) r slots

end Formation

end ActiveBattle
