import Mathlib.Data.Int.Basic
import Mathlib.Logic.Function.Iterate
import ActiveBattle.Config
import ActiveBattle.Proofs.Roster.Arranging

/-!
# How long a gauge takes to fill

A frame fills the gauge of a battler once for every place it has in the lines, and by the same
amount each time as long as nothing disturbs it. So a battler of average agility has a full gauge
when the frames, times its places, times the truncated quotient of the gauge and the configured
frames, reach the gauge: in the configured number of frames exactly when that number divides the
gauge.
-/

namespace ActiveBattle

set_option autoImplicit false

/-- Many gains, each held at the most a gauge can be. -/
theorem iterate_min_add {gain max g : Int} (hgain : 0 ≤ gain) (hg : g ≤ max) (n : Nat) :
    (fun x => min (x + gain) max)^[n] g = min (g + n * gain) max := by
  induction n with
  | zero =>
    rw [Function.iterate_zero, id]
    omega
  | succ n ih =>
    rw [Function.iterate_succ_apply', ih]
    push_cast
    rw [Int.add_mul, Int.one_mul]
    omega

namespace Roster

/-- How often a battler stands in the lines. An enemy does so once, an actor as often as the party
names it. -/
def places (r : Roster) (id : BattlerId) : Nat := (r.partyIds ++ r.enemyIds).count id

/-- A battler whose gauge was filled once. -/
def filled (db : Database) (max base average : Int) (b : Battler) : Battler :=
  if canFill db max b then
    { b with gauge := min (b.gauge + gaugeGain base average b.stats.agility) max } else b

section Filling

variable {db : Database} {max base average : Int}

/-- Filling the gauges of many battlers fills that of each as often as it is named. -/
theorem fillGauges_battler? (ids : List BattlerId) (r : Roster) (id : BattlerId) :
    (fillGauges db max base average ids r).2.battler? id =
      (r.battler? id).map (filled db max base average)^[ids.count id] := by
  induction ids generalizing r with
  | nil => exact Option.map_id.symm ▸ rfl
  | cons head rest ih =>
    have hcount : (head :: rest).count id = rest.count id + if head = id then 1 else 0 := by
      simp [List.count_cons]
    unfold fillGauges
    split
    · rename_i hmissing
      rw [ih, hcount]
      split
      · rename_i heq
        rw [← heq, hmissing]
        rfl
      · rfl
    · rename_i b hb
      split
      · rename_i hfill
        have hmodify := battler?_modify r head id
          (fun c => { c with gauge := min (b.gauge + gaugeGain base average b.stats.agility) max })
            fun _ => rfl
        rw [ih, hmodify, hcount]
        by_cases heq : head = id
        · subst heq
          rw [if_pos rfl, if_pos rfl, hb, Option.map_some, Option.map_some, Option.map_some,
            Function.iterate_succ_apply, filled, if_pos hfill]
        · rw [if_neg (Ne.symm heq), if_neg heq, Nat.add_zero]
      · rename_i hfill
        rw [ih, hcount]
        by_cases heq : head = id
        · subst heq
          rw [if_pos rfl, hb, Option.map_some, Option.map_some, Function.iterate_succ_apply,
            filled, if_neg hfill]
        · rw [if_neg heq, Nat.add_zero]

/-- A battler that may fill its gauge gains the same each time, until the gauge is full. -/
theorem filled_iterate {b : Battler} (hseen : b.hidden = false)
    (hable : b.canActOrRecoverable db = true) (hgauge : b.gauge ≤ max) (n : Nat) :
    (filled db max base average)^[n] b =
      { b with gauge := min (b.gauge + n * gaugeGain base average b.stats.agility) max } := by
  have hgain : 1 ≤ gaugeGain base average b.stats.agility := Int.le_max_right _ _
  have hfilled (g : Int) (hg : g ≤ max) : filled db max base average { b with gauge := g } =
      { b with gauge := min (g + gaugeGain base average b.stats.agility) max } := by
    unfold filled
    split
    · rfl
    · rename_i hfill
      have hfull : max ≤ g := by
        by_contra hroom
        exact hfill (by simp [canFill, hseen, Battler.isGaugeFull, hroom]; exact hable)
      rw [show min (g + gaugeGain base average b.stats.agility) max = g by omega]
  rw [← iterate_min_add (by omega) hgauge]
  induction n with
  | zero => rfl
  | succ n ih =>
    have hroom : (fun x => min (x + gaugeGain base average b.stats.agility) max)^[n]
        b.gauge ≤ max := by
      rw [iterate_min_add (by omega) hgauge]
      exact Int.min_le_right _ _
    rw [Function.iterate_succ_apply', Function.iterate_succ_apply', ih, hfilled _ hroom]

end Filling

/-- What a placing of battlers and a filling of gauges leave alone tells the same of every
combatant. -/
theorem combatants_of_arranged {max : Int} {r r' : Roster} (h : r.Arranged max r') :
    List.Forall₂ (Battler.Arranged max) r.combatants r'.combatants := by
  have hid : ∀ a b, Battler.Arranged max a b → b.dbId = a.dbId := fun a b hab => by rw [hab.rest]
  have hmembers : List.Forall₂ (Battler.Arranged max) r.partyMembers r'.partyMembers := by
    unfold partyMembers
    rw [h.party]
    refine List.rel_filterMap (R := Eq) ?_ (List.forall₂_same.mpr fun _ _ => rfl)
    rintro id _ rfl
    exact h.actor? hid id
  exact List.rel_append hmembers h.enemies

/-- Filling gauges changes no agility and hides nobody, so the mean stays. -/
theorem averageAgility_of_arranged {max : Int} {r r' : Roster} (h : r.Arranged max r') :
    r'.averageAgility = r.averageAgility := by
  have hpresent : ∀ a b, Battler.Arranged max a b → (a.isPresent = true ↔ b.isPresent = true) := by
    intro a b hab
    rw [hab.rest]
    exact Iff.rfl
  have hagility : ∀ a b, Battler.Arranged max a b →
      Max.max a.stats.agility 1 = Max.max b.stats.agility 1 := by
    intro a b hab
    rw [hab.rest]
  have hseen := List.rel_filter (fun a b hab => hpresent a b hab) (combatants_of_arranged h)
  have heq := List.rel_map (fun a b hab => hagility a b hab) hseen
  rw [List.forall₂_eq_eq_eq] at heq
  exact congrArg (mean 1) heq.symm

/-- The mean of the agilities is never less than 1. -/
theorem averageAgility_pos (r : Roster) : 1 ≤ r.averageAgility := by
  unfold averageAgility mean
  split
  · exact Int.le_refl 1
  · exact Int.le_max_left _ _

/-- In a valid configuration the quotient of the gauge and the frames is not nothing. -/
theorem one_le_quotient {c : BattleConfig} (hc : c.Valid) : 1 ≤ c.maxAtbGauge / c.atbFillFrames :=
  (Int.le_ediv_iff_mul_le hc.fill_pos).mpr (by rw [Int.one_mul]; exact hc.fill_le_gauge)

theorem gains_nonneg {c : BattleConfig} (hc : c.Valid) (lines : Nat) :
    0 ≤ lines * (c.maxAtbGauge / c.atbFillFrames) :=
  Int.mul_nonneg (Int.natCast_nonneg lines) (Int.le_of_lt (one_le_quotient hc))

/-- The quotient is the gain of a frame. -/
theorem baseGain_of_valid {c : BattleConfig} (hc : c.Valid) :
    baseGain c.maxAtbGauge c.atbFillFrames = c.maxAtbGauge / c.atbFillFrames := by
  have hgauge := hc.gauge_pos
  have hframes := hc.fill_pos
  unfold baseGain
  rw [Int.max_eq_left (by omega : 1 ≤ c.atbFillFrames), Int.tdiv_eq_ediv_of_nonneg (by omega),
    Int.max_eq_left (one_le_quotient hc)]

/-- A battler of average agility gains what the frame grants. -/
theorem gaugeGain_self {base agility : Int} (hbase : 1 ≤ base) (hagility : 1 ≤ agility) :
    gaugeGain base agility agility = base := by
  unfold gaugeGain
  rw [Int.max_eq_left hagility, Int.mul_tdiv_cancel _ (by omega), Int.max_eq_left hbase]

/-- Nothing has changed that decides how the gauge of a battler fills: its gauge, whether it may
fill it, its agility, its places in the lines, and the mean agility. -/
structure Undisturbed (db : Database) (id : BattlerId) (r r' : Roster) : Prop where
  places : r'.places id = r.places id
  average : r'.averageAgility = r.averageAgility
  battler : ∀ b, r.battler? id = some b → ∃ b', r'.battler? id = some b' ∧ b'.gauge = b.gauge ∧
    b'.hidden = b.hidden ∧ b'.canActOrRecoverable db = b.canActOrRecoverable db ∧
      b'.stats.agility = b.stats.agility

theorem Undisturbed.refl (db : Database) (id : BattlerId) (r : Roster) : r.Undisturbed db id r :=
  ⟨rfl, rfl, fun b hb => ⟨b, hb, rfl, rfl, rfl, rfl⟩⟩

/-- The battler's gauge is full. -/
def IsFull (r : Roster) (id : BattlerId) (max : Int) : Prop :=
  (r.battler? id).any (·.isGaugeFull max) = true

/-- The gauge is full at the roster of that number, and at none before. -/
def FullFirstAt (rs : Nat → Roster) (id : BattlerId) (max : Int) (n : Nat) : Prop :=
  (rs n).IsFull id max ∧ ∀ k < n, ¬(rs k).IsFull id max

section Speed

variable {db : Database} {id : BattlerId} {c : BattleConfig}

/-- What holds of a battler of average agility after some frames of undisturbed filling. -/
structure Fills (db : Database) (id : BattlerId) (lines : Nat) (gauge : Int) (r : Roster)
    (b : Battler) : Prop where
  found : r.battler? id = some b
  seen : b.hidden = false
  able : b.canActOrRecoverable db = true
  average : r.averageAgility = b.stats.agility
  places : r.places id = lines
  gauge : b.gauge = gauge

/-- One frame gives the battler the granted gain for each of its places. -/
theorem Fills.step {r r' : Roster} {b : Battler} {lines : Nat} {gauge : Int} (hc : c.Valid)
    (hgauge : gauge ≤ c.maxAtbGauge) (h : Fills db id lines gauge r b)
    (hnext : Undisturbed db id (r.updateGauges db c.maxAtbGauge c.atbFillFrames).2 r') :
    ∃ b', Fills db id lines
      (min (gauge + lines * (c.maxAtbGauge / c.atbFillFrames)) c.maxAtbGauge) r' b' := by
  have hbase := baseGain_of_valid hc
  have harranged := r.updateGauges_arranged db c.maxAtbGauge c.atbFillFrames
  have hgain : gaugeGain (baseGain c.maxAtbGauge c.atbFillFrames) r.averageAgility b.stats.agility =
      c.maxAtbGauge / c.atbFillFrames := by
    rw [h.average, gaugeGain_self (by unfold baseGain; omega) (h.average ▸ r.averageAgility_pos),
      hbase]
  have hfilled : (r.updateGauges db c.maxAtbGauge c.atbFillFrames).2.battler? id =
      some
        { b with
          gauge := min (gauge + lines * (c.maxAtbGauge / c.atbFillFrames)) c.maxAtbGauge } := by
    have hiter : (filled db c.maxAtbGauge (baseGain c.maxAtbGauge c.atbFillFrames)
        r.averageAgility)^[r.places id] b = _ :=
      filled_iterate h.seen h.able (h.gauge ▸ hgauge) (r.places id)
    rw [hgain, h.places, h.gauge] at hiter
    unfold updateGauges
    rw [fillGauges_battler?, h.found]
    exact congrArg some (h.places ▸ hiter)
  obtain ⟨b', hb', hgauge', hhidden', hable', hagility'⟩ := hnext.battler _ hfilled
  refine ⟨b', ⟨hb', hhidden'.trans h.seen, hable'.trans h.able, ?_, ?_, hgauge'⟩⟩
  · rw [hnext.average, averageAgility_of_arranged harranged, h.average, hagility']
  · have hplaces : (r.updateGauges db c.maxAtbGauge c.atbFillFrames).2.places id = r.places id := by
      unfold Roster.places partyIds enemyIds
      rw [harranged.party, ← harranged.enemies.length_eq]
    rw [hnext.places, hplaces, h.places]

/-- The gauge after so many frames. -/
theorem Fills.run {rs : Nat → Roster} {b : Battler} {lines : Nat} (hc : c.Valid) {n : Nat}
    (h : Fills db id lines 0 (rs 0) b)
    (hrun : ∀ k < n,
      Undisturbed db id ((rs k).updateGauges db c.maxAtbGauge c.atbFillFrames).2 (rs (k + 1))) :
    ∃ b', Fills db id lines
      (min (n * (lines * (c.maxAtbGauge / c.atbFillFrames))) c.maxAtbGauge) (rs n) b' := by
  have hpos := hc.gauge_pos
  induction n with
  | zero =>
    refine ⟨b, ?_⟩
    rw [show min ((0 : Nat) * (lines * (c.maxAtbGauge / c.atbFillFrames))) c.maxAtbGauge = 0 by
      rw [Int.natCast_zero, Int.zero_mul]; omega]
    exact h
  | succ n ih =>
    obtain ⟨b', h'⟩ := ih fun k hk => hrun k (by omega)
    obtain ⟨b'', h''⟩ := h'.step hc (Int.min_le_right _ _) (hrun n (by omega))
    refine ⟨b'', ?_⟩
    have hgain := gains_nonneg hc lines
    have hsum : ((n + 1 : Nat) : Int) * (lines * (c.maxAtbGauge / c.atbFillFrames)) =
        n * (lines * (c.maxAtbGauge / c.atbFillFrames)) +
          lines * (c.maxAtbGauge / c.atbFillFrames) := by
      push_cast
      rw [Int.add_mul, Int.one_mul]
    rw [hsum]
    convert h'' using 1
    omega

/-- A gauge is full first at the frame that brings the sum of the gains to its size. -/
theorem Fills.fullFirstAt_iff {rs : Nat → Roster} {b : Battler} {lines : Nat} (hc : c.Valid)
    {n : Nat} (h : Fills db id lines 0 (rs 0) b)
    (hrun : ∀ k < n,
      Undisturbed db id ((rs k).updateGauges db c.maxAtbGauge c.atbFillFrames).2 (rs (k + 1))) :
    FullFirstAt rs id c.maxAtbGauge n ↔
      (n - 1) * (lines * (c.maxAtbGauge / c.atbFillFrames)) < c.maxAtbGauge ∧
        c.maxAtbGauge ≤ n * (lines * (c.maxAtbGauge / c.atbFillFrames)) := by
  have hpos := hc.gauge_pos
  have hgain := gains_nonneg hc lines
  have hfull (k : Nat) (hk : k ≤ n) : (rs k).IsFull id c.maxAtbGauge ↔
      c.maxAtbGauge ≤ k * (lines * (c.maxAtbGauge / c.atbFillFrames)) := by
    obtain ⟨b', hb'⟩ := h.run hc fun j (hj : j < k) => hrun j (by omega)
    unfold IsFull
    rw [hb'.found, Option.any_some, Battler.isGaugeFull, hb'.gauge, decide_eq_true_eq]
    omega
  generalize lines * (c.maxAtbGauge / c.atbFillFrames) = gain at hgain hfull ⊢
  unfold FullFirstAt
  rw [hfull n (Nat.le_refl n)]
  constructor
  · rintro ⟨hn, hbefore⟩
    refine ⟨?_, hn⟩
    cases n with
    | zero => omega
    | succ n =>
      have hlast := hbefore n (by omega)
      rw [hfull n (by omega)] at hlast
      push_cast
      rw [Int.add_sub_cancel]
      omega
  · rintro ⟨hlast, hn⟩
    refine ⟨hn, fun k hk => ?_⟩
    have hle : (k : Int) * gain ≤ (n - 1) * gain := Int.mul_le_mul_of_nonneg_right (by omega) hgain
    rw [hfull k (by omega)]
    omega

/-- The truncated quotient is never too large: one frame less than configured does not fill a gauge.
And it is not too small just when nothing is lost. -/
theorem quotient_fills_iff (hc : c.Valid) :
    (c.atbFillFrames - 1) * (c.maxAtbGauge / c.atbFillFrames) < c.maxAtbGauge ∧
      (c.maxAtbGauge ≤ c.atbFillFrames * (c.maxAtbGauge / c.atbFillFrames) ↔
        c.atbFillFrames ∣ c.maxAtbGauge) := by
  have hframes := hc.fill_pos
  have hgain := one_le_quotient hc
  have hle : c.atbFillFrames * (c.maxAtbGauge / c.atbFillFrames) ≤ c.maxAtbGauge :=
    Int.mul_ediv_self_le (by omega)
  constructor
  · rw [Int.sub_mul, Int.one_mul]
    omega
  · constructor
    · intro hfull
      exact ⟨_, Int.le_antisymm hfull hle⟩
    · intro hdvd
      exact Int.le_of_eq (Int.mul_ediv_cancel' hdvd).symm

/-- A battler of average agility that starts with an empty gauge has it full at the configured
number of frames, and not before, exactly when the gains of its places add up to the gauge then. For
a battler with one place they do when the configured number of frames divides the gauge. -/
theorem fills_in_time_iff {rs : Nat → Roster} {b : Battler} (hc : c.Valid)
    (hfound : (rs 0).battler? id = some b) (hfill : canFill db c.maxAtbGauge b = true)
    (hempty : b.gauge = 0) (haverage : (rs 0).averageAgility = b.stats.agility)
    (hrun : ∀ k : Nat, k < c.atbFillFrames →
      Undisturbed db id ((rs k).updateGauges db c.maxAtbGauge c.atbFillFrames).2 (rs (k + 1))) :
    (FullFirstAt rs id c.maxAtbGauge c.atbFillFrames.toNat ↔
        (c.atbFillFrames - 1) * ((rs 0).places id * (c.maxAtbGauge / c.atbFillFrames)) <
          c.maxAtbGauge ∧
          c.maxAtbGauge ≤ c.atbFillFrames *
            ((rs 0).places id * (c.maxAtbGauge / c.atbFillFrames))) ∧
      ((rs 0).places id = 1 →
        (FullFirstAt rs id c.maxAtbGauge c.atbFillFrames.toNat ↔
          c.atbFillFrames ∣ c.maxAtbGauge)) := by
  have hframes := hc.fill_pos
  have hcast : (c.atbFillFrames.toNat : Int) = c.atbFillFrames := Int.toNat_of_nonneg (by omega)
  simp only [canFill, Bool.and_eq_true, Bool.not_eq_true'] at hfill
  have hstart : Fills db id ((rs 0).places id) 0 (rs 0) b :=
    ⟨hfound, hfill.1.1, hfill.1.2, haverage, rfl, hempty⟩
  have hiff := hstart.fullFirstAt_iff hc fun k (hk : k < c.atbFillFrames.toNat) => hrun k (by omega)
  rw [hcast] at hiff
  refine ⟨hiff, fun hone => ?_⟩
  obtain ⟨hbefore, hdivides⟩ := quotient_fills_iff hc
  rw [hiff, hone, Int.natCast_one, Int.one_mul, hdivides]
  exact and_iff_right hbefore

end Speed

/-- An actor against an enemy as agile as he is. -/
def evenMatch : Roster where
  actors := [.ofActor { id := 1, name := "" }]
  party := [1]
  enemies := [.ofEnemy 0 { id := 1, name := "" } { enemyId := 1 }]

/-- The two after so many frames in which nothing but their gauges changes. -/
def evenMatchAfter (max fillFrames : Int) (n : Nat) : Roster :=
  (fun r => (updateGauges r {} max fillFrames).2)^[n] evenMatch

theorem evenMatchAfter_undisturbed (max fillFrames : Int) (id : BattlerId) (n : Nat) :
    Undisturbed {} id ((evenMatchAfter max fillFrames n).updateGauges {} max fillFrames).2
      (evenMatchAfter max fillFrames (n + 1)) := by
  unfold evenMatchAfter
  rw [Function.iterate_succ_apply']
  exact .refl _ _ _

/-- A gauge of ten fills in five frames, two points a frame. -/
theorem fills_in_time_iff_five_of_ten :
    BattleConfig.Valid { maxAtbGauge := 10, atbFillFrames := 5 } ∧
      (∃ b, (evenMatchAfter 10 5 0).battler? (.actor 1) = some b ∧
        canFill {} 10 b = true ∧ b.gauge = 0 ∧
        (evenMatchAfter 10 5 0).averageAgility = b.stats.agility) ∧
      (∀ n, Undisturbed {} (.actor 1) ((evenMatchAfter 10 5 n).updateGauges {} 10 5).2
        (evenMatchAfter 10 5 (n + 1))) ∧
      FullFirstAt (evenMatchAfter 10 5) (.actor 1) 10 5 := by
  have hvalid : BattleConfig.Valid { maxAtbGauge := 10, atbFillFrames := 5 } :=
    (BattleConfig.fault?_eq_none_iff _).mp (by decide)
  have hfound : (evenMatchAfter 10 5 0).battler? (.actor 1) =
      some (.ofActor { id := 1, name := "" }) :=
    rfl
  have hfill : canFill {} 10 (.ofActor { id := 1, name := "" }) = true := by decide
  have haverage : (evenMatchAfter 10 5 0).averageAgility =
      (Battler.ofActor { id := 1, name := "" }).stats.agility := by
    decide
  have hrun := evenMatchAfter_undisturbed 10 5 (.actor 1)
  refine ⟨hvalid, ⟨_, hfound, hfill, rfl, haverage⟩, hrun, ?_⟩
  have hiff := fills_in_time_iff hvalid hfound hfill rfl haverage fun n _ => hrun n
  exact (hiff.2 (by decide)).mpr (by decide)

/-- With seven frames configured, a gauge of ten gains one point a frame and holds seven of them
when it should be full. -/
theorem not_filled_seven_of_ten :
    BattleConfig.Valid { maxAtbGauge := 10, atbFillFrames := 7 } ∧
      (∃ b, (evenMatchAfter 10 7 0).battler? (.actor 1) = some b ∧
        canFill {} 10 b = true ∧ b.gauge = 0 ∧
        1 ≤ b.stats.agility ∧ (evenMatchAfter 10 7 0).averageAgility = b.stats.agility) ∧
      (∀ n, Undisturbed {} (.actor 1) ((evenMatchAfter 10 7 n).updateGauges {} 10 7).2
        (evenMatchAfter 10 7 (n + 1))) ∧
      ((evenMatchAfter 10 7 7).battler? (.actor 1)).map (·.gauge) = some 7 ∧
      ¬FullFirstAt (evenMatchAfter 10 7) (.actor 1) 10 7 := by
  refine ⟨(BattleConfig.fault?_eq_none_iff _).mp (by decide),
    ⟨.ofActor { id := 1, name := "" }, rfl, by decide, rfl, by decide, by decide⟩,
    evenMatchAfter_undisturbed 10 7 (.actor 1), by decide, ?_⟩
  rintro ⟨hfull, -⟩
  have hroom : ((evenMatchAfter 10 7 7).battler? (.actor 1)).any (·.isGaugeFull 10) = false := by
    decide
  exact Bool.false_ne_true (hroom.symm.trans hfull)

end Roster

end ActiveBattle
