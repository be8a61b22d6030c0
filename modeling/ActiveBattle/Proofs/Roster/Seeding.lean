import ActiveBattle.Proofs.Roster.Arranging
import ActiveBattle.Proofs.Roster.Gains
import ActiveBattle.Proofs.Roster.Ranks

/-!
# Gauges at the start

One routine sets the gauges of both sides, with the two extremes exchanged. Under no condition a
battler's own flag picks the extreme that favours the party. So being preemptive helps actors but
empties the gauges of enemies (`noWorse_iff`).
-/

namespace ActiveBattle

set_option autoImplicit false

namespace Battler

/-- Visible and alive, under no state that forbids acting for good. -/
structure MayStart (db : Database) (b : Battler) : Prop where
  seen : b.hidden = false
  alive : b.hasState deathState = false
  recovers : ∀ s ∈ b.states, ∀ d, db.state? s.id = some d → d.restriction = .doNothing →
    0 < d.autoReleaseTurns

/-- The second battler is the first, made preemptive or left as it is. -/
structure MadePreemptive (b b' : Battler) : Prop where
  rest : b' = { b with preemptive := b'.preemptive }
  keeps : b.preemptive = true → b'.preemptive = true

/-- The gauge is the same unless the flag differs. -/
def SameGaugeForSameFlag (b b' : Battler) : Prop :=
  b'.preemptive = b.preemptive → b'.gauge = b.gauge

/-- The gauge is at least as full, and the same unless the flag differs. -/
structure NoWorse (b b' : Battler) : Prop where
  gauge : b.gauge ≤ b'.gauge
  same : SameGaugeForSameFlag b b'

/-- Alike but for the flag and the gauge, and no worse off. -/
structure NoWorseOtherwiseSame (b b' : Battler) : Prop extends NoWorse b b' where
  rest : b' = { b with preemptive := b'.preemptive, gauge := b'.gauge }
  keeps : b.preemptive = true → b'.preemptive = true

/-- Nothing but the gauge is set, within bounds, and only where the battler may start. -/
structure Seeded (db : Database) (max : Int) (b b' : Battler) : Prop where
  rest : b' = { b with gauge := b'.gauge }
  kept : ¬MayStart db b → b' = b
  bounded : b'.gauge = b.gauge ∨ 0 ≤ b'.gauge ∧ b'.gauge ≤ max

variable {db : Database} {max : Int} {b b' : Battler}

theorem mayStart_iff : (b.hidden || !b.canActOrRecoverable db) = false ↔ MayStart db b := by
  -- with room for a point, starting and filling ask for the same
  have hfill : Roster.canFill db (b.gauge + 1) b = true ↔
      (b.hidden || !b.canActOrRecoverable db) = false := by
    have hroom : b.isGaugeFull (b.gauge + 1) = false := decide_eq_false (by omega)
    unfold Roster.canFill
    rw [hroom]
    cases b.hidden <;> cases b.canActOrRecoverable db <;> simp
  rw [← hfill, Roster.canFill_iff]
  exact ⟨fun h => ⟨h.seen, h.alive, h.recovers⟩,
    fun h => ⟨h.seen, h.alive, h.recovers, Int.lt_succ _⟩⟩

instance : DecidablePred (MayStart db) := fun _ => decidable_of_iff _ mayStart_iff

theorem MadePreemptive.noWorseOtherwiseSame (h : MadePreemptive b b') :
    NoWorseOtherwiseSame b b' := by
  have hgauge : b'.gauge = b.gauge := by rw [h.rest]
  refine ⟨⟨Int.le_of_eq hgauge.symm, fun _ => hgauge⟩, ?_, h.keeps⟩
  rw [hgauge]
  exact h.rest

theorem NoWorseOtherwiseSame.mayStart_iff (h : NoWorseOtherwiseSame b b') :
    MayStart db b' ↔ MayStart db b := by
  rw [h.rest]
  exact ⟨fun h => ⟨h.seen, h.alive, h.recovers⟩, fun h => ⟨h.seen, h.alive, h.recovers⟩⟩

theorem Seeded.refl (b : Battler) : Seeded db max b b := ⟨rfl, fun _ => rfl, .inl rfl⟩

theorem Seeded.trans (a b c : Battler) (h : Seeded db max a b) (h' : Seeded db max b c) :
    Seeded db max a c := by
  have hstart : MayStart db b ↔ MayStart db a := by
    rw [h.rest]
    exact ⟨fun h => ⟨h.seen, h.alive, h.recovers⟩, fun h => ⟨h.seen, h.alive, h.recovers⟩⟩
  refine ⟨by rw [h'.rest, h.rest],
    fun hnot => (h'.kept (hstart.not.mpr hnot)).trans (h.kept hnot), ?_⟩
  rcases h'.bounded with hkept | hset
  · rw [hkept]
    exact h.bounded
  · exact .inr hset

end Battler

namespace Formation

open Battler

variable {db : Database} {condition : BattleCondition} {firstStrike : Bool}
  {preempt ambush max : Int} {b b' : Battler}

theorem seedGauge_eq (b : Battler) : seedGauge db condition firstStrike preempt ambush max b =
    if MayStart db b then { b with gauge := startGauge condition firstStrike preempt ambush max b }
      else b := by
  unfold seedGauge
  by_cases h : MayStart db b
  · rw [if_pos h, mayStart_iff.mpr h]
    rfl
  · rw [if_neg h, if_pos (Bool.not_eq_false _ ▸ mayStart_iff.not.mpr h)]

theorem seedGauge_seeded (hpreempt : 0 ≤ preempt ∧ preempt ≤ max)
    (hambush : 0 ≤ ambush ∧ ambush ≤ max) (b : Battler) :
    Seeded db max b (seedGauge db condition firstStrike preempt ambush max b) := by
  rw [seedGauge_eq]
  split
  · rename_i h
    exact ⟨rfl, fun hnot => absurd h hnot,
      .inr (startGauge_mem condition firstStrike b hpreempt hambush)⟩
  · exact .refl b

/-- The flag alone tells two battlers apart. -/
theorem startGauge_congr (h : b'.preemptive = b.preemptive) :
    startGauge condition firstStrike preempt ambush max b' =
    startGauge condition firstStrike preempt ambush max b := by
  unfold startGauge
  rw [h]

/-- Turning preemptive means to start at the extreme `preempt` instead of halfway, where nothing
else decides. -/
theorem startGauge_le_iff (hkeeps : b.preemptive = true → b'.preemptive = true) :
    startGauge condition firstStrike preempt ambush max b ≤
      startGauge condition firstStrike preempt ambush max b' ↔
      (condition = .none → firstStrike = false → b'.preemptive ≠ b.preemptive →
        max.tdiv 2 ≤ preempt) := by
  unfold startGauge
  cases condition
  case none =>
    cases firstStrike <;> cases hb : b.preemptive <;> cases hb' : b'.preemptive <;> simp_all
  all_goals simp

theorem seedGauge_sameGaugeForSameFlag (hstart : MayStart db b' ↔ MayStart db b)
    (h : SameGaugeForSameFlag b b') :
    SameGaugeForSameFlag (seedGauge db condition firstStrike preempt ambush max b)
      (seedGauge db condition firstStrike preempt ambush max b') := by
  rw [seedGauge_eq, seedGauge_eq]
  by_cases hb : MayStart db b
  · rw [if_pos hb, if_pos (hstart.mpr hb)]
    exact startGauge_congr
  · rw [if_neg hb, if_neg (hstart.not.mpr hb)]
    exact h

/-- Who is no worse off stays so, unless its gauge starts lower. -/
theorem seedGauge_noWorseOtherwiseSame (h : NoWorseOtherwiseSame b b')
    (hle : MayStart db b → startGauge condition firstStrike preempt ambush max b ≤
      startGauge condition firstStrike preempt ambush max b') :
    NoWorseOtherwiseSame (seedGauge db condition firstStrike preempt ambush max b)
      (seedGauge db condition firstStrike preempt ambush max b') := by
  rw [seedGauge_eq, seedGauge_eq]
  by_cases hstart : MayStart db b
  · rw [if_pos hstart, if_pos (h.mayStart_iff.mpr hstart)]
    refine ⟨⟨hle hstart, startGauge_congr⟩, ?_, h.keeps⟩
    rw [h.rest]
  · rw [if_neg hstart, if_neg (h.mayStart_iff.not.mpr hstart)]
    exact h

/-- An actor starts no lower for being preemptive. -/
theorem startGauge_actor_le (hmax : 0 ≤ max) (hkeeps : b.preemptive = true → b'.preemptive = true) :
    startGauge condition firstStrike max 0 max b ≤
      startGauge condition firstStrike max 0 max b' := by
  rw [startGauge_le_iff hkeeps, Int.tdiv_eq_ediv_of_nonneg hmax]
  omega

/-- A preemptive enemy starts with an empty gauge, where nothing but its flag decides. -/
theorem startGauge_enemy_le_iff (hmax : 0 ≤ max)
    (hkeeps : b.preemptive = true → b'.preemptive = true) :
    startGauge condition firstStrike 0 max max b ≤ startGauge condition firstStrike 0 max max b' ↔
      (condition = .none → firstStrike = false → 2 ≤ max → b'.preemptive = b.preemptive) := by
  rw [startGauge_le_iff hkeeps, Int.tdiv_eq_ediv_of_nonneg hmax]
  have hhalf : max / 2 ≤ 0 ↔ ¬2 ≤ max := by omega
  rw [hhalf]
  tauto

/-! ### Whole rosters -/

/-- No battler of either side is worse off. -/
def FavoursAll (r r' : Roster) : Prop := r.Pointwise NoWorse r'

/-- Every battler of the party and of the troop that may start has its gauge set within bounds, and
nothing else is set. -/
structure StartsWith (db : Database) (max : Int) (r r' : Roster) : Prop where
  pointwise : r.Pointwise (Seeded db max) r'
  bounded : ∀ id ∈ r.partyIds ++ r.enemyIds, ∀ b, r.battler? id = some b → MayStart db b →
    ∃ b', r'.battler? id = some b' ∧ 0 ≤ b'.gauge ∧ b'.gauge ≤ max

section Both

variable {R : Battler → Battler → Prop} {f : Battler → Battler} {r r' : Roster}

theorem forall₂_modify_both (hf : ∀ a b, R a b → R (f a) (f b)) {l l' : List Battler}
    (h : List.Forall₂ R l l') (i : Nat) : List.Forall₂ R (l.modify i f) (l'.modify i f) := by
  induction h generalizing i with
  | nil => simp
  | cons hab hrest ih =>
    cases i with
    | zero => exact .cons (hf _ _ hab) hrest
    | succ i => exact .cons hab (ih i)

/-- Related elements that are told alike are found at the same place. -/
theorem forall₂_findIdx {p : Battler → Bool} (hp : ∀ a b, R a b → p b = p a) {l l' : List Battler}
    (h : List.Forall₂ R l l') : l'.findIdx p = l.findIdx p := by
  induction h with
  | nil => rfl
  | cons hab _ ih => simp only [List.findIdx_cons, hp _ _ hab, ih]

theorem modifyActor_both (hid : ∀ a b, R a b → b.dbId = a.dbId) (hf : ∀ a b, R a b → R (f a) (f b))
    (h : List.Forall₂ R r.actors r'.actors) (id : Int) :
    List.Forall₂ R (r.modifyActor id f).actors (r'.modifyActor id f).actors := by
  unfold Roster.modifyActor
  rw [forall₂_findIdx (fun a b hab => by rw [hid a b hab]) h]
  exact forall₂_modify_both hf h _

theorem foldl_modifyActor_both (hid : ∀ a b, R a b → b.dbId = a.dbId)
    (hf : ∀ a b, R a b → R (f a) (f b)) (ids : List Int) (h : List.Forall₂ R r.actors r'.actors) :
    List.Forall₂ R (ids.foldl (fun r id => r.modifyActor id f) r).actors
      (ids.foldl (fun r id => r.modifyActor id f) r').actors := by
  induction ids generalizing r r' with
  | nil => exact h
  | cons id rest ih => exact ih (modifyActor_both hid hf h id)

/-- Two relations that agree on related elements relate the same lists. -/
theorem forall₂_iff_of {P Q : Battler → Battler → Prop} {l l' : List Battler}
    (h : List.Forall₂ R l l') (hPQ : ∀ a b, R a b → (P a b ↔ Q a b)) :
    List.Forall₂ P l l' ↔ List.Forall₂ Q l l' := by
  induction h with
  | nil => simp
  | cons hab _ ih => rw [List.forall₂_cons, List.forall₂_cons, hPQ _ _ hab, ih]

end Both

variable {r r' : Roster}

variable (db condition firstStrike) in
theorem seedGauges_actors_noWorse (hmax : 0 ≤ max) (h : r.Pointwise MadePreemptive r') :
    List.Forall₂ NoWorse (seedGauges r db condition firstStrike max).actors
      (seedGauges r' db condition firstStrike max).actors := by
  have hactors : List.Forall₂ NoWorseOtherwiseSame r.actors r'.actors :=
    h.actors.imp fun _ _ => MadePreemptive.noWorseOtherwiseSame
  have hseeded : List.Forall₂ NoWorseOtherwiseSame
    (seedGauges r db condition firstStrike max).actors
      (seedGauges r' db condition firstStrike max).actors := by
    unfold seedGauges
    dsimp only
    rw [h.party]
    refine foldl_modifyActor_both (fun a b hab => by rw [hab.rest]) (fun a b hab => ?_)
      r.party hactors
    exact seedGauge_noWorseOtherwiseSame hab fun _ => startGauge_actor_le hmax hab.keeps
  exact hseeded.imp fun _ _ => NoWorseOtherwiseSame.toNoWorse

variable (db condition firstStrike) in
theorem seedGauges_enemies_noWorse_iff (hmax : 0 ≤ max) (h : r.Pointwise MadePreemptive r') :
    List.Forall₂ NoWorse (seedGauges r db condition firstStrike max).enemies
        (seedGauges r' db condition firstStrike max).enemies ↔
      (condition = .none → firstStrike = false → 2 ≤ max →
        List.Forall₂ (fun e e' => MayStart db e → e'.preemptive = e.preemptive) r.enemies
          r'.enemies) := by
  rw [seedGauges_enemies, seedGauges_enemies, List.forall₂_map_left_iff, List.forall₂_map_right_iff]
  have hpair (e e' : Battler) (he : MadePreemptive e e') :
      NoWorse (seedGauge db condition firstStrike 0 max max e)
        (seedGauge db condition firstStrike 0 max max e') ↔
        (MayStart db e → condition = .none → firstStrike = false → 2 ≤ max →
          e'.preemptive = e.preemptive) := by
    rw [forall_congr' fun _ : MayStart db e => (startGauge_enemy_le_iff hmax he.keeps).symm]
    refine ⟨fun hworse hstart => ?_,
      fun hle => (seedGauge_noWorseOtherwiseSame he.noWorseOtherwiseSame hle).toNoWorse⟩
    have hgauge := hworse.gauge
    rwa [seedGauge_eq, seedGauge_eq,
      if_pos hstart, if_pos (he.noWorseOtherwiseSame.mayStart_iff.mpr hstart)] at hgauge
  rw [forall₂_iff_of h.enemies hpair]
  by_cases hdecides : condition = .none ∧ firstStrike = false ∧ 2 ≤ max
  · obtain ⟨hnone, hstrike, htwo⟩ := hdecides
    simp only [hnone, hstrike, htwo, true_imp_iff]
  · have htrivial : List.Forall₂ (fun e e' => MayStart db e → condition = .none →
      firstStrike = false → 2 ≤ max → e'.preemptive = e.preemptive) r.enemies r'.enemies :=
      h.enemies.imp fun _ _ _ _ hnone hstrike htwo => absurd ⟨hnone, hstrike, htwo⟩ hdecides
    exact ⟨fun _ hnone hstrike htwo => absurd ⟨hnone, hstrike, htwo⟩ hdecides, fun _ => htrivial⟩

theorem seedGauges_enemies_sameGaugeForSameFlag (h : r.Pointwise MadePreemptive r') :
    List.Forall₂ SameGaugeForSameFlag (seedGauges r db condition firstStrike max).enemies
      (seedGauges r' db condition firstStrike max).enemies := by
  rw [seedGauges_enemies, seedGauges_enemies, List.forall₂_map_left_iff, List.forall₂_map_right_iff]
  exact h.enemies.imp fun _ _ he =>
    seedGauge_sameGaugeForSameFlag he.noWorseOtherwiseSame.mayStart_iff he.noWorseOtherwiseSame.same

/-! ### What is seeded -/

theorem seedGauges_actor? (hparty : r.party.Nodup) {id : Int} (hid : id ∈ r.party) :
    (seedGauges r db condition firstStrike max).actor? id =
      (r.actor? id).map (seedGauge db condition firstStrike max 0 max) := by
  have hkeeps (b : Battler) : (seedGauge db condition firstStrike max 0 max b).dbId = b.dbId := by
    unfold seedGauge
    split <;> rfl
  obtain ⟨place, hplace⟩ := List.mem_iff_getElem?.mp hid
  unfold seedGauges
  dsimp only
  rw [Roster.foldl_modifyActor_eq _ 0]
  exact Roster.modifyEach_actor? (fun _ _ => hkeeps) hparty hplace 0

variable (db condition firstStrike) in
theorem seedGauges_pointwise (hmax : 0 ≤ max) (r : Roster) :
    r.Pointwise (Seeded db max) (seedGauges r db condition firstStrike max) := by
  have hempty : (0 : Int) ≤ 0 ∧ (0 : Int) ≤ max := ⟨Int.le_refl _, hmax⟩
  have hfull : 0 ≤ max ∧ max ≤ max := ⟨hmax, Int.le_refl _⟩
  exact seedGauges_pointwise_of Seeded.refl Seeded.trans (seedGauge_seeded hempty hfull)
    (seedGauge_seeded hfull hempty) r

theorem seedGauges_startsWith (hmax : 0 ≤ max) (hparty : r.party.Nodup) :
    StartsWith db max r (seedGauges r db condition firstStrike max) := by
  have hempty : (0 : Int) ≤ 0 ∧ (0 : Int) ≤ max := ⟨Int.le_refl _, hmax⟩
  have hfull : 0 ≤ max ∧ max ≤ max := ⟨hmax, Int.le_refl _⟩
  refine ⟨seedGauges_pointwise db condition firstStrike hmax r, fun id hid b hb hstart => ?_⟩
  cases id with
  | actor a =>
    refine ⟨_, (seedGauges_actor? hparty (Roster.mem_lines_actor.mp hid)).trans (congrArg _ hb), ?_⟩
    rw [seedGauge_eq, if_pos hstart]
    exact startGauge_mem condition firstStrike b hfull hempty
  | enemy i =>
    have hseeded : (seedGauges r db condition firstStrike max).enemies[i]? =
        some (seedGauge db condition firstStrike 0 max max b) := by
      rw [seedGauges_enemies, List.getElem?_map, show r.enemies[i]? = some b from hb]
      rfl
    refine ⟨_, hseeded, ?_⟩
    rw [seedGauge_eq, if_pos hstart]
    exact startGauge_mem condition firstStrike b hempty hfull

/-- Actors start no lower for being preemptive. Enemies start no lower exactly where a condition or
the first strike decides, where half a gauge is nothing, or where none that may start is made
preemptive. Whose flag is kept starts the same, and all gauges set are within bounds. -/
theorem noWorse_iff (db : Database) (condition : BattleCondition) (firstStrike : Bool)
    (hmax : 1 ≤ max) (hparty : r.party.Nodup) (h : r.Pointwise MadePreemptive r') :
    let seeded := fun r => seedGauges r db condition firstStrike max
    (FavoursAll (seeded r) (seeded r') ↔
      (condition = .none → firstStrike = false → 2 ≤ max →
        List.Forall₂ (fun e e' => MayStart db e → e'.preemptive = e.preemptive) r.enemies
          r'.enemies)) ∧
      List.Forall₂ NoWorse (seeded r).actors (seeded r').actors ∧
        (seeded r).Pointwise SameGaugeForSameFlag (seeded r') ∧
      StartsWith db max r (seeded r) ∧ StartsWith db max r' (seeded r') := by
  intro seeded
  have hmax' : 0 ≤ max := by omega
  have hactors := seedGauges_actors_noWorse db condition firstStrike hmax' h
  have henemies := seedGauges_enemies_noWorse_iff db condition firstStrike hmax' h
  have hkept (r : Roster) : (seeded r).party = r.party :=
    (seedGauges_pointwise db condition firstStrike hmax' r).party
  have hsame : (seeded r').party = (seeded r).party := by rw [hkept, hkept, h.party]
  refine ⟨⟨fun hfavours => henemies.mp hfavours.enemies,
    fun hkinds => ⟨hactors, henemies.mpr hkinds, hsame⟩⟩, hactors,
    ⟨hactors.imp fun _ _ => NoWorse.same, seedGauges_enemies_sameGaugeForSameFlag h, hsame⟩,
    seedGauges_startsWith hmax' hparty, seedGauges_startsWith hmax' (h.party ▸ hparty)⟩

/-- An actor against two enemies, the second of them hidden, each of the three preemptive or not. -/
def rivals (actor seen hidden : Bool) : Roster where
  actors := [.ofActor { id := 1, name := "", preemptive := actor }]
  party := [1]
  enemies :=
    [.ofEnemy 0 { id := 1, name := "", preemptive := seen } { enemyId := 1 },
      .ofEnemy 1 { id := 1, name := "", preemptive := hidden } { enemyId := 1, hidden := true }]

theorem rivals_madePreemptive (actor seen hidden : Bool) :
    (rivals false false false).Pointwise MadePreemptive (rivals actor seen hidden) where
  actors := .cons ⟨rfl, nofun⟩ .nil
  enemies := .cons ⟨rfl, nofun⟩ (.cons ⟨rfl, nofun⟩ .nil)
  party := rfl

/-- The actor starts with a full gauge for being preemptive, and the hidden enemy keeps its
gauge. -/
theorem noWorse_iff_of_rivals :
    (1 : Int) ≤ 1000 ∧ (rivals false false false).party.Nodup ∧
      (rivals false false false).Pointwise MadePreemptive (rivals true false true) ∧
      FavoursAll (seedGauges (rivals false false false) {} .none false 1000)
        (seedGauges (rivals true false true) {} .none false 1000) ∧
      (seedGauges (rivals false false false) {} .none false 1000).actors.map (·.gauge) = [500] ∧
      (seedGauges (rivals true false true) {} .none false 1000).actors.map (·.gauge) = [1000] := by
  have hmax : (1 : Int) ≤ 1000 := by decide
  have hparty : (rivals false false false).party.Nodup := by decide
  have hmade := rivals_madePreemptive true false true
  refine ⟨hmax, hparty, hmade, ?_, by decide, by decide⟩
  refine (noWorse_iff {} .none false hmax hparty hmade).1.mpr fun _ _ _ => ?_
  have hunseen :
      ¬MayStart {} (.ofEnemy 1 { id := 1, name := "" } { enemyId := 1, hidden := true }) := by
    decide
  exact .cons (fun _ => rfl) (.cons (fun hstart => absurd hstart hunseen) .nil)

/-- The enemy that is seen starts with an empty gauge for being preemptive, and halfway without. -/
theorem not_favoursAll_of_preemptive_enemy :
    (1 : Int) ≤ 1000 ∧ (rivals false false false).party.Nodup ∧
      (rivals false false false).Pointwise MadePreemptive (rivals false true false) ∧
      ¬FavoursAll (seedGauges (rivals false false false) {} .none false 1000)
        (seedGauges (rivals false true false) {} .none false 1000) := by
  refine ⟨by decide, by decide, rivals_madePreemptive false true false, fun hfavours => ?_⟩
  have hgauge := (List.forall₂_cons.mp hfavours.enemies).1.gauge
  exact absurd hgauge (by decide)

end Formation

end ActiveBattle
