import Mathlib.Data.List.Nodup
import ActiveBattle.Proofs.Roster.Filling
import ActiveBattle.Proofs.Roster.Goods
import ActiveBattle.Proofs.Roster.Setup

/-!
# What a frame of gauge filling does

One frame charges the gauges of those who may fill theirs, in proportion to their agility against
the mean before the frame, and changes nothing else. It tells who gained how much, the party in
order and then the enemies.
-/

namespace ActiveBattle

set_option autoImplicit false

namespace Roster

/-- Visible and alive, under no state that forbids acting for good, and with room in the gauge. -/
structure MayFill (db : Database) (max : Int) (b : Battler) : Prop where
  seen : b.hidden = false
  alive : b.hasState deathState = false
  recovers : ∀ s ∈ b.states, ∀ d, db.state? s.id = some d → d.restriction = .doNothing →
    0 < d.autoReleaseTurns
  room : b.gauge < max

/-- The gauge after a frame: the share of the frame in proportion to agility, at least a point, up
to what it holds. -/
def charged (max fillFrames average : Int) (b : Battler) : Int :=
  min max (b.gauge + Max.max 1 (Max.max 1 (max / fillFrames) * Max.max 1 b.stats.agility / average))

variable {db : Database} {max fillFrames base average : Int} {b : Battler} {r : Roster}

theorem canFill_iff : canFill db max b = true ↔ MayFill db max b := by
  simp only [canFill, Battler.canActOrRecoverable, Battler.isGaugeFull, Battler.stateDefs,
    Bool.and_eq_true,
    Bool.not_eq_true', List.all_eq_true, List.mem_filterMap, Bool.or_eq_true, decide_eq_true_eq,
    decide_eq_false_iff_not]
  constructor
  · rintro ⟨⟨hseen, halive, hrecovers⟩, hroom⟩
    refine ⟨hseen, halive, fun s hs d hd hidle => ?_, by omega⟩
    exact (hrecovers d ⟨s, hs, hd⟩).resolve_left (by simp [hidle])
  · intro h
    refine ⟨⟨h.seen, h.alive, ?_⟩, by have := h.room; omega⟩
    rintro d ⟨s, hs, hd⟩
    by_cases hidle : d.restriction = .doNothing
    · exact .inr (h.recovers s hs d hd hidle)
    · exact .inl hidle

instance : DecidablePred (MayFill db max) := fun _ => decidable_of_iff _ canFill_iff

/-- What fits in the gauge of the share of a frame. -/
theorem charged_eq (hmax : 1 ≤ max) (hfill : 1 ≤ fillFrames) (b : Battler) :
    min (b.gauge + gaugeGain (baseGain max fillFrames) average b.stats.agility) max =
      charged max fillFrames average b := by
  have hbase : baseGain max fillFrames = Max.max 1 (max / fillFrames) := by
    unfold baseGain
    rw [Int.max_eq_left hfill, Int.tdiv_eq_ediv_of_nonneg (by omega), Int.max_comm]
  have hshare : 0 ≤ Max.max 1 (max / fillFrames) * Max.max 1 b.stats.agility :=
    Int.mul_nonneg (by omega) (by omega)
  unfold gaugeGain charged
  rw [hbase, Int.max_comm b.stats.agility, Int.tdiv_eq_ediv_of_nonneg hshare,
    Int.max_comm _ 1, Int.min_comm]

/-- A gauge that is charged grows, and never past what it holds. -/
theorem MayFill.charged_mem (h : MayFill db max b) (fillFrames average : Int) :
    b.gauge < charged max fillFrames average b ∧ charged max fillFrames average b ≤ max := by
  have hroom := h.room
  unfold charged
  omega

/-! ### Who is charged -/

theorem lines_nodup (hparty : r.party.Nodup) : (r.partyIds ++ r.enemyIds).Nodup := by
  unfold partyIds enemyIds
  rw [List.nodup_append]
  refine ⟨hparty.map fun _ _ => BattlerId.actor.inj,
    List.nodup_range.map fun _ _ => BattlerId.enemy.inj, ?_⟩
  intro id hid other hother heq
  obtain ⟨a, -, rfl⟩ := List.mem_map.mp hid
  obtain ⟨i, -, rfl⟩ := List.mem_map.mp hother
  cases heq

theorem mem_lines_actor {a : Int} : BattlerId.actor a ∈ r.partyIds ++ r.enemyIds ↔ a ∈ r.party := by
  simp [partyIds, enemyIds]

theorem mem_lines_enemy {i : Nat} :
    BattlerId.enemy i ∈ r.partyIds ++ r.enemyIds ↔ i < r.enemies.length := by
  simp [partyIds, enemyIds]

/-- Filling by different ids charges whom they name, once. -/
theorem fillGauges_battler?_of_nodup {ids : List BattlerId} (hids : ids.Nodup) (id : BattlerId) :
    (fillGauges db max base average ids r).2.battler? id =
      (r.battler? id).map fun b => if id ∈ ids then filled db max base average b else b := by
  rw [fillGauges_battler?, hids.count]
  split
  · rfl
  · rfl

/-- A roster is known from its parts without battlers, the ids of its actors, and who is found under
each id. -/
theorem eq_of_battler? {r' : Roster} (hids : (r.actors.map (·.dbId)).Nodup)
    (hsame : r'.actors.map (·.dbId) = r.actors.map (·.dbId)) (hbare : r'.bare = r.bare)
    (hfound : ∀ id, r'.battler? id = r.battler? id) : r' = r := by
  have hfilter {q : Roster} (hq : (q.actors.map (·.dbId)).Nodup) :
      (q.actors.map (·.dbId)).filterMap q.actor? = q.actors := by
    rw [List.filterMap_map]
    exact (List.filterMap_congr fun a ha => actor?_of_mem hq ha).trans List.filterMap_some
  have hactors : r'.actors = r.actors := by
    rw [← hfilter (hsame ▸ hids), ← hfilter hids, hsame]
    exact List.filterMap_congr fun a _ => hfound (.actor a)
  have henemies : r'.enemies = r.enemies := List.ext_getElem? fun i => hfound (.enemy i)
  cases r
  cases r'
  simp only [bare, Roster.mk.injEq] at hbare hactors henemies ⊢
  exact ⟨hactors, hbare.2.1, henemies, hbare.2.2.2⟩

/-- The battler after a frame: charged, if it may fill its gauge. -/
def recharged (db : Database) (max fillFrames average : Int) (b : Battler) : Battler :=
  if MayFill db max b then { b with gauge := charged max fillFrames average b } else b

theorem filled_eq_recharged (hmax : 1 ≤ max) (hfill : 1 ≤ fillFrames) (b : Battler) :
    filled db max (baseGain max fillFrames) average b = recharged db max fillFrames average b := by
  unfold filled recharged
  rw [charged_eq hmax hfill]
  exact if_congr canFill_iff rfl rfl

/-- The roster after a frame: the party and the enemies charged, each where it may be. -/
def afterFrame (r : Roster) (db : Database) (max fillFrames : Int) : Roster :=
  { r with
    actors := r.actors.map fun a =>
      if a.dbId ∈ r.party then recharged db max fillFrames r.averageAgility a else a
    enemies := r.enemies.map (recharged db max fillFrames r.averageAgility) }

theorem dbId_of_recharged (p : Prop) [Decidable p] (b : Battler) :
    (if p then recharged db max fillFrames average b else b).dbId = b.dbId := by
  unfold recharged
  split
  · split
    · rfl
    · rfl
  · rfl

theorem afterFrame_actor? (r : Roster) (db : Database) (max fillFrames : Int) (id : Int) :
    (r.afterFrame db max fillFrames).actor? id =
      (r.actor? id).map fun a =>
        if id ∈ r.party then recharged db max fillFrames r.averageAgility a else a := by
  unfold actor? afterFrame
  rw [List.find?_map]
  have hsame : (r.actors.find? fun a => decide ((if a.dbId ∈ r.party then
      recharged db max fillFrames r.averageAgility a else a).dbId = id)) =
        r.actors.find? (·.dbId = id) := by
    simp only [dbId_of_recharged]
  refine (congrArg _ hsame).trans (Option.map_congr fun a ha => ?_)
  have hid : a.dbId = id := by simpa using List.find?_some ha
  rw [hid]

theorem afterFrame_battler? (r : Roster) (db : Database) (max fillFrames : Int) (id : BattlerId) :
    (r.afterFrame db max fillFrames).battler? id =
      (r.battler? id).map fun b =>
        if id ∈ r.partyIds ++ r.enemyIds then recharged db max fillFrames r.averageAgility
          b else b := by
  cases id with
  | actor a =>
    simp only [mem_lines_actor]
    exact r.afterFrame_actor? db max fillFrames a
  | enemy i =>
    refine (List.getElem?_map ..).trans (Option.map_congr fun b hb => ?_)
    rw [if_pos (mem_lines_enemy.mpr (List.getElem?_eq_some_iff.mp hb).1)]

/-- A frame changes nothing but these gauges. -/
theorem updateGauges_snd (hmax : 1 ≤ max) (hfill : 1 ≤ fillFrames) (hparty : r.party.Nodup)
    (hids : (r.actors.map (·.dbId)).Nodup) :
    (r.updateGauges db max fillFrames).2 = r.afterFrame db max fillFrames := by
  have hkept : (r.afterFrame db max fillFrames).actors.map (·.dbId) = r.actors.map (·.dbId) := by
    refine (List.map_map ..).trans (List.map_congr_left fun a _ => ?_)
    exact dbId_of_recharged _ a
  have hsame : (r.updateGauges db max fillFrames).2.actors.map (·.dbId) = r.actors.map (·.dbId) :=
    (r.updateGauges_arranged db max fillFrames).map_dbId fun _ _ h => by rw [h.rest]
  refine eq_of_battler? (hkept ▸ hids) (hsame.trans hkept.symm) (fillGauges_bare ..) fun id => ?_
  rw [afterFrame_battler?]
  unfold updateGauges
  rw [fillGauges_battler?_of_nodup (lines_nodup hparty)]
  refine Option.map_congr fun b _ => ?_
  rw [filled_eq_recharged hmax hfill]

/-! ### What is told -/

/-- Who may fill its gauge, with what the frame adds to it. -/
def gain? (r : Roster) (db : Database) (max fillFrames : Int) (id : BattlerId) :
    Option (BattlerId × Int) :=
  ((r.battler? id).filter fun b => MayFill db max b).map fun b =>
    (id, charged max fillFrames r.averageAgility b - b.gauge)

theorem fillGauges_fst {ids : List BattlerId} (hids : ids.Nodup) (r : Roster) :
    (fillGauges db max base average ids r).1 =
      ids.filterMap fun id => ((r.battler? id).filter (canFill db max)).map fun b =>
        (id, (filled db max base average b).gauge - b.gauge) := by
  induction ids generalizing r with
  | nil => rfl
  | cons id rest ih =>
    obtain ⟨hfirst, hrest⟩ := List.nodup_cons.mp hids
    unfold fillGauges
    split
    · rename_i hmissing
      rw [ih hrest, List.filterMap_cons, hmissing]
      rfl
    · rename_i b hb
      split
      · rename_i hfill
        have hgauge : (filled db max base average b).gauge =
            min (b.gauge + gaugeGain base average b.stats.agility) max := by
          rw [filled, if_pos hfill]
        rw [List.filterMap_cons, hb, Option.filter_some, if_pos hfill, Option.map_some, hgauge]
        dsimp only
        rw [ih hrest]
        refine congrArg (_ :: ·) (List.filterMap_congr fun other hother => ?_)
        have hkept (gauge : Int) : (r.modify id ({ · with gauge := gauge })).battler? other =
            r.battler? other :=
          battler?_modify_of_ne (fun _ _ => rfl) (ne_of_mem_of_not_mem hother hfirst)
        rw [hkept]
      · rename_i hfill
        rw [ih hrest, List.filterMap_cons, hb, Option.filter_some, if_neg hfill]
        rfl

theorem updateGauges_fst (hmax : 1 ≤ max) (hfill : 1 ≤ fillFrames) (hparty : r.party.Nodup) :
    (r.updateGauges db max fillFrames).1 =
      (r.partyIds ++ r.enemyIds).filterMap (r.gain? db max fillFrames) := by
  have hiff : canFill db max = fun b => decide (MayFill db max b) := by
    funext b
    rw [Bool.eq_iff_iff, canFill_iff, decide_eq_true_iff]
  unfold updateGauges gain?
  rw [fillGauges_fst (lines_nodup hparty), hiff]
  refine List.filterMap_congr fun id _ => Option.map_congr fun b hb => ?_
  have hmay : MayFill db max b := of_decide_eq_true (Option.filter_eq_some_iff.mp hb).2
  rw [filled_eq_recharged hmax hfill, recharged, if_pos hmay]

theorem gain?_fst {id : BattlerId} {p : BattlerId × Int}
    (h : r.gain? db max fillFrames id = some p) : p.1 = id := by
  obtain ⟨b, -, rfl⟩ := Option.map_eq_some_iff.mp h
  rfl

/-- Nobody is told of twice. -/
theorem gains_nodup (hparty : r.party.Nodup) :
    (((r.partyIds ++ r.enemyIds).filterMap (r.gain? db max fillFrames)).map Prod.fst).Nodup := by
  rw [List.map_filterMap]
  refine (lines_nodup hparty).filterMap fun id other told hid hother => ?_
  obtain ⟨p, hp, rfl⟩ := Option.map_eq_some_iff.mp hid
  obtain ⟨q, hq, hpq⟩ := Option.map_eq_some_iff.mp hother
  rw [← gain?_fst hp, ← gain?_fst hq, hpq]

/-! ### Frame after frame -/

/-- The roster after as many frames as are given, each with its database and its frames to fill a
gauge. -/
def afterFrames (r : Roster) (max : Int) (frames : List (Database × Int)) : Roster :=
  frames.foldl (fun r frame => (r.updateGauges frame.1 max frame.2).2) r

/-- The gauge alone differs. It has not shrunk, and not grown past what it holds. -/
structure Charges (max : Int) (b b' : Battler) : Prop where
  rest : b' = { b with gauge := b'.gauge }
  grows : b.gauge ≤ b'.gauge
  bounded : b.gauge ≤ max → b'.gauge ≤ max

theorem Charges.refl (b : Battler) : Charges max b b := ⟨rfl, Int.le_refl _, id⟩

theorem Charges.trans (a b c : Battler) (h : Charges max a b) (h' : Charges max b c) :
    Charges max a c :=
  ⟨by rw [h'.rest, h.rest], Int.le_trans h.grows h'.grows,
    fun hroom => h'.bounded (h.bounded hroom)⟩

theorem updateGauges_charges (r : Roster) (db : Database) (max fillFrames : Int) :
    r.Pointwise (Charges max) (r.updateGauges db max fillFrames).2 := by
  refine fillGauges_pointwise Charges.refl Charges.trans db max _ _ (fun b hfill => ?_) _ r
  have hroom := (canFill_iff.mp hfill).room
  have hgain : 1 ≤ gaugeGain (baseGain max fillFrames) r.averageAgility b.stats.agility :=
    Int.le_max_right _ _
  refine ⟨rfl, ?_, ?_⟩
  · dsimp only
    omega
  · dsimp only
    omega

theorem afterFrames_charges (r : Roster) (max : Int) (frames : List (Database × Int)) :
    r.Pointwise (Charges max) (r.afterFrames max frames) :=
  Pointwise.foldl Charges.refl Charges.trans
    (fun r (frame : Database × Int) => (r.updateGauges frame.1 max frame.2).2)
    (fun r frame => r.updateGauges_charges frame.1 max frame.2) frames r

theorem afterFrames_append (r : Roster) (max : Int) (frames more : List (Database × Int)) :
    r.afterFrames max (frames ++ more) = (r.afterFrames max frames).afterFrames max more :=
  List.foldl_append

/-- A frame charges the party and the enemies, those and only those who may fill their gauges, and
changes nothing else. It tells each of them once, the party in order and then the enemies, with what
was added. And frame after frame no gauge shrinks, and none grows past what it holds. -/
theorem updateGauges_eq (db : Database) (hmax : 1 ≤ max) (hfill : 1 ≤ fillFrames)
    (hparty : r.party.Nodup) (hids : (r.actors.map (·.dbId)).Nodup)
    (hgauges : r.All (·.gauge ≤ max)) :
    1 ≤ r.averageAgility ∧
      (∀ b, MayFill db max b → b.gauge < charged max fillFrames r.averageAgility b ∧
        charged max fillFrames r.averageAgility b ≤ max) ∧
      (r.updateGauges db max fillFrames).2 = r.afterFrame db max fillFrames ∧
      (r.updateGauges db max fillFrames).1 =
        (r.partyIds ++ r.enemyIds).filterMap (r.gain? db max fillFrames) ∧
      ((r.updateGauges db max fillFrames).1.map Prod.fst).Nodup ∧
      ∀ frames more, (r.afterFrames max frames).All (·.gauge ≤ max) ∧
        (r.afterFrames max frames).Pointwise (fun b b' => b.gauge ≤ b'.gauge)
          (r.afterFrames max (frames ++ more)) := by
  have hafter : (r.updateGauges db max fillFrames).2 = _ := updateGauges_snd hmax hfill hparty hids
  have htold : (r.updateGauges db max fillFrames).1 = _ := updateGauges_fst hmax hfill hparty
  refine ⟨r.averageAgility_pos, fun b h => h.charged_mem fillFrames _, hafter, htold, ?_,
    fun frames more => ⟨?_, ?_⟩⟩
  · rw [htold]
    exact gains_nodup hparty
  · exact hgauges.of_pointwise ((r.afterFrames_charges max frames).imp fun _ _ h => h.bounded)
  · rw [afterFrames_append]
    exact (Roster.afterFrames_charges _ max more).imp fun _ _ h => h.grows

/-- Two of three actors are in the party. Of the enemies one is unseen, one dead, one under a sleep
that lasts, one under a sleep that ends, one almost charged and one fully. -/
def crowd : Roster where
  actors :=
    [{ Battler.ofActor { id := 1, name := "" } with gauge := 40 },
      .ofActor { id := 2, name := "", stats := { agility := 40 } },
        .ofActor { id := 3, name := "" }]
  party := [2, 1]
  enemies :=
    let enemy := Battler.ofEnemy 0 { id := 1, name := "" } { enemyId := 1 }
    [{ enemy with hidden := true }, enemy.kill, { enemy with states := [⟨4, 0⟩] },
      { enemy with states := [⟨5, 0⟩] }, { enemy with gauge := 96 }, { enemy with gauge := 100 }]

def sleeps : Database where
  states :=
    [{ id := 4, name := "", restriction := .doNothing },
      { id := 5, name := "", restriction := .doNothing, autoReleaseTurns := 3 }]

theorem updateGauges_eq_of_crowd :
    (1 : Int) ≤ 100 ∧ (1 : Int) ≤ 10 ∧ crowd.party.Nodup ∧ (crowd.actors.map (·.dbId)).Nodup ∧
      crowd.All (·.gauge ≤ 100) ∧
      (crowd.updateGauges sleeps 100 10).1 =
        [(.actor 2, 17), (.actor 1, 8), (.enemy 3, 8), (.enemy 4, 4)] ∧
      (crowd.updateGauges sleeps 100 10).2.actors.map (·.gauge) = [48, 17, 0] ∧
      (crowd.updateGauges sleeps 100 10).2.enemies.map (·.gauge) = [0, 0, 0, 8, 100, 100] := by
  have hmax : (1 : Int) ≤ 100 := by decide
  have hfill : (1 : Int) ≤ 10 := by decide
  have hparty : crowd.party.Nodup := by decide
  have hids : (crowd.actors.map (·.dbId)).Nodup := by decide
  have hgauges : crowd.All (·.gauge ≤ 100) := by unfold All; decide
  obtain ⟨-, -, hafter, htold, -⟩ := updateGauges_eq sleeps hmax hfill hparty hids hgauges
  rw [hafter, htold]
  exact ⟨hmax, hfill, hparty, hids, hgauges, by decide, by decide, by decide⟩

end Roster

end ActiveBattle
