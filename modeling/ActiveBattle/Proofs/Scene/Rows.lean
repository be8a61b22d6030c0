import ActiveBattle.Proofs.Roster.Ranks
import ActiveBattle.Proofs.Scene.Alike
import ActiveBattle.Scene.Window

/-!
# Changing rows

A member of the party that changes rows goes where it belongs in the other one. So both ways to tell
where somebody stands agree, after everyone is placed and after every change of rows
(`battlePosition_eq_position`).
-/

namespace ActiveBattle

set_option autoImplicit false

/-- The battler stands where it stood. -/
structure Battler.Stands (b b' : Battler) : Prop where
  dbId : b'.dbId = b.dbId
  row : b'.row = b.row
  position : b'.position = b.position

theorem Battler.Marked.stands {b b' : Battler} (h : Marked b b') : Stands b b' := by
  rw [h.rest]
  exact ⟨rfl, rfl, rfl⟩

namespace Scene

variable {σ : Type}

theorem enqueue_stands (s : Scene σ) (a : Action) :
    s.roster.Pointwise Battler.Stands (s.enqueue a).roster :=
  (s.enqueue_marks a).imp fun _ _ h => h.stands

theorem enqueue_condition (s : Scene σ) (a : Action) : (s.enqueue a).condition = s.condition := by
  rcases s.enqueue_cases a with ⟨-, h⟩ | ⟨b, -, ⟨-, h⟩ | ⟨-, h⟩⟩
  · rw [h]
  · rw [h]
    rfl
  · rw [h]
    rfl

/-- How many members of the party stand in front. -/
def frontCount (s : Scene σ) : Nat := (s.roster.partyMembers.filter (·.row = .front)).length

/-- The member in the other row, where it belongs there. -/
def inOtherRow (s : Scene σ) (actor : Int) (a : Battler) : Battler :=
  { a with
    row := a.row.swapped
    position := Formation.actorPosition
      ((s.roster.partyIndex? actor).getD 0) a.row.swapped s.condition }

/-- The last one in front stays there, and nobody moves. Anybody else goes to the other row. -/
theorem selectRow_cases {s : Scene σ} {actor : Int} {a : Battler}
    (ha : s.roster.actor? actor = some a) :
    if a.row = .front ∧ s.frontCount < 2 then (s.selectRow actor).roster = s.roster
    else (s.selectRow actor).condition = s.condition ∧ (s.selectRow actor).roster.party =
      s.roster.party ∧
      ∃ a', (s.selectRow actor).roster.actor? actor = some a' ∧
        (s.inOtherRow actor a).Stands a' := by
  let t := (s.playSystem .decision).modifyRoster (·.modifyActor actor (s.inOtherRow actor))
  have hrow : s.selectRow actor = if a.row = .front ∧ s.frontCount < 2 then s.playSystem .buzzer
      else t.enqueue (.idle (.actor actor)) := by
    unfold selectRow
    rw [ha]
    rfl
  have hmoved : t.roster.actor? actor = some (s.inOtherRow actor a) := by
    have h := s.roster.modifyActor_actor? actor actor (f := s.inOtherRow actor) fun _ => rfl
    rw [if_pos rfl, ha] at h
    exact h
  rw [hrow]
  split
  · rfl
  · have hstands := t.enqueue_stands (.idle (.actor actor))
    have hfound : t.roster.battler? (.actor actor) = some (s.inOtherRow actor a) := hmoved
    exact ⟨t.enqueue_condition _, hstands.party,
      hstands.exists_battler? (fun _ _ h => h.dbId) hfound⟩

end Scene

open Formation

/-- After the troop and the party are placed, every member of the party and every enemy stands where
it belongs, and nobody else belongs anywhere. Whenever a member of the party changes rows, it stands
where it belongs again. -/
theorem battlePosition_eq_position {σ : Type} {r : Roster} {slots : List Point}
    (hparty : r.party.Nodup) (hknown : ∀ id ∈ r.party, (r.actor? id).isSome = true)
    (hslots : r.enemies.length ≤ slots.length) (db : Database) (condition : BattleCondition) :
    let placed := placeActors (placeEnemies r slots condition) db condition
    (∀ id ∈ r.party, ∃ a, placed.actor? id = some a ∧
        battlePosition placed (.actor id) slots condition = some a.position) ∧
      (∀ place < r.enemies.length, ∃ e, placed.enemies[place]? = some e ∧
        battlePosition placed (.enemy place) slots condition = some e.position) ∧
      (∀ id, id ∉ r.party → battlePosition placed (.actor id) slots condition = none) ∧
      (∀ place, r.enemies.length ≤ place →
        battlePosition placed (.enemy place) slots condition = none) ∧
      ∀ (s : Scene σ) (id : Int) (a : Battler), id ∈ s.roster.party → s.roster.actor? id = some a →
        if a.row = .front ∧ s.frontCount < 2 then (s.selectRow id).roster = s.roster
        else ∃ a', (s.selectRow id).roster.actor? id = some a' ∧ a'.row = a.row.swapped ∧
          battlePosition (s.selectRow id).roster (.actor id) slots (s.selectRow id).condition =
            some a'.position := by
  intro placed
  have hmembers : placed.party = r.party :=
    placeActors_party (placeEnemies r slots condition) db condition
  have henemies : placed.enemies = (placeEnemies r slots condition).enemies :=
    placeActors_enemies _ db condition
  have hlength : placed.enemies.length = r.enemies.length := by
    rw [henemies]
    exact List.length_mapIdx
  refine ⟨fun id hid => ?_, fun place hplace => ?_, fun id hid => ?_, fun place hplace => ?_,
    fun s id a hid ha => ?_⟩
  · obtain ⟨place, hplace⟩ := List.mem_iff_getElem?.mp hid
    obtain ⟨a, ha⟩ := Option.isSome_iff_exists.mp (hknown id hid)
    have hfound := placeActors_actor? (placeEnemies r slots condition) db condition hparty hplace
    rw [show (placeEnemies r slots condition).actor? id = some a from ha, Option.map_some] at hfound
    refine ⟨_, hfound, ?_⟩
    rw [battlePosition_placeActors (r := placeEnemies r slots condition) hparty hid, hfound,
      Option.map_some]
  · have hfound := List.getElem?_eq_getElem (hlength.symm ▸ hplace)
    refine ⟨_, hfound, ?_⟩
    have hbelongs := battlePosition_placeEnemies (Nat.lt_of_lt_of_le hplace hslots) r condition
    rw [battlePosition_enemy, ← henemies, ← battlePosition_enemy, hfound,
      Option.map_some] at hbelongs
    exact hbelongs
  · exact battlePosition_of_not_mem (hmembers ▸ hid) slots condition
  · rw [battlePosition_enemy, List.getElem?_eq_none (hlength ▸ hplace)]
    rfl
  · have hcases := s.selectRow_cases ha
    split
    · rename_i hlast
      rw [if_pos hlast] at hcases
      exact hcases
    · rename_i hfree
      rw [if_neg hfree] at hcases
      obtain ⟨hcondition, hsame, a', ha', hstands⟩ := hcases
      refine ⟨a', ha', hstands.row, ?_⟩
      obtain ⟨place, hplace⟩ := Option.isSome_iff_exists.mp (Roster.partyIndex?_isSome hid)
      have hindex : (s.selectRow id).roster.partyIndex? id = some place := by
        unfold Roster.partyIndex?
        rw [hsame]
        exact hplace
      rw [battlePosition_actor, hindex, ha', Option.bind_some, Option.map_some, hstands.position,
        hstands.row, hcondition]
      unfold Scene.inOtherRow
      rw [hplace]
      rfl

/-! ### Two of three actors against a hidden and a visible enemy -/

namespace Lineup

def database : Database where
  actors := [{ id := 1, name := "" }, { id := 2, name := "" }, { id := 3, name := "" }]
  enemies := [{ id := 1, name := "" }]

def setup : BattleSetup where
  party := [2, 1]
  troop :=
    { members :=
        [{ enemyId := 1, position := ⟨40, 100⟩, hidden := true },
          { enemyId := 1, position := ⟨90, 120⟩ }] }

def scene : Scene InstantAssets := .ofSetup {} database setup {}

def placed : Roster :=
  placeActors (placeEnemies scene.roster scene.slots .pincers) database .pincers

end Lineup

theorem battlePosition_eq_position_of_lineup :
    Lineup.scene.roster.party.Nodup ∧
      (∀ id ∈ Lineup.scene.roster.party, (Lineup.scene.roster.actor? id).isSome = true) ∧
      Lineup.scene.roster.enemies.length ≤ Lineup.scene.slots.length ∧
      (∃ a, Lineup.placed.actor? 2 = some a ∧
        battlePosition Lineup.placed (.actor 2) Lineup.scene.slots .pincers = some a.position) ∧
      (∃ e, Lineup.placed.enemies[0]? = some e ∧
        battlePosition Lineup.placed (.enemy 0) Lineup.scene.slots .pincers = some e.position) ∧
      battlePosition Lineup.placed (.actor 3) Lineup.scene.slots .pincers = none ∧
      battlePosition Lineup.placed (.enemy 2) Lineup.scene.slots .pincers = none ∧
      ∃ a, (Lineup.scene.selectRow 1).roster.actor? 1 = some a ∧ a.row = .back ∧
        battlePosition (Lineup.scene.selectRow 1).roster (.actor 1) Lineup.scene.slots
          (Lineup.scene.selectRow 1).condition = some a.position := by
  have hparty : Lineup.scene.roster.party.Nodup := by decide
  have hknown : ∀ id ∈ Lineup.scene.roster.party,
    (Lineup.scene.roster.actor? id).isSome = true := by decide
  have hslots : Lineup.scene.roster.enemies.length ≤ Lineup.scene.slots.length := by decide
  obtain ⟨hmembers, henemies, hothers, hnobody, hrows⟩ :=
    battlePosition_eq_position (σ := InstantAssets) hparty hknown hslots Lineup.database .pincers
  exact ⟨hparty, hknown, hslots, hmembers 2 (by decide), henemies 0 (by decide),
    hothers 3 (by decide),
    hnobody 2 (by decide), hrows Lineup.scene 1 (.ofActor { id := 1, name := "" }) (by decide) rfl⟩

end ActiveBattle
