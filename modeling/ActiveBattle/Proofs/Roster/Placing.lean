import ActiveBattle.Proofs.Roster.Arranging

/-!
# Troop slots

A troop has a slot for each of its members, but an enemy only for those the database knows. The
slots are handed out by place: the enemy at a place gets the slot of the member at that place of the
troop (`getElem?_arrange`), which need not be the member it was built from (`getElem?_enemiesOf`).
-/

namespace ActiveBattle

set_option autoImplicit false

namespace Roster

/-- The members of a troop the database has an enemy for. -/
def knownMembers (db : Database) (members : List TroopMember) : List TroopMember :=
  members.filter fun member => (db.enemy? member.enemyId).isSome

/-- What is built from a member of a troop for a place of the roster. -/
def built? (db : Database) (place : Nat) (member : TroopMember) : Option Battler :=
  (db.enemy? member.enemyId).map fun d => .ofEnemy place d member

/-- Each enemy is built from the known member at its place. -/
theorem getElem?_enemiesOf (db : Database) (index : Nat) (members : List TroopMember)
    (place : Nat) :
    (enemiesOf db index members)[place]? =
      ((knownMembers db members)[place]?).bind (built? db (index + place)) := by
  induction members generalizing index place with
  | nil => rfl
  | cons member rest ih =>
    unfold enemiesOf knownMembers
    split
    · rename_i d hd
      rw [List.filter_cons_of_pos (by simp [hd])]
      cases place with
      | zero => simp [built?, hd]
      | succ place =>
        rw [List.getElem?_cons_succ, List.getElem?_cons_succ, ih (index + 1) place,
          Nat.add_right_comm, Nat.add_assoc]
        rfl
    · rename_i hd
      rw [List.filter_cons_of_neg (by simp [hd]), ih index place]
      rfl

theorem length_enemiesOf (db : Database) (index : Nat) (members : List TroopMember) :
    (enemiesOf db index members).length = (knownMembers db members).length := by
  induction members generalizing index with
  | nil => rfl
  | cons member rest ih =>
    unfold enemiesOf knownMembers
    split
    · rename_i d hd
      rw [List.filter_cons_of_pos (by simp [hd]), List.length_cons, List.length_cons, ih]
      rfl
    · rename_i hd
      rw [List.filter_cons_of_neg (by simp [hd])]
      exact ih index

/-- Known members are built. -/
theorem built?_isSome {db : Database} {members : List TroopMember} {place : Nat}
    {member : TroopMember} (h : (knownMembers db members)[place]? = some member) :
    (built? db place member).isSome = true := by
  have hknown := (List.mem_filter.mp (List.mem_of_getElem? h)).2
  rw [built?, Option.isSome_map]
  exact hknown

end Roster

namespace Formation

/-- The layout index of the enemy at a place: visible enemies are counted among themselves. -/
def layoutIndex (enemies : List Battler) (place : Nat) : Nat :=
  if enemies[place]?.any (·.hidden) then place else (enemies.take place).countP (!·.hidden)

theorem getElem?_layoutFrom (enemies : List Battler) (first visible place : Nat) :
    (layoutFrom first visible enemies)[place]? = (enemies[place]?).map fun e =>
      if e.hidden then first + place else visible + (enemies.take place).countP (!·.hidden) := by
  induction enemies generalizing first visible place with
  | nil => rfl
  | cons e rest ih =>
    unfold layoutFrom
    cases place with
    | zero => cases hhidden : e.hidden <;> simp [hhidden]
    | succ place =>
      cases hhidden : e.hidden <;>
        simp [hhidden, ih, Nat.add_assoc, Nat.add_comm 1]

theorem getD_layoutIndices {enemies : List Battler} {place : Nat} (h : place < enemies.length) :
    (layoutIndices enemies).getD place 0 = layoutIndex enemies place := by
  rw [List.getD_eq_getElem?_getD, layoutIndices, getElem?_layoutFrom, layoutIndex,
    List.getElem?_eq_getElem h]
  simp

/-- Who is hidden decides the layout. -/
theorem layoutIndex_congr {enemies enemies' : List Battler}
    (h : enemies'.map (·.hidden) = enemies.map (·.hidden)) (place : Nat) :
    layoutIndex enemies' place = layoutIndex enemies place := by
  have hany (l : List Battler) : l[place]?.any (·.hidden) = (l.map (·.hidden))[place]?.any id := by
    rw [List.getElem?_map, Option.any_map]
    rfl
  have hcount (l : List Battler) :
      (l.take place).countP (!·.hidden) = ((l.map (·.hidden)).take place).countP (!·) := by
    rw [← List.map_take, List.countP_map]
    rfl
  unfold layoutIndex
  rw [hany, hany, hcount, hcount, h]

section Enemies

variable (r : Roster) (db : Database) (condition : BattleCondition)

theorem placeActorsFrom_enemies (index : Nat) (ids : List Int) :
    (placeActorsFrom condition index ids r).enemies = r.enemies := by
  induction ids generalizing index r with
  | nil => rfl
  | cons id rest ih => exact (ih _ (index + 1)).trans rfl

theorem foldl_modifyActor_enemies (ids : List Int) (f : Battler → Battler) :
    (ids.foldl (fun r id => r.modifyActor id f) r).enemies = r.enemies := by
  induction ids generalizing r with
  | nil => rfl
  | cons id rest ih => exact (ih _).trans rfl

theorem placeActors_enemies : (placeActors r db condition).enemies = r.enemies := by
  unfold placeActors
  dsimp only
  rw [placeActorsFrom_enemies]
  split
  · rfl
  · exact foldl_modifyActor_enemies r r.party _

theorem seedGauges_enemies (firstStrike : Bool) (max : Int) :
    (seedGauges r db condition firstStrike max).enemies =
      r.enemies.map (seedGauge db condition firstStrike 0 max max) :=
  foldl_modifyActor_enemies _ _ _

end Enemies

/-- The same battler, placed and with a gauge to start with. -/
structure Posted (b b' : Battler) (position : Point) : Prop where
  same : b' = { b with position := b'.position, flip := b'.flip, gauge := b'.gauge }
  position : b'.position = position

theorem seedGauge_posted (db : Database) (condition : BattleCondition) (firstStrike : Bool)
    (preempt ambush max : Int) (b : Battler) :
    Posted b (seedGauge db condition firstStrike preempt ambush max b) b.position := by
  unfold seedGauge
  split <;> exact ⟨rfl, rfl⟩

/-- The formation hides nobody and shows nobody. -/
theorem map_hidden_arrange (r : Roster) (db : Database) (slots : List Point)
    (condition : BattleCondition) (firstStrike : Bool) (max : Int) :
    (seedGauges (placeActors (placeEnemies r slots condition) db condition) db condition firstStrike
      max).enemies.map (·.hidden) = r.enemies.map (·.hidden) := by
  have harranged := (arrange_arranged r db slots condition firstStrike max).enemies
  symm
  rw [← List.forall₂_eq_eq_eq, List.forall₂_map_left_iff, List.forall₂_map_right_iff]
  exact harranged.imp fun b b' h => by rw [h.rest]

/-- The enemies of a formation are those there were, each at the slot of its place. -/
theorem getElem?_arrange {r : Roster} {place : Nat} {b : Battler} (h : r.enemies[place]? = some b)
    (db : Database) (slots : List Point) (condition : BattleCondition) (firstStrike : Bool)
    (max : Int) :
    ∃ b', (seedGauges (placeActors (placeEnemies r slots condition) db condition) db
      condition firstStrike
        max).enemies[place]? = some b' ∧
      Posted b b' (enemyPosition (slots.getD place b.position) (layoutIndex r.enemies place)
        condition) := by
  have hlt : place < r.enemies.length := (List.getElem?_eq_some_iff.mp h).1
  have hindex := getD_layoutIndices hlt
  rw [seedGauges_enemies, placeActors_enemies, placeEnemies, List.getElem?_map,
    List.getElem?_mapIdx, h]
  dsimp only [Option.map_some]
  rw [hindex]
  refine ⟨_, rfl, ?_⟩
  obtain ⟨hsame, hposition⟩ := seedGauge_posted db condition firstStrike 0 max max
    { b with
      position :=
        enemyPosition (slots.getD place b.position) (layoutIndex r.enemies place) condition
      flip := enemyStartFlip condition (layoutIndex r.enemies place) }
  exact ⟨hsame.trans rfl, hposition⟩

end Formation

end ActiveBattle
