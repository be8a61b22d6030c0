import ActiveBattle.Proofs.Battler.Change
import ActiveBattle.Proofs.Roster.Pointwise

/-!
# Rosters at the start

Every battler of a fresh roster is an actor or an enemy of the database, unhurt and idle.
-/

namespace ActiveBattle.Roster

set_option autoImplicit false

theorem mem_of_battler? {r : Roster} {id : BattlerId} {b : Battler} (h : r.battler? id = some b) :
    b ∈ r.actors ∨ b ∈ r.enemies := by
  cases id with
  | actor a => exact .inl (List.mem_of_find?_eq_some h)
  | enemy i => exact .inr (List.mem_of_getElem? h)

theorem mem_enemiesOf {db : Database} {index : Nat} {members : List TroopMember} {b : Battler}
    (h : b ∈ enemiesOf db index members) :
    ∃ i d member, d ∈ db.enemies ∧ b = Battler.ofEnemy i d member := by
  induction members generalizing index with
  | nil => simp [enemiesOf] at h
  | cons member rest ih =>
    unfold enemiesOf at h
    split at h
    · rename_i d hd
      rcases List.mem_cons.mp h with rfl | h
      · exact ⟨index, d, member, List.mem_of_find?_eq_some hd, rfl⟩
      · exact ih h
    · exact ih h

theorem id_of_enemiesOf {db : Database} {index : Nat} {members : List TroopMember} {i : Nat}
    {b : Battler} (h : (enemiesOf db index members)[i]? = some b) : b.id = .enemy (index + i) := by
  induction members generalizing index i with
  | nil => simp [enemiesOf] at h
  | cons member rest ih =>
    unfold enemiesOf at h
    split at h
    · cases i with
      | zero =>
        obtain rfl := Option.some.inj h
        rfl
      | succ i =>
        rw [ih h]
        congr 1
        omega
    · exact ih h

/-- Who is in a fresh roster. -/
theorem mem_ofSetup {db : Database} {party : List Int} {troop : Troop} {b : Battler}
    (h : b ∈ (ofSetup db party troop).actors ∨ b ∈ (ofSetup db party troop).enemies) :
    (∃ d ∈ db.actors, b = Battler.ofActor d) ∨
      ∃ i d member, d ∈ db.enemies ∧ b = Battler.ofEnemy i d member := by
  rcases h with h | h
  · obtain ⟨d, hd, rfl⟩ := List.mem_map.mp h
    exact .inl ⟨d, hd, rfl⟩
  · exact .inr (mem_enemiesOf h)

/-- Every battler knows how it is referred to. -/
structure Indexed (r : Roster) : Prop where
  actors : ∀ b ∈ r.actors, b.id = .actor b.dbId
  enemies : ∀ (i : Nat) (b : Battler), r.enemies[i]? = some b → b.id = .enemy i

theorem ofSetup_indexed (db : Database) (party : List Int) (troop : Troop) :
    (ofSetup db party troop).Indexed := by
  constructor
  · intro b hb
    obtain ⟨d, -, rfl⟩ := List.mem_map.mp hb
    rfl
  · intro i b hb
    have hid := id_of_enemiesOf hb
    rw [Nat.zero_add] at hid
    exact hid

theorem Indexed.of_kin {r r' : Roster} (h : r.Indexed)
    (hidentity : r.Pointwise Battler.SameIdentity r') : r'.Indexed := by
  constructor
  · intro b hb
    refine forall_mem_of_forall₂ (hidentity.actors.imp ?_) h.actors b hb
    intro a b hab ha
    rw [hab.id, hab.dbId]
    exact ha
  · intro i b hb
    have hrel := forall₂_getElem? hidentity.enemies i
    rw [hb] at hrel
    generalize ha : r.enemies[i]? = found at hrel
    cases hrel with
    | some hab => exact hab.id.trans (h.enemies i _ ha)

/-- A present battler is the one its reference leads to. -/
theorem Indexed.battler?_of_mem_presentIds {r : Roster} (h : r.Indexed) {id : BattlerId}
    (hid : id ∈ r.presentIds) : ∃ b, r.battler? id = some b ∧ b.isPresent = true := by
  obtain ⟨b, hb, rfl⟩ := List.mem_map.mp hid
  obtain ⟨hb, hpresent⟩ := List.mem_filter.mp hb
  refine ⟨b, ?_, hpresent⟩
  rcases List.mem_append.mp hb with hb | hb
  · obtain ⟨actor, -, hactor⟩ := List.mem_filterMap.mp hb
    have hdb : b.dbId = actor := by simpa using List.find?_some hactor
    rw [h.actors b (List.mem_of_find?_eq_some hactor), hdb]
    exact hactor
  · obtain ⟨i, hi⟩ := List.mem_iff_getElem?.mp hb
    rw [h.enemies i b hi]
    exact hi

end ActiveBattle.Roster
