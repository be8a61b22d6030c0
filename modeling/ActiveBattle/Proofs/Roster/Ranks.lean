import Mathlib.Data.List.Nodup
import ActiveBattle.Proofs.Roster.Placing

/-!
# Ranks

The formation goes through the party by index, so what becomes of a member is known from its index,
and what becomes of an enemy from its layout index. In a surround formation the party is turned
alternately twice over (`Roster.Alternates`), while the enemies are all flipped as they are placed
and only every other one as they are turned (`surround_facing_iff`).
-/

namespace ActiveBattle

set_option autoImplicit false

namespace Roster

variable {r : Roster} {ids : List Int} {f : Nat → Int → Battler → Battler}

theorem modifyActor_actor? (r : Roster) (id other : Int) {f : Battler → Battler}
    (hf : ∀ b, (f b).dbId = b.dbId) :
    (r.modifyActor id f).actor? other = if other = id then (r.actor? id).map f
      else r.actor? other := by
  have h := r.battler?_modify (.actor id) (.actor other) f hf
  simp only [BattlerId.actor.injEq] at h
  exact h

/-- Modifies the actors of a list of ids one after the other, each as its index and its id tell. -/
def modifyEach (f : Nat → Int → Battler → Battler) (index : Nat) : List Int → Roster → Roster
  | [], r => r
  | id :: rest, r => modifyEach f (index + 1) rest (r.modifyActor id (f index id))

theorem foldl_modifyActor_eq (f : Battler → Battler) (index : Nat) (ids : List Int) (r : Roster) :
    ids.foldl (fun r id => r.modifyActor id f) r = modifyEach (fun _ _ => f) index ids r := by
  induction ids generalizing index r with
  | nil => rfl
  | cons id rest ih => exact ih (index + 1) _

/-- Only actors change. -/
theorem modifyEach_rest (f : Nat → Int → Battler → Battler) (index : Nat) (ids : List Int)
    (r : Roster) :
    modifyEach f index ids r = { r with actors := (modifyEach f index ids r).actors } := by
  induction ids generalizing index r with
  | nil => rfl
  | cons id rest ih => exact ih (index + 1) _

theorem modifyEach_party (f : Nat → Int → Battler → Battler) (index : Nat) (ids : List Int)
    (r : Roster) :
    (modifyEach f index ids r).party = r.party := by
  rw [modifyEach_rest]

theorem modifyEach_enemies (f : Nat → Int → Battler → Battler) (index : Nat) (ids : List Int)
    (r : Roster) :
    (modifyEach f index ids r).enemies = r.enemies := by
  rw [modifyEach_rest]

theorem modifyEach_actor?_of_not_mem (hf : ∀ index id b, (f index id b).dbId = b.dbId) {id : Int}
    (hid : id ∉ ids) (index : Nat) : (modifyEach f index ids r).actor? id = r.actor? id := by
  induction ids generalizing index r with
  | nil => rfl
  | cons first rest ih =>
    rw [List.mem_cons, not_or] at hid
    rw [modifyEach, ih hid.2, modifyActor_actor? r first id (hf index first), if_neg hid.1]

/-- An id that is named once is modified as its index tells. -/
theorem modifyEach_actor? (hf : ∀ index id b, (f index id b).dbId = b.dbId) (hids : ids.Nodup)
    {place : Nat} {id : Int} (hplace : ids[place]? = some id) (index : Nat) :
    (modifyEach f index ids r).actor? id = (r.actor? id).map (f (index + place) id) := by
  induction ids generalizing index place r with
  | nil => simp at hplace
  | cons first rest ih =>
    obtain ⟨hfirst, hrest⟩ := List.nodup_cons.mp hids
    rw [modifyEach]
    cases place with
    | zero =>
      obtain rfl : first = id := by simpa using hplace
      rw [modifyEach_actor?_of_not_mem hf hfirst,
        modifyActor_actor? r first first (hf index first), if_pos rfl]
      rfl
    | succ place =>
      rw [List.getElem?_cons_succ] at hplace
      have hne : id ≠ first := fun h => hfirst (h ▸ List.mem_of_getElem? hplace)
      rw [ih hrest hplace (index + 1), modifyActor_actor? r first id (hf index first), if_neg hne,
        Nat.add_right_comm, Nat.add_assoc]

theorem partyIndex?_of_getElem? (hparty : r.party.Nodup) {place : Nat} {id : Int}
    (h : r.party[place]? = some id) :
    r.partyIndex? id = some place := by
  obtain ⟨hlt, rfl⟩ := List.getElem?_eq_some_iff.mp h
  refine List.findIdx?_eq_some_iff_getElem.mpr ⟨hlt, decide_eq_true rfl, fun other hother => ?_⟩
  have hne : other ≠ place := Nat.ne_of_lt hother
  simp [hparty.getElem_inj_iff, hne]

theorem partyIndex?_of_not_mem {id : Int} (h : id ∉ r.party) : r.partyIndex? id = none := by
  refine List.findIdx?_eq_none_iff.mpr fun other hother => decide_eq_false ?_
  rintro rfl
  exact h hother

theorem partyIndex?_isSome {id : Int} (h : id ∈ r.party) : (r.partyIndex? id).isSome = true :=
  List.findIdx?_isSome.trans (List.any_eq_true.mpr ⟨id, h, decide_eq_true rfl⟩)

/-- Along the party every other member is flipped, beginning with the second. -/
def Alternates (r : Roster) : Prop :=
  ∀ (place : Nat) id a, r.party[place]? = some id → r.actor? id = some a →
    (a.flip = true ↔ place % 2 = 1)

def EnemiesFlipped (r : Roster) : Prop := ∀ e ∈ r.enemies, e.flip = true

/-- At most one enemy is visible, and the hidden ones have even places. -/
def EvenlyLaidOut (r : Roster) : Prop :=
  r.visibleEnemyCount ≤ 1 ∧ ∀ place e, r.enemies[place]? = some e → e.hidden = true → place % 2 = 0

end Roster

namespace Formation

/-! ### Placing -/

section Placing

variable (r : Roster) (db : Database) (slots : List Point) (condition : BattleCondition)

/-- The row a party member is placed in. -/
def placedRow (r : Roster) (db : Database) (a : Battler) : Row :=
  if frontCanFight r db then a.row else .front

/-- The party member of an index, placed in a row. -/
def stationed (condition : BattleCondition) (index : Nat) (row : Row) (a : Battler) : Battler :=
  { a with
    row := row
    position := actorPosition index row condition
    flip := condition = .surround && index % 2 = 1 }

theorem placeActorsFrom_eq (index : Nat) (ids : List Int) (r : Roster) :
    placeActorsFrom condition index ids r =
    r.modifyEach (fun i _ a => stationed condition i a.row a) index ids := by
  induction ids generalizing index r with
  | nil => rfl
  | cons id rest ih => exact ih (index + 1) _

def inFront (a : Battler) : Battler := { a with row := .front }

theorem closeRanks_eq : closeRanks r = r.modifyEach (fun _ _ => inFront) 0 r.party :=
  Roster.foldl_modifyActor_eq inFront 0 _ r

theorem stationed_dbId (index : Nat) (_ : Int) (a : Battler) :
    (stationed condition index a.row a).dbId = a.dbId := rfl

theorem inFront_dbId (_ : Nat) (_ : Int) (a : Battler) : (inFront a).dbId = a.dbId := rfl

theorem placeActors_party : (placeActors r db condition).party = r.party := by
  unfold placeActors
  dsimp only
  rw [placeActorsFrom_eq, Roster.modifyEach_party]
  split
  · rfl
  · rw [closeRanks_eq, Roster.modifyEach_party]

/-- The back row joins the front when nobody in front can fight, and then every member is placed by
its index. -/
theorem placeActors_actor? (hparty : r.party.Nodup) {place : Nat} {id : Int}
    (h : r.party[place]? = some id) :
    (placeActors r db condition).actor? id =
      (r.actor? id).map fun a => stationed condition place (placedRow r db a) a := by
  unfold placeActors placedRow
  dsimp only
  rw [placeActorsFrom_eq]
  split
  · rw [Roster.modifyEach_actor? (stationed_dbId condition) hparty h, Nat.zero_add]
  · rw [closeRanks_eq, Roster.modifyEach_party,
      Roster.modifyEach_actor? (stationed_dbId condition) hparty h,
      Roster.modifyEach_actor? inFront_dbId hparty h, Option.map_map, Nat.zero_add]
    rfl

/-- What becomes of an enemy is told by its place and its layout index. -/
theorem getElem?_mapIdx_layout (f : Nat → Nat → Battler → Battler) (enemies : List Battler)
    (place : Nat) :
    (enemies.mapIdx fun place e => f place ((layoutIndices enemies).getD place 0) e)[place]? =
      (enemies[place]?).map (f place (layoutIndex enemies place)) := by
  rw [List.getElem?_mapIdx]
  cases h : enemies[place]? with
  | none => rfl
  | some e => rw [getD_layoutIndices (List.getElem?_eq_some_iff.mp h).1, Option.map_some]

theorem getElem?_placeEnemies (place : Nat) : (placeEnemies r slots condition).enemies[place]? =
    (r.enemies[place]?).map fun e =>
      { e with
        position :=
  enemyPosition (slots.getD place e.position) (layoutIndex r.enemies place) condition
        flip := enemyStartFlip condition (layoutIndex r.enemies place) } :=
  getElem?_mapIdx_layout (fun place index e =>
    { e with
      position := enemyPosition (slots.getD place e.position) index condition
      flip := enemyStartFlip condition index }) r.enemies place

theorem placeEnemies_hidden :
    (placeEnemies r slots condition).enemies.map (·.hidden) = r.enemies.map (·.hidden) := by
  refine List.ext_getElem? fun place => ?_
  rw [List.getElem?_map, List.getElem?_map, getElem?_placeEnemies, Option.map_map]
  rfl

end Placing

/-! ### Where everyone belongs -/

section Belonging

variable {r : Roster} {slots : List Point}

theorem battlePosition_actor (r : Roster) (id : Int) (slots : List Point)
    (condition : BattleCondition) :
    battlePosition r (.actor id) slots condition =
      (r.partyIndex? id).bind fun place => (r.actor? id).map fun a =>
        actorPosition place a.row condition := by
  unfold battlePosition
  dsimp only
  cases r.partyIndex? id with
  | none => rfl
  | some place => cases r.actor? id <;> rfl

theorem battlePosition_of_not_mem {id : Int} (h : id ∉ r.party) (slots : List Point)
    (condition : BattleCondition) :
    battlePosition r (.actor id) slots condition = none := by
  rw [battlePosition_actor, Roster.partyIndex?_of_not_mem h]
  rfl

theorem getElem?_layoutIndices {enemies : List Battler} {place : Nat} (h : place < enemies.length) :
    (layoutIndices enemies)[place]? = some (layoutIndex enemies place) := by
  rw [layoutIndices, getElem?_layoutFrom, layoutIndex, List.getElem?_eq_getElem h]
  simp

theorem battlePosition_enemy (r : Roster) (place : Nat) (slots : List Point)
    (condition : BattleCondition) :
    battlePosition r (.enemy place) slots condition = (r.enemies[place]?).map fun e =>
      enemyPosition (slots.getD place e.position) (layoutIndex r.enemies place) condition := by
  unfold battlePosition
  dsimp only
  cases h : r.enemies[place]? with
  | none => rfl
  | some e =>
    rw [getElem?_layoutIndices (List.getElem?_eq_some_iff.mp h).1]
    rfl

/-- Every member of the party is placed where it belongs. -/
theorem battlePosition_placeActors (hparty : r.party.Nodup) {id : Int} (hid : id ∈ r.party)
    (db : Database) (slots : List Point) (condition : BattleCondition) :
    battlePosition (placeActors r db condition) (.actor id) slots condition =
      ((placeActors r db condition).actor? id).map (·.position) := by
  obtain ⟨place, hplace⟩ := List.mem_iff_getElem?.mp hid
  have hplaced : (placeActors r db condition).party = r.party := placeActors_party r db condition
  rw [battlePosition_actor, Roster.partyIndex?_of_getElem? (hplaced ▸ hparty) (hplaced ▸ hplace),
    placeActors_actor? r db condition hparty hplace, Option.bind_some, Option.map_map,
      Option.map_map]
  rfl

/-- Every enemy with a slot is placed where it belongs. -/
theorem battlePosition_placeEnemies {place : Nat} (hslot : place < slots.length) (r : Roster)
    (condition : BattleCondition) :
    battlePosition (placeEnemies r slots condition) (.enemy place) slots condition =
      ((placeEnemies r slots condition).enemies[place]?).map (·.position) := by
  have hindex : layoutIndex (placeEnemies r slots condition).enemies place =
      layoutIndex r.enemies place :=
    layoutIndex_congr (placeEnemies_hidden r slots condition) place
  have hself (p : Point) : slots.getD place p = slots[place] := by
    rw [List.getD_eq_getElem?_getD, List.getElem?_eq_getElem hslot, Option.getD_some]
  rw [battlePosition_enemy, hindex, getElem?_placeEnemies, Option.map_map, Option.map_map]
  simp only [hself, Function.comp_def]

end Belonging

/-! ### Turning -/

section Turning

variable (r : Roster) (condition : BattleCondition)

/-- The party member of an index, turned by where the one of its id stood. -/
def turned (before : Roster) (condition : BattleCondition) (index : Nat) (id : Int) (a : Battler) :
    Battler :=
  { a with
    flip := actorFlip before condition index (((before.actor? id).map (·.position.x)).getD 0) }

theorem turned_dbId (index : Nat) (id : Int) (a : Battler) :
    (turned r condition index id a).dbId = a.dbId := rfl

theorem turnActorsFrom_eq (before : Roster) (index : Nat) (ids : List Int) (r : Roster) :
    turnActorsFrom before condition index ids r =
      r.modifyEach (turned before condition) index ids := by
  induction ids generalizing index r with
  | nil => rfl
  | cons id rest ih => exact ih (index + 1) _

theorem turnActors_party : (turnActors r condition).party = r.party := by
  unfold turnActors
  rw [turnActorsFrom_eq, Roster.modifyEach_party]

theorem turnActors_enemies : (turnActors r condition).enemies = r.enemies := by
  unfold turnActors
  rw [turnActorsFrom_eq, Roster.modifyEach_enemies]

theorem turnActors_actor? (hparty : r.party.Nodup) {place : Nat} {id : Int}
    (h : r.party[place]? = some id) :
    (turnActors r condition).actor? id =
      (r.actor? id).map fun a => { a with flip := actorFlip r condition place a.position.x } := by
  unfold turnActors
  rw [turnActorsFrom_eq, Roster.modifyEach_actor? (turned_dbId r condition) hparty h, Nat.zero_add]
  unfold turned
  cases r.actor? id <;> rfl

theorem getElem?_turnEnemies (place : Nat) : (turnEnemies r condition).enemies[place]? =
    (r.enemies[place]?).map fun e =>
      { e with flip := enemyFlip r condition (layoutIndex r.enemies place) e.position.x } :=
  getElem?_mapIdx_layout (fun _ index e =>
    { e with flip := enemyFlip r condition index e.position.x }) r.enemies place

end Turning

/-! ### Facing in a surround formation -/

section Surround

variable {r : Roster}

theorem placeActors_alternates (hparty : r.party.Nodup) (db : Database) :
    (placeActors r db .surround).Alternates := by
  intro place id a hplace ha
  rw [placeActors_party] at hplace
  rw [placeActors_actor? r db .surround hparty hplace] at ha
  obtain ⟨b, -, rfl⟩ := Option.map_eq_some_iff.mp ha
  simp [stationed]

theorem turnActors_alternates (hparty : r.party.Nodup) : (turnActors r .surround).Alternates := by
  intro place id a hplace ha
  rw [turnActors_party] at hplace
  rw [turnActors_actor? r .surround hparty hplace] at ha
  obtain ⟨b, -, rfl⟩ := Option.map_eq_some_iff.mp ha
  simp [actorFlip]

theorem placeEnemies_enemiesFlipped (r : Roster) (slots : List Point) :
    (placeEnemies r slots .surround).EnemiesFlipped := by
  intro e he
  obtain ⟨place, hplace⟩ := List.mem_iff_getElem?.mp he
  rw [getElem?_placeEnemies] at hplace
  obtain ⟨b, -, rfl⟩ := Option.map_eq_some_iff.mp hplace
  rfl

/-- An enemy is turned by its layout index alone. -/
theorem turnEnemies_enemiesFlipped_iff (r : Roster) : (turnEnemies r .surround).EnemiesFlipped ↔
    ∀ place < r.enemies.length, layoutIndex r.enemies place % 2 = 0 := by
  constructor
  · intro h place hplace
    have hturned := getElem?_turnEnemies r .surround place
    rw [List.getElem?_eq_getElem hplace, Option.map_some] at hturned
    exact of_decide_eq_true (h _ (List.mem_of_getElem? hturned))
  · intro h e he
    obtain ⟨place, hplace⟩ := List.mem_iff_getElem?.mp he
    rw [getElem?_turnEnemies] at hplace
    obtain ⟨b, hb, rfl⟩ := Option.map_eq_some_iff.mp hplace
    exact decide_eq_true (h place (List.getElem?_eq_some_iff.mp hb).1)

/-- There is a next one after so many of them. -/
theorem exists_countP_take {p : Battler → Bool} {l : List Battler} {k : Nat} (h : k < l.countP p) :
    ∃ place b, l[place]? = some b ∧ p b = true ∧ (l.take place).countP p = k := by
  induction l generalizing k with
  | nil => simp at h
  | cons b rest ih =>
    rw [List.countP_cons] at h
    by_cases hb : p b = true
    · cases k with
      | zero => exact ⟨0, b, rfl, hb, rfl⟩
      | succ k =>
        rw [if_pos hb] at h
        obtain ⟨place, c, hc, hpc, hcount⟩ := ih (Nat.lt_of_add_lt_add_right h)
        refine ⟨place + 1, c, hc, hpc, ?_⟩
        rw [List.take_succ_cons, List.countP_cons, if_pos hb, hcount]
    · rw [if_neg hb] at h
      obtain ⟨place, c, hc, hpc, hcount⟩ := ih h
      refine ⟨place + 1, c, hc, hpc, ?_⟩
      rw [List.take_succ_cons, List.countP_cons, if_neg hb, hcount]
      rfl

theorem layoutIndex_of_hidden {enemies : List Battler} {place : Nat} {e : Battler}
    (he : enemies[place]? = some e) (hidden : e.hidden = true) :
    layoutIndex enemies place = place := by
  unfold layoutIndex
  rw [he, Option.any_some, if_pos hidden]

theorem layoutIndex_of_visible {enemies : List Battler} {place : Nat} {e : Battler}
    (he : enemies[place]? = some e) (visible : e.hidden = false) :
    layoutIndex enemies place = (enemies.take place).countP (!·.hidden) := by
  unfold layoutIndex
  rw [he, Option.any_some, visible, if_neg Bool.false_ne_true]

/-- A second visible enemy would have the odd layout index 1. -/
theorem evenlyLaidOut_iff (r : Roster) : r.EvenlyLaidOut ↔
    ∀ place < r.enemies.length, layoutIndex r.enemies place % 2 = 0 := by
  have hvisible : r.visibleEnemyCount = r.enemies.countP (!·.hidden) :=
    List.countP_eq_length_filter.symm
  unfold Roster.EvenlyLaidOut
  rw [hvisible]
  constructor
  · rintro ⟨hone, heven⟩ place hplace
    have he := List.getElem?_eq_getElem hplace
    cases hidden : r.enemies[place].hidden with
    | true =>
      rw [layoutIndex_of_hidden he hidden]
      exact heven place _ he hidden
    | false =>
      have hsplit : r.enemies.countP (!·.hidden) =
          (r.enemies.take place).countP (!·.hidden) +
            (r.enemies.drop place).countP (!·.hidden) := by
        rw [← List.countP_append, List.take_append_drop]
      have hself : 1 ≤ (r.enemies.drop place).countP (!·.hidden) := by
        rw [List.drop_eq_getElem_cons hplace, List.countP_cons_of_pos (by simp [hidden])]
        omega
      have hfirst : (r.enemies.take place).countP (!·.hidden) = 0 := by omega
      rw [layoutIndex_of_visible he hidden, hfirst]
  · intro heven
    constructor
    · by_contra hmore
      obtain ⟨place, e, he, hseen, hcount⟩ :=
        exists_countP_take (p := (!·.hidden)) (l := r.enemies) (k := 1) (by omega)
      have hodd := heven place (List.getElem?_eq_some_iff.mp he).1
      rw [layoutIndex_of_visible he (by simpa using hseen), hcount] at hodd
      omega
    · intro place e he hidden
      have hplace := heven place (List.getElem?_eq_some_iff.mp he).1
      rwa [layoutIndex_of_hidden he hidden] at hplace

/-- Placing hides and shows nobody. -/
theorem evenlyLaidOut_congr {r r' : Roster}
    (h : r'.enemies.map (·.hidden) = r.enemies.map (·.hidden)) :
    r'.EvenlyLaidOut ↔ r.EvenlyLaidOut := by
  have hlength : r'.enemies.length = r.enemies.length := by simpa using congrArg List.length h
  rw [evenlyLaidOut_iff, evenlyLaidOut_iff, hlength]
  simp only [layoutIndex_congr h]

theorem enemiesFlipped_congr {r r' : Roster} (h : r'.enemies = r.enemies) :
    r'.EnemiesFlipped ↔ r.EnemiesFlipped := by
  unfold Roster.EnemiesFlipped
  rw [h]

theorem turn_enemiesFlipped_iff (r : Roster) :
    (turnActors (turnEnemies r .surround) .surround).EnemiesFlipped ↔ r.EvenlyLaidOut := by
  rw [enemiesFlipped_congr (turnActors_enemies _ _), turnEnemies_enemiesFlipped_iff,
    evenlyLaidOut_iff]

/-- Under a surround formation the party is flipped alternately as it is placed and whenever it is
turned. The enemies are all flipped as they are placed, but turning them leaves all of them flipped
only where at most one is visible and the hidden ones have even places. -/
theorem surround_facing_iff (hparty : r.party.Nodup) (db : Database) (slots : List Point) :
    let placed := placeActors (placeEnemies r slots .surround) db .surround
    let turn := fun r => turnActors (turnEnemies r .surround) .surround
    placed.Alternates ∧ placed.EnemiesFlipped ∧
      (turn placed).Alternates ∧ ((turn placed).EnemiesFlipped ↔ r.EvenlyLaidOut) ∧
      (turn r).Alternates ∧ ((turn r).EnemiesFlipped ↔ r.EvenlyLaidOut) := by
  intro placed turn
  have hplaced : placed.party.Nodup :=
    (placeActors_party (placeEnemies r slots .surround) db .surround).symm ▸ hparty
  have henemies : placed.enemies = (placeEnemies r slots .surround).enemies :=
    placeActors_enemies _ db .surround
  refine ⟨placeActors_alternates (r := placeEnemies r slots .surround) hparty db, ?_,
    turnActors_alternates (r := turnEnemies placed .surround) hplaced, ?_,
    turnActors_alternates (r := turnEnemies r .surround) hparty, turn_enemiesFlipped_iff r⟩
  · rw [enemiesFlipped_congr henemies]
    exact placeEnemies_enemiesFlipped r slots
  · rw [turn_enemiesFlipped_iff]
    exact evenlyLaidOut_congr (by rw [henemies, placeEnemies_hidden])

/-- Two actors between some enemies, hidden or not. -/
def surrounding (hidden : List Bool) : Roster where
  actors := [.ofActor { id := 1, name := "" }, .ofActor { id := 2, name := "" }]
  party := [2, 1]
  enemies := hidden.mapIdx fun place hidden =>
    .ofEnemy place { id := 1, name := "" } { enemyId := 1, hidden := hidden }

/-- Between two hidden enemies one that is visible has the layout index 0. -/
theorem surround_facing_iff_of_one_visible :
    (surrounding [true, false, true]).party.Nodup ∧
      (turnActors (turnEnemies
        (placeActors (placeEnemies (surrounding [true, false, true]) [] .surround) {} .surround)
        .surround) .surround).EnemiesFlipped := by
  have hparty : (surrounding [true, false, true]).party.Nodup := by decide
  refine ⟨hparty, (surround_facing_iff hparty {} []).2.2.2.1.mpr ?_⟩
  exact (evenlyLaidOut_iff _).mpr (by decide)

/-- Of two visible enemies the second is flipped as it is placed, and turned back. -/
theorem not_enemiesFlipped_of_two_visible :
    (surrounding [false, false]).party.Nodup ∧
      resolve .surround .automatic (surrounding [false, false]) = .surround ∧
      (placeActors (placeEnemies (surrounding [false, false]) [] .surround) {}
        .surround).EnemiesFlipped ∧
      ¬(turnActors (turnEnemies
        (placeActors (placeEnemies (surrounding [false, false]) [] .surround) {} .surround)
        .surround) .surround).EnemiesFlipped := by
  refine ⟨by decide, by decide, ?_, ?_⟩
  · unfold Roster.EnemiesFlipped
    decide
  · unfold Roster.EnemiesFlipped
    decide

end Surround

end Formation

end ActiveBattle
