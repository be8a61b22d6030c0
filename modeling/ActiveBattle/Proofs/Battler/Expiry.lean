import ActiveBattle.Proofs.Battler.Sound

/-!
# States that wear off

A turn counts on every state and releases those that have lasted theirs. For the living that is the
same as taking these states away one by one, in any order. For the dead it is so unless the death
state itself wears off: who is taken out of death gets a point of HP and ends its fade, who is
released from it stays without HP and is not dead.
-/

namespace ActiveBattle.Battler

set_option autoImplicit false

/-- The battler with one more turn counted on each of its states. -/
def withTurnCounted (b : Battler) : Battler :=
  { b with states := b.states.map fun s => { s with turns := s.turns + 1 } }

/-- A state has lasted all the turns its definition gives it. One without a definition, or whose
definition gives no turns, stays. -/
def HasLasted (db : Database) (s : ActiveState) : Prop :=
  ∃ d, db.state? s.id = some d ∧ 0 < d.autoReleaseTurns ∧ d.autoReleaseTurns ≤ s.turns

theorem expired_iff {db : Database} {s : ActiveState} : expired db s = true ↔ HasLasted db s := by
  unfold expired HasLasted
  cases db.state? s.id with
  | none => simp
  | some d => simp

instance (db : Database) : DecidablePred (HasLasted db) := fun _ => decidable_of_iff _ expired_iff

/-- The ids of the states that one more turn brings to their end, in the order of the list. -/
def endingStates (b : Battler) (db : Database) : List Int :=
  (b.withTurnCounted.states.filter fun s => HasLasted db s).map (·.id)

/-- The battler after states were taken away, one after the other. -/
def removingStates (b : Battler) (ids : List Int) : Battler :=
  ids.foldl (fun c id => (c.removeState id).2) b

/-- Without the states of these ids, and nothing else. -/
def withoutStates (b : Battler) (ids : List Int) : Battler :=
  { b with states := b.states.filter (·.id ∉ ids) }

/-- Out of death: a point of HP at least, and no fade. -/
def broughtToLife (b : Battler) : Battler := { b with hp := max b.hp 1, deathTimer := 0 }

variable {b : Battler} {db : Database}

theorem withoutStates_nil (b : Battler) : b.withoutStates [] = b := by simp [withoutStates]

theorem withoutStates_withoutStates (b : Battler) (ids more : List Int) :
    (b.withoutStates ids).withoutStates more = b.withoutStates (ids ++ more) := by
  have hstates : (b.states.filter (·.id ∉ ids)).filter (·.id ∉ more) =
      b.states.filter (·.id ∉ ids ++ more) := by
    rw [List.filter_filter]
    refine List.filter_congr fun s _ => ?_
    simp [Bool.and_comm]
  unfold withoutStates
  rw [hstates]

theorem isDead_withoutStates (b : Battler) (ids : List Int) :
    (b.withoutStates ids).isDead = true ↔ deathState ∉ ids ∧ b.isDead = true := by
  simp only [isDead, hasState_iff, withoutStates, List.mem_map, List.mem_filter, decide_eq_true_eq]
  constructor
  · rintro ⟨s, ⟨hs, hkept⟩, hid⟩
    exact ⟨hid ▸ hkept, s, hs, hid⟩
  · rintro ⟨hkept, s, hs, hid⟩
    exact ⟨s, ⟨hs, hid ▸ hkept⟩, hid⟩

theorem removeState_eq (b : Battler) (state : Int) :
    (b.removeState state).2 =
      if state = deathState ∧ b.isDead = true then (b.withoutStates [state]).broughtToLife
        else b.withoutStates [state] := by
  have hfilter : b.withoutStates [state] = { b with states := b.states.filter (·.id ≠ state) } := by
    simp [withoutStates]
  rw [hfilter]
  unfold removeState
  split
  · rename_i hstate
    by_cases hdeath : state = deathState
    · subst hdeath
      rw [if_pos ⟨rfl, hstate⟩]
      rfl
    · rw [if_neg fun h => hdeath h.1]
      exact if_neg hdeath
  · rename_i hstate
    have hall : b.states.filter (·.id ≠ state) = b.states := by
      rw [List.filter_eq_self]
      intro s hs
      exact decide_eq_true fun heq => hstate (hasState_iff.mpr (heq ▸ List.mem_map_of_mem hs))
    have hlive : ¬(state = deathState ∧ b.isDead = true) := fun h => hstate (h.1 ▸ h.2)
    rw [if_neg hlive, hall]

/-- What is left does not depend on the order in which states are taken away. -/
theorem removingStates_eq (ids : List Int) (b : Battler) :
    b.removingStates ids = if deathState ∈ ids ∧ b.isDead = true then
      (b.withoutStates ids).broughtToLife else b.withoutStates ids := by
  induction ids generalizing b with
  | nil =>
    rw [if_neg fun h => List.not_mem_nil h.1, withoutStates_nil, removingStates, List.foldl_nil]
  | cons id rest ih =>
    have hcons : b.removingStates (id :: rest) = (b.removeState id).2.removingStates rest := rfl
    have hwithout : (b.withoutStates [id]).withoutStates rest = b.withoutStates (id :: rest) :=
      b.withoutStates_withoutStates [id] rest
    rw [hcons, ih, removeState_eq]
    by_cases hwakes : id = deathState ∧ b.isDead = true
    · have hlive : ¬(b.withoutStates [id]).broughtToLife.isDead = true := fun hdead =>
        ((b.isDead_withoutStates [id]).mp hdead).1 (List.mem_singleton.mpr hwakes.1.symm)
      have hmem : deathState ∈ id :: rest := hwakes.1 ▸ List.mem_cons_self
      rw [if_pos hwakes, if_neg fun h => hlive h.2, if_pos ⟨hmem, hwakes.2⟩, ← hwithout]
      rfl
    · have hiff : (deathState ∈ rest ∧ (b.withoutStates [id]).isDead = true) ↔
          (deathState ∈ id :: rest ∧ b.isDead = true) := by
        rw [isDead_withoutStates, List.mem_singleton, List.mem_cons]
        constructor
        · rintro ⟨hmem, -, hdead⟩
          exact ⟨.inr hmem, hdead⟩
        · rintro ⟨hmem, hdead⟩
          have hother : deathState ≠ id := fun h => hwakes ⟨h.symm, hdead⟩
          exact ⟨hmem.resolve_left hother, hother, hdead⟩
      rw [if_neg hwakes, hwithout]
      simp only [hiff]

/-- States of different ids end by their own turns alone. -/
theorem mem_lapsing_iff (hstates : (b.states.map (·.id)).Nodup) {s : ActiveState}
    (hs : s ∈ b.withTurnCounted.states) :
    s.id ∈ b.endingStates db ↔ HasLasted db s := by
  have hids : b.withTurnCounted.states.map (·.id) = b.states.map (·.id) := by
    simp only [withTurnCounted, List.map_map]
    rfl
  simp only [endingStates, List.mem_map, List.mem_filter, decide_eq_true_eq]
  constructor
  · rintro ⟨t, ⟨ht, hlasted⟩, hid⟩
    obtain rfl := List.inj_on_of_nodup_map (hids ▸ hstates) ht hs hid
    exact hlasted
  · intro hlasted
    exact ⟨s, ⟨hs, hlasted⟩, rfl⟩

theorem healStates_fst (b : Battler) (db : Database) : (b.healStates db).1 = b.endingStates db := by
  have hfilter : b.withTurnCounted.states.filter (expired db) =
      b.withTurnCounted.states.filter fun s => HasLasted db s :=
    List.filter_congr fun s _ => by simp [← expired_iff]
  exact congrArg (List.map (·.id)) hfilter

theorem healStates_snd (hstates : (b.states.map (·.id)).Nodup) {ids : List Int}
    (hids : ids.Perm (b.endingStates db)) :
    (b.healStates db).2 = b.withTurnCounted.withoutStates ids := by
  have hfilter : b.withTurnCounted.states.filter (fun s => !expired db s) =
      b.withTurnCounted.states.filter (·.id ∉ ids) :=
    List.filter_congr fun s hs => by
      have hmem : expired db s = true ↔ s.id ∈ ids := by
        rw [hids.mem_iff, mem_lapsing_iff hstates hs, expired_iff]
      simp [← hmem]
  exact congrArg (fun states => { b with states := states }) hfilter

theorem isDead_withTurnCounted (b : Battler) : b.withTurnCounted.isDead = b.isDead := by
  unfold isDead hasState withTurnCounted
  rw [List.any_map]
  rfl

theorem isDead_of_endingStates (h : deathState ∈ b.endingStates db) : b.isDead = true := by
  obtain ⟨s, hs, hid⟩ := List.mem_map.mp h
  rw [← isDead_withTurnCounted, isDead, hasState_iff, ← hid]
  exact List.mem_map_of_mem (List.mem_of_mem_filter hs)

/-- A turn of the states releases those that have lasted theirs, in the order of the list. But for
HP and the fade it leaves what taking them away after the turn was counted leaves, in whatever
order; and it leaves the very same, and no battler without HP who is not dead, unless the death
state is among them. A living battler does not have it. -/
theorem healStates_agrees_iff (db : Database) (hhp : b.hp = 0 ↔ b.isDead = true)
    (hstates : (b.states.map (·.id)).Nodup) :
    (b.healStates db).1 = b.endingStates db ∧
      (∀ ids, ids.Perm (b.endingStates db) →
        (b.healStates db).2 =
          { b.withTurnCounted.removingStates ids with hp := b.hp, deathTimer := b.deathTimer } ∧
          ((b.healStates db).2 = b.withTurnCounted.removingStates ids ↔
            deathState ∉ b.endingStates db)) ∧
      (((b.healStates db).2.hp = 0 → (b.healStates db).2.isDead = true) ↔
        deathState ∉ b.endingStates db) ∧
      (b.isDead = false → deathState ∉ b.endingStates db) := by
  refine ⟨b.healStates_fst db, fun ids hids => ?_, ?_, fun hlive hmem => ?_⟩
  · have hiff : (deathState ∈ ids ∧ b.withTurnCounted.isDead = true) ↔
        deathState ∈ b.endingStates db := by
      rw [isDead_withTurnCounted, hids.mem_iff]
      exact ⟨And.left, fun hmem => ⟨hmem, isDead_of_endingStates hmem⟩⟩
    rw [healStates_snd hstates hids, removingStates_eq]
    simp only [hiff]
    split
    · rename_i hmem
      refine ⟨rfl, fun heq => ?_, fun hout => absurd hmem hout⟩
      have hpoint : b.hp = max b.hp 1 := congrArg (·.hp) heq
      have hnone := hhp.mpr (isDead_of_endingStates hmem)
      omega
    · rename_i hout
      exact ⟨rfl, fun _ => hout, fun _ => rfl⟩
  · rw [healStates_snd hstates (List.Perm.refl _), isDead_withoutStates, isDead_withTurnCounted]
    constructor
    · intro h hmem
      exact (h (hhp.mpr (isDead_of_endingStates hmem))).1 hmem
    · intro hout hhp'
      exact ⟨hout, hhp.mp hhp'⟩
  · exact Bool.false_ne_true (hlive.symm.trans (isDead_of_endingStates hmem))

/-- Three states: a sleep in its last turn, a poison that goes on, and a daze long over. -/
def drowsy : Battler :=
  { ofActor { id := 1, name := "" } with states := [⟨4, 1⟩, ⟨5, 0⟩, ⟨6, 3⟩] }

def ailments : Database where
  states :=
    [{ id := 4, name := "", autoReleaseTurns := 2 }, { id := 5, name := "", autoReleaseTurns := 3 },
      { id := 6, name := "", autoReleaseTurns := 1 }]

theorem healStates_agrees_iff_of_drowsy :
    (drowsy.hp = 0 ↔ drowsy.isDead = true) ∧ (drowsy.states.map (·.id)).Nodup ∧
      (drowsy.healStates ailments).1 = [4, 6] ∧ [6, 4].Perm (drowsy.endingStates ailments) ∧
      (drowsy.healStates ailments).2 = drowsy.withTurnCounted.removingStates [6, 4] := by
  have hhp : drowsy.hp = 0 ↔ drowsy.isDead = true := by decide
  have hstates : (drowsy.states.map (·.id)).Nodup := by decide
  have hperm : [6, 4].Perm (drowsy.endingStates ailments) := by decide
  obtain ⟨htold, hagree, -, hout⟩ := healStates_agrees_iff ailments hhp hstates
  exact ⟨hhp, hstates, htold.trans (by decide), hperm, (hagree _ hperm).2.mpr (hout (by decide))⟩

/-- Death that wears off after a turn: who is released from it is not dead and has no HP, who is
taken out of it has a point. -/
theorem not_healStates_agrees_of_waking :
    let b := (ofActor { id := 1, name := "" }).kill
    let db : Database := { states := [{ id := deathState, name := "", autoReleaseTurns := 1 }] }
    (b.hp = 0 ↔ b.isDead = true) ∧ 1 ≤ b.stats.maxHp ∧ (b.states.map (·.id)).Nodup ∧
      b.endingStates db = [deathState] ∧
        (b.healStates db).2 ≠ b.withTurnCounted.removingStates [deathState] ∧
      (b.healStates db).2.hp = 0 ∧ (b.healStates db).2.isDead = false ∧
      (b.withTurnCounted.removingStates [deathState]).hp = 1 := by
  decide

end ActiveBattle.Battler
