import Mathlib.Data.List.Nodup
import ActiveBattle.Proofs.Battler.Change

/-!
# Sound battlers

HP, SP and gauge in range, and death and zero HP going together. Whatever an action, a script or the
formation does to a sound battler leaves it sound. A turn of its states does so only for the living:
the death state can wear off like any other, and would leave a battler without HP that is not dead.
-/

namespace ActiveBattle.Battler

set_option autoImplicit false

/-- What holds of a battler throughout a battle whose gauges hold up to `max`. -/
structure Sound (max : Int) (b : Battler) : Prop where
  maxHp_pos : 1 ≤ b.stats.maxHp
  maxSp_nonneg : 0 ≤ b.stats.maxSp
  hp : 0 ≤ b.hp ∧ b.hp ≤ b.stats.maxHp
  sp : 0 ≤ b.sp ∧ b.sp ≤ b.stats.maxSp
  gauge : 0 ≤ b.gauge ∧ b.gauge ≤ max
  states : (b.states.map (·.id)).Nodup
  hp_eq_zero_iff : b.hp = 0 ↔ b.hasState deathState = true
  dead : b.hasState deathState = true → b.states.map (·.id) = [deathState] ∧ b.gauge = 0
  emptyRange : b.emptyRange = false

variable {max : Int} {b b' : Battler}

theorem hasState_iff {state : Int} : b.hasState state = true ↔ state ∈ b.states.map (·.id) := by
  simp [hasState]

theorem hasState_eq_false_iff {state : Int} :
    b.hasState state = false ↔ state ∉ b.states.map (·.id) := by
  rw [← hasState_iff, Bool.not_eq_true]

namespace Sound

theorem isDead_of_hp (h : b.Sound max) (hp : b.hp = 0) : b.isDead = true := h.hp_eq_zero_iff.mp hp

theorem hp_pos (h : b.Sound max) (hlive : b.isDead = false) : 1 ≤ b.hp := by
  have hne : b.hp ≠ 0 := fun hp => by
    rw [h.isDead_of_hp hp] at hlive
    contradiction
  have hnonneg := h.hp.1
  omega

/-- A living battler with other states, death not among them. -/
theorem of_living {states : List ActiveState} (h : b.Sound max) (hlive : b.isDead = false)
    (hnodup : (states.map (·.id)).Nodup) (hdeath : deathState ∉ states.map (·.id)) :
    Sound max { b with states := states } := by
  have hstate : ({ b with states := states } : Battler).hasState deathState = false :=
    hasState_eq_false_iff.mpr hdeath
  have hpos := h.hp_pos hlive
  refine { h with states := hnodup, hp_eq_zero_iff := ?_, dead := ?_ }
  · rw [hstate]
    refine ⟨?_, fun hfalse => by contradiction⟩
    intro hp
    change b.hp = 0 at hp
    omega
  · rw [hstate]
    intro hfalse
    contradiction

theorem kill (h : b.Sound max) : b.kill.Sound max where
  maxHp_pos := h.maxHp_pos
  maxSp_nonneg := h.maxSp_nonneg
  hp := ⟨Int.le_refl 0, Int.le_trans h.hp.1 h.hp.2⟩
  sp := h.sp
  gauge := ⟨Int.le_refl 0, Int.le_trans h.gauge.1 h.gauge.2⟩
  states := List.nodup_singleton _
  hp_eq_zero_iff := ⟨fun _ => rfl, fun _ => rfl⟩
  dead := fun _ => ⟨rfl, rfl⟩
  emptyRange := h.emptyRange

theorem changeHp (h : b.Sound max) (delta : Int) (lethal : Bool) :
    (b.changeHp delta lethal).2.Sound max := by
  unfold Battler.changeHp
  split
  · exact h
  · rename_i hlive
    rw [Bool.not_eq_true] at hlive
    have hpos := h.hp_pos hlive
    have hmax := h.maxHp_pos
    have hfloor : 0 ≤ b.hpFloor delta lethal ∧ b.hpFloor delta lethal ≤ 1 := by
      unfold hpFloor
      split <;> omega
    split
    · omega
    · dsimp only
      split
      · exact h.kill
      · rename_i hne
        have hle := clamp_le (Int.le_trans hfloor.2 hmax) (saturate (b.hp + delta))
        have hge := le_clamp (b.hpFloor delta lethal) b.stats.maxHp (saturate (b.hp + delta))
        refine { h with hp := ⟨Int.le_trans hfloor.1 hge, hle⟩, hp_eq_zero_iff := ?_ }
        exact ⟨fun hp => absurd hp hne, fun hdead => absurd (hlive.symm.trans hdead) (by simp)⟩

theorem setSp (h : b.Sound max) (sp : Int) : (b.setSp sp).Sound max := by
  have hmax := h.maxSp_nonneg
  unfold Battler.setSp
  split
  · omega
  · exact { h with sp := ⟨le_clamp 0 b.stats.maxSp sp, clamp_le hmax sp⟩ }

theorem addState (h : b.Sound max) (state : Int) (db : Database) :
    (b.addState state db).2.Sound max := by
  unfold Battler.addState
  split
  · exact h
  · rename_i hnew
    rw [Bool.or_eq_true, not_or, Bool.not_eq_true, Bool.not_eq_true] at hnew
    obtain ⟨hlive, hnew⟩ := hnew
    split
    · exact h.kill
    · rename_i hdeath
      split
      · exact h
      · have hout : state ∉ b.states.map (·.id) := hasState_eq_false_iff.mp hnew
        have hliving : deathState ∉ b.states.map (·.id) := hasState_eq_false_iff.mp hlive
        apply h.of_living hlive
        · rw [List.map_append, List.map_singleton, List.nodup_append]
          refine ⟨h.states, List.nodup_singleton _, ?_⟩
          intro a ha c hc hac
          rw [hac, List.mem_singleton.mp hc] at ha
          exact hout ha
        · rw [List.map_append, List.map_singleton, List.mem_append, List.mem_singleton, not_or]
          exact ⟨hliving, Ne.symm hdeath⟩

theorem filter_nodup (h : b.Sound max) (p : ActiveState → Bool) :
    ((b.states.filter p).map (·.id)).Nodup :=
  h.states.sublist (List.filter_sublist.map _)

theorem removeState (h : b.Sound max) (state : Int) : (b.removeState state).2.Sound max := by
  unfold Battler.removeState
  split
  · rename_i hstate
    dsimp only
    split
    · rename_i hdeath
      subst hdeath
      -- Whoever comes back has no state left, and a point of HP.
      have hnone : ({ b with
          states := b.states.filter (·.id ≠ deathState)
          hp := Max.max b.hp 1
          deathTimer := 0 } : Battler).hasState deathState = false := by
        simp [hasState]
      have hgauge := (h.dead hstate).2
      have hpos := h.maxHp_pos
      have hrange := h.hp
      refine { h with hp := ⟨?_, ?_⟩, states := h.filter_nodup _, hp_eq_zero_iff := ?_, dead := ?_ }
      · change 0 ≤ Max.max b.hp 1
        omega
      · change Max.max b.hp 1 ≤ b.stats.maxHp
        omega
      · rw [hnone]
        refine ⟨?_, fun hfalse => by contradiction⟩
        intro hp
        change Max.max b.hp 1 = 0 at hp
        omega
      · rw [hnone]
        intro hfalse
        contradiction
    · rename_i hdeath
      have hlive : b.isDead = false := by
        refine Bool.not_eq_true _ ▸ fun hdead => hdeath ?_
        have hmem := hasState_iff.mp hstate
        rw [(h.dead hdead).1, List.mem_singleton] at hmem
        exact hmem
      apply h.of_living hlive
      · exact h.filter_nodup _
      · exact fun hmem => hasState_eq_false_iff.mp hlive ((List.filter_sublist.map _).mem hmem)
  · exact h

theorem healed_states (b : Battler) (db : Database) :
    ((b.healStates db).2.states.map (·.id)).Sublist (b.states.map (·.id)) := by
  have hcounted : (b.states.map fun s => { s with turns := s.turns + 1 }).map (·.id) =
      b.states.map (·.id) := by
    rw [List.map_map]
    rfl
  rw [← hcounted]
  exact List.filter_sublist.map _

theorem healed_isDead (hlive : b.isDead = false) (db : Database) :
    (b.healStates db).2.isDead = false :=
  hasState_eq_false_iff.mpr fun hmem =>
    hasState_eq_false_iff.mp hlive ((healed_states b db).mem hmem)

theorem healStates (h : b.Sound max) (hlive : b.isDead = false) (db : Database) :
    (b.healStates db).2.Sound max :=
  h.of_living hlive (h.states.sublist (healed_states b db))
    fun hmem => hasState_eq_false_iff.mp hlive ((healed_states b db).mem hmem)

theorem emptyGauge (h : b.Sound max) : Sound max { b with gauge := 0 } :=
  { h with
    gauge := ⟨Int.le_refl 0, Int.le_trans h.gauge.1 h.gauge.2⟩
    dead := fun hdead => ⟨(h.dead hdead).1, rfl⟩ }

end Sound

theorem Posed.sound (h : Posed b b') (hb : b.Sound max) : b'.Sound max := by
  rw [h]
  exact { hb with }

theorem Arranged.sound (h : Arranged max b b') (hb : b.Sound max) : b'.Sound max := by
  have hmax : 0 ≤ max := Int.le_trans hb.gauge.1 hb.gauge.2
  rcases h.gauge hmax with hkept | ⟨hlive, hnonneg, hle⟩
  · rw [h.rest, hkept]
    exact { hb with }
  · have hgauge := hnonneg hb.gauge.1
    rw [h.rest]
    exact { hb with
      gauge := ⟨hgauge, hle⟩
      dead := fun hdead => absurd (hlive.symm.trans hdead) (by simp) }

theorem Marked.sound (h : Marked b b') (hb : b.Sound max) : b'.Sound max := by
  rcases h.gauge with hkept | hempty
  · rw [h.rest, hkept]
    exact { hb with }
  · rw [h.rest, hempty]
    exact { hb.emptyGauge with }

theorem ActionStep.sound {db : Database} (h : ActionStep db b b') (hb : b.Sound max) :
    b'.Sound max := by
  cases h with
  | hp delta lethal => exact hb.changeHp delta lethal
  | sp sp => exact hb.setSp sp
  | addState state => exact hb.addState state db
  | removeState state => exact hb.removeState state
  | defend => exact { hb with }

theorem ScriptStep.sound {db : Database} (h : ScriptStep db b b') (hb : b.Sound max) :
    b'.Sound max := by
  cases h with
  | hp delta lethal => exact hb.changeHp delta lethal
  | sp sp => exact hb.setSp sp
  | addState state => exact hb.addState state db
  | removeState state => exact hb.removeState state
  | appear => exact { hb with }
  | vanish => exact { hb with }
  | fade => exact { hb with }

theorem Struck.sound {db : Database} (h : Struck db b b') (hb : b.Sound max) : b'.Sound max := by
  induction h with
  | refl => exact hb
  | tail _ hstep ih => exact hstep.sound ih

theorem Scripted.sound {db : Database} (h : Scripted db b b') (hb : b.Sound max) :
    b'.Sound max := by
  induction h with
  | refl => exact hb
  | tail _ hstep ih => exact hstep.sound ih

theorem ComboGiven.sound (h : ComboGiven b b') (hb : b.Sound max) : b'.Sound max := by
  rcases h with rfl | ⟨command, times, rfl⟩
  · exact hb
  · exact { hb with }

theorem sound_of_fresh (hhp : b.hp = b.stats.maxHp) (hsp : b.sp = b.stats.maxSp)
    (hgauge : b.gauge = 0) (hstates : b.states = []) (hrange : b.emptyRange = false)
    (hmax : 0 ≤ max) (hvital : 1 ≤ b.stats.maxHp ∧ 0 ≤ b.stats.maxSp) : b.Sound max := by
  have hnone : b.hasState deathState = false := by simp [hasState, hstates]
  refine ⟨hvital.1, hvital.2, ⟨?_, ?_⟩, ⟨?_, ?_⟩, ⟨?_, ?_⟩, ?_, ?_, ?_, hrange⟩
  · omega
  · omega
  · omega
  · omega
  · omega
  · omega
  · rw [hstates]
    exact .nil
  · rw [hnone]
    refine ⟨?_, fun hfalse => by contradiction⟩
    intro hp
    omega
  · rw [hnone]
    intro hfalse
    contradiction

end ActiveBattle.Battler
