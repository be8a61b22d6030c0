import Mathlib.Algebra.Ring.Int.Defs
import ActiveBattle.Proofs.Battler.Sound

/-!
# Many changes of HP

A living battler dies of the first change that may kill and takes all the HP it has left, and of no
other; every change before leaves it between one point and its maximum, and every one after does
nothing. Whatever is asked for, the changes told add up to the difference in HP.
-/

namespace ActiveBattle

set_option autoImplicit false

/-- A change asked of a battler's HP: by how much, and whether it may kill. -/
structure HpChange where
  delta : Int
  lethal : Bool

namespace Battler

/-- Alive, with HP in range. -/
structure AliveInRange (b : Battler) : Prop where
  alive : b.isDead = false
  pos : 1 ≤ b.hp
  le : b.hp ≤ b.stats.maxHp

/-- The battler lives on, and differs in nothing but its HP. -/
structure Spared (b b' : Battler) : Prop where
  rest : b' = { b with hp := b'.hp }
  aliveInRange : b'.AliveInRange

/-- A change that may kill, and takes all HP there is. -/
def Fatal (b : Battler) (c : HpChange) : Prop := c.lethal = true ∧ c.delta ≤ -b.hp

/-- Changes asked for one after the other: what each of them told, and the battler after all. -/
def undergo (b : Battler) : List HpChange → List Int × Battler
  | [] => ([], b)
  | c :: rest =>
    let (change, b) := b.changeHp c.delta c.lethal
    let (changes, b) := undergo b rest
    (change :: changes, b)

variable {b b' b'' : Battler}

namespace Spared

theorem refl (h : b.AliveInRange) : Spared b b := ⟨rfl, h⟩

theorem trans (h : Spared b b') (h' : Spared b' b'') : Spared b b'' := by
  refine ⟨?_, h'.aliveInRange⟩
  rw [h'.rest, h.rest]

end Spared

/-! ### One change -/

theorem isDead_kill (b : Battler) : b.kill.isDead = true := rfl

theorem changeHp_of_dead (hdead : b.isDead = true) (delta : Int) (lethal : Bool) :
    b.changeHp delta lethal = (0, b) := by
  unfold changeHp
  exact if_pos hdead

/-- The change told is the one made. -/
theorem changeHp_fst (b : Battler) (delta : Int) (lethal : Bool) :
    (b.changeHp delta lethal).1 = (b.changeHp delta lethal).2.hp - b.hp := by
  unfold changeHp
  split
  · exact (Int.sub_self b.hp).symm
  · split
    · exact (Int.sub_self b.hp).symm
    · dsimp only
      split
      · rename_i hzero
        rw [hzero]
        rfl
      · rfl

namespace AliveInRange

theorem not_fatal (h : b.AliveInRange) {c : HpChange} (hmild : c.lethal = false ∨ 0 ≤ c.delta) :
    ¬b.Fatal c := by
  have hpos := h.pos
  rintro ⟨hlethal, hdelta⟩
  rcases hmild with hmild | hmild
  · rw [hmild] at hlethal
    contradiction
  · omega

/-- The least HP that is left is one point or none, and there is room for it. -/
theorem hpFloor_le (h : b.AliveInRange) (delta : Int) (lethal : Bool) :
    ¬b.stats.maxHp < b.hpFloor delta lethal := by
  have hpos := h.pos
  have hle := h.le
  unfold hpFloor
  split <;> omega

theorem changeHp_eq (h : b.AliveInRange) (delta : Int) (lethal : Bool) :
    b.changeHp delta lethal =
      let hp := clamp (b.hpFloor delta lethal) b.stats.maxHp (saturate (b.hp + delta))
      (hp - b.hp, if hp = 0 then b.kill else { b with hp := hp }) := by
  unfold changeHp
  rw [if_neg (by rw [h.alive]; exact Bool.false_ne_true), if_neg (h.hpFloor_le delta lethal)]

theorem changeHp_of_fatal (h : b.AliveInRange) {c : HpChange} (hfatal : b.Fatal c) :
    b.changeHp c.delta c.lethal = (-b.hp, b.kill) := by
  obtain ⟨hlethal, hdelta⟩ := hfatal
  have hle := h.le
  have hpos := h.pos
  have hzero : clamp (b.hpFloor c.delta c.lethal) b.stats.maxHp (saturate (b.hp + c.delta)) =
      0 := by
    have hfloor : b.hpFloor c.delta c.lethal = 0 := by simp [hpFloor, hlethal]
    rw [hfloor]
    unfold saturate clamp operandMin operandMax
    omega
  rw [h.changeHp_eq]
  dsimp only
  rw [hzero, if_pos rfl, Int.zero_sub]

/-- A change that does not kill leaves a point of HP at least, and the maximum at most. -/
theorem changeHp_of_not_fatal (h : b.AliveInRange) {c : HpChange} (hmild : ¬b.Fatal c) :
    (b.changeHp c.delta c.lethal).2 =
      { b with hp := clamp 1 b.stats.maxHp (saturate (b.hp + c.delta)) } := by
  have hle := h.le
  have hpos := h.pos
  have hmild : c.lethal = true → 1 ≤ b.hp + c.delta := fun hlethal => by
    by_contra hzero
    exact hmild ⟨hlethal, by omega⟩
  have hfloor : clamp (b.hpFloor c.delta c.lethal) b.stats.maxHp (saturate (b.hp + c.delta)) =
      clamp 1 b.stats.maxHp (saturate (b.hp + c.delta)) := by
    unfold hpFloor saturate clamp operandMin operandMax
    split
    · rename_i hgentle
      simp only [Bool.or_eq_true, decide_eq_true_eq] at hgentle
      have hleft : 1 ≤ b.hp + c.delta := hgentle.elim hmild (by omega)
      omega
    · omega
  have hne : clamp 1 b.stats.maxHp (saturate (b.hp + c.delta)) ≠ 0 := by
    have hone := le_clamp 1 b.stats.maxHp (saturate (b.hp + c.delta))
    omega
  rw [h.changeHp_eq, hfloor]
  exact if_neg hne

theorem spared (h : b.AliveInRange) {c : HpChange} (hmild : ¬b.Fatal c) :
    Spared b (b.changeHp c.delta c.lethal).2 := by
  have hle := h.le
  have hpos := h.pos
  rw [h.changeHp_of_not_fatal hmild]
  exact ⟨rfl, h.alive, le_clamp _ _ _, clamp_le (by omega) _⟩

end AliveInRange

/-! ### A run of changes -/

theorem undergo_cons (b : Battler) (c : HpChange) (rest : List HpChange) :
    b.undergo (c :: rest) =
      ((b.changeHp c.delta c.lethal).1 :: ((b.changeHp c.delta c.lethal).2.undergo rest).1,
        ((b.changeHp c.delta c.lethal).2.undergo rest).2) :=
  rfl

theorem undergo_of_dead (hdead : b.isDead = true) (calls : List HpChange) :
    b.undergo calls = (List.replicate calls.length 0, b) := by
  induction calls with
  | nil => rfl
  | cons c rest ih =>
    rw [undergo_cons, changeHp_of_dead hdead, ih]
    rfl

theorem sum_undergo (b : Battler) (calls : List HpChange) :
    (b.undergo calls).1.sum = (b.undergo calls).2.hp - b.hp := by
  induction calls generalizing b with
  | nil => exact (Int.sub_self b.hp).symm
  | cons c rest ih =>
    have htold := b.changeHp_fst c.delta c.lethal
    have hrest := ih (b.changeHp c.delta c.lethal).2
    rw [undergo_cons, List.sum_cons]
    dsimp only
    omega

/-- A run of changes ends with the battler spared by all, or killed by one. -/
theorem AliveInRange.undergo_cases (h : b.AliveInRange) (calls : List HpChange) :
    Spared b (b.undergo calls).2 ∨ ∃ c, Spared b c ∧ (b.undergo calls).2 = c.kill := by
  induction calls generalizing b with
  | nil => exact .inl (.refl h)
  | cons c rest ih =>
    by_cases hfatal : b.Fatal c
    · refine .inr ⟨b, .refl h, ?_⟩
      rw [undergo_cons, h.changeHp_of_fatal hfatal, undergo_of_dead b.isDead_kill]
    · have hspared := h.spared hfatal
      rcases ih hspared.aliveInRange with hon | ⟨d, hd, hkilled⟩
      · exact .inl (hspared.trans hon)
      · exact .inr ⟨d, hspared.trans hd, hkilled⟩

theorem AliveInRange.spared_undergo (h : b.AliveInRange) {calls : List HpChange}
    (hlive : (b.undergo calls).2.isDead = false) :
    Spared b (b.undergo calls).2 := by
  refine (h.undergo_cases calls).resolve_right ?_
  rintro ⟨c, -, hkilled⟩
  rw [hkilled, c.isDead_kill] at hlive
  contradiction

/-- HP stays in range, and the range it is held in has members. -/
theorem AliveInRange.undergo_mem (h : b.AliveInRange) (calls : List HpChange) :
    (0 ≤ (b.undergo calls).2.hp ∧ (b.undergo calls).2.hp ≤ b.stats.maxHp) ∧
      (b.undergo calls).2.emptyRange = b.emptyRange := by
  have hle := h.le
  have hpos := h.pos
  rcases h.undergo_cases calls with hspared | ⟨c, hspared, hkilled⟩
  · have hpos' := hspared.aliveInRange.pos
    have hle' := hspared.aliveInRange.le
    have hstats : (b.undergo calls).2.stats = b.stats := by rw [hspared.rest]
    rw [hstats] at hle'
    refine ⟨⟨by omega, hle'⟩, ?_⟩
    rw [hspared.rest]
  · have hrange : c.emptyRange = b.emptyRange := by rw [hspared.rest]
    have hroom : 0 ≤ b.stats.maxHp := by omega
    rw [hkilled]
    exact ⟨⟨Int.le_refl 0, hroom⟩, hrange⟩

/-- Death comes by a fatal change, and by no other. -/
theorem AliveInRange.isDead_undergo_iff (h : b.AliveInRange) (calls : List HpChange) :
    (b.undergo calls).2.isDead = true ↔
      ∃ before c rest, calls = before ++ c :: rest ∧ (b.undergo before).2.Fatal c := by
  induction calls generalizing b with
  | nil =>
    refine ⟨fun hdead => absurd (h.alive.symm.trans hdead) Bool.false_ne_true, ?_⟩
    rintro ⟨before, c, rest, hcalls, -⟩
    simp at hcalls
  | cons c rest ih =>
    by_cases hfatal : b.Fatal c
    · refine ⟨fun _ => ⟨[], c, rest, rfl, hfatal⟩, fun _ => ?_⟩
      rw [undergo_cons, h.changeHp_of_fatal hfatal, undergo_of_dead b.isDead_kill]
      exact b.isDead_kill
    · rw [undergo_cons, ih (h.spared hfatal).aliveInRange]
      constructor
      · rintro ⟨before, d, later, rfl, hd⟩
        exact ⟨c :: before, d, later, rfl, hd⟩
      · rintro ⟨before, d, later, hcalls, hd⟩
        cases before with
        | nil =>
          obtain ⟨rfl, rfl⟩ := List.cons.inj hcalls
          exact absurd hd hfatal
        | cons _ before =>
          obtain ⟨rfl, rfl⟩ := List.cons.inj hcalls
          exact ⟨before, d, later, rfl, hd⟩

end Battler

end ActiveBattle
