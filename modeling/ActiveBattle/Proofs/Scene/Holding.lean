import Mathlib.Logic.Basic
import ActiveBattle.Scene.Basic

/-!
# How long a scene is held

A wait has a window: a frame in which decision or shift is down ends it once the least number of
frames has been counted, and the greatest number ends it in any case. Frames in which cancel is down
are not counted. Whatever else happens to the scene in between, the wait is over from the first such
frame on, and not before.
-/

namespace ActiveBattle

set_option autoImplicit false

/-- The buttons that cut a wait short. -/
def InputState.hurries (i : InputState) : Bool := i.isPressed .decision || i.isPressed .shift

/-- How many of the first frames are counted: those in which cancel is up. -/
def heeded (inputs : Nat → InputState) (n : Nat) : Nat :=
  (List.range n).countP fun i => !(inputs i).isPressed .cancel

/-- The frame is counted, and its number among the counted ones is the greatest, or is no less than
the least while decision or shift is down. -/
def Releases (least most : Int) (inputs : Nat → InputState) (n : Nat) : Prop :=
  (inputs n).isPressed .cancel = false ∧
    (most ≤ heeded inputs (n + 1) ∨ least ≤ heeded inputs (n + 1) ∧ (inputs n).hurries = true)

instance (least most : Int) (inputs : Nat → InputState) :
    DecidablePred (Releases least most inputs) := fun n =>
  inferInstanceAs (Decidable ((inputs n).isPressed .cancel = false ∧
    (most ≤ heeded inputs (n + 1) ∨ least ≤ heeded inputs (n + 1) ∧ (inputs n).hurries = true)))

theorem heeded_succ (inputs : Nat → InputState) (n : Nat) :
    heeded inputs (n + 1) = heeded inputs n + if (inputs n).isPressed .cancel = true then
      0 else 1 := by
  unfold heeded
  rw [List.range_succ, List.countP_append, List.countP_singleton]
  cases (inputs n).isPressed .cancel <;> rfl

/-- When enough frames are counted, one of them was the last that may be. -/
theorem exists_releases {least most : Int} (hmost : 0 < most) {inputs : Nat → InputState} {n : Nat}
    (h : most ≤ heeded inputs n) : ∃ m < n, Releases least most inputs m := by
  induction n with
  | zero =>
    have hnone : heeded inputs 0 = 0 := rfl
    omega
  | succ n ih =>
    rw [heeded_succ] at h
    split at h
    · obtain ⟨m, hm, hreleases⟩ := ih h
      exact ⟨m, by omega, hreleases⟩
    · rename_i hcounted
      have hlast : heeded inputs (n + 1) = heeded inputs n + 1 := by
        rw [heeded_succ, if_neg hcounted]
      exact ⟨n, by omega, Bool.not_eq_true _ ▸ hcounted, .inl (by omega)⟩

namespace Scene

variable {σ : Type}

/-- What a scene knows of its wait: the frames left, and from which number of them on it may be cut
short. -/
def hold (s : Scene σ) : Int × Int := (s.wait, s.minWait)

theorem checkWait_of_over {s : Scene σ} (h : s.wait ≤ 0) (input : InputState) :
    s.checkWait input = (true, s) := by
  unfold checkWait
  exact if_pos h

theorem checkWait_of_cancel {s : Scene σ} (h : 0 < s.wait) {input : InputState}
    (hcancel : input.isPressed .cancel = true) : s.checkWait input = (false, s) := by
  unfold checkWait
  rw [if_neg (by omega), if_pos hcancel]

/-- A frame that is counted ends the wait, or leaves one frame less. -/
theorem checkWait_of_counted {s : Scene σ} (h : 0 < s.wait) {input : InputState}
    (hcancel : input.isPressed .cancel = false) :
    s.checkWait input =
      if s.wait - 1 ≤ s.minWait ∧ (input.hurries = true ∨ s.wait - 1 ≤ 0) then
        (true, { s with wait := 0 })
      else (false, { s with wait := s.wait - 1 }) := by
  have hnot : ¬input.isPressed .cancel = true := by rw [hcancel]; exact Bool.false_ne_true
  have hiff : (s.wait - 1 > s.minWait ∨ (!input.hurries) = true ∧ s.wait - 1 > 0) ↔
      ¬(s.wait - 1 ≤ s.minWait ∧ (input.hurries = true ∨ s.wait - 1 ≤ 0)) := by
    cases input.hurries <;> simp <;> omega
  unfold checkWait
  rw [if_neg (by omega), if_neg hnot]
  exact (if_congr hiff rfl rfl).trans (ite_not _ _ _)

/-- The scenes before each frame of a wait: the first has just been told to wait, and what a frame
leaves of the wait is what the next one finds. -/
structure HeldFor (least most : Int) (inputs : Nat → InputState) (scenes : Nat → Scene σ) :
    Prop where
  start : ∃ s : Scene σ, (scenes 0).hold = (s.setWait least most).hold
  next : ∀ n, (scenes (n + 1)).hold = ((scenes n).checkWait (inputs n)).2.hold

section Window

variable {least most : Int} {inputs : Nat → InputState} {scenes : Nat → Scene σ}

/-- The wait goes on: as many frames are left as have not been counted. -/
structure Going (least most : Int) (inputs : Nat → InputState) (n : Nat) (s : Scene σ) : Prop where
  unreleased : ∀ m < n, ¬Releases least most inputs m
  early : heeded inputs n < most
  hold : s.hold = (most - heeded inputs n, most - least)

/-- A frame of a wait that goes on ends it if it releases, and else leaves it going. -/
theorem Going.checkWait {n : Nat} {s : Scene σ} (hle : least ≤ most)
    (h : Going least most inputs n s) :
    (Releases least most inputs n ∧ s.checkWait (inputs n) = (true, { s with wait := 0 })) ∨
      (¬Releases least most inputs n ∧ (s.checkWait (inputs n)).1 = false ∧
        (s.checkWait (inputs n)).2.hold = (most - heeded inputs (n + 1), most - least)) := by
  have hearly := h.early
  have hhold := h.hold
  have hwait : s.wait = most - heeded inputs n := congrArg Prod.fst hhold
  have hmin : s.minWait = most - least := congrArg Prod.snd hhold
  have hsucc := heeded_succ inputs n
  cases hcancel : (inputs n).isPressed .cancel with
  | true =>
    rw [if_pos hcancel, Nat.add_zero] at hsucc
    rw [checkWait_of_cancel (by omega) hcancel, hsucc]
    refine .inr ⟨fun hreleases => ?_, rfl, hhold⟩
    exact Bool.false_ne_true (hreleases.1.symm.trans hcancel)
  | false =>
    rw [if_neg (by rw [hcancel]; exact Bool.false_ne_true)] at hsucc
    have hiff : Releases least most inputs n ↔
        s.wait - 1 ≤ s.minWait ∧ ((inputs n).hurries = true ∨ s.wait - 1 ≤ 0) := by
      unfold Releases
      rw [hsucc, hwait, hmin]
      push_cast
      cases (inputs n).hurries <;> simp [hcancel] <;> omega
    rw [checkWait_of_counted (by omega) hcancel]
    by_cases hreleases : Releases least most inputs n
    · rw [if_pos (hiff.mp hreleases)]
      exact .inl ⟨hreleases, rfl⟩
    · rw [if_neg (hiff.not.mp hreleases)]
      have hleft : s.wait - 1 = most - heeded inputs (n + 1) := by
        rw [hsucc, hwait]
        push_cast
        rw [Int.sub_sub]
      exact .inr ⟨hreleases, rfl, Prod.ext hleft hmin⟩

/-- Before every frame the wait goes on, or a frame before it has released the scene. -/
theorem HeldFor.going_or_over (hle : least ≤ most) (hmost : 0 < most)
    (h : HeldFor least most inputs scenes) (n : Nat) :
    Going least most inputs n (scenes n) ∨
      ((∃ m < n, Releases least most inputs m) ∧ (scenes n).wait = 0) := by
  induction n with
  | zero =>
    obtain ⟨s, hs⟩ := h.start
    refine .inl ⟨nofun, hmost, hs.trans ?_⟩
    unfold hold setWait
    rw [show heeded inputs 0 = 0 from rfl, Int.natCast_zero, Int.sub_zero]
  | succ n ih =>
    have hnext := h.next n
    rcases ih with hgoing | ⟨⟨m, hm, hreleases⟩, hzero⟩
    · rcases hgoing.checkWait hle with ⟨hreleases, hchecked⟩ | ⟨hwaits, -, hhold⟩
      · rw [hchecked] at hnext
        exact .inr ⟨⟨n, by omega, hreleases⟩, congrArg Prod.fst hnext⟩
      · have hopen : ∀ m < n + 1, ¬Releases least most inputs m := fun m hm => by
          rcases Nat.lt_succ_iff_lt_or_eq.mp hm with hbefore | rfl
          · exact hgoing.unreleased m hbefore
          · exact hwaits
        refine .inl ⟨hopen, Int.lt_of_not_ge fun hlate => ?_, hnext.trans hhold⟩
        obtain ⟨m, hm, hreleases⟩ := exists_releases hmost hlate
        exact hopen m hm hreleases
    · rw [checkWait_of_over (by omega)] at hnext
      exact .inr ⟨⟨m, by omega, hreleases⟩, (congrArg Prod.fst hnext).trans hzero⟩

end Window

/-- A wait is over in a frame just when that frame or one before it releases the scene. The greatest
number of counted frames releases it in any case, and until then a frame in which cancel is down
changes nothing. -/
theorem wait_over_iff {σ : Type} {least most : Int} {inputs : Nat → InputState}
    {scenes : Nat → Scene σ} (hle : least ≤ most) (hmost : 0 < most)
    (h : HeldFor least most inputs scenes) (n : Nat) :
    (((scenes n).checkWait (inputs n)).1 = true ↔ ∃ m ≤ n, Releases least most inputs m) ∧
      (most ≤ heeded inputs (n + 1) → ((scenes n).checkWait (inputs n)).1 = true) ∧
      ((inputs n).isPressed .cancel = true → (∀ m < n, ¬Releases least most inputs m) →
        (scenes n).checkWait (inputs n) = (false, scenes n)) := by
  have hiff : ((scenes n).checkWait (inputs n)).1 = true ↔
      ∃ m ≤ n, Releases least most inputs m := by
    rcases h.going_or_over hle hmost n with hgoing | ⟨⟨m, hm, hreleases⟩, hzero⟩
    · rcases hgoing.checkWait hle with ⟨hreleases, hchecked⟩ | ⟨hwaits, hchecked, -⟩
      · rw [hchecked]
        exact ⟨fun _ => ⟨n, Nat.le_refl n, hreleases⟩, fun _ => rfl⟩
      · rw [hchecked]
        refine ⟨nofun, fun ⟨m, hm, hreleases⟩ => ?_⟩
        rcases Nat.lt_or_eq_of_le hm with hbefore | rfl
        · exact absurd hreleases (hgoing.unreleased m hbefore)
        · exact absurd hreleases hwaits
    · rw [checkWait_of_over (by omega)]
      exact ⟨fun _ => ⟨m, by omega, hreleases⟩, fun _ => rfl⟩
  refine ⟨hiff, fun hall => ?_, fun hcancel hopen => ?_⟩
  · obtain ⟨m, hm, hreleases⟩ := exists_releases hmost hall
    exact hiff.mpr ⟨m, by omega, hreleases⟩
  · rcases h.going_or_over hle hmost n with hgoing | ⟨⟨m, hm, hreleases⟩, -⟩
    · have hwait : (scenes n).wait = most - heeded inputs n := congrArg Prod.fst hgoing.hold
      have hearly := hgoing.early
      exact checkWait_of_cancel (by omega) hcancel
    · exact absurd hreleases (hopen m hm)

/-- The scenes of a wait in which nothing else happens. -/
def lingering {σ : Type} (s : Scene σ) (inputs : Nat → InputState) : Nat → Scene σ
  | 0 => s
  | n + 1 => ((s.lingering inputs n).checkWait (inputs n)).2

theorem heldFor_lingering {σ : Type} (s : Scene σ) (least most : Int) (inputs : Nat → InputState) :
    HeldFor least most inputs ((s.setWait least most).lingering inputs) :=
  ⟨⟨s, rfl⟩, fun _ => rfl⟩

/-- Cancel in the second frame, and shift in the fourth. -/
def nudges : Nat → InputState
  | 1 => .hold {} .cancel
  | 3 => .hold {} .shift
  | _ => {}

theorem wait_over_iff_of_nudges :
    let scenes := ((ofSetup {} {} {} {} : Scene InstantAssets).setWait 2 30).lingering nudges
    (2 : Int) ≤ 30 ∧ (0 : Int) < 30 ∧ HeldFor 2 30 nudges scenes ∧
      (scenes 1).checkWait (nudges 1) = (false, scenes 1) ∧
      ((scenes 2).checkWait (nudges 2)).1 = false ∧ ((scenes 3).checkWait (nudges 3)).1 = true := by
  have hheld := (ofSetup {} {} {} {} : Scene InstantAssets).heldFor_lingering 2 30 nudges
  have hwaits : ∀ m ≤ 2, ¬Releases 2 30 nudges m := by decide
  have hlaw := wait_over_iff (by decide) (by decide) hheld
  refine ⟨by decide, by decide, hheld, (hlaw 1).2.2 (by decide) (by decide), ?_, ?_⟩
  · rw [Bool.eq_false_iff, Ne, (hlaw 2).1]
    rintro ⟨m, hm, hreleases⟩
    exact hwaits m hm hreleases
  · exact (hlaw 3).1.mpr ⟨3, Nat.le_refl 3, by decide⟩

end Scene

end ActiveBattle
