import ActiveBattle.Proofs.Scene.History

/-!
# Whom an action strikes

The step that applies an action asks whether its first target is valid, and then goes through all of
them without asking again (`applyAction_eq_sweep`). So what becomes of the other targets between the
start of a pass and its application, or while the action is applied, goes unnoticed.
-/

namespace ActiveBattle

set_option autoImplicit false

namespace Roster

/-- What tells whether a battler can be a target: that it is there, hidden or not, present or
not. -/
def sighting? (r : Roster) (id : BattlerId) : Option (Bool × Bool) :=
  (r.battler? id).map fun b => (b.hidden, b.isPresent)

/-- Changing one battler does not change what is seen of the others. -/
theorem sighting?_modify_of_ne {r : Roster} {id other : BattlerId} {f : Battler → Battler}
    (hf : ∀ b, r.battler? id = some b → (f b).dbId = b.dbId) (hother : other ≠ id) :
    (r.modify id f).sighting? other = r.sighting? other :=
  congrArg (Option.map _) (battler?_modify_of_ne hf hother)

/-- Nor does a change that neither hides, shows, kills nor revives. -/
theorem sighting?_modify_of_kept (r : Roster) (id : BattlerId) (f : Battler → Battler)
    (hf : ∀ b, (f b).dbId = b.dbId ∧ (f b).hidden = b.hidden ∧ (f b).isPresent = b.isPresent)
    (other : BattlerId) :
    (r.modify id f).sighting? other = r.sighting? other := by
  unfold sighting?
  rw [r.battler?_modify id other f fun b => (hf b).1]
  split
  · rename_i hother
    subst hother
    cases r.battler? other with
    | none => rfl
    | some b => simp only [Option.map_some, (hf b).2.1, (hf b).2.2]
  · rfl

end Roster

namespace Action

theorem isValidTarget_congr {r r' : Roster} {id : BattlerId} (a : Action)
    (h : r'.sighting? id = r.sighting? id) :
    a.isValidTarget r' id = a.isValidTarget r id := by
  unfold Roster.sighting? at h
  unfold isValidTarget
  cases hr : r.battler? id <;> cases hr' : r'.battler? id <;> simp_all

/-- To roll for an action changes the outcome and the dice. -/
theorem execute_eq (a : Action) (g : GameState) :
    ∃ outcome, (a.execute g).1 = { a with outcome := outcome } := by
  unfold execute
  split <;> exact ⟨_, rfl⟩

/-- What an action does to its target leaves the others where they are. -/
theorem apply_sighting? (a : Action) (g : GameState) {target other : BattlerId}
    (htarget : a.target? = some target) (hother : other ≠ target) :
    (a.apply g).2.roster.sighting? other = g.roster.sighting? other := by
  unfold apply
  rw [htarget]
  dsimp only
  split
  · rfl
  · split
    · exact g.roster.sighting?_modify_of_kept a.source ({ · with defending := true })
        (fun _ => ⟨rfl, rfl, rfl⟩) other
    · split
      · rfl
      · rename_i b hb
        refine Roster.sighting?_modify_of_ne (fun c hc => ?_) hother
        obtain rfl : b = c := Option.some.inj (hb.symm.trans hc)
        exact (a.affect_struck g.database b).alikeWithCombo.dbId

/-- The targets from the current one on. -/
def ahead (a : Action) : List BattlerId := a.targets.drop a.current

theorem ahead_eq_nil {a : Action} (h : a.target? = none) : a.ahead = [] :=
  List.drop_eq_nil_of_le (List.getElem?_eq_none_iff.mp h)

/-- The current target comes first, the others after it. -/
theorem ahead_eq_cons {a : Action} {target : BattlerId} (h : a.target? = some target) :
    a.ahead = target :: a.targets.drop (a.current + 1) := by
  obtain ⟨hlt, rfl⟩ := List.getElem?_eq_some_iff.mp h
  exact List.drop_eq_getElem_cons hlt

theorem isCurrentTargetValid_eq (a : Action) (r : Roster) :
    a.isCurrentTargetValid r = a.ahead.head?.any (a.isValidTarget r) := by
  unfold Action.isCurrentTargetValid
  cases htarget : a.target? with
  | none =>
    rw [ahead_eq_nil htarget]
    rfl
  | some target =>
    rw [ahead_eq_cons htarget]
    rfl

end Action

namespace Scene

variable {σ : Type}

/-- A target that an action comes to, the scene in which it does, and whether the action is applied
to it. -/
structure Visit (σ : Type) where
  scene : Scene σ
  target : BattlerId
  struck : Bool

section Quiet

/-- A hook of a kind has an event to run. -/
def hasHookEvent (s : Scene σ) (kind : HookKind) : Bool :=
  let binding := s.director.script.hooks.get kind
  s.director.script.maniac && binding.isBound && (s.store.event? binding.commonEventId).isSome

/-- No hook has an event to run. -/
def LacksHookEvents (s : Scene σ) : Prop := ∀ kind, s.hasHookEvent kind = false

/-- What is seen of a battler stays, and so do the hooks. -/
structure KeepsSighting (id : BattlerId) (s t : Scene σ) : Prop where
  roster : t.roster.sighting? id = s.roster.sighting? id
  director : t.director = s.director
  store : t.store = s.store

namespace KeepsSighting

variable {id : BattlerId} {s t u : Scene σ}

theorem refl (s : Scene σ) : KeepsSighting id s s := ⟨rfl, rfl, rfl⟩

theorem trans (h : KeepsSighting id s t) (h' : KeepsSighting id t u) : KeepsSighting id s u :=
  ⟨h'.roster.trans h.roster, h'.director.trans h.director, h'.store.trans h.store⟩

theorem lacksHookEvents (h : KeepsSighting id s t) (hs : s.LacksHookEvents) :
    t.LacksHookEvents := by
  intro kind
  have hkind := hs kind
  unfold hasHookEvent at hkind ⊢
  rwa [h.director, h.store]

/-- Another battler is modified. -/
theorem modifyBattler {other : BattlerId} (h : id ≠ other) (s : Scene σ) {f : Battler → Battler}
    (hf : ∀ b, (f b).dbId = b.dbId) : KeepsSighting id s (s.modifyBattler other f) :=
  ⟨Roster.sighting?_modify_of_ne (fun b _ => hf b) h, rfl, rfl⟩

end KeepsSighting

theorem showWound_keepsSighting {id target : BattlerId} (h : id ≠ target) (s : Scene σ)
    (wasDead : Bool) :
    KeepsSighting id s (s.showWound target wasDead) := by
  cases target with
  | enemy index =>
    have hblinks : KeepsSighting id s (s.modifyBattler (.enemy index) (·.startBlink)) :=
      .modifyBattler h s fun _ => rfl
    dsimp only [showWound]
    split
    · have hsounds : KeepsSighting id s
          ((s.modifyBattler (.enemy index) (·.startBlink)).playSystem .enemyKill) :=
        hblinks.trans ⟨rfl, rfl, rfl⟩
      exact hsounds.trans (.modifyBattler h _ fun _ => rfl)
    · exact hblinks
  | actor actor => exact .modifyBattler h s fun _ => rfl

variable [AssetLoader σ]

theorem fire_of_lacksHookEvents {s : Scene σ} (hs : s.LacksHookEvents) (kind : HookKind)
    (battler : BattlerId) (a b c d : Int) :
    s.fire kind battler a b c d = s := by
  have hkind := hs kind
  unfold hasHookEvent at hkind
  unfold fire Director.trigger BattleScript.trigger
  dsimp only at hkind ⊢
  split
  · rename_i hbound
    rw [hbound, Bool.true_and] at hkind
    rw [Option.isSome_eq_false_iff, Option.isNone_iff_eq_none] at hkind
    rw [hkind]
  · rfl

theorem showSuccess_keepsSighting {s : Scene σ} (hs : s.LacksHookEvents) (id : BattlerId)
    (a : Action) (target : BattlerId) (sounds : List SoundEffect) :
    KeepsSighting id s (s.showSuccess a target sounds).1 := by
  have hflashed : KeepsSighting id s
      (if a.isCriticalHit then s.modifyStatus (·.flashOnce criticalFlash) else s) := by
    split
    · exact ⟨rfl, rfl, rfl⟩
    · exact .refl s
  unfold showSuccess
  dsimp only
  generalize (if a.isCriticalHit then s.modifyStatus (·.flashOnce criticalFlash) else s) =
    t at hflashed
  split
  · have hfloats : KeepsSighting id s
        (if a.affectedHp ≠ 0 ∨ !a.isPositive then t.addChangeText target a.affectedHp else t) := by
      split
      · exact hflashed.trans ⟨rfl, rfl, rfl⟩
      · exact hflashed
    rw [fire_of_lacksHookEvents (hfloats.lacksHookEvents hs)]
    exact hfloats
  · exact hflashed

/-- Where no hook has an event to run, an action that is applied to one target leaves the others
where they are. -/
theorem applyToTarget_keepsSighting {s : Scene σ} (hs : s.LacksHookEvents) {a : Action}
    {target other : BattlerId} (htarget : a.target? = some target) (hother : other ≠ target)
    (sounds : List SoundEffect) :
    KeepsSighting other s (s.applyToTarget a target sounds).1 := by
  obtain ⟨outcome, hrolled⟩ := a.execute_eq s.game
  have happlied : KeepsSighting other
      s (s.modifyGame fun _ => ((a.execute s.game).1.apply (a.execute s.game).2).2) := by
    refine ⟨?_, rfl, rfl⟩
    have haimed : (a.execute s.game).1.target? = some target := by
      rw [hrolled]
      exact htarget
    have hseen := (a.execute s.game).1.apply_sighting? (a.execute s.game).2 haimed hother
    rw [(a.execute_rolled s.game).2.roster] at hseen
    exact hseen
  unfold applyToTarget
  dsimp only
  generalize (a.execute s.game).1 = b at happlied ⊢
  generalize b.apply (a.execute s.game).2 = applied at happlied ⊢
  obtain ⟨added, g⟩ := applied
  have hwounded : KeepsSighting other s
      (if b.isSuccess && decide (b.affectedHp < 0) then
        (s.modifyGame fun _ => g).showWound target ((s.roster.battler? target).any (·.isDead))
      else s.modifyGame fun _ => g) := by
    split
    · exact happlied.trans (showWound_keepsSighting hother _ _)
    · exact happlied
  generalize (if b.isSuccess && decide (b.affectedHp < 0) then
    (s.modifyGame fun _ => g).showWound target ((s.roster.battler? target).any (·.isDead))
    else s.modifyGame fun _ => g) = t at hwounded ⊢
  have hshown : KeepsSighting other s
      (if b.isSuccess then t.showSuccess b target sounds else t.showMiss target sounds).1 := by
    split
    · exact hwounded.trans
        (showSuccess_keepsSighting (hwounded.lacksHookEvents hs) other b target sounds)
    · exact hwounded.trans ⟨rfl, rfl, rfl⟩
  dsimp only
  apply List.foldlRecOn (motive := KeepsSighting other s)
  · exact hshown
  · intro u hu state _
    rw [fire_of_lacksHookEvents (hu.lacksHookEvents hs)]
    exact hu

end Quiet

variable [AssetLoader σ]

/-- Applies the action to a target, or leaves the target out. -/
def strikeIf (struck : Bool) (s : Scene σ) (a : Action) (target : BattlerId)
    (sounds : List SoundEffect) :
    Scene σ × Action × List SoundEffect :=
  if struck then s.applyToTarget a target sounds else (s, a, sounds)

theorem strikeIf_action (struck : Bool) (s : Scene σ) (a : Action) (target : BattlerId)
    (sounds : List SoundEffect) :
    ∃ outcome, (strikeIf struck s a target sounds).2.1 = { a with outcome := outcome } := by
  unfold strikeIf
  split
  · exact a.execute_eq s.game
  · exact ⟨a.outcome, rfl⟩

/-- Goes through the targets from the current one on, `left` of them at most, and applies the action
to those that `picks` picks. Tells whom it came to as well. -/
def sweep (picks : Scene σ → BattlerId → Bool) (s : Scene σ) (a : Action)
    (sounds : List SoundEffect) :
    Nat → List (Visit σ) × Scene σ × Action × List SoundEffect
  | 0 => ([], s, a, sounds)
  | left + 1 =>
    match a.target? with
    | none => ([], s, a, sounds)
    | some target =>
      let visit : Visit σ := ⟨s, target, picks s target⟩
      let (s, a, sounds) := strikeIf visit.struck s a target sounds
      match a.nextTarget with
      | (true, a) =>
        let (visits, rest) := s.sweep picks a sounds left
        (visit :: visits, rest)
      | (false, a) => ([visit], s, a, sounds)

theorem applyToTargets_eq_sweep (s : Scene σ) (a : Action) (sounds : List SoundEffect)
    (left : Nat) :
    s.applyToTargets a sounds left = (s.sweep (fun _ _ => true) a sounds left).2 := by
  induction left generalizing s a sounds with
  | zero => rfl
  | succ left ih =>
    unfold applyToTargets sweep
    cases a.target? with
    | none => rfl
    | some target =>
      simp only [strikeIf, if_true]
      generalize s.applyToTarget a target sounds = applied
      obtain ⟨t, b, heard⟩ := applied
      dsimp only
      generalize b.nextTarget = next
      obtain ⟨_ | _, c⟩ := next
      · rfl
      · exact ih t c heard

/-- To apply an action is to go through all of its targets if the first of them is valid. -/
theorem applyAction_eq_sweep (s : Scene σ) (a : Action) : s.applyAction a =
    if a.isCurrentTargetValid s.roster then
      let (t, b, sounds) :=
            (s.sweep (fun _ _ => a.isCurrentTargetValid s.roster) a [] a.targets.length).2
      ((sounds.foldl (fun t se => t.play se) t).setWait 30 30).afterPass b
    else (s.setActionState .finished, a) := by
  unfold applyAction
  split
  · rename_i hvalid
    rw [applyToTargets_eq_sweep, hvalid]
  · rfl

/-- Whom the step that applies an action comes to: all of its targets, each of which it strikes if
the first is valid. -/
def visits (s : Scene σ) (a : Action) : List (Visit σ) :=
  (s.sweep (fun _ _ => a.isCurrentTargetValid s.roster) a [] a.targets.length).1

/-- The action is applied to exactly those targets that are valid when they are reached. -/
def Precise (s : Scene σ) (a : Action) : Prop :=
  ∀ v ∈ s.visits a, v.struck = a.isValidTarget v.scene.roster v.target

instance (s : Scene σ) (a : Action) : Decidable (s.Precise a) :=
  inferInstanceAs (Decidable (∀ v ∈ s.visits a, _))

/-- One target after the other, in the order of the list. -/
theorem sweep_targets (picks : Scene σ → BattlerId → Bool) (s : Scene σ) (a : Action)
    (sounds : List SoundEffect) {left : Nat} (hleft : a.targets.length ≤ a.current + left) :
    (s.sweep picks a sounds left).1.map (·.target) = a.ahead := by
  induction left generalizing s a sounds with
  | zero => exact (List.drop_eq_nil_of_le hleft).symm
  | succ left ih =>
    unfold sweep
    cases htarget : a.target? with
    | none => exact (Action.ahead_eq_nil htarget).symm
    | some target =>
      rw [Action.ahead_eq_cons htarget]
      dsimp only
      have haction := strikeIf_action (picks s target) s a target sounds
      generalize strikeIf (picks s target) s a target sounds = reached at haction ⊢
      obtain ⟨t, b, heard⟩ := reached
      obtain ⟨outcome, rfl⟩ := haction
      unfold Action.nextTarget
      dsimp only
      by_cases hmore : a.current + 1 < a.targets.length
      · rw [if_pos hmore]
        have hrest :=
          ih t { a with outcome := outcome, current := a.current + 1 } heard (by dsimp only; omega)
        exact congrArg (target :: ·) hrest
      · rw [if_neg hmore, List.drop_eq_nil_of_le (by omega)]
        rfl

theorem sweep_struck (picks : Scene σ → BattlerId → Bool) (s : Scene σ) (a : Action)
    (sounds : List SoundEffect) (left : Nat) :
    ∀ v ∈ (s.sweep picks a sounds left).1, v.struck = picks v.scene v.target := by
  induction left generalizing s a sounds with
  | zero => exact fun _ hv => absurd hv List.not_mem_nil
  | succ left ih =>
    unfold sweep
    split
    · exact fun _ hv => absurd hv List.not_mem_nil
    · dsimp only
      split
      · rintro v hv
        rcases List.mem_cons.mp hv with rfl | hv
        · rfl
        · exact ih _ _ _ v hv
      · rintro v hv
        rw [List.mem_singleton.mp hv]

/-- As long as nobody is struck, nothing happens between two targets. -/
theorem sweep_of_spared (s : Scene σ) (a : Action) (sounds : List SoundEffect) (left : Nat) :
    ∀ v ∈ (s.sweep (fun _ _ => false) a sounds left).1, v.scene = s := by
  induction left generalizing a sounds with
  | zero => exact fun _ hv => absurd hv List.not_mem_nil
  | succ left ih =>
    unfold sweep
    split
    · exact fun _ hv => absurd hv List.not_mem_nil
    · simp only [strikeIf, if_neg Bool.false_ne_true]
      split
      · rintro v hv
        rcases List.mem_cons.mp hv with rfl | hv
        · rfl
        · exact ih _ _ v hv
      · rintro v hv
        rw [List.mem_singleton.mp hv]

/-- Where no hook has an event to run, targets are seen when they are reached as they were at
first. -/
theorem sweep_sighting? {s : Scene σ} (hs : s.LacksHookEvents) (picks : Scene σ → BattlerId → Bool)
    {a : Action} (hdistinct : a.ahead.Nodup) (sounds : List SoundEffect) {left : Nat}
    (hleft : a.targets.length ≤ a.current + left) :
    ∀ v ∈ (s.sweep picks a sounds left).1,
      v.scene.roster.sighting? v.target = s.roster.sighting? v.target := by
  induction left generalizing s a sounds with
  | zero => exact fun _ hv => absurd hv List.not_mem_nil
  | succ left ih =>
    unfold sweep
    cases htarget : a.target? with
    | none => exact fun _ hv => absurd hv List.not_mem_nil
    | some target =>
      rw [Action.ahead_eq_cons htarget, List.nodup_cons] at hdistinct
      have hreached : ∀ other, other ≠ target →
          KeepsSighting other s (strikeIf (picks s target) s a target sounds).1 := by
        intro other hother
        unfold strikeIf
        split
        · exact applyToTarget_keepsSighting hs htarget hother sounds
        · exact .refl s
      have haction := strikeIf_action (picks s target) s a target sounds
      dsimp only
      generalize strikeIf (picks s target) s a target sounds = reached at haction hreached ⊢
      obtain ⟨t, b, heard⟩ := reached
      obtain ⟨outcome, rfl⟩ := haction
      unfold Action.nextTarget
      dsimp only at hreached ⊢
      by_cases hmore : a.current + 1 < a.targets.length
      · rw [if_pos hmore]
        intro v hv
        rcases List.mem_cons.mp hv with rfl | hv
        · rfl
        · -- The targets to come are not the one just reached, so the hooks and their looks are what
          -- they were.
          have hbound : a.targets.length ≤ a.current + 1 + left := by omega
          have hto : v.target ∈ a.targets.drop (a.current + 1) := by
            have hmem := List.mem_map_of_mem (f := (·.target)) hv
            rwa [sweep_targets _ t _ heard hbound] at hmem
          have hne : v.target ≠ target := fun h => hdistinct.1 (h ▸ hto)
          have hseen := hreached v.target hne
          have hlater :=
            ih (hseen.lacksHookEvents hs)
              (a := { a with outcome := outcome, current := a.current + 1 })
            hdistinct.2 heard hbound v hv
          exact hlater.trans hseen.roster
      · rw [if_neg hmore]
        intro v hv
        rw [List.mem_singleton.mp hv]

theorem visits_targets (s : Scene σ) (a : Action) : (s.visits a).map (·.target) = a.ahead :=
  s.sweep_targets _ a [] (by omega)

theorem visits_struck (s : Scene σ) (a : Action) :
    ∀ v ∈ s.visits a, v.struck = a.isCurrentTargetValid s.roster :=
  s.sweep_struck _ a [] _

theorem visits_scene {s : Scene σ} {a : Action} (hfirst : a.isCurrentTargetValid s.roster = false) :
    ∀ v ∈ s.visits a, v.scene = s := by
  unfold visits
  rw [hfirst]
  exact s.sweep_of_spared a [] _

/-- The first target is reached at once. -/
theorem visits_head? (s : Scene σ) (a : Action) :
    ∀ v, (s.visits a).head? = some v → v.scene = s := by
  intro v hv
  unfold visits at hv
  cases hleft : a.targets.length with
  | zero =>
    rw [hleft] at hv
    contradiction
  | succ left =>
    rw [hleft] at hv
    unfold sweep at hv
    split at hv
    · contradiction
    · dsimp only at hv
      split at hv <;>
        · obtain rfl := Option.some.inj hv
          rfl

theorem mem_visits_target {s : Scene σ} {a : Action} {v : Visit σ} (hv : v ∈ s.visits a) :
    v.target ∈ a.ahead :=
  s.visits_targets a ▸ List.mem_map_of_mem hv

theorem exists_mem_visits (s : Scene σ) {a : Action} {target : BattlerId} (h : target ∈ a.ahead) :
    ∃ v ∈ s.visits a, v.target = target :=
  List.mem_map.mp (s.visits_targets a ▸ h)

/-- The targets are struck as they should be exactly when all of them are valid when they are
reached, or none is valid as the step begins. -/
theorem precise_iff_valid (s : Scene σ) (a : Action) : s.Precise a ↔
    (∀ v ∈ s.visits a, a.isValidTarget v.scene.roster v.target = true) ∨
      ∀ target ∈ a.ahead, a.isValidTarget s.roster target = false := by
  cases hfirst : a.isCurrentTargetValid s.roster with
  | true =>
    have hstruck := s.visits_struck a
    rw [hfirst] at hstruck
    constructor
    · intro h
      exact .inl fun v hv => (h v hv).symm.trans (hstruck v hv)
    · rintro (h | h) v hv
      · exact (hstruck v hv).trans (h v hv).symm
      · rw [Action.isCurrentTargetValid_eq] at hfirst
        obtain ⟨target, htarget, hvalid⟩ := Option.any_eq_true _ _ |>.mp hfirst
        rw [h target (List.mem_of_mem_head? htarget)] at hvalid
        contradiction
  | false =>
    have hstruck := s.visits_struck a
    have hscene := visits_scene hfirst
    rw [hfirst] at hstruck
    constructor
    · intro h
      refine .inr fun target htarget => ?_
      obtain ⟨v, hv, rfl⟩ := s.exists_mem_visits htarget
      rw [← hscene v hv]
      exact (h v hv).symm.trans (hstruck v hv)
    · rintro (h | h) v hv
      · rw [Action.isCurrentTargetValid_eq] at hfirst
        have hv' := mem_visits_target hv
        cases hahead : a.ahead with
        | nil =>
          rw [hahead] at hv'
          contradiction
        | cons target rest =>
          have hfirst' : target ∈ a.ahead := by simp [hahead]
          obtain ⟨u, hu, hut⟩ := s.exists_mem_visits hfirst'
          have hvalid := h u hu
          rw [hscene u hu, hut] at hvalid
          rw [hahead, List.head?_cons, Option.any_some, hvalid] at hfirst
          contradiction
      · rw [hstruck v hv, hscene v hv, h _ (mem_visits_target hv)]

theorem visits_sighting? {s : Scene σ} (hs : s.LacksHookEvents) {a : Action}
    (hdistinct : a.targets.Nodup) :
    ∀ v ∈ s.visits a, v.scene.roster.sighting? v.target = s.roster.sighting? v.target :=
  sweep_sighting? hs _ (hdistinct.sublist (List.drop_sublist _ _)) [] (by omega)

/-- The step that applies an action to a list of targets, none twice, comes to all of them in the
order of the list, and strikes each or none, as the first is valid or not: it goes through them with
the same sweep that tells its visits, and where it would strike none it is over at once. So the
targets that are valid when they are reached are just the ones that are struck if and only if all of
them are valid when they are reached or none is valid as the step begins. A single target is always
treated so; where no hook has an event to run, several are if and only if all of them or none of
them are valid as the step begins. -/
theorem precise_iff (s : Scene σ) (a : Action) (hdistinct : a.targets.Nodup) :
    (s.applyAction a =
        if a.isCurrentTargetValid s.roster then
          let (t, b, sounds) :=
            (s.sweep (fun _ _ => a.isCurrentTargetValid s.roster) a [] a.targets.length).2
          ((sounds.foldl (fun t se => t.play se) t).setWait 30 30).afterPass b
        else (s.setActionState .finished, a)) ∧
      (s.visits a).map (·.target) = a.ahead ∧
      (∀ v ∈ s.visits a, v.struck = a.isCurrentTargetValid s.roster) ∧
      (s.Precise a ↔ (∀ v ∈ s.visits a, a.isValidTarget v.scene.roster v.target = true) ∨
        ∀ target ∈ a.ahead, a.isValidTarget s.roster target = false) ∧
      (a.ahead.length ≤ 1 → s.Precise a) ∧
      (s.LacksHookEvents → (s.Precise a ↔
        (∀ target ∈ a.ahead, a.isValidTarget s.roster target = true) ∨
        ∀ target ∈ a.ahead, a.isValidTarget s.roster target = false)) := by
  refine ⟨s.applyAction_eq_sweep a, s.visits_targets a, s.visits_struck a,
    s.precise_iff_valid a, ?_, ?_⟩
  · intro hone v hv
    have htargets := s.visits_targets a
    have hlength : (s.visits a).length ≤ 1 := by
      rw [← List.length_map (f := (·.target)), htargets]
      exact hone
    obtain ⟨u, hu⟩ :=
      List.length_eq_one_iff.mp (Nat.le_antisymm hlength (List.length_pos_of_mem hv))
    rw [hu, List.mem_singleton] at hv
    subst hv
    have hscene : v.scene = s := s.visits_head? a v (by rw [hu, List.head?_cons])
    rw [s.visits_struck a v (by rw [hu]; exact List.mem_singleton_self v),
      Action.isCurrentTargetValid_eq, ← htargets, hu, hscene]
    rfl
  · intro hs
    rw [precise_iff_valid]
    refine or_congr_left ⟨fun h target htarget => ?_, fun h v hv => ?_⟩
    · obtain ⟨v, hv, rfl⟩ := s.exists_mem_visits htarget
      rw [← a.isValidTarget_congr (visits_sighting? hs hdistinct v hv)]
      exact h v hv
    · rw [a.isValidTarget_congr (visits_sighting? hs hdistinct v hv)]
      exact h _ (mem_visits_target hv)

/-! ### A spell that fizzles -/

namespace Fizzle

def config : BattleConfig := {}

def database : Database where
  actors := [{ id := 1, name := "A", preemptive := true, commands := [1], skills := [1] }]
  enemies := [{ id := 1, name := "E" }]
  skills := [{ id := 1, name := "", power := 10, scope := .allEnemies }]
  commands := [{ id := 1, name := "", kind := .skill }]

/-- An event that kills the first enemy a little later. -/
def event : CommonEvent where
  id := 1
  trigger := .parallel
  instructions :=
    [{ opcode := .wait, params := [4] },
      { opcode := .changeMonsterHp, params := [0, 1, 0, 999, 1] }]

def setup : BattleSetup where
  party := [1]
  troop := { members := [{ enemyId := 1 }, { enemyId := 1 }] }
  commonEvents := [event]

def scene : Scene InstantAssets := ofSetup config database setup {}

/-- The player chooses the spell against all enemies. -/
def inputs : List InputState :=
  List.replicate 33 { triggered := [.decision], pressed := [.decision] }

/-- The turns in which an action is about to be applied. -/
def applying : List (Moment InstantAssets) :=
  (scene.turnsIn inputs).filter (·.1.actionState = .apply)

def spell : Action := .skill (.actor 1) 1 [.enemy 0, .enemy 1]

end Fizzle

theorem precise_iff_of_spell :
    create Fizzle.config Fizzle.database Fizzle.setup {} = .ok Fizzle.scene ∧
      Fizzle.spell.targets.Nodup ∧
      Fizzle.scene.Precise Fizzle.spell := by
  have hdistinct : Fizzle.spell.targets.Nodup := by decide
  have hlacks : Fizzle.scene.LacksHookEvents := fun kind => by cases kind <;> rfl
  have hvalid : ∀ target ∈ Fizzle.spell.ahead,
    Fizzle.spell.isValidTarget Fizzle.scene.roster target = true := by decide
  have h := precise_iff Fizzle.scene Fizzle.spell hdistinct
  exact ⟨rfl, hdistinct, (h.2.2.2.2.2 hlacks).mpr (.inl hvalid)⟩

-- The event kills the first enemy after the spell has started; the second, which is alive, is not
-- struck any more.
set_option maxRecDepth 100000 in
theorem not_precise_of_fizzle :
    create Fizzle.config Fizzle.database Fizzle.setup {} = .ok Fizzle.scene ∧
      ∃ m ∈ Fizzle.scene.turnsIn Fizzle.inputs, m.1.state = .battle ∧ m.1.substate = battleAction ∧
        m.1.actionState = .apply ∧ ∃ a, m.1.pending = some a ∧ a.targets = [.enemy 0, .enemy 1] ∧
          a.current = 0 ∧
        a.isValidTarget m.1.roster (.enemy 1) = true ∧ ¬m.1.Precise a := by
  have hfound : Fizzle.applying.any
    (fun m => decide (m.1.state = .battle ∧ m.1.substate = battleAction) &&
      m.1.pending.any fun a => decide (a.targets = [.enemy 0, .enemy 1] ∧ a.current = 0 ∧
        a.isValidTarget m.1.roster (.enemy 1) = true ∧ ¬m.1.Precise a)) = true := by
    decide +kernel
  obtain ⟨m, hm, hfound⟩ := List.any_eq_true.mp hfound
  obtain ⟨hstate, hpending⟩ := Bool.and_eq_true_iff.mp hfound
  obtain ⟨a, ha, hspell⟩ := Option.any_eq_true _ _ |>.mp hpending
  obtain ⟨hm, hstage⟩ := List.mem_filter.mp hm
  exact ⟨rfl, m, hm, (of_decide_eq_true hstate).1, (of_decide_eq_true hstate).2,
    of_decide_eq_true hstage, a, ha, of_decide_eq_true hspell⟩

end Scene

end ActiveBattle
