import ActiveBattle.Proofs.Scene.Acting

/-!
# The rounds of a combo

An action of one hit is carried out as often as the combo of its source says, once without one. Each
step of it leads from one of its stages to the next (`stepped_proceeds`), so that the stage and the
round always tell how many passes have started and how many were applied (`Tally`). From its
beginning to its end the action starts and is applied in each of its rounds (`rounds_of_combo`).
-/

namespace ActiveBattle

set_option autoImplicit false

/-- How many rounds an action of the battler has: as many as its combo says if its last command is
the combo's. -/
def Battler.rounds (b : Battler) : Nat :=
  match b.combo with
  | some combo => if b.lastBattleAction = combo.commandId then max 1 combo.times.toNat else 1
  | none => 1

namespace Battler

theorem one_le_rounds (b : Battler) : 1 ≤ b.rounds := by
  unfold rounds
  split
  · split
    · exact Nat.le_max_left 1 _
    · exact Nat.le_refl 1
  · exact Nat.le_refl 1

theorem rounds_congr {b b' : Battler} (hcombo : b'.combo = b.combo)
    (hlast : b'.lastBattleAction = b.lastBattleAction) :
    b'.rounds = b.rounds := by
  unfold rounds
  rw [hcombo, hlast]

theorem lt_rounds_iff (b : Battler) {round : Int} (h : 1 ≤ round) : round < b.rounds ↔
    (b.combo.any fun combo => b.lastBattleAction = combo.commandId &&
      decide (combo.times > round)) = true := by
  unfold rounds
  cases b.combo with
  | none =>
    simp only [Option.any_none, Bool.false_eq_true, iff_false]
    omega
  | some combo =>
    simp only [Option.any_some, Bool.and_eq_true, decide_eq_true_eq]
    split <;> omega

end Battler

namespace Scene

variable {σ : Type}

/-- How many rounds an action of this battler has. -/
def rounds (s : Scene σ) (id : BattlerId) : Nat := (s.roster.battler? id).elim 1 (·.rounds)

/-- The current target of the pending action is valid. -/
def AimsWell (s : Scene σ) : Prop := ∀ a ∈ s.pending, a.isCurrentTargetValid s.roster = true

/-- The battler is still there, with its combo and its last command. -/
def KeepsCombo (s t : Scene σ) (id : BattlerId) : Prop :=
  ∃ b ∈ s.roster.battler? id, ∃ b' ∈ t.roster.battler? id,
    b'.combo = b.combo ∧ b'.lastBattleAction = b.lastBattleAction

instance (s : Scene σ) : Decidable s.AimsWell :=
  inferInstanceAs (Decidable (∀ a ∈ s.pending, a.isCurrentTargetValid s.roster = true))

instance (s t : Scene σ) (id : BattlerId) : Decidable (KeepsCombo s t id) :=
  inferInstanceAs (Decidable (∃ b ∈ s.roster.battler? id, ∃ b' ∈ t.roster.battler? id,
    b'.combo = b.combo ∧ b'.lastBattleAction = b.lastBattleAction))

theorem one_le_rounds (s : Scene σ) (id : BattlerId) : 1 ≤ s.rounds id := by
  unfold rounds
  cases s.roster.battler? id with
  | none => exact Nat.le_refl 1
  | some b => exact b.one_le_rounds

theorem KeepsCombo.rounds_eq {s t : Scene σ} {id : BattlerId} (h : KeepsCombo s t id) :
    t.rounds id = s.rounds id := by
  obtain ⟨b, hb, b', hb', hcombo, hlast⟩ := h
  unfold rounds
  rw [Option.mem_def.mp hb, Option.mem_def.mp hb']
  exact Battler.rounds_congr hcombo hlast

theorem comboGoesOn_iff {s : Scene σ} (h : 1 ≤ s.comboRepeat) (source : BattlerId) :
    s.comboGoesOn source = true ↔ s.comboRepeat < s.rounds source := by
  unfold comboGoesOn rounds
  cases s.roster.battler? source with
  | none =>
    simp only [Option.any_none, Option.elim_none, Bool.false_eq_true, false_iff]
    omega
  | some b => exact (b.lt_rounds_iff h).symm

/-! ### What one step makes of an action -/

/-- The stages of an action of one hit, step by step: in which of them a pass starts, and after
which of them the combo has another round. -/
inductive Proceeds (a : Action) (s t : Scene σ) : Prop
  | begun (hstage : s.actionState = .begin) (hnext : t.actionState = .startAlgo)
      (hround : t.comboRepeat = s.comboRepeat) (hstarters : t.starters = s.starters)
  | started (hstage : s.actionState = .startAlgo) (hnext : t.actionState = .animation)
      (hround : t.comboRepeat = s.comboRepeat)
        (hstarters : t.starters = s.starters ++ [(a.source, s.comboRepeat)])
  | shown (hstage : s.actionState = .animation ∨ s.actionState = .animationReflect)
      (hnext : t.actionState = .animationReflect ∨ t.actionState = .apply)
      (hround : t.comboRepeat = s.comboRepeat) (hstarters : t.starters = s.starters)
  | again (hstage : s.actionState = .apply) (hleft : s.comboRepeat < t.rounds a.source)
      (hnext : t.actionState = .startAlgo) (hround : t.comboRepeat = s.comboRepeat + 1)
      (hstarters : t.starters = s.starters)
  | passed (hstage : s.actionState = .apply) (hnext : t.actionState = .finished)
      (hlast : a.isCurrentTargetValid s.roster = true → t.rounds a.source ≤ s.comboRepeat)
      (hround : t.comboRepeat = s.comboRepeat) (hstarters : t.starters = s.starters)
  | ended (hstage : s.actionState = .finished) (hround : t.comboRepeat = 1)
    (hstarters : t.starters = s.starters)

theorem Passes.starters_eq {s t : Scene σ} (h : Passes s t) : t.starters = s.starters := by
  cases h <;> rfl

theorem Passing.starters_eq {s t : Scene σ} (h : Passing s t) : t.starters = s.starters := by
  obtain ⟨u, v, hbefore, hpasses, hafter⟩ := h
  exact (hafter.idles.starters.trans hpasses.starters_eq).trans hbefore.idles.starters

theorem Passing.proceeds {s t : Scene σ} (h : Passing s t) (a : Action)
    (hstage : s.actionState ≠ .apply) :
    Proceeds a s t := by
  have hstarters := h.starters_eq
  obtain ⟨u, v, hbefore, hpasses, hafter⟩ := h
  have hround : u.comboRepeat = s.comboRepeat := congrArg Course.comboRepeat hbefore.course_eq
  have hround' : t.comboRepeat = v.comboRepeat := congrArg Course.comboRepeat hafter.course_eq
  have hbegan := hbefore.actionState_eq.symm
  have hnext := hafter.actionState_eq
  cases hpasses with
  | begun hbegin => exact .begun (hbegan.trans hbegin) hnext (hround'.trans hround) hstarters
  | shown hshown hafterwards =>
    refine .shown ?_ ?_ (hround'.trans hround) hstarters
    · rwa [hbegan]
    · rwa [hnext]
  | again _ _ happly _ => exact absurd (hbegan.trans happly) hstage
  | combo _ _ happly _ => exact absurd (hbegan.trans happly) hstage
  | passed happly => exact absurd (hbegan.trans happly) hstage
  | finished hfinished => exact .ended (hbegan.trans hfinished) hround' hstarters

/-- What is shown, and where the action is put back, makes no difference. -/
theorem Proceeds.put {a : Action} {s t : Scene σ} (h : Proceeds a s.endNotification t)
    (pending : Option Action) :
    Proceeds a s { t with pending := pending } := by
  cases h with
  | begun hstage hnext hround hstarters => exact .begun hstage hnext hround hstarters
  | started hstage hnext hround hstarters => exact .started hstage hnext hround hstarters
  | shown hstage hnext hround hstarters => exact .shown hstage hnext hround hstarters
  | again hstage hleft hnext hround hstarters => exact .again hstage hleft hnext hround hstarters
  | passed hstage hnext hlast hround hstarters => exact .passed hstage hnext hlast hround hstarters
  | ended hstage hround hstarters => exact .ended hstage hround hstarters

/-- After the only hit the combo decides whether there is another round. -/
theorem afterPass_single (s : Scene σ) {a : Action} (hone : a.repeats = 1)
    (hdone : 0 ≤ a.repeatsDone) :
    (s.afterPass a).1 =
      if s.comboGoesOn a.source then
        { s with comboRepeat := s.comboRepeat + 1 }.setActionState .startAlgo
      else s.setActionState .finished := by
  obtain ⟨hleft, hsource, -, -⟩ := a.nextRepeat_eq
  have hover : a.nextRepeat.1 = false := by
    rw [← Bool.not_eq_true, hleft]
    omega
  unfold afterPass
  generalize a.nextRepeat = next at hover hsource
  obtain ⟨again, a'⟩ := next
  obtain rfl : again = false := hover
  have hsource : a'.source = a.source := hsource
  dsimp only
  rw [hsource]
  split <;> rfl

section Steps

variable [AssetLoader σ]

theorem startAction_proceeds {s : Scene σ} (a : Action) (hstage : s.actionState = .startAlgo) :
    Proceeds a s (s.startAction a).1 := by
  obtain ⟨u, heffects, hstarted⟩ := s.startAction_effects a
  have hround : u.comboRepeat = s.comboRepeat := congrArg Course.comboRepeat heffects.course_eq
  refine .started hstage rfl ?_ ?_
  · rw [hstarted]
    exact hround
  · have hlaunched : (s.startAction a).1.events = u.events ++
        [.actionStarted (a.start s.game).1.source (a.start s.game).1.kind u.comboRepeat] := by
      rw [hstarted]
      exact note_events u _
    unfold starters
    rw [hlaunched, List.filterMap_append, ← hround, ← (a.start_samePass s.game).source]
    exact congrArg (· ++ _) heffects.idles.starters

theorem applyAction_proceeds {s : Scene σ} {a : Action} (hstate : s.state = .battle)
    (hstage : s.actionState = .apply) (hone : a.repeats = 1) (hdone : 0 ≤ a.repeatsDone)
    (hround : 1 ≤ s.comboRepeat) :
    Proceeds a s (s.applyAction a).1 := by
  unfold applyAction
  split
  · obtain ⟨heffects, hsame⟩ := s.applyToTargets_effects a [] a.targets.length hstate hstage
    dsimp only
    generalize s.applyToTargets a [] a.targets.length = applied at heffects hsame ⊢
    have happlied :=
      (heffects.trans (playAll_effects _ applied.2.2)).trans (setWait_effects _ 30 30)
    generalize (applied.2.2.foldl (fun s se => s.play se) applied.1).setWait 30 30 = t at happlied ⊢
    have hkept : t.comboRepeat = s.comboRepeat := congrArg Course.comboRepeat happlied.course_eq
    have hstarters := happlied.idles.starters
    have hgoes := comboGoesOn_iff (hkept ▸ hround) a.source
    rw [afterPass_single t (hsame.repeats.trans hone) (hsame.repeatsDone ▸ hdone), hsame.source]
    rw [hkept] at hgoes
    split
    · rename_i hcombo
      exact .again hstage (hgoes.mp hcombo) rfl (congrArg (· + 1) hkept) hstarters
    · rename_i hcombo
      exact .passed hstage rfl (fun _ => Int.not_lt.mp fun h => hcombo (hgoes.mpr h))
        hkept hstarters
  · rename_i hinvalid
    exact .passed hstage rfl (fun h => absurd h hinvalid) rfl rfl

theorem stepAction_proceeds {s : Scene σ} {a : Action} (hs : s.Acting a) (hone : a.repeats = 1)
    (hdone : 0 ≤ a.repeatsDone) (hround : 1 ≤ s.comboRepeat) :
    Proceeds a s (s.stepAction a).2.1 := by
  unfold stepAction
  rw [hs.alive, hs.unshown, if_neg Bool.false_ne_true, if_neg Bool.false_ne_true]
  split
  · rename_i hstage
    exact (s.beginAction_passing a hs.state hstage).proceeds a (by simp [hstage])
  · rename_i hstage
    exact startAction_proceeds a hstage
  · rename_i hstage
    exact (s.animateAction_passing a hstage).1.proceeds a (by simp [hstage])
  · rename_i hstage
    exact (s.animateReflection_passing a hstage).proceeds a (by simp [hstage])
  · rename_i hstage
    exact applyAction_proceeds hs.state hstage hone hdone hround
  · rename_i hstage
    exact (s.finishAction_passing a hstage).proceeds a (by simp [hstage])

theorem stepped_proceeds {s : Scene σ} {a : Action} (hs : s.Acting a) (hone : a.repeats = 1)
    (hdone : 0 ≤ a.repeatsDone) (hround : 1 ≤ s.comboRepeat) :
    Proceeds a s s.stepped ∧ ∀ a', s.stepped.pending = some a' → a.Continues a' := by
  have hended : s.endNotification.Acting a := ⟨hs.state, hs.pending, hs.alive, hs.unshown⟩
  have hproceeds := stepAction_proceeds hended hone hdone hround
  have hcontinues := (stepAction_keeps hended.state hended.pending).2
  unfold stepped resolvePending
  dsimp only
  rw [hended.pending]
  dsimp only
  split
  · refine ⟨hproceeds.put _, fun a' ha' => ?_⟩
    obtain rfl := Option.some.inj ha'
    exact hcontinues
  · exact ⟨hproceeds.put _, fun a' ha' => absurd ha' (by simp)⟩

end Steps

/-! ### The rounds of an action -/

/-- How many passes have started and how many were applied, by the stage and the round an action has
come to. A whole action ends in its last round only. -/
def Tally (rounds : Nat) (whole : Prop) (stage : ActionState) (round : Int) (starts applies : Nat) :
    Prop :=
  match stage with
  | .begin => False
  | .startAlgo => round = starts + 1 ∧ applies = starts ∧ starts < rounds
  | .animation | .animationReflect | .apply =>
    round = starts ∧ starts = applies + 1 ∧ starts ≤ rounds
  | .finished =>
    round = starts ∧ starts = applies ∧ 1 ≤ starts ∧ starts ≤ rounds ∧ (whole → starts = rounds)

theorem Tally.one_le_round {rounds : Nat} {whole : Prop} {stage : ActionState} {round : Int}
    {starts applies : Nat} (h : Tally rounds whole stage round starts applies) : 1 ≤ round := by
  cases stage with
  | begin => exact h.elim
  | startAlgo =>
    obtain ⟨hround, -, -⟩ := h
    omega
  | finished =>
    obtain ⟨hround, -, hsome, -, -⟩ := h
    omega
  | _ =>
    obtain ⟨hround, hstarts, -⟩ := h
    omega

/-- How often an action comes to be applied in these steps, its target being valid or not. -/
def applications (steps : List (Scene σ)) : Nat := steps.countP (·.actionState = .apply)

/-- The starts of an action in its first rounds. -/
def firstRounds (source : BattlerId) (n : Nat) : List (BattlerId × Int) :=
  (List.range n).map fun k : Nat => (source, (k : Int) + 1)

theorem firstRounds_succ (source : BattlerId) (n : Nat) :
    firstRounds source (n + 1) = firstRounds source n ++ [(source, (n : Int) + 1)] := by
  unfold firstRounds
  rw [List.range_succ, List.map_append, List.map_singleton]

theorem applications_singleton (s : Scene σ) :
    applications [s] = if s.actionState = .apply then 1 else 0 := by
  unfold applications
  rw [List.countP_singleton]
  simp only [decide_eq_true_eq]

theorem applications_cons (s : Scene σ) (steps : List (Scene σ)) :
    applications (s :: steps) = applications [s] + applications steps := by
  unfold applications
  rw [← List.countP_append, List.singleton_append]

section Rounds

variable {source : BattlerId} {rounds : Nat} {whole : Prop} {before : List (BattlerId × Int)}

/-- The action of the source is one of one hit, and the log and its stage agree about its rounds. -/
structure Tallied (source : BattlerId) (rounds : Nat) (whole : Prop)
    (before : List (BattlerId × Int)) (s : Scene σ) (starts applies : Nat) : Prop where
  tally : Tally rounds whole s.actionState s.comboRepeat starts applies
  starters : s.starters = before ++ firstRounds source starts
  pending : ∀ a, s.pending = some a → a.source = source ∧ a.repeats = 1 ∧ 0 ≤ a.repeatsDone

theorem Tallied.idle {s t : Scene σ} {starts applies : Nat}
    (h : Tallied source rounds whole before s starts applies) (hidles : Idles s t)
    (hstage : t.actionState ≠ .begin) : Tallied source rounds whole before t starts applies := by
  have hnoFurther := hidles.stays.resolve_left hstage
  refine ⟨?_, hidles.starters.trans h.starters, fun a ha => ?_⟩
  · rw [hnoFurther.stage, hnoFurther.round]
    exact h.tally
  · obtain ⟨a', ha', hcontinues⟩ := hnoFurther.pending a ha
    obtain ⟨hsource, hone, hdone⟩ := h.pending a' ha'
    exact ⟨hcontinues.source.trans hsource, hcontinues.repeats.trans hone,
      Int.le_trans hdone hcontinues.repeatsDone⟩

variable [AssetLoader σ]

/-- A step between the beginning and the end of an action. The source has the same rounds after it
where they are asked for, and in a whole action the target is valid. -/
structure Midway (source : BattlerId) (rounds : Nat) (whole : Prop) (s : Scene σ) : Prop where
  acting : ∃ a, s.Acting a
  stage : s.actionState ≠ .begin ∧ s.actionState ≠ .finished
  kept : s.actionState = .apply → s.stepped.rounds source = rounds
  valid : whole → s.actionState = .apply → s.AimsWell

/-- An action begins with none of its rounds. -/
theorem tallied_of_begin {s : Scene σ} {a : Action} (hs : s.Acting a)
    (hstage : s.actionState = .begin) (hround : s.comboRepeat = 1) (hone : a.repeats = 1)
    (hdone : 0 ≤ a.repeatsDone) (hrounds : 1 ≤ rounds) :
    Tallied a.source rounds whole s.starters s.stepped 0 0 := by
  obtain ⟨hproceeds, hcontinues⟩ := stepped_proceeds hs hone hdone (Int.le_of_eq hround.symm)
  have hbegun : s.stepped.actionState = .startAlgo ∧ s.stepped.comboRepeat = s.comboRepeat ∧
      s.stepped.starters = s.starters := by
    cases hproceeds with
    | begun _ hnext hround hstarters => exact ⟨hnext, hround, hstarters⟩
    | shown hstage' _ _ _ => simp [hstage] at hstage'
    | _ hstage' => exact absurd (hstage.symm.trans hstage') (by decide)
  obtain ⟨hnext, hround', hstarters⟩ := hbegun
  refine ⟨?_, ?_, fun a' ha' => ?_⟩
  · rw [hnext, hround', hround]
    exact ⟨by decide, rfl, hrounds⟩
  · rw [hstarters]
    exact (List.append_nil _).symm
  · have hgoes := hcontinues a' ha'
    exact ⟨hgoes.source, hgoes.repeats.trans hone, Int.le_trans hdone hgoes.repeatsDone⟩

/-- The end of an action: the next one begins with the first round again. -/
theorem Tallied.finish {s : Scene σ} {starts applies : Nat}
    (h : Tallied source rounds whole before s starts applies) {a : Action} (hs : s.Acting a)
    (hstage : s.actionState = .finished) :
    s.stepped.starters = before ++ firstRounds source starts ∧ s.stepped.comboRepeat = 1 := by
  obtain ⟨-, hone, hdone⟩ := h.pending a hs.pending
  obtain ⟨hproceeds, -⟩ := stepped_proceeds hs hone hdone h.tally.one_le_round
  cases hproceeds with
  | ended _ hround hstarters => exact ⟨hstarters.trans h.starters, hround⟩
  | shown hstage' _ _ _ => simp [hstage] at hstage'
  | _ hstage' => exact absurd (hstage.symm.trans hstage') (by decide)

/-- Each step keeps the tally. -/
theorem Tallied.step {s : Scene σ} {starts applies : Nat}
    (h : Tallied source rounds whole before s starts applies) (hs : Midway source rounds whole s) :
    ∃ starts', Tallied source rounds whole before s.stepped starts'
      (applies + applications [s]) := by
  obtain ⟨a, hacting⟩ := hs.acting
  obtain ⟨hsource, hone, hdone⟩ := h.pending a hacting.pending
  have htally := h.tally
  have hround := htally.one_le_round
  obtain ⟨hproceeds, hcontinues⟩ := stepped_proceeds hacting hone hdone hround
  have hpending : ∀ a', s.stepped.pending = some a' → a'.source = source ∧ a'.repeats = 1 ∧
      0 ≤ a'.repeatsDone := by
    intro a' ha'
    have hgoes := hcontinues a' ha'
    exact ⟨hgoes.source.trans hsource,
      hgoes.repeats.trans hone, Int.le_trans hdone hgoes.repeatsDone⟩
  have hstarters := h.starters
  rw [applications_singleton]
  cases hproceeds with
  | begun hstage _ _ _ => exact absurd hstage hs.stage.1
  | started hstage hnext hround' hstarters' =>
    rw [hstage] at htally
    obtain ⟨hcount, happlies, hleft⟩ := htally
    refine ⟨starts + 1, ?_, ?_, hpending⟩
    · rw [hnext, hround', if_neg (by simp [hstage])]
      exact ⟨by omega, by omega, hleft⟩
    · rw [hstarters', hstarters, firstRounds_succ, hsource, hcount, List.append_assoc]
  | shown hstage hnext hround' hstarters' =>
    have hunapplied : s.actionState ≠ .apply := by
      rcases hstage with hstage | hstage <;> simp [hstage]
    have hcount : s.comboRepeat = starts ∧ starts = applies + 1 ∧ starts ≤ rounds := by
      rcases hstage with hstage | hstage <;> rwa [hstage] at htally
    refine ⟨starts, ?_, hstarters'.trans hstarters, hpending⟩
    rw [hround', if_neg hunapplied]
    rcases hnext with hnext | hnext <;> rwa [hnext]
  | again hstage hleft hnext hround' hstarters' =>
    rw [hstage] at htally
    obtain ⟨hcount, happlies, -⟩ := htally
    rw [hsource, hs.kept hstage] at hleft
    refine ⟨starts, ?_, hstarters'.trans hstarters, hpending⟩
    rw [hnext, hround', if_pos hstage]
    exact ⟨by omega, by omega, by omega⟩
  | passed hstage hnext hlast hround' hstarters' =>
    rw [hstage] at htally
    obtain ⟨hcount, happlies, hle⟩ := htally
    refine ⟨starts, ?_, hstarters'.trans hstarters, hpending⟩
    rw [hnext, hround', if_pos hstage]
    refine ⟨hcount, happlies, by omega, hle, fun hwhole => ?_⟩
    have hover := hlast (hs.valid hwhole hstage a hacting.pending)
    rw [hsource, hs.kept hstage] at hover
    omega
  | ended hstage _ _ => exact absurd hstage hs.stage.2

/-- Between two steps nothing changes, so the tally is kept up to the last one. -/
theorem Tallied.run {last : Scene σ} (hlast : last.actionState ≠ .begin) :
    ∀ {middle : List (Scene σ)} {s : Scene σ} {starts applies : Nat},
      Tallied source rounds whole before s.stepped starts applies →
      (s :: (middle ++ [last])).IsChain (fun u v => Idles u.stepped v) →
      (∀ u ∈ middle, Midway source rounds whole u) →
      ∃ starts', Tallied source rounds
        whole before last starts' (applies + applications middle) := by
  intro middle
  induction middle with
  | nil =>
    intro s starts applies h hlinked _
    exact ⟨starts, h.idle (List.isChain_cons_cons.mp hlinked).1 hlast⟩
  | cons u rest ih =>
    intro s starts applies h hlinked hmidway
    obtain ⟨hidles, hrest⟩ := List.isChain_cons_cons.mp hlinked
    have hu := hmidway u List.mem_cons_self
    obtain ⟨starts', hstep⟩ := (h.idle hidles hu.stage.1).step hu
    rw [applications_cons, ← Nat.add_assoc]
    exact ih hstep hrest fun v hv => hmidway v (List.mem_cons_of_mem u hv)

end Rounds

/-- An action of one hit, between its beginning and its end, starts in the first rounds of its
source's combo, and comes to be applied once for each start; at its end the next action is in its
first round. There are no more rounds than the combo has. Where the target is valid whenever the
action comes to be applied, it is applied every time, and there are all of the rounds; a target that
is not valid is not struck, and the round is the last. -/
theorem rounds_of_combo [AssetLoader σ] {config : BattleConfig} {database : Database}
    {setup : BattleSetup} {assets : σ} {s : Scene σ}
    (h : create config database setup assets = .ok s) (inputs : List InputState)
    {first last : Scene σ} {middle : List (Scene σ)}
    (hsteps : first :: (middle ++ [last]) <:+: s.stepsIn inputs)
    (hfirst : first.actionState = .begin) (hlast : last.actionState = .finished)
    (hmiddle : ∀ u ∈ middle, u.actionState ≠ .begin ∧ u.actionState ≠ .finished)
    (hround : first.comboRepeat = 1) {a : Action} (hpending : first.pending = some a)
    (hone : a.repeats = 1)
    (hkept : ∀ u ∈ middle, u.actionState = .apply → KeepsCombo first u.stepped a.source) :
    ∃ n, 1 ≤ n ∧ n ≤ first.rounds a.source ∧
      last.stepped.starters = first.starters ++ firstRounds a.source n ∧
      applications middle = n ∧ last.stepped.comboRepeat = 1 ∧
      ((∀ u ∈ middle, u.actionState = .apply → u.AimsWell) → n = first.rounds a.source) := by
  obtain ⟨-, rfl⟩ := create_eq_ok h
  have hpaced := after_paced (ofSetup_routed config database setup assets) inputs
  have hacting {u : Scene σ} (hu : u ∈ first :: (middle ++ [last])) :=
    hpaced.acting u (hsteps.subset hu)
  have hdone : 0 ≤ a.repeatsDone := by
    obtain ⟨lost, hpath⟩ := (hacting List.mem_cons_self).2
    refine (hpath.counted ⟨?_, ?_⟩).pending a hpending
    · exact fun b hb => absurd hb List.not_mem_nil
    · exact fun b hb => absurd hb (by simp [ofSetup])
  generalize hwhole : (∀ u ∈ middle, u.actionState = .apply → u.AimsWell) = whole
  have hbegun : Tallied a.source (first.rounds a.source) whole first.starters
      first.stepped 0 0 := by
    obtain ⟨a', hfirstActing⟩ := (hacting List.mem_cons_self).1
    obtain rfl := Option.some.inj (hpending.symm.trans hfirstActing.pending)
    exact tallied_of_begin hfirstActing hfirst hround hone hdone (first.one_le_rounds a.source)
  have hmidway : ∀ u ∈ middle, Midway a.source (first.rounds a.source) whole u := fun u hu =>
    ⟨(hacting (List.mem_cons_of_mem first (List.mem_append_left _ hu))).1, hmiddle u hu,
      fun hstage => (hkept u hu hstage).rounds_eq, fun h => hwhole.symm.mp h u hu⟩
  have hlinked := List.IsChain.infix hpaced.linked hsteps
  obtain ⟨n, hended⟩ := hbegun.run (by simp [hlast]) hlinked hmidway
  obtain ⟨a', hlastActing⟩ :=
    (hacting (List.mem_cons_of_mem first (List.mem_append_right _ List.mem_cons_self))).1
  obtain ⟨hstarters, hagain⟩ := hended.finish hlastActing hlast
  have htally := hended.tally
  rw [hlast] at htally
  obtain ⟨-, happlied, hsome, hle, hall⟩ := htally
  exact ⟨n, hsome, hle, hstarters, by omega, hagain, hall⟩

/-! ### A combo of two rounds -/

namespace Flurry

def config : BattleConfig := {}

def database : Database where
  actors := [{ id := 1, name := "A", preemptive := true, commands := [1] }]
  enemies := [{ id := 1, name := "E" }]
  commands := [{ id := 1, name := "", kind := .attack }]

/-- An event that gives the actor a combo of two attacks. -/
def event : CommonEvent where
  id := 1
  trigger := .parallel
  instructions := [{ opcode := .enableCombo, params := [1, 1, 2] }]

def setup : BattleSetup where
  party := [1]
  troop := { members := [{ enemyId := 1 }] }
  commonEvents := [event]

def scene : Scene InstantAssets := ofSetup config database setup {}

/-- The player chooses the attack. -/
def inputs : List InputState :=
  List.replicate 104 { triggered := [.decision], pressed := [.decision] }

def steps : List (Scene InstantAssets) := scene.stepsIn inputs

def first : Scene InstantAssets := steps.headD scene

def middle : List (Scene InstantAssets) := steps.tail.dropLast

def last : Scene InstantAssets := steps.getLastD scene

def attack : Action := .attack (.actor 1) (.enemy 0)

end Flurry

set_option maxRecDepth 100000 in
theorem two_rounds_of_flurry :
    create Flurry.config Flurry.database Flurry.setup {} = .ok Flurry.scene ∧
      Flurry.first :: (Flurry.middle ++ [Flurry.last]) <:+: Flurry.scene.stepsIn Flurry.inputs ∧
      Flurry.first.rounds (.actor 1) = 2 ∧ applications Flurry.middle = 2 ∧
      Flurry.last.stepped.starters = Flurry.first.starters ++ [(.actor 1, 1), (.actor 1, 2)] ∧
      Flurry.last.stepped.comboRepeat = 1 := by
  have hcreated : create Flurry.config Flurry.database Flurry.setup {} = .ok Flurry.scene := rfl
  -- One evaluation of the run for all that is asked of it.
  have hrun : 2 ≤ Flurry.steps.length ∧ Flurry.first.actionState = .begin ∧
    Flurry.last.actionState = .finished ∧
      Flurry.first.comboRepeat = 1 ∧ Flurry.first.pending = some Flurry.attack ∧
        Flurry.first.rounds (.actor 1) = 2 ∧
      (∀ u ∈ Flurry.middle, u.actionState ≠ .begin ∧ u.actionState ≠ .finished) ∧
      (∀ u ∈ Flurry.middle, u.actionState = .apply → KeepsCombo Flurry.first u.stepped (.actor 1)) ∧
      ∀ u ∈ Flurry.middle, u.actionState = .apply → u.AimsWell := by
    decide +kernel
  obtain ⟨hlong, hfirst, hlast, hround, hpending, hrounds, hmiddle, hkept, haimed⟩ := hrun
  have hsteps : Flurry.first :: (Flurry.middle ++ [Flurry.last]) <:+: Flurry.scene.stepsIn
      Flurry.inputs := by
    have hsplit : Flurry.first :: (Flurry.middle ++ [Flurry.last]) = Flurry.steps := by
      unfold Flurry.first Flurry.middle Flurry.last
      match Flurry.steps, hlong with
      | u :: v :: rest, _ =>
        have hne : v :: rest ≠ [] := List.cons_ne_nil v rest
        have hlast : (u :: v :: rest).getLastD Flurry.scene = (v :: rest).getLast hne := by
          rw [List.getLastD_eq_getLast?, List.getLast?_cons_cons, List.getLast?_eq_some_getLast hne,
            Option.getD_some]
        rw [List.headD_cons, List.tail_cons, hlast, List.dropLast_concat_getLast hne]
    exact hsplit ▸ List.infix_refl _
  obtain ⟨n, -, -, hstarters, happlied, hagain, hall⟩ :=
    rounds_of_combo hcreated Flurry.inputs hsteps hfirst hlast hmiddle hround hpending rfl hkept
  obtain rfl : n = 2 := (hall haimed).trans hrounds
  exact ⟨hcreated, hsteps, hrounds, happlied, hstarters, hagain⟩

end Scene

end ActiveBattle
