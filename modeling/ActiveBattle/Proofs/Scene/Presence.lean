import ActiveBattle.Proofs.Scene.Routing

/-!
# Who is present

Only actions under way, and scripts among the enemies, change who is present (`Step.presence`). So a
battle that was decided against the party, or not, stays so until it goes on.
-/

namespace ActiveBattle

set_option autoImplicit false

namespace Roster

/-- The same party, and the same actors in it present. -/
structure SamePresentActors (r r' : Roster) : Prop where
  actors : List.Forall₂ Battler.KeepsPresence r.actors r'.actors
  party : r'.party = r.party

namespace SamePresentActors

variable {r r' : Roster}

theorem of_pointwise (h : r.Pointwise Battler.KeepsPresenceAndCombo r') : SamePresentActors r r' :=
  ⟨h.actors.imp fun _ _ h => h.toKeepsPresence, h.party⟩

theorem isPresent_eq (h : SamePresentActors r r') (id : Int) :
    (r'.actor? id).any (·.isPresent) = (r.actor? id).any (·.isPresent) := by
  have hrel := forall₂_find? (p := fun b : Battler => decide (b.dbId = id))
    (fun a b (hab : Battler.KeepsPresence a b) => by simp only [hab.dbId]) h.actors
  unfold actor?
  generalize r.actors.find? _ = found at hrel ⊢
  generalize r'.actors.find? _ = found' at hrel ⊢
  cases hrel with
  | none => rfl
  | some hab => exact hab.isPresent

theorem isPartyDefeated_eq (h : SamePresentActors r r') :
    r'.isPartyDefeated = r.isPartyDefeated := by
  have hany (r : Roster) : r.partyMembers.any (·.isPresent) =
      r.party.any fun id => (r.actor? id).any (·.isPresent) := by
    unfold partyMembers
    rw [List.any_filterMap]
    refine congrArg (r.party.any ·) (funext fun id => ?_)
    cases r.actor? id <;> rfl
  unfold isPartyDefeated
  rw [hany, hany, h.party]
  simp only [h.isPresent_eq]

end SamePresentActors

end Roster

namespace Scene

variable {σ : Type}

/-- An action under way makes itself felt. -/
def Hurts (s t : Scene σ) : Prop :=
  s.state = .battle ∧
    (t = s.healStates s.roster.presentIds ∨ s.roster.Pointwise Battler.HurtByStates t.roster ∨
    s.actionState = .apply ∧ s.roster.Pointwise (Battler.Struck s.database) t.roster)

theorem Effect.presence {s t : Scene σ} (h : Effect s t) :
    s.roster.Pointwise Battler.KeepsPresenceAndCombo t.roster ∨ Ran s t ∨ Hurts s t := by
  have kept (h : t.roster = s.roster) :
      s.roster.Pointwise Battler.KeepsPresenceAndCombo t.roster := by
    rw [h]
    exact .refl Battler.KeepsPresenceAndCombo.refl _
  cases h with
  | quiet h => exact .inl (kept (congrArg Core.roster h))
  | hook hran _ => exact .inr (.inl hran)
  | page trigger source _ =>
    exact .inl (kept (congrArg GameState.roster (s.schedulePage_game trigger source)))
  | pose hroster _ => exact .inl (hroster.battlers.imp fun _ _ h => h.keepsPresenceAndCombo)
  | wear hstate => exact .inr (.inr ⟨hstate, .inl rfl⟩)
  | ache hstate hroster _ => exact .inr (.inr ⟨hstate, .inr (.inl hroster.battlers)⟩)
  | pay hroster _ => exact .inl (hroster.battlers.imp fun _ _ h => h.keepsPresenceAndCombo)
  | strike hstate hstage hroster _ =>
    exact .inr (.inr ⟨hstate, .inr (.inr ⟨hstage, hroster.battlers⟩)⟩)
  | consume item => exact .inl (.of_goods Battler.KeepsPresenceAndCombo.refl rfl rfl rfl)
  | reward _ _ =>
    exact .inl (s.grantRewards_battlers
      Battler.KeepsPresenceAndCombo.refl Battler.KeepsPresenceAndCombo.trans)
  | turn id => exact .inl ((s.nextTurn_marks id).imp fun _ _ h => h.keepsPresenceAndCombo)
  | announce a _ => exact .inl (.refl Battler.KeepsPresenceAndCombo.refl s.roster)
  | swapRow actor index a _ _ =>
    exact .inl (.modifyActor Battler.KeepsPresenceAndCombo.refl s.roster actor _ fun _ _ =>
      ⟨⟨rfl, rfl⟩, rfl⟩)
  | forget actor =>
    exact .inl (.modifyActor Battler.KeepsPresenceAndCombo.refl s.roster actor _ fun _ _ =>
      ⟨⟨rfl, rfl⟩, rfl⟩)
  | spend actor =>
    exact .inl (.modifyActor Battler.KeepsPresenceAndCombo.refl s.roster actor _ fun _ _ =>
      ⟨⟨rfl, rfl⟩, rfl⟩)

theorem Background.presence {s t : Scene σ} (h : Background s t) :
    s.roster.Pointwise Battler.KeepsPresenceAndCombo t.roster ∨ Ran s t := by
  cases h with
  | quiet h =>
    rw [show t.roster = s.roster from congrArg Core.roster h]
    exact .inl (.refl Battler.KeepsPresenceAndCombo.refl _)
  | opened backdrop => exact .inl (.refl Battler.KeepsPresenceAndCombo.refl s.roster)
  | script hran _ => exact .inr hran
  | pose hroster _ => exact .inl (hroster.battlers.imp fun _ _ h => h.keepsPresenceAndCombo)
  | placed => exact .inl (s.finishStart_arranged.imp fun _ _ h => h.keepsPresenceAndCombo)
  | fill =>
    exact .inl ((s.roster.updateGauges_arranged _ _ _).imp fun _ _ h => h.keepsPresenceAndCombo)
  | tick => exact .inl (.refl Battler.KeepsPresenceAndCombo.refl s.roster)

/-- Whatever a step does to who is present, an action or a script did. -/
theorem Step.presence {s t : Scene σ} (h : Step s t) :
    s.roster.Pointwise Battler.KeepsPresenceAndCombo t.roster ∨ Ran s t ∨ Hurts s t := by
  rcases h.effect_or_background_or_marks with h | h | h
  · exact h.presence
  · exact h.presence.imp_right .inl
  · exact .inl (h.imp fun _ _ h => h.keepsPresenceAndCombo)

theorem Ran.samePresentActors {s t : Scene σ} (h : Ran s t) : s.roster.SamePresentActors t.roster :=
  ⟨h.game.actors.imp fun _ _ h => h.keepsPresence, h.game.party⟩

theorem Step.samePresentActors {s t : Scene σ} (h : Step s t) (hstate : s.state ≠ .battle) :
    s.roster.SamePresentActors t.roster := by
  rcases h.presence with h | h | h
  · exact .of_pointwise h
  · exact h.samePresentActors
  · exact absurd h.1 hstate

/-- A battle is won while the party lasts, and lost when it does not. -/
structure Settled (s : Scene σ) : Prop where
  victory : s.state = .victory → s.roster.isPartyDefeated = false
  defeat : s.state = .defeat → s.roster.isPartyDefeated = true

namespace Settled

variable {s t : Scene σ}

theorem of_undecided (h : t.state.isDecided = false) : Settled t :=
  ⟨fun hstate => by rw [hstate] at h; contradiction,
    fun hstate => by rw [hstate] at h; contradiction⟩

theorem of_samePresentActors (hs : Settled s) (hstate : t.state = s.state)
    (h : s.state ≠ .battle → s.roster.SamePresentActors t.roster) : Settled t := by
  constructor
  · intro hvictory
    have hbefore := hstate.symm.trans hvictory
    rw [(h (by simp [hbefore])).isPartyDefeated_eq]
    exact hs.victory hbefore
  · intro hdefeat
    have hbefore := hstate.symm.trans hdefeat
    rw [(h (by simp [hbefore])).isPartyDefeated_eq]
    exact hs.defeat hbefore

end Settled

theorem Verdict.settled {s t : Scene σ} (h : Verdict s t) : Settled t := by
  cases h with
  | lose _ hparty => exact ⟨fun hstate => (by cases hstate), fun _ => hparty⟩
  | win _ hparty _ => exact ⟨fun _ => hparty, fun hstate => by cases hstate⟩

theorem endBattle_state (s : Scene σ) (result : BattleResult) :
    (s.endBattle result).state = s.state := by
  unfold endBattle
  split <;> rfl

theorem enqueue_state (s : Scene σ) (a : Action) :
    (s.enqueue a).state = s.state ∨ (s.enqueue a).state = .selectActor := by
  obtain ⟨-, h⟩ | ⟨b, -, ⟨-, h⟩ | ⟨-, h⟩⟩ := s.enqueue_cases a
  · exact .inl (by rw [h])
  · exact .inr (by rw [h]; rfl)
  · exact .inl (by rw [h]; rfl)

theorem Step.settled {s t : Scene σ} (h : Step s t) (hrouted : Routed s) (hs : Settled s) :
    Settled t := by
  have hpresence := h.samePresentActors
  cases h with
  | deed h =>
    rcases h.state_cases hrouted with hstate | ⟨-, hopen⟩
    · exact hs.of_samePresentActors hstate hpresence
    · exact .of_undecided hopen
  | close h =>
    cases h with
    | done => exact hs
    | decided h => exact h.settled
    | launched a a' hstate _ _ _ _ => exact .of_undecided (congrArg SceneState.isDecided hstate)
    | ended _ => exact hs.of_samePresentActors (s.endBattle_state _) hpresence
  | interlude h =>
    cases h with
    | background h => exact hs.of_samePresentActors (congrArg Course.state h.course_eq) hpresence
    | decided h => exact h.settled
    | flee _ _ => exact .of_undecided rfl
    | overturn _ hparty => exact ⟨fun hstate => (by cases hstate), fun _ => hparty⟩
    | choose a _ _ _ =>
      rcases s.enqueue_state a with hstate | hstate
      · exact hs.of_samePresentActors hstate hpresence
      · exact .of_undecided (congrArg SceneState.isDecided hstate)
    | finish result _ => exact hs.of_samePresentActors (s.endBattle_state result) hpresence

theorem Path.settled {s t : Scene σ} {lost : List BattlerId} (h : Path Step s lost t)
    (hrouted : Routed s) (hs : Settled s) : Settled t ∧ Routed t := by
  induction h with
  | refl => exact ⟨hs, hrouted⟩
  | step _ hstep ih => exact ⟨hstep.settled ih.2 ih.1, hstep.routed ih.2⟩
  | take _ htake ih =>
    refine ⟨?_, htake.routed ih.2⟩
    cases htake with
    | mk a a' rest hstate _ _ _ _ => exact .of_undecided (congrArg SceneState.isDecided hstate)

theorem Interludes.settled {s t : Scene σ} (h : Interludes s t) (hrouted : Routed s)
    (hs : Settled s) :
    Settled t :=
  (h.path.settled hrouted hs).1

end Scene

end ActiveBattle
