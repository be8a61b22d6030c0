import Mathlib.Data.List.Chain
import ActiveBattle.Proofs.Scene.Consumption
import ActiveBattle.Proofs.Scene.Starting

/-!
# The steps of an action

In a turn the pending action takes at most one step (`step?`), and only there it passes from one of
its states to another, comes to another round, or starts a pass. Everything else in a battle leaves
it where it is, unless another action begins (`Idles`). So the scenes of a run in which an action
steps are linked, each to the next (`after_paced`).
-/

namespace ActiveBattle

set_option autoImplicit false

theorem Action.Continues.trans {a b c : Action} (h : a.Continues b) (h' : b.Continues c) :
    a.Continues c :=
  ⟨h'.source.trans h.source, h'.repeats.trans h.repeats, Int.le_trans h.repeatsDone h'.repeatsDone⟩

namespace Scene

variable {σ : Type}

/-- The pending action, if there is one left, has come no further. -/
structure GoesNoFurther (s t : Scene σ) : Prop where
  stage : t.actionState = s.actionState
  round : t.comboRepeat = s.comboRepeat
  pending : ∀ a, t.pending = some a → ∃ a', s.pending = some a' ∧ a'.Continues a

/-- No pass starts, and the pending action has come no further, unless another one is about to
begin. -/
structure Idles (s t : Scene σ) : Prop where
  starters : t.starters = s.starters
  stays : t.actionState = .begin ∨ GoesNoFurther s t

namespace GoesNoFurther

variable {s t u : Scene σ}

theorem of_kept (hstage : t.actionState = s.actionState) (hround : t.comboRepeat = s.comboRepeat)
    (hpending : t.pending = s.pending ∨ t.pending = none) : GoesNoFurther s t := by
  refine ⟨hstage, hround, fun a ha => ?_⟩
  rcases hpending with h | h
  · exact ⟨a, h ▸ ha, .refl a⟩
  · rw [h] at ha
    contradiction

theorem of_course (h : t.course = s.course) : GoesNoFurther s t :=
  .of_kept (congrArg Course.actionState h) (congrArg Course.comboRepeat h)
    (.inl (congrArg Course.pending h))

theorem refl (s : Scene σ) : GoesNoFurther s s := .of_course rfl

theorem trans (h : GoesNoFurther s t) (h' : GoesNoFurther t u) : GoesNoFurther s u := by
  refine ⟨h'.stage.trans h.stage, h'.round.trans h.round, fun a ha => ?_⟩
  obtain ⟨b, hb, hcontinues⟩ := h'.pending a ha
  obtain ⟨c, hc, hcontinues'⟩ := h.pending b hb
  exact ⟨c, hc, hcontinues'.trans hcontinues⟩

end GoesNoFurther

namespace Idles

variable {s t u : Scene σ}

theorem of_goesNoFurther (h : GoesNoFurther s t) (hstarters : t.starters = s.starters) :
    Idles s t :=
  ⟨hstarters, .inr h⟩

theorem refl (s : Scene σ) : Idles s s := .of_goesNoFurther (.refl s) rfl

theorem trans (h : Idles s t) (h' : Idles t u) : Idles s u := by
  refine ⟨h'.starters.trans h.starters, ?_⟩
  rcases h'.stays with hbegins | hnoFurther'
  · exact .inl hbegins
  · rcases h.stays with hbegins | hnoFurther
    · exact .inl (hnoFurther'.stage.trans hbegins)
    · exact .inr (hnoFurther.trans hnoFurther')

end Idles

theorem Effects.idles {s t : Scene σ} (h : Effects s t) : Idles s t :=
  .of_goesNoFurther (.of_course h.course_eq) h.logs.uneventful.starters_eq

theorem setState_idles (s : Scene σ) (next : SceneState) : Idles s (s.setState next) := by
  refine .of_goesNoFurther (.of_kept rfl rfl (.inl rfl)) ?_
  unfold starters
  rw [setState_events, List.filterMap_append]
  exact List.append_nil _

theorem setSubstate_idles (s : Scene σ) (n : Nat) : Idles s (s.setSubstate n) :=
  .of_goesNoFurther (.of_kept rfl rfl (.inl rfl)) rfl

theorem enqueue_goesNoFurther (s : Scene σ) (a : Action) : GoesNoFurther s (s.enqueue a) := by
  rcases s.enqueue_cases a with ⟨-, h⟩ | ⟨b, -, ⟨-, h⟩ | ⟨-, h⟩⟩
  · rw [h]
    exact .refl s
  · rw [h]
    exact .of_kept rfl rfl (.inl rfl)
  · rw [h]
    exact .of_kept rfl rfl (.inl rfl)

theorem endBattle_goesNoFurther (s : Scene σ) (result : BattleResult) :
    GoesNoFurther s (s.endBattle result) := by
  unfold endBattle
  split
  · exact .refl s
  · exact .of_kept rfl rfl (.inr rfl)

theorem releasePending_idles (s : Scene σ) : Idles s s.releasePending := by
  cases h : s.pending with
  | none =>
    have hkept : s.releasePending = s := by simp only [releasePending, h]
    rw [hkept]
    exact .refl s
  | some a =>
    rw [releasePending_eq h]
    exact .of_goesNoFurther (.of_kept rfl rfl (.inr rfl)) rfl

/-! ### Between two turns, and outside the battle -/

theorem Interlude.idles {s t : Scene σ} (h : Interlude s t) : Idles s t := by
  refine .of_goesNoFurther ?_ h.starters_eq
  cases h with
  | background h => exact .of_course h.course_eq
  | flee _ _ => exact .of_kept rfl rfl (.inl rfl)
  | decided h => cases h <;> exact .of_kept rfl rfl (.inl rfl)
  | overturn _ _ => exact .of_kept rfl rfl (.inl rfl)
  | choose a _ _ _ => exact s.enqueue_goesNoFurther a
  | finish result _ => exact s.endBattle_goesNoFurther result

theorem Interludes.idles {s t : Scene σ} (h : Interludes s t) : Idles s t := by
  induction h with
  | refl => exact .refl s
  | tail _ hstep ih => exact ih.trans hstep.idles

theorem Deed.goesNoFurther {s t : Scene σ} (h : Deed s t) (hstate : s.state ≠ .battle) :
    GoesNoFurther s t := by
  cases h with
  | effect h => exact .of_course h.course_eq
  | order a _ _ _ _ => exact s.enqueue_goesNoFurther a
  | rework a a' h hcontinues =>
    refine ⟨rfl, rfl, fun b hb => ⟨a, h, ?_⟩⟩
    obtain rfl := Option.some.inj hb
    exact hcontinues
  | discard _ _ hbattle _ _ _ => exact absurd hbattle hstate
  | pass hbattle _ _ => exact absurd hbattle hstate
  | release _ hbattle _ => exact absurd hbattle hstate
  | _ => exact .of_kept rfl rfl (.inl rfl)

theorem Deed.idles {s t : Scene σ} (h : Deed s t) (hrouted : Routed s)
    (hstate : s.state ≠ .battle) : Idles s t :=
  .of_goesNoFurther (h.goesNoFurther hstate) (h.uneventful hrouted).starters_eq

/-- A deed that leads into the battle leads to its first step. -/
theorem Deed.substate_of_enters {s t : Scene σ} (h : Deed s t) (hstate : s.state ≠ .battle)
    (ht : t.state = .battle) :
    t.substate = 0 := by
  cases h with
  | effect h => exact absurd ((congrArg Course.state h.course_eq).symm.trans ht) hstate
  | go _ => rfl
  | advance _ => exact absurd ht hstate
  | command _ _ _ => rfl
  | leave _ => rfl
  | order a _ _ _ _ =>
    rcases s.enqueue_cases a with ⟨-, h⟩ | ⟨b, -, ⟨-, h⟩ | ⟨-, h⟩⟩
    · rw [h] at ht
      exact absurd ht hstate
    · rw [h]
      rfl
    · rw [h] at ht
      exact absurd ht hstate
  | discard _ _ hbattle _ _ _ => exact absurd hbattle hstate
  | pass hbattle _ _ => exact absurd hbattle hstate
  | rework _ _ _ _ => exact absurd ht hstate
  | away _ _ => exact absurd ht hstate
  | release _ hbattle _ => exact absurd hbattle hstate

theorem Verdict.idles {s t : Scene σ} (h : Verdict s t) : Idles s t := by
  cases h <;> exact setState_idles _ _

theorem Outcome.idles {s t : Scene σ} (h : Outcome s t)
    (haway : s.state = .battle → s.substate ≠ battleAction) :
    Idles s t := by
  cases h with
  | done => exact .refl s
  | decided h => exact h.idles
  | launched _ _ hstate hsub _ _ _ => exact absurd hsub (haway hstate)
  | ended _ =>
    exact .of_goesNoFurther (endBattle_goesNoFurther s _)
      (s.endBattle_logs _).uneventful.starters_eq

theorem Path.chores_idle {s t : Scene σ} {lost : List BattlerId} (h : Path Chore s lost t)
    (hrouted : Routed s) (hstate : s.state ≠ .battle) :
    Idles s t ∧ Routed t ∧ t.state ≠ .battle := by
  induction h with
  | refl => exact ⟨.refl s, hrouted, hstate⟩
  | step _ hstep ih =>
    obtain ⟨hidles, hrouted, hstate⟩ := ih
    exact ⟨hidles.trans (hstep.deed.idles hrouted hstate), hstep.deed.routed hrouted,
      hstep.state ▸ hstate⟩
  | take _ htake ih =>
    cases htake with
    | mk _ _ _ hbattle => exact absurd hbattle ih.2.2

/-- Turns of the other states leave the pending action alone. -/
theorem Orderly.idles {s t : Scene σ} {lost : List BattlerId} (h : Orderly s lost t)
    (hrouted : Routed s) (hstate : s.state ≠ .battle) : Idles s t := by
  obtain ⟨u, v, hpath, hparting, houtcome⟩ := h
  obtain ⟨hidles, hurouted, hustate⟩ := hpath.chores_idle hrouted hstate
  cases hparting with
  | stay => exact hidles.trans (houtcome.idles fun h => absurd h hustate)
  | go hdeed =>
    refine (hidles.trans (hdeed.idles hurouted hustate)).trans (houtcome.idles fun hbattle => ?_)
    rw [hdeed.substate_of_enters hustate hbattle]
    decide
  | land hdeed hlanded heffects =>
    refine ((hidles.trans (hdeed.idles hurouted hustate)).trans heffects.idles).trans
      (houtcome.idles fun hbattle => ?_)
    exact absurd (heffects.state_eq.symm.trans hbattle) hlanded

/-! ### In the battle -/

theorem checkEvents_idles {s : Scene σ} {trigger : EventTrigger} {source : Option BattlerId}
    (hopen : s.state.isDecided = false) (haway : s.state = .battle → s.substate ≠ battleAction) :
    Idles s (s.checkEvents trigger source).2 := by
  obtain ⟨u, heffects, houtcome⟩ := s.checkEvents_outcome trigger source hopen
  refine heffects.idles.trans (houtcome.idles fun h => ?_)
  rw [heffects.substate_eq]
  exact haway (heffects.state_eq.symm.trans h)

theorem checkBattleEnd_idles {s : Scene σ} (hopen : s.state.isDecided = false) :
    Idles s s.checkBattleEnd.2 := by
  rcases s.checkBattleEnd_cases hopen with h | h
  · rw [h]
    exact .refl s
  · exact h.idles

theorem afterAction_idles (s : Scene σ) (hstate : s.state = .battle)
    (hsub : s.substate = postEvents) :
    Idles s s.afterAction.2 := by
  have hdone : Idles s s.enemyActionDone.2 := by
    obtain ⟨u, heffects, houtcome⟩ := s.enemyActionDone_outcome hstate
    refine heffects.idles.trans (houtcome.idles fun _ => ?_)
    rw [heffects.substate_eq, hsub]
    decide
  unfold afterAction
  split
  · rename_i t hwaits
    rw [hwaits] at hdone
    exact hdone
  · rename_i t hgoes
    rw [hgoes] at hdone
    have hreleased := hdone.trans t.releasePending_idles
    have hopen := isDecided_of_battle
      (t.releasePending_chores ((enemyActionDone_effects hgoes).state_eq.trans hstate)).2.1
    have hended := hreleased.trans (checkBattleEnd_idles hopen)
    split
    · rename_i u hover
      rw [hover] at hended
      exact hended
    · rename_i u hgoes
      rw [hgoes] at hended
      exact hended.trans (u.setSubstate_idles preAction)

theorem dropGoneActor_idles (s : Scene σ) : Idles s s.dropGoneActor := by
  unfold dropGoneActor
  split
  · exact .refl s
  · dsimp only
    split
    · have hcleared : Idles s { s with activeActor := none } :=
        .of_goesNoFurther (.of_kept rfl rfl (.inl rfl)) rfl
      exact hcleared.trans (setState_idles _ .selectActor)
    · exact .of_goesNoFurther (.of_kept rfl rfl (.inl rfl)) rfl

theorem takeAction_idles (s : Scene σ) (hrouted : Routed s) (hstate : s.state = .battle)
    (hsub : s.substate ≤ 1) :
    Idles s s.takeAction := by
  have huneventful := ((s.takeAction_path hstate hsub).mono fun _ _ h => h.deed).uneventful hrouted
  refine ⟨huneventful.1.starters_eq, ?_⟩
  have hcourse := s.discardStale_course s.queue
  unfold takeAction
  dsimp only
  split
  · right
    exact .of_kept (congrArg Course.actionState hcourse) (congrArg Course.comboRepeat hcourse)
      (.inl (congrArg Course.pending hcourse))
  · exact .inl rfl

theorem beforeAction_idles (s : Scene σ) (hstate : s.state = .battle)
    (hsub : s.substate = preEvents) :
    match s.beforeAction with
    | .next t => Idles s t
    | .stop _ t => Idles s t := by
  unfold beforeAction
  cases hpending : s.pending with
  | none => exact s.setSubstate_idles preAction
  | some a =>
    have hannounced := announceActor_effects hpending
    have hopen := isDecided_of_battle (hannounced.state_eq.trans hstate)
    have hchecked : Idles s ((s.announceActor a).checkEvents .beforeAction (some a.source)).2 := by
      refine hannounced.idles.trans (checkEvents_idles hopen fun _ => ?_)
      rw [hannounced.substate_eq, hsub]
      decide
    dsimp only
    generalize (s.announceActor a).checkEvents .beforeAction (some a.source) = checked at hchecked
    obtain ⟨_ | _, t⟩ := checked
    · exact hchecked
    · exact hchecked.trans (t.setSubstate_idles battleAction)

/-- The pending action goes on: its source is still there for it, and nothing is shown that it waits
for. -/
structure Acting (s : Scene σ) (a : Action) : Prop where
  state : s.state = .battle
  pending : s.pending = some a
  alive : (a.kind = .none && s.isSourceDead a) = false
  unshown : s.isShowing a = false

/-- The scene in which the pending action takes a step, if it can when it comes to it. -/
def stepping? (s : Scene σ) : Option (Scene σ) :=
  s.pending.bind fun a =>
    if (a.kind = .none && s.isSourceDead a) || s.isShowing a then none else some s.endNotification

/-- The same, if the events before the action let it go on. -/
def preparedStep? (s : Scene σ) : Option (Scene σ) :=
  match s.beforeAction with
  | .stop _ _ => none
  | .next t => t.stepping?

/-- The scene in which the pending action takes a step in a turn. -/
def step? (s : Scene σ) : Option (Scene σ) :=
  if s.state = .battle then
    match s.substate with
    | preEvents => s.preparedStep?
    | battleAction => s.stepping?
    | 0 | preAction =>
      if s.takeAction.substate = preEvents then s.takeAction.preparedStep? else none
    | _ => none
  else none

theorem stepping?_eq_some {s u : Scene σ} (hstate : s.state = .battle) (h : s.stepping? = some u) :
    u = s.endNotification ∧ ∃ a, u.Acting a := by
  obtain ⟨a, hpending, hgoes⟩ := Option.bind_eq_some_iff.mp h
  split at hgoes
  · contradiction
  · rename_i hable
    obtain rfl := Option.some.inj hgoes
    simp only [Bool.or_eq_true, not_or, Bool.not_eq_true] at hable
    exact ⟨rfl, a, hstate, hpending, hable.1, hable.2⟩

section Turns

variable [AssetLoader σ]

/-- The scene after the step of the pending action. -/
def stepped (s : Scene σ) : Scene σ := s.resolvePending.2

/-- What a turn makes of a scene, if the pending action takes this step in it, or none. -/
def Works (s t : Scene σ) : Option (Scene σ) → Prop
  | none => Idles s t
  | some u => Idles s u ∧ (∃ a, u.Acting a) ∧ (∃ lost, Path Deed s lost u) ∧ Idles u.stepped t

theorem Works.after {s t u : Scene σ} {step : Option (Scene σ)} (hidles : Idles s t)
    {lost : List BattlerId} (hpath : Path Deed s lost t) (h : Works t u step) : Works s u step := by
  cases step with
  | none => exact hidles.trans h
  | some v =>
    obtain ⟨hbefore, hacting, ⟨lost', hpath'⟩, hafter⟩ := h
    exact ⟨hidles.trans hbefore, hacting, ⟨_, hpath.trans hpath'⟩, hafter⟩

theorem stepAction_keeps {s : Scene σ} {a : Action} (hstate : s.state = .battle)
    (hpending : s.pending = some a) :
    (s.stepAction a).2.1.state = .battle ∧ a.Continues (s.stepAction a).2.2 := by
  have htreated := s.stepAction_treated a hstate hpending
  generalize (s.stepAction a).1 = pace at htreated
  generalize (s.stepAction a).2.1 = t at htreated ⊢
  generalize (s.stepAction a).2.2 = a' at htreated ⊢
  cases htreated with
  | waits => exact ⟨hstate, .refl a⟩
  | passes hpassing hcontinues =>
    exact ⟨(congrArg Course.state hpassing.course_eq).trans hstate, hcontinues⟩
  | launches heffects _ hsame => exact ⟨heffects.state_eq.trans hstate, hsame.continues⟩

theorem resolvePending_state {s : Scene σ} (hstate : s.state = .battle) :
    s.resolvePending.2.state = .battle := by
  unfold resolvePending
  dsimp only
  split
  · exact hstate
  · rename_i a hpending
    have hstepped := (stepAction_keeps (s := s.endNotification) hstate hpending).1
    split
    · exact hstepped
    · exact hstepped

theorem stepAction_of_waits {s : Scene σ} {a : Action}
    (h : ((a.kind = .none && s.isSourceDead a) || s.isShowing a) = true) :
    (s.stepAction a).2 = (s, a) := by
  unfold stepAction
  split
  · rfl
  · rename_i halive
    rw [Bool.not_eq_true] at halive
    rw [halive, Bool.false_or] at h
    rw [if_pos h]

/-- Where the pending action takes no step, it waits or is over. -/
theorem resolvePending_idles {s : Scene σ} (h : s.stepping? = none) :
    Idles s s.resolvePending.2 := by
  unfold resolvePending
  dsimp only
  split
  · exact .of_goesNoFurther (.of_kept rfl rfl (.inl rfl)) rfl
  · rename_i a hpending
    have hpending' : s.pending = some a := hpending
    have hwaits : (s.endNotification.stepAction a).2 = (s.endNotification, a) := by
      unfold stepping? at h
      rw [hpending', Option.bind_some] at h
      split at h
      · rename_i hwaits
        exact stepAction_of_waits hwaits
      · contradiction
    generalize s.endNotification.stepAction a = stepped at hwaits
    obtain ⟨pace, t, a'⟩ := stepped
    obtain ⟨rfl, rfl⟩ := Prod.mk.inj hwaits
    dsimp only
    split
    · exact .of_goesNoFurther (.of_kept rfl rfl (.inl hpending'.symm)) rfl
    · exact .of_goesNoFurther (.of_kept rfl rfl (.inr rfl)) rfl

/-- After the step of the pending action, the turn leaves it where it is. -/
theorem processAction_after {s : Scene σ} (hstate : s.state = .battle) :
    Idles s.resolvePending.2 s.processAction.2 := by
  have hresolved := resolvePending_state hstate
  unfold processAction duringAction
  generalize s.resolvePending = resolved at hresolved
  obtain ⟨pace, t⟩ := resolved
  cases pace with
  | sameFrame => exact .refl t
  | nextFrame => exact .refl t
  | finished =>
    exact (t.setSubstate_idles postEvents).trans
      ((t.setSubstate postEvents).afterAction_idles hresolved rfl)

theorem processAction_works {s : Scene σ} (hstate : s.state = .battle) :
    Works s s.processAction.2 s.stepping? := by
  have hafter := processAction_after hstate
  cases hstep : s.stepping? with
  | none => exact (resolvePending_idles hstep).trans hafter
  | some u =>
    obtain ⟨rfl, hacting⟩ := stepping?_eq_some hstate hstep
    have hquiet : Effects s s.endNotification := .quiet rfl
    exact ⟨hquiet.idles, hacting, ⟨[], hquiet.deeds.path⟩, hafter⟩

theorem processPrepared_works {s : Scene σ} (hstate : s.state = .battle)
    (hsub : s.substate = preEvents) :
    Works s s.processPrepared.2 s.preparedStep? := by
  have hidles := s.beforeAction_idles hstate hsub
  have hfollows := s.beforeAction_follows hstate hsub
  unfold processPrepared preparedStep?
  generalize s.beforeAction = progress at hidles hfollows
  cases progress with
  | stop pace t => exact hidles
  | next t =>
    obtain ⟨hchores, htstate, -, -⟩ := hfollows
    exact (processAction_works htstate).after hidles (hchores.path.mono fun _ _ h => h.deed)

theorem processBattle_works {s : Scene σ} (hrouted : Routed s) (hstate : s.state = .battle) :
    Works s s.processBattle.2 s.step? := by
  have taken (hsub : s.substate ≤ 1) : Works s
      (if s.takeAction.substate = preEvents then s.takeAction.processPrepared
        else s.takeAction.goOn).2
      (if s.takeAction.substate = preEvents then s.takeAction.preparedStep? else none) := by
    have hidles := s.takeAction_idles hrouted hstate hsub
    split
    · rename_i hprepared
      exact (processPrepared_works (s.takeAction_state.trans hstate) hprepared).after hidles
        ((s.takeAction_path hstate hsub).mono fun _ _ h => h.deed)
    · exact hidles
  unfold processBattle step?
  rw [if_pos hstate]
  generalize hsub : s.substate = n
  split
  · exact processPrepared_works hstate hsub
  · exact processAction_works hstate
  · exact s.afterAction_idles hstate hsub
  · exact s.setState_idles _
  · exact taken (by omega)
  · exact taken (by omega)
  · split <;> first | contradiction | exact Idles.refl s

/-- In a turn the pending action takes one step at most, and is left alone otherwise. -/
theorem processState_works {s : Scene σ} (input : InputState) (hrouted : Routed s)
    (hopen : s.result = none) :
    Works s (s.processState input).2 s.step? := by
  by_cases hstate : s.state = .battle
  · have hsame : s.dropGoneActor = s := dropGoneActor_of_closed (by rw [hstate]; rfl)
    unfold processState
    dsimp only
    rw [hsame]
    simp only [hstate]
    exact processBattle_works hrouted hstate
  · have hnone : s.step? = none := if_neg hstate
    rw [hnone]
    have horderly := s.processState_orderly input hopen
    exact s.dropGoneActor_idles.trans
      (horderly.idles (s.dropGoneActor_deeds.path.uneventful hrouted).2
        (dropGoneActor_state_ne hstate))

/-- The scenes of a run in which its actions take their steps. -/
def stepsIn (s : Scene σ) (inputs : List InputState) : List (Scene σ) :=
  (s.turnsIn inputs).filterMap (·.1.step?)

/-- What the steps of the actions are to a run: after each of them the action is left alone up to
the next. -/
structure Paced (s : Scene σ) (steps : List (Scene σ)) (t : Scene σ) : Prop where
  routed : Routed t
  reaches : Reaches s t
  acting : ∀ u ∈ steps, (∃ a, u.Acting a) ∧ Reaches s u
  linked : steps.IsChain fun u v => Idles u.stepped v
  since : ∀ u ∈ steps.getLast?, Idles u.stepped t

namespace Paced

variable {s t u : Scene σ} {steps : List (Scene σ)}

theorem idle (hs : Paced s steps t) (hidles : Idles t u) {lost : List BattlerId}
    (hpath : Path Step t lost u) :
    Paced s steps u :=
  ⟨hpath.routed (fun _ _ => Step.routed) hs.routed, hs.reaches.trans hpath, hs.acting, hs.linked,
    fun v hv => (hs.since v hv).trans hidles⟩

theorem work (hs : Paced s steps t) {step : Option (Scene σ)} (hworks : Works t u step)
    {lost : List BattlerId} (hpath : Path Step t lost u) : Paced s (steps ++ step.toList) u := by
  cases step with
  | none =>
    rw [Option.toList_none, List.append_nil]
    exact hs.idle hworks hpath
  | some v =>
    obtain ⟨hbefore, hacting, ⟨_, hpath'⟩, hafter⟩ := hworks
    refine ⟨hpath.routed (fun _ _ => Step.routed) hs.routed, hs.reaches.trans hpath,
      fun w hw => ?_, ?_, fun w hw => ?_⟩
    · rcases List.mem_append.mp hw with hw | hw
      · exact hs.acting w hw
      · rw [List.mem_singleton.mp hw]
        exact ⟨hacting, hs.reaches.trans (hpath'.mono fun _ _ => .deed)⟩
    · refine hs.linked.append (.singleton v) fun w hw w' hw' => ?_
      obtain rfl := Option.mem_some.mp hw'
      exact (hs.since w hw).trans hbefore
    · rw [Option.toList_some, List.getLast?_concat] at hw
      obtain rfl := Option.mem_some.mp hw
      exact hafter

end Paced

theorem after_paced {s : Scene σ} (hrouted : Routed s) (inputs : List InputState) :
    Paced s (s.stepsIn inputs) (s.after inputs) := by
  refine after_history (P := fun _ turns t => Paced s (turns.filterMap (·.1.step?)) t) ?_
    ?_ ?_ ?_ inputs
  · intro input frames turns t ht
    have hprelude := t.prelude_interludes input
    exact ht.idle hprelude.idles hprelude.path
  · intro input frames turns t ht
    have hwaited := t.checkWait_effects input
    exact ht.idle hwaited.idles (hwaited.deeds.path.mono fun _ _ => .deed)
  · intro input frames turns t ht hopen
    have hturned :=
      ht.work (processState_works input ht.routed hopen) (t.processState_turned input hopen).path
    rw [List.filterMap_append]
    cases hstep : t.step? with
    | none => simpa [hstep] using hturned
    | some u => simpa [hstep] using hturned
  · exact ⟨hrouted, ⟨[], .refl s⟩, fun _ h => absurd h List.not_mem_nil, .nil,
      fun _ h => absurd h (Option.not_mem_none _)⟩

end Turns

end Scene

end ActiveBattle
