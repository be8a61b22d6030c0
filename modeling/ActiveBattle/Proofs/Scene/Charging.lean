import ActiveBattle.Proofs.Scene.Admission

/-!
# Full gauges

The gauge of an actor is full when its windows open. Nothing lowers it while they are open; only the
actions of others can, when the windows wait for the queue to be done (`KeepsWaitingFull`,
`Orderly.waiting`).
-/

namespace ActiveBattle

set_option autoImplicit false

namespace Battler

/-- The same battler, its gauge full if it was. -/
structure Charges (max : Int) (b b' : Battler) : Prop where
  dbId : b'.dbId = b.dbId
  full : b.isGaugeFull max = true → b'.isGaugeFull max = true

namespace Charges

variable {max : Int} {b b' : Battler}

theorem refl (b : Battler) : Charges max b b := ⟨rfl, fun hfull => hfull⟩

theorem trans (a b c : Battler) (h : Charges max a b) (h' : Charges max b c) : Charges max a c :=
  ⟨h'.dbId.trans h.dbId, fun hfull => h'.full (h.full hfull)⟩

theorem of_gauge (hid : b'.dbId = b.dbId) (hgauge : b'.gauge = b.gauge) : Charges max b b' := by
  refine ⟨hid, fun hfull => ?_⟩
  rw [isGaugeFull, hgauge]
  exact hfull

end Charges

variable {max : Int} {b b' : Battler}

theorem Posed.charges (h : Posed b b') : Charges max b b' := by
  rw [h]
  exact .of_gauge rfl rfl

theorem ComboGiven.charges (h : ComboGiven b b') : Charges max b b' := by
  rcases h with rfl | ⟨command, times, rfl⟩
  · exact .refl _
  · exact .of_gauge rfl rfl

theorem Paid.charges (h : Paid b b') : Charges max b b' := by
  rcases h with rfl | ⟨sp, rfl⟩
  · exact .refl _
  · unfold setSp
    split <;> exact .of_gauge rfl rfl

end Battler

namespace Roster

/-- Only gauges that are not full are filled. -/
theorem fillGauges_charges (db : Database) (max base average : Int) (ids : List BattlerId)
    (r : Roster) :
    r.Pointwise (Battler.Charges max) (fillGauges db max base average ids r).2 := by
  induction ids generalizing r with
  | nil => exact .refl Battler.Charges.refl r
  | cons id rest ih =>
    unfold fillGauges
    split
    · exact ih r
    · rename_i b hb
      split
      · rename_i hfill
        simp only [canFill, Bool.and_eq_true, Bool.not_eq_true'] at hfill
        refine .trans Battler.Charges.trans (Pointwise.modify Battler.Charges.refl r id _ ?_) (ih _)
        intro c hc
        obtain rfl := Option.some.inj (hb.symm.trans hc)
        exact ⟨rfl, fun hfull => absurd (hfill.2.symm.trans hfull) Bool.false_ne_true⟩
      · exact ih r

end Roster

namespace Scene

variable {σ : Type}

def isFull (s : Scene σ) (id : BattlerId) : Bool :=
  (s.roster.battler? id).any (·.isGaugeFull s.config.maxAtbGauge)

/-- The actor whose windows are open, or will be once the queue is done. -/
def waiting? (s : Scene σ) : Option Int := if s.showsMenu then s.activeActor else none

theorem waiting?_eq_some {s : Scene σ} {actor : Int} :
    s.waiting? = some actor ↔ s.showsMenu = true ∧ s.activeActor = some actor := by
  unfold waiting?
  split <;> simp_all

theorem waiting?_of_closed {s : Scene σ} (hmenu : s.state.isActorMenu = false)
    (hbattle : s.state ≠ .battle) :
    s.waiting? = none := by
  simp [waiting?, showsMenu, hmenu, hbattle]

theorem waiting?_of_course {s t : Scene σ} (h : t.course = s.course) : t.waiting? = s.waiting? :=
  congrArg (fun c : Course =>
    if c.state.isActorMenu || (decide (c.state = .battle) && c.previousState.isActorMenu)
    then c.activeActor else none) h

theorem enqueue_waiting (s : Scene σ) (a : Action) {actor : Int}
    (h : (s.enqueue a).waiting? = some actor) :
    s.waiting? = some actor ∧ (a.source = .actor actor → s.enqueue a = s) := by
  rcases s.enqueue_cases a with ⟨-, henqueue⟩ | ⟨b, -, ⟨-, henqueue⟩ | ⟨hmenu, henqueue⟩⟩
  · exact ⟨by rwa [henqueue] at h, fun _ => henqueue⟩
  · rw [henqueue, waiting?_of_closed rfl (by simp [setState])] at h
    contradiction
  · rw [henqueue] at h
    refine ⟨h, fun hsource => ?_⟩
    have hactor := (waiting?_eq_some.mp h).2
    simp [isFromMenu, hsource, show s.activeActor = some actor from hactor] at hmenu

/-- Windows that wait have waited before, or open for an actor that is ready. -/
theorem Deed.waiting {s t : Scene σ} (h : Deed s t) (hs : Routed s) {actor : Int}
    (hwaits : t.waiting? = some actor) :
    s.waiting? = some actor ∨
      s.isReady actor = true ∧ (s.state = .selectActor ∨ s.state = .autoBattle) ∧
        t = s.openCommands actor := by
  cases h with
  | effect h => exact .inl (waiting?_of_course h.course_eq ▸ hwaits)
  | go h =>
    obtain ⟨hshows, hactor⟩ := waiting?_eq_some.mp hwaits
    exact .inl (waiting?_eq_some.mpr ⟨(h.routed hs).2 hshows, hactor⟩)
  | command id hid hstate =>
    obtain rfl := Option.some.inj (waiting?_eq_some.mp hwaits).2
    exact .inr ⟨hid, hstate, rfl⟩
  | leave _ =>
    have hactor := (waiting?_eq_some.mp hwaits).2
    contradiction
  | order a _ _ _ _ => exact .inl (s.enqueue_waiting a hwaits).1
  | discard a rest _ _ _ _ =>
    have hcourse := s.discard_course a.source
    have hkept : ({ s.discard a.source with queue := rest } : Scene σ).waiting? =
        (s.discard a.source).waiting? :=
      rfl
    exact .inl (waiting?_of_course hcourse ▸ hkept ▸ hwaits)
  | pass _ _ h => cases h <;> exact .inl hwaits
  | release a _ h =>
    rw [releasePending_eq h] at hwaits
    obtain ⟨hshows, hactor⟩ := waiting?_eq_some.mp hwaits
    refine .inl (waiting?_eq_some.mpr ⟨hshows, ?_⟩)
    dsimp only [modifyBattler, modifyGame, modifyWorld] at hactor
    split at hactor
    · contradiction
    · exact hactor
  | _ => exact .inl hwaits

theorem Outcome.waiting {s t : Scene σ} (h : Outcome s t) {actor : Int}
    (hwaits : t.waiting? = some actor) :
    s.waiting? = some actor := by
  cases h with
  | done => exact hwaits
  | decided h =>
    have hnone : t.waiting? = none := by
      cases h <;> exact waiting?_of_closed rfl (by simp [setState])
    rw [hnone] at hwaits
    contradiction
  | launched a a' _ _ _ _ _ => exact hwaits
  | ended _ =>
    unfold endBattle at hwaits
    split at hwaits <;> exact hwaits

theorem Interlude.waiting {s t : Scene σ} (h : Interlude s t) {actor : Int}
    (hwaits : t.waiting? = some actor) :
    s.waiting? = some actor := by
  have closed {next : SceneState} (hmenu : next.isActorMenu = false) (hbattle : next ≠ .battle)
      (h : (s.setState next).waiting? = some actor) : False := by
    rw [waiting?_of_closed hmenu hbattle] at h
    contradiction
  cases h with
  | background h => exact waiting?_of_course h.course_eq ▸ hwaits
  | flee _ _ => exact (closed rfl (by simp) hwaits).elim
  | decided h => cases h <;> exact (closed rfl (by simp) hwaits).elim
  | overturn _ _ => exact (closed rfl (by simp) hwaits).elim
  | choose a _ _ _ => exact (s.enqueue_waiting a hwaits).1
  | finish result _ =>
    unfold endBattle at hwaits
    split at hwaits <;> exact hwaits

/-- No actor's gauge is full no longer. -/
def KeepsGaugesFull (s t : Scene σ) : Prop :=
  ∀ actor, s.isFull (.actor actor) = true → t.isFull (.actor actor) = true

namespace KeepsGaugesFull

variable {s t u : Scene σ}

theorem of_actors (hconfig : t.config = s.config)
    (h : List.Forall₂ (Battler.Charges s.config.maxAtbGauge) s.roster.actors t.roster.actors) :
    KeepsGaugesFull s t := by
  intro actor hfull
  have hrel := forall₂_find? (p := fun b : Battler => decide (b.dbId = actor))
    (fun a b (hab : Battler.Charges s.config.maxAtbGauge a b) => by simp only [hab.dbId]) h
  change (t.roster.actors.find? _).any _ = true
  change (s.roster.actors.find? _).any _ = true at hfull
  rw [hconfig]
  generalize s.roster.actors.find? _ = found at hrel hfull
  generalize t.roster.actors.find? _ = found' at hrel ⊢
  cases hrel with
  | none => contradiction
  | some hab => exact hab.full hfull

theorem of_pointwise (hconfig : t.config = s.config)
    (h : s.roster.Pointwise (Battler.Charges s.config.maxAtbGauge) t.roster) :
    KeepsGaugesFull s t :=
  of_actors hconfig h.actors

theorem of_roster (hconfig : t.config = s.config) (h : t.roster = s.roster) :
    KeepsGaugesFull s t := by
  refine of_pointwise hconfig ?_
  rw [h]
  exact .refl Battler.Charges.refl _

end KeepsGaugesFull

theorem Ran.keepsGaugesFull {s t : Scene σ} (h : Ran s t) (hconfig : t.config = s.config) :
    KeepsGaugesFull s t :=
  .of_actors hconfig (h.game.actors.imp fun _ _ hgiven => hgiven.charges)

theorem Effect.keepsGaugesFull {s t : Scene σ} (h : Effect s t)
    (hmenu : s.state.isActorMenu = true) : KeepsGaugesFull s t := by
  have hconfig : t.config = s.config := congrArg Course.config h.course_eq
  have modified (actor : Int) (f : Battler → Battler)
      (hf : ∀ b, Battler.Charges s.config.maxAtbGauge b (f b)) :
      KeepsGaugesFull s (s.modifyRoster (·.modifyActor actor f)) :=
    .of_pointwise rfl (.modifyActor Battler.Charges.refl s.roster actor f fun b _ => hf b)
  -- Wounds, rewards and spent actions belong to states without windows.
  have elsewhere {state : SceneState} (h : s.state = state) (hclosed : state.isActorMenu = false) :
      KeepsGaugesFull s t := by
    rw [h, hclosed] at hmenu
    contradiction
  cases h with
  | quiet h => exact .of_roster hconfig (congrArg Core.roster h)
  | hook hran _ => exact hran.keepsGaugesFull hconfig
  | page trigger source _ =>
    exact .of_roster hconfig (congrArg GameState.roster (s.schedulePage_game trigger source))
  | pose hroster _ => exact .of_pointwise hconfig (hroster.battlers.imp fun _ _ h => h.charges)
  | wear hstate => exact elsewhere hstate rfl
  | ache hstate _ _ => exact elsewhere hstate rfl
  | pay hroster _ => exact .of_pointwise hconfig (hroster.battlers.imp fun _ _ h => h.charges)
  | strike hstate _ _ _ => exact elsewhere hstate rfl
  | consume item => exact .of_pointwise hconfig (.of_goods Battler.Charges.refl rfl rfl rfl)
  | reward hstate _ => exact elsewhere hstate rfl
  | turn id =>
    have hcounted : s.roster.Pointwise (Battler.Charges s.config.maxAtbGauge) s.roster.incTurns :=
      .of_goods Battler.Charges.refl rfl rfl rfl
    exact .of_pointwise hconfig (hcounted.trans Battler.Charges.trans
      (.modify Battler.Charges.refl s.roster.incTurns id _ fun _ _ => .of_gauge rfl rfl))
  | announce a _ => exact .of_roster hconfig rfl
  | swapRow actor index a _ _ => exact modified actor _ fun _ => .of_gauge rfl rfl
  | forget actor => exact modified actor _ fun _ => .of_gauge rfl rfl
  | spend actor hstate => exact elsewhere hstate rfl

/-- Once everyone is placed, gauges are only filled. -/
theorem Background.keepsGaugesFull {s t : Scene σ} (h : Background s t)
    (hplaced : s.isPlaced = true) : KeepsGaugesFull s t := by
  have hconfig : t.config = s.config := congrArg Course.config h.course_eq
  cases h with
  | quiet h => exact .of_roster hconfig (congrArg Core.roster h)
  | opened backdrop => exact .of_roster hconfig rfl
  | script hran _ => exact hran.keepsGaugesFull hconfig
  | pose hroster _ => exact .of_pointwise hconfig (hroster.battlers.imp fun _ _ h => h.charges)
  | placed hbefore => exact absurd (hbefore.symm.trans hplaced) Bool.false_ne_true
  | fill => exact .of_pointwise hconfig (s.roster.fillGauges_charges _ _ _ _ _)
  | tick => exact .of_roster hconfig rfl

/-- Queueing an action lowers the gauge of its battler, and no other. -/
theorem enqueue_isFull (s : Scene σ) (a : Action) {actor : Int}
    (hother : a.source = .actor actor → s.enqueue a = s) (hfull : s.isFull (.actor actor) = true) :
    (s.enqueue a).isFull (.actor actor) = true := by
  by_cases hsource : a.source = .actor actor
  · rw [hother hsource]
    exact hfull
  · have hkept : (s.enlist a).isFull (.actor actor) = true := by
      have hmodified := s.roster.battler?_modify a.source (.actor actor) (s.marking a) fun _ => rfl
      rw [if_neg (Ne.symm hsource)] at hmodified
      unfold isFull
      rw [show (s.enlist a).roster.battler? (.actor actor) = _ from hmodified]
      exact hfull
    rcases s.enqueue_cases a with ⟨-, h⟩ | ⟨b, -, ⟨-, h⟩ | ⟨-, h⟩⟩
    · rw [h]
      exact hfull
    · rw [h]
      exact hkept
    · rw [h]
      exact hkept

theorem isFull_of_isReady {s : Scene σ} {actor : Int} (h : s.isReady actor = true) :
    s.isFull (.actor actor) = true := by
  obtain ⟨b, hb, hready⟩ := (Option.any_eq_true _ _).mp (Bool.and_eq_true_iff.mp h).2
  simp only [Bool.and_eq_true] at hready
  simp [isFull, show s.roster.battler? (.actor actor) = some b from hb, hready.1.2]

/-- An actor whose windows wait has a full gauge after, if it had one in case they waited before. -/
def KeepsWaitingFull (s t : Scene σ) : Prop :=
  ∀ actor, t.waiting? = some actor → (s.waiting? = some actor → s.isFull (.actor actor) = true) →
    t.isFull (.actor actor) = true

namespace KeepsWaitingFull

variable {s t u : Scene σ}

theorem refl (s : Scene σ) : KeepsWaitingFull s s := fun _ hwaits hfull => hfull hwaits

theorem trans (h : KeepsWaitingFull s t) (h' : KeepsWaitingFull t u) : KeepsWaitingFull s u :=
  fun actor hwaits hfull => h' actor hwaits fun hbefore => h actor hbefore hfull

theorem of_keepsGaugesFull (hwaiting : ∀ actor, t.waiting? = some actor → s.waiting? = some actor)
    (h : KeepsGaugesFull s t) : KeepsWaitingFull s t :=
  fun actor hwaits hfull => h actor (hfull (hwaiting actor hwaits))

end KeepsWaitingFull

/-- Nothing that an outer state does other than the battle lowers the gauge of the actor at the
windows. -/
theorem Deed.keepsWaitingFull {s t : Scene σ} (h : Deed s t) (hs : Routed s)
    (hstate : s.state ≠ .battle) : KeepsWaitingFull s t := by
  intro actor hwaits hfull
  rcases h.waiting hs hwaits with hbefore | ⟨hready, -, rfl⟩
  · have hkept := hfull hbefore
    have hmenu : s.state.isActorMenu = true := by
      simpa [showsMenu, hstate] using (waiting?_eq_some.mp hbefore).1
    cases h with
    | effect h => exact h.keepsGaugesFull hmenu actor hkept
    | order a _ _ _ _ => exact s.enqueue_isFull a (s.enqueue_waiting a hwaits).2 hkept
    | discard a rest hbattle _ _ _ => exact absurd hbattle hstate
    | pass hbattle _ _ => exact absurd hbattle hstate
    | release a hbattle _ => exact absurd hbattle hstate
    | _ => exact hkept
  · exact isFull_of_isReady hready

theorem Effects.keepsWaitingFull {s t : Scene σ} (h : Effects s t) (hs : Routed s)
    (hstate : s.state ≠ .battle) : KeepsWaitingFull s t := by
  induction h with
  | refl => exact .refl s
  | tail hchain hstep ih =>
    have hkept : Effects s _ := hchain
    have hrouted := hs.of_course hkept.state_eq (congrArg Course.previousState hkept.course_eq)
    exact ih.trans ((Deed.effect hstep).keepsWaitingFull hrouted (hkept.state_eq ▸ hstate))

theorem endBattle_keepsGaugesFull (s : Scene σ) (result : BattleResult) :
    KeepsGaugesFull s (s.endBattle result) := by
  unfold endBattle
  split
  · exact .of_roster rfl rfl
  · exact .of_pointwise rfl (.map s.roster _ _ (fun _ _ => .of_gauge rfl rfl) fun _ _ =>
      .of_gauge rfl rfl)

theorem Outcome.keepsWaitingFull {s t : Scene σ} (h : Outcome s t) : KeepsWaitingFull s t := by
  refine .of_keepsGaugesFull (fun _ => h.waiting) ?_
  cases h with
  | done => exact .of_roster rfl rfl
  | decided h => cases h <;> exact .of_roster rfl rfl
  | launched a a' _ _ _ _ _ => exact .of_roster rfl rfl
  | ended _ => exact s.endBattle_keepsGaugesFull _

theorem Interlude.keepsWaitingFull {s t : Scene σ} (h : Interlude s t)
    (hplaced : s.isPlaced = true) : KeepsWaitingFull s t := by
  cases h with
  | choose a _ _ _ =>
    intro actor hwaits hfull
    obtain ⟨hbefore, hother⟩ := s.enqueue_waiting a hwaits
    exact s.enqueue_isFull a hother (hfull hbefore)
  | background h =>
    exact .of_keepsGaugesFull (fun _ => (Interlude.background h).waiting)
      (h.keepsGaugesFull hplaced)
  | flee hforced hstate =>
    exact .of_keepsGaugesFull (fun _ => (Interlude.flee hforced hstate).waiting)
      (.of_roster rfl rfl)
  | decided h =>
    refine .of_keepsGaugesFull (fun _ => (Interlude.decided h).waiting) ?_
    cases h <;> exact .of_roster rfl rfl
  | overturn hstate hparty =>
    exact .of_keepsGaugesFull (fun _ => (Interlude.overturn hstate hparty).waiting)
      (.of_roster rfl rfl)
  | finish result hhalts =>
    exact .of_keepsGaugesFull (fun _ => (Interlude.finish result hhalts).waiting)
      (s.endBattle_keepsGaugesFull result)

theorem Path.chores_state {s t : Scene σ} {lost : List BattlerId} (h : Path Chore s lost t) :
    t.state = s.state ∧ t.previousState = s.previousState := by
  induction h with
  | refl => exact ⟨rfl, rfl⟩
  | step _ hstep ih => exact ⟨hstep.state.trans ih.1, hstep.previousState.trans ih.2⟩
  | take _ htake ih =>
    cases htake
    exact ih

theorem Path.chores_keepsWaitingFull {s t : Scene σ} {lost : List BattlerId}
    (h : Path Chore s lost t) (hs : Routed s) (hstate : s.state ≠ .battle) :
    KeepsWaitingFull s t := by
  induction h with
  | refl => exact .refl _
  | step hpath hstep ih =>
    obtain ⟨hkept, hprevious⟩ := hpath.chores_state
    exact ih.trans (hstep.deed.keepsWaitingFull (hs.of_course hkept hprevious) (hkept ▸ hstate))
  | take hpath htake _ =>
    cases htake with
    | mk a a' rest hbattle _ _ _ _ => exact absurd (hpath.chores_state.1.symm.trans hbattle) hstate

/-- A turn outside the battle lowers no gauge of an actor at its windows. -/
theorem Orderly.keepsWaitingFull {s t : Scene σ} {lost : List BattlerId} (h : Orderly s lost t)
    (hs : Routed s) (hstate : s.state ≠ .battle) : KeepsWaitingFull s t := by
  obtain ⟨u, v, hchores, hparting, houtcome⟩ := h
  obtain ⟨hkept, hprevious⟩ := hchores.chores_state
  have hrouted := hs.of_course hkept hprevious
  have hopen : u.state ≠ .battle := hkept ▸ hstate
  have hbefore := hchores.chores_keepsWaitingFull hs hstate
  have hparted : KeepsWaitingFull u v := by
    cases hparting with
    | stay => exact .refl u
    | go h => exact h.keepsWaitingFull hrouted hopen
    | land h hlands h' =>
      exact (h.keepsWaitingFull hrouted hopen).trans (h'.keepsWaitingFull (h.routed hrouted) hlands)
  exact (hbefore.trans hparted).trans houtcome.keepsWaitingFull

theorem Deed.waiting_of_ne {s t : Scene σ} (h : Deed s t) (hs : Routed s)
    (hactor : s.state ≠ .selectActor) (hauto : s.state ≠ .autoBattle) {actor : Int}
    (hwaits : t.waiting? = some actor) : s.waiting? = some actor := by
  rcases h.waiting hs hwaits with hbefore | ⟨-, hopens, -⟩
  · exact hbefore
  · exact (hopens.elim hactor hauto).elim

theorem Path.chores_waiting {s t : Scene σ} {lost : List BattlerId} (h : Path Chore s lost t)
    (hs : Routed s) (hactor : s.state ≠ .selectActor) (hauto : s.state ≠ .autoBattle) {actor : Int}
    (hwaits : t.waiting? = some actor) : s.waiting? = some actor := by
  induction h with
  | refl => exact hwaits
  | step hpath hstep ih =>
    obtain ⟨hkept, hprevious⟩ := hpath.chores_state
    rw [← hkept] at hactor hauto
    exact ih (hstep.deed.waiting_of_ne (hs.of_course hkept hprevious) hactor hauto hwaits)
  | take _ htake ih =>
    cases htake
    exact ih hwaits

/-- A turn of the battle opens no windows. -/
theorem Orderly.waiting {s t : Scene σ} {lost : List BattlerId} (h : Orderly s lost t)
    (hs : Routed s) (hstate : s.state = .battle) {actor : Int} (hwaits : t.waiting? = some actor) :
    s.waiting? = some actor := by
  have hactor : s.state ≠ .selectActor := by simp [hstate]
  have hauto : s.state ≠ .autoBattle := by simp [hstate]
  obtain ⟨u, v, hchores, hparting, houtcome⟩ := h
  refine hchores.chores_waiting hs hactor hauto ?_
  obtain ⟨hkept, hprevious⟩ := hchores.chores_state
  have hrouted := hs.of_course hkept hprevious
  rw [← hkept] at hactor hauto
  have hwaited := houtcome.waiting hwaits
  cases hparting with
  | stay => exact hwaited
  | go h => exact h.waiting_of_ne hrouted hactor hauto hwaited
  | land h _ h' =>
    exact h.waiting_of_ne hrouted hactor hauto (waiting?_of_course h'.course_eq ▸ hwaited)

section Placed

theorem isPlaced_of_core {s t : Scene σ} {c : Core} (h : t.core = c)
    (hasset : c.pendingAsset = s.pendingAsset) (hstarted : c.started = s.started) :
    t.isPlaced = s.isPlaced := by
  subst h
  unfold isPlaced
  rw [show t.pendingAsset = s.pendingAsset from hasset, show t.started = s.started from hstarted]

theorem Effect.isPlaced_eq {s t : Scene σ} (h : Effect s t) : t.isPlaced = s.isPlaced := by
  cases h with
  | quiet h => exact isPlaced_of_core h rfl rfl
  | hook _ h => exact isPlaced_of_core h rfl rfl
  | page trigger source _ =>
    unfold schedulePage
    dsimp only
    split <;> rfl
  | pose _ h => exact isPlaced_of_core h rfl rfl
  | wear _ =>
    have hkept (ids : List BattlerId) :
        ∀ s : Scene σ, (s.healStates ids).isPlaced = s.isPlaced := by
      induction ids with
      | nil => exact fun _ => rfl
      | cons id rest ih => exact fun s => ih _
    exact hkept _ s
  | ache _ _ h => exact isPlaced_of_core h rfl rfl
  | pay _ h => exact isPlaced_of_core h rfl rfl
  | strike _ _ _ h => exact isPlaced_of_core h rfl rfl
  | _ => rfl

theorem enqueue_isPlaced (s : Scene σ) (a : Action) : (s.enqueue a).isPlaced = s.isPlaced := by
  rcases s.enqueue_cases a with ⟨-, h⟩ | ⟨b, -, ⟨-, h⟩ | ⟨-, h⟩⟩ <;> rw [h] <;> rfl

theorem endBattle_isPlaced (s : Scene σ) (result : BattleResult) :
    (s.endBattle result).isPlaced = s.isPlaced := by
  unfold endBattle
  split <;> rfl

theorem discard_isPlaced (s : Scene σ) (source : BattlerId) :
    (s.discard source).isPlaced = s.isPlaced := by
  unfold discard
  dsimp only
  split <;> rfl

theorem Deed.isPlaced_eq {s t : Scene σ} (h : Deed s t) : t.isPlaced = s.isPlaced := by
  cases h with
  | effect h => exact h.isPlaced_eq
  | order a _ _ _ _ => exact s.enqueue_isPlaced a
  | discard a rest _ _ _ _ => exact s.discard_isPlaced a.source
  | pass _ _ h => cases h <;> rfl
  | release a _ h =>
    rw [releasePending_eq h]
    rfl
  | _ => rfl

theorem Interlude.isPlaced {s t : Scene σ} (h : Interlude s t) (hs : s.isPlaced = true) :
    t.isPlaced = true := by
  cases h with
  | background h =>
    cases h with
    | quiet _ hplaced => exact hplaced hs
    | script _ h => exact (isPlaced_of_core h rfl rfl).trans hs
    | pose _ h => exact (isPlaced_of_core h rfl rfl).trans hs
    | _ => exact hs
  | decided h => cases h <;> exact hs
  | choose a _ _ _ => exact (s.enqueue_isPlaced a).trans hs
  | finish result _ => exact (s.endBattle_isPlaced result).trans hs
  | _ => exact hs

theorem Interludes.isPlaced {s t : Scene σ} (h : Interludes s t) (hs : s.isPlaced = true) :
    t.isPlaced = true := by
  induction h with
  | refl => exact hs
  | tail _ hstep ih => exact hstep.isPlaced ih

theorem Interludes.waiting {s t : Scene σ} (h : Interludes s t) {actor : Int}
    (hwaits : t.waiting? = some actor) :
    s.waiting? = some actor := by
  induction h with
  | refl => exact hwaits
  | tail _ hstep ih => exact ih (hstep.waiting hwaits)

/-- Once everyone is placed, nothing before the outer states lowers a gauge of an actor whose
windows wait. -/
theorem Interludes.keepsWaitingFull {s t : Scene σ} (h : Interludes s t) (hs : s.isPlaced = true) :
    KeepsWaitingFull s t := by
  induction h with
  | refl => exact .refl s
  | tail hchain hstep ih =>
    have hkept : Interludes s _ := hchain
    exact ih.trans (hstep.keepsWaitingFull (hkept.isPlaced hs))

theorem Turned.isPlaced_eq {s t : Scene σ} {lost : List BattlerId} (h : Turned s lost t) :
    t.isPlaced = s.isPlaced := by
  have deeds {u : Scene σ} {lost : List BattlerId} (h : Path Deed s lost u) :
      u.isPlaced = s.isPlaced := by
    induction h with
    | refl => rfl
    | step _ hstep ih => exact hstep.isPlaced_eq.trans ih
    | take _ htake ih =>
      cases htake
      exact ih
  obtain ⟨u, hdeeds, houtcome⟩ := h
  have hbefore := deeds hdeeds
  cases houtcome with
  | done => exact hbefore
  | decided h => cases h <;> exact hbefore
  | launched a a' _ _ _ _ _ => exact hbefore
  | ended _ => exact (u.endBattle_isPlaced _).trans hbefore

end Placed

section Mode

/-- Windows wait for the battle only where gauges fill while they are open. -/
def Interrupted (s : Scene σ) : Prop :=
  s.state = .battle → s.previousState.isActorMenu = true → s.config.atbMode = .active

theorem Interrupted.of_course {s t : Scene σ} (h : Interrupted s) (hstate : t.state = s.state)
    (hprevious : t.previousState = s.previousState) (hconfig : t.config = s.config) :
    Interrupted t := by
  unfold Interrupted
  rw [hstate, hprevious, hconfig]
  exact h

theorem Interrupted.of_ne {s : Scene σ} (h : s.state ≠ .battle) : Interrupted s :=
  fun hbattle => absurd hbattle h

theorem Leads.interrupted {s : Scene σ} {next : SceneState} (h : Leads s next) (hs : Routed s) :
    Interrupted (s.setState next) := by
  -- Open windows lead into the battle in active mode only; the other ways into it do not start at
  -- them.
  have hway : next = .battle → s.state.isActorMenu = true → s.config.atbMode = .active := by
    intro hbattle hmenu
    cases h with
    | battle h _ =>
      rcases h with h | h | ⟨-, hmode⟩
      · rw [h] at hmenu
        contradiction
      · rw [h] at hmenu
        contradiction
      · exact hmode
    | window _ hnext _ =>
      rw [hbattle] at hnext
      contradiction
    | cancel h =>
      have hprevious := hs.target h
      rw [hbattle] at hprevious
      contradiction
    | resume h _ =>
      rw [h] at hmenu
      contradiction
    | _ => contradiction
  exact hway

theorem enqueue_interrupted {s : Scene σ} (hs : Interrupted s) (a : Action) :
    Interrupted (s.enqueue a) := by
  rcases s.enqueue_cases a with ⟨-, h⟩ | ⟨b, -, ⟨-, h⟩ | ⟨-, h⟩⟩
  · rw [h]
    exact hs
  · rw [h]
    exact .of_ne (by simp [setState])
  · rw [h]
    exact hs.of_course rfl rfl rfl

theorem Deed.interrupted {s t : Scene σ} (h : Deed s t) (hrouted : Routed s) (hs : Interrupted s) :
    Interrupted t := by
  have hconfig := h.setting.config
  cases h with
  | effect h =>
    exact hs.of_course (congrArg Course.state h.course_eq)
      (congrArg Course.previousState h.course_eq) hconfig
  | go h => exact h.interrupted hrouted
  | command id _ _ => exact .of_ne (by simp [openCommands, setState])
  | leave _ => exact .of_ne (by simp [setState])
  | order a _ _ _ _ => exact enqueue_interrupted hs a
  | discard a rest _ _ _ _ =>
    have hcourse := s.discard_course a.source
    exact hs.of_course (congrArg Course.state hcourse)
      (congrArg Course.previousState hcourse) hconfig
  | pass _ _ h => cases h <;> exact hs.of_course rfl rfl rfl
  | release a _ h =>
    rw [releasePending_eq h]
    exact hs.of_course rfl rfl rfl
  | _ => exact hs.of_course rfl rfl rfl

theorem endBattle_interrupted {s : Scene σ} (result : BattleResult) (hs : Interrupted s) :
    Interrupted (s.endBattle result) := by
  unfold endBattle
  split
  · exact hs
  · exact hs.of_course rfl rfl rfl

theorem Step.interrupted {s t : Scene σ} (h : Step s t) (hrouted : Routed s) (hs : Interrupted s) :
    Interrupted t := by
  cases h with
  | deed h => exact h.interrupted hrouted hs
  | close h =>
    cases h with
    | done => exact hs
    | decided h => cases h <;> exact .of_ne (by simp [setState])
    | launched a a' _ _ _ _ _ => exact hs.of_course rfl rfl rfl
    | ended _ => exact endBattle_interrupted _ hs
  | interlude h =>
    cases h with
    | background h =>
      exact hs.of_course (congrArg Course.state h.course_eq)
        (congrArg Course.previousState h.course_eq) (congrArg Course.config h.course_eq)
    | flee _ _ => exact .of_ne (by simp [setState])
    | decided h => cases h <;> exact .of_ne (by simp [setState])
    | overturn _ _ => exact .of_ne (by simp [setState])
    | choose a _ _ _ => exact enqueue_interrupted hs a
    | finish result _ => exact endBattle_interrupted result hs

theorem Path.interrupted {s t : Scene σ} {lost : List BattlerId} (h : Path Step s lost t)
    (hrouted : Routed s) (hs : Interrupted s) : Interrupted t ∧ Routed t := by
  induction h with
  | refl => exact ⟨hs, hrouted⟩
  | step _ hstep ih => exact ⟨hstep.interrupted ih.2 ih.1, hstep.routed ih.2⟩
  | take _ htake ih =>
    refine ⟨?_, htake.routed ih.2⟩
    cases htake
    exact ih.1.of_course rfl rfl rfl

end Mode

end Scene

end ActiveBattle
