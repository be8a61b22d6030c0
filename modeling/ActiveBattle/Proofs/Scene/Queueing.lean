import ActiveBattle.Proofs.Scene.Charging
import ActiveBattle.Proofs.Scene.Relapse
import ActiveBattle.Proofs.Scene.Unbidden

/-!
# Who gets an action

A battler whose action is put into the queue is there and has no other one under way, and its gauge
is full. The last is asked when a battler chooses for itself, and when the windows of an actor open;
an action from the windows comes later. Its gauge is full even then, unless the windows waited for a
battle that drained it (`queued_when_charged`).
-/

namespace ActiveBattle

set_option autoImplicit false

namespace Scene

variable {σ : Type}

section Log

theorem Logs.queuings_of_plain {s t : Scene σ} (h : Logs SceneEvent.Plain s t) :
    t.queuings = s.queuings :=
  (h.mono fun _ he => he.queued).queuings_eq

theorem setState_queuings (s : Scene σ) (next : SceneState) :
    (s.setState next).queuings = s.queuings :=
  Logs.queuings_eq (.of_events rfl (s.setState_events next))

theorem enlist_queuings (s : Scene σ) (a : Action) :
    (s.enlist a).queuings = s.queuings ++ [a.source] := by
  unfold queuings
  rw [show (s.enlist a).events = s.events ++ [.actionQueued a.source a.kind] from note_events _ _,
    List.filterMap_append]
  rfl

theorem Outcome.queuings_eq {s t : Scene σ} (h : Outcome s t) : t.queuings = s.queuings := by
  cases h with
  | done => rfl
  | decided h => cases h <;> exact s.setState_queuings _
  | launched a a' _ _ _ _ _ => exact Logs.queuings_eq (.of_events rfl (s.launch_events a'))
  | ended _ => exact (s.endBattle_logs _).queuings_of_plain

/-- Of all deeds only an order puts an action into the queue. -/
theorem Deed.queuings_cases {s t : Scene σ} (h : Deed s t) : t.queuings = s.queuings ∨
    ∃ actor, s.state.isActorMenu = true ∧ s.activeActor = some actor ∧ t.state = .selectActor ∧
      t.queuings = s.queuings ++ [.actor actor] := by
  cases h with
  | effect h => exact .inl h.logs.queuings_of_plain
  | go h => exact .inl (s.setState_queuings _)
  | command id _ _ => exact .inl (setState_queuings _ _)
  | leave _ => exact .inl (setState_queuings _ _)
  | order a actor hactor hstate hfresh =>
    rcases s.enqueue_cases a with ⟨-, h⟩ | ⟨b, -, ⟨-, h⟩ | ⟨hmenu, -⟩⟩
    · exact .inl (by rw [h])
    · refine .inr ⟨actor, hstate, hactor, by rw [h]; rfl, ?_⟩
      rw [h, setState_queuings, enlist_queuings, hfresh.source]
    · simp [isFromMenu, hfresh.source, hactor] at hmenu
  | discard a rest _ _ _ _ => exact .inl (s.discard_logs a.source).queuings_of_plain
  | pass _ _ h => cases h <;> exact .inl rfl
  | release a _ h =>
    rw [releasePending_eq h]
    exact .inl rfl
  | _ => exact .inl rfl

theorem Path.chores_queuings {s t : Scene σ} {lost : List BattlerId} (h : Path Chore s lost t) :
    t.queuings = s.queuings := by
  induction h with
  | refl => rfl
  | step _ hstep ih =>
    rcases hstep.deed.queuings_cases with hsame | ⟨actor, hmenu, -, hstate, -⟩
    · exact hsame.trans ih
    · rw [← hstep.state, hstate] at hmenu
      contradiction
  | take _ htake ih =>
    cases htake
    exact ih

/-- A turn puts at most one action into the queue, that of the actor at whose windows it began. -/
theorem Orderly.queuings_cases {s t : Scene σ} {lost : List BattlerId} (h : Orderly s lost t)
    (hs : Routed s) :
    t.queuings = s.queuings ∨
      ∃ actor, s.state.isActorMenu = true ∧ s.activeActor = some actor ∧
        t.queuings = s.queuings ++ [.actor actor] := by
  obtain ⟨u, v, hchores, hparting, houtcome⟩ := h
  rw [houtcome.queuings_eq, ← hchores.chores_queuings]
  have ordered {w : Scene σ} (h : Deed u w) : w.queuings = u.queuings ∨
      ∃ actor, s.state.isActorMenu = true ∧ s.activeActor = some actor ∧
        w.queuings = u.queuings ++ [.actor actor] := by
    rcases h.queuings_cases with hsame | ⟨actor, hmenu, hactor, -, hqueued⟩
    · exact .inl hsame
    · have hwaits : u.waiting? = some actor :=
        waiting?_eq_some.mpr ⟨by simp [showsMenu, hmenu], hactor⟩
      have hbefore := hmenu
      rw [hchores.chores_state.1] at hbefore
      have hkept := hchores.chores_waiting hs (fun h => by rw [h] at hbefore; contradiction)
        (fun h => by rw [h] at hbefore; contradiction) hwaits
      exact .inr ⟨actor, hbefore, (waiting?_eq_some.mp hkept).2, hqueued⟩
  cases hparting with
  | stay => exact .inl rfl
  | go h => exact ordered h
  | land h _ h' =>
    rw [h'.logs.queuings_of_plain]
    exact ordered h

end Log

/-- A scene just before an action is put into the queue, and whose action it is. -/
abbrev Admission (σ : Type) : Type := Scene σ × BattlerId

section Choices

theorem enqueueChoice_queuings (s : Scene σ) (chooser : Chooser) {id : BattlerId}
    (hready : s.isIdleAndFull id = true) :
    (s.enqueueChoice chooser id).queuings = s.queuings ++ [id] := by
  obtain ⟨a, dice, hfresh, ⟨-, h⟩ | ⟨-, h⟩⟩ := enqueueChoice_of_ready chooser hready
  · rw [h, setState_queuings, enlist_queuings, hfresh.source]
    rfl
  · rw [h, enlist_queuings, hfresh.source]
    rfl

theorem Admitted.not_mem_sources {lost : List BattlerId} {s : Scene σ} (hs : Admitted lost s)
    {id : BattlerId} (hfree : s.roster.isMarked id = false) : id ∉ s.sources := fun hmem => by
  rw [(hs.marked id).mpr (.inl hmem)] at hfree
  contradiction

theorem enqueueChoice_admitted {s : Scene σ} {lost : List BattlerId} (hs : Admitted lost s)
    (chooser : Chooser) {id : BattlerId} (hready : s.isIdleAndFull id = true) :
    Admitted lost (s.enqueueChoice chooser id) := by
  obtain ⟨a, dice, hfresh, heq⟩ := s.enqueueChoice_eq chooser id
  obtain rfl := hfresh.source
  have hrolled : Admitted lost (s.modifyGame ({ · with dice := dice })) :=
    hs.transfer (hs.routed.of_course rfl rfl) rfl (fun _ => rfl) rfl fun hshows => hshows
  rw [heq]
  exact hrolled.enqueue (isMarked_of_isIdleAndFull hready)

section Among

variable (chooser : Scene σ → Chooser) (wanted : Scene σ → BattlerId → Bool)

/-- Those of a list that choose for themselves, each with the scene in which it does. -/
def choicesAmong (s : Scene σ) : List BattlerId → List (Admission σ)
  | [] => []
  | id :: rest =>
    if s.isIdleAndFull id && wanted s id then (s, id) ::
      choicesAmong (s.enqueueChoice (chooser s) id) rest
    else choicesAmong s rest

theorem chooseAmong_queuings (s : Scene σ) (ids : List BattlerId) :
    (chooseAmong chooser wanted s ids).queuings =
    s.queuings ++ (choicesAmong chooser wanted s ids).map (·.2) := by
  unfold chooseAmong
  induction ids generalizing s with
  | nil => exact (List.append_nil _).symm
  | cons id rest ih =>
    unfold choicesAmong
    rw [List.foldl_cons]
    split
    · rename_i hgoes
      rw [ih, s.enqueueChoice_queuings _ (Bool.and_eq_true_iff.mp hgoes).1, List.map_cons,
        List.append_assoc]
      rfl
    · exact ih s

theorem choicesAmong_admitted {s : Scene σ} {lost : List BattlerId} (hs : Admitted lost s)
    (ids : List BattlerId) :
    (∀ a ∈ choicesAmong chooser wanted s ids, a.1.isIdleAndFull a.2 = true ∧ Admitted lost a.1) ∧
      Admitted lost (chooseAmong chooser wanted s ids) := by
  unfold chooseAmong
  induction ids generalizing s with
  | nil => exact ⟨fun _ h => absurd h List.not_mem_nil, hs⟩
  | cons id rest ih =>
    unfold choicesAmong
    rw [List.foldl_cons]
    split
    · rename_i hgoes
      have hready := (Bool.and_eq_true_iff.mp hgoes).1
      obtain ⟨hrest, hafter⟩ := ih (enqueueChoice_admitted hs (chooser s) hready)
      refine ⟨fun a ha => ?_, hafter⟩
      rcases List.mem_cons.mp ha with rfl | ha
      · exact ⟨hready, hs⟩
      · exact hrest a ha
    · exact ih hs

end Among

/-- Who chooses for itself, were it asked now: enemies first. -/
def choices (s : Scene σ) : List (Admission σ) :=
  let chosen := s.createEnemyActions
  choicesAmong (·.enemyChooser) (fun _ _ => true) s s.roster.enemyIds ++
    choicesAmong (·.autoChooser) (isLeftAlone (decide (chosen.state = .autoBattle))) chosen
      chosen.roster.partyIds

theorem createAutoActions_eq (s : Scene σ) : s.createAutoActions =
    chooseAmong (·.autoChooser) (isLeftAlone (decide (s.state = .autoBattle))) s
        s.roster.partyIds :=
  rfl

theorem choices_queuings (s : Scene σ) :
    s.createEnemyActions.createAutoActions.queuings = s.queuings ++ s.choices.map (·.2) := by
  have hchosen : s.createEnemyActions.queuings =
      s.queuings ++ (choicesAmong (·.enemyChooser) (fun _ _ => true) s s.roster.enemyIds).map
        (·.2) := by
    rw [createEnemyActions_eq]
    exact chooseAmong_queuings _ _ s _
  rw [createAutoActions_eq, chooseAmong_queuings, hchosen, List.append_assoc, ← List.map_append]
  rfl

theorem choices_admitted {s : Scene σ} {lost : List BattlerId} (hs : Admitted lost s) :
    ∀ a ∈ s.choices, a.1.isIdleAndFull a.2 = true ∧ Admitted lost a.1 := by
  obtain ⟨henemies, hchosen⟩ :=
    choicesAmong_admitted (·.enemyChooser) (fun _ _ => true) hs s.roster.enemyIds
  rw [← createEnemyActions_eq] at hchosen
  intro a ha
  rcases List.mem_append.mp ha with ha | ha
  · exact henemies a ha
  · exact (choicesAmong_admitted (·.autoChooser) _ hchosen _).1 a ha

end Choices

theorem finishStart_isPlaced (s : Scene σ) : s.finishStart.isPlaced = s.isPlaced := rfl

theorem checkForceFlee_queuings (s : Scene σ) : s.checkForceFlee.queuings = s.queuings := by
  unfold checkForceFlee
  split
  · exact s.setState_queuings _
  · rfl

theorem checkBattleEnd_queuings (s : Scene σ) : s.checkBattleEnd.2.queuings = s.queuings := by
  unfold checkBattleEnd
  repeat' split
  all_goals first | rfl | exact s.setState_queuings _

/-- An actor at whose windows a turn begins is there, once those that are gone have left theirs. -/
theorem dropGoneActor_cases (s : Scene σ) :
    (s.dropGoneActor = s ∧ ∀ actor, s.activeActor = some actor → s.state.isActorMenu = true →
        s.roster.isPresent (.actor actor) = true) ∨
      s.dropGoneActor = { s with activeActor := none }.setState .selectActor := by
  unfold dropGoneActor
  split
  · rename_i hactor
    exact .inl ⟨rfl, fun actor h => by rw [hactor] at h; contradiction⟩
  · rename_i id hactor
    dsimp only
    split
    · exact .inr rfl
    · rename_i hstays
      refine .inl ⟨rfl, fun actor h hmenu => ?_⟩
      obtain rfl := Option.some.inj (hactor.symm.trans h)
      simp only [hmenu, Bool.and_true, Bool.not_eq_true', Bool.not_eq_false,
        Bool.and_eq_true] at hstays
      exact hstays.2

variable [AssetLoader σ]

section Frame

/-- Who chooses for itself in a frame. -/
def choicesAt (m : Moment σ) : List (Admission σ) := (m.1.asking? m.2).toList.flatMap choices

/-- Whose actions a turn puts into the queue. -/
def ordersAt (m : Moment σ) : List (Admission σ) :=
  ((m.1.processState m.2).2.queuings.drop m.1.queuings.length).map (m.1, ·)

/-- Whose actions a frame puts into the queue, one after the other. -/
def admissionsBy (s : Scene σ) (input : InputState) : List (Admission σ) :=
  choicesAt (s, input) ++ (s.turnsBy input).flatMap ordersAt

/-- Whose actions a run puts into the queue, one after the other. -/
def admissionsIn (s : Scene σ) : List InputState → List (Admission σ)
  | [] => []
  | input :: rest => s.admissionsBy input ++ (s.update input).admissionsIn rest

theorem updateCourse_queuings (s : Scene σ) :
    s.updateCourse.queuings = s.queuings ++ (s.ripe?.toList.flatMap choices).map (·.2) := by
  have hended : ((s.mark .endCheck).checkBattleEnd.2.mark .atb).queuings = s.queuings :=
    (s.mark .endCheck).checkBattleEnd_queuings
  rw [s.updateCourse_backgrounds.logs.queuings_of_plain]
  unfold ripe?
  dsimp only
  generalize (s.mark .endCheck).checkBattleEnd.2.mark .atb = t at hended ⊢
  unfold updateAtb
  split
  · rw [hended]
    exact (List.append_nil _).symm
  · have hfilled : (if t.isAccumulating then t.fillGauges else t).queuings = t.queuings := by
      split
      · exact t.fillGauges_backgrounds.logs.queuings_of_plain
      · rfl
    rw [choices_queuings, hfilled, hended]
    simp

theorem prelude_queuings (s : Scene σ) (input : InputState) :
    (s.prelude input).2.queuings = s.queuings ++ (choicesAt (s, input)).map (·.2) := by
  unfold choicesAt
  dsimp only
  rcases s.prelude_cases input with ⟨-, hasking, hstops⟩ | ⟨t, -, hreached, -, hgoes⟩
  · rw [hasking]
    exact hstops.logs.queuings_of_plain.trans (List.append_nil _).symm
  · have hfled := t.checkForceFlee_queuings.trans hreached.logs.queuings_of_plain
    rcases hgoes with ⟨hasking, hstops⟩ | ⟨u, hu, hasking, hended⟩
    · rw [hasking]
      exact (hstops.logs.queuings_of_plain.trans hfled).trans (List.append_nil _).symm
    · rw [hasking, hended.logs.queuings_of_plain, ← hfled, ← hu.logs.queuings_of_plain]
      exact u.updateCourse_queuings

theorem processState_queuings {s : Scene σ} (input : InputState) (hs : Routed s)
    (hopen : s.result = none) :
    (s.processState input).2.queuings = s.queuings ∨
      ∃ actor, s.state.isActorMenu = true ∧ s.activeActor = some actor ∧
        s.roster.isPresent (.actor actor) = true ∧
        (s.processState input).2.queuings = s.queuings ++ [.actor actor] := by
  have horderly := s.processState_orderly input hopen
  rcases s.dropGoneActor_cases with ⟨hstays, hpresent⟩ | hleft
  · rw [hstays] at horderly
    rcases horderly.queuings_cases hs with hsame | ⟨actor, hmenu, hactor, hqueued⟩
    · exact .inl hsame
    · exact .inr ⟨actor, hmenu, hactor, hpresent actor hactor hmenu, hqueued⟩
  · rw [hleft] at horderly
    have hrouted : Routed (({ s with activeActor := none } : Scene σ).setState .selectActor) :=
      setState_plain _ (by simp) (by simp) (by simp)
    rcases horderly.queuings_cases hrouted with hsame | ⟨actor, hmenu, -, -⟩
    · exact .inl (hsame.trans (setState_queuings _ _))
    · contradiction

theorem mem_ordersAt {m : Moment σ} (hs : Routed m.1) (hopen : m.1.result = none) :
    (m.1.processState m.2).2.queuings = m.1.queuings ++ (ordersAt m).map (·.2) ∧
      ∀ a ∈ ordersAt m, a.1 = m.1 ∧ ∃ actor, a.2 = .actor actor ∧ m.1.state.isActorMenu = true ∧
        m.1.activeActor = some actor ∧ m.1.roster.isPresent (.actor actor) = true := by
  unfold ordersAt
  rcases processState_queuings m.2 hs hopen with hsame | ⟨actor, hmenu, hactor, hpresent, hqueued⟩
  · rw [hsame, List.drop_length]
    exact ⟨(List.append_nil _).symm, fun _ h => absurd h List.not_mem_nil⟩
  · rw [hqueued, List.drop_left]
    refine ⟨rfl, fun a ha => ?_⟩
    rw [List.map_singleton, List.mem_singleton] at ha
    subst ha
    exact ⟨rfl, actor, rfl, hmenu, hactor, hpresent⟩

end Frame

section Gauge

/-- A turn of the battle drains the gauge of the actor whose windows wait for it. -/
def drains (m : Moment σ) (actor : Int) : Bool :=
  decide (m.1.state = .battle) && decide (m.1.waiting? = some actor) && m.1.isFull (.actor actor) &&
    !(m.1.processState m.2).2.isFull (.actor actor)

/-- The actor whose windows wait has a full gauge, unless one of the turns drained it. -/
def Charged (turns : List (Moment σ)) (s : Scene σ) : Prop :=
  ∀ actor, s.waiting? = some actor →
    s.isFull (.actor actor) = true ∨ ∃ m ∈ turns, drains m actor = true

namespace Charged

variable {turns turns' : List (Moment σ)} {s t : Scene σ}

theorem of_none (h : s.waiting? = none) : Charged turns s := fun actor hwaits => by
  rw [h] at hwaits
  contradiction

theorem of_keepsWaitingFull (hs : Charged turns s) (h : KeepsWaitingFull s t) :
    Charged turns t := by
  intro actor hwaits
  by_cases hbefore : s.waiting? = some actor → s.isFull (.actor actor) = true
  · exact .inl (h actor hwaits hbefore)
  · obtain ⟨hwaited, hlow⟩ := Classical.not_imp.mp hbefore
    exact .inr ((hs actor hwaited).resolve_left hlow)

theorem append (hs : Charged turns s) (more : List (Moment σ)) : Charged (turns ++ more) s := by
  intro actor hwaits
  rcases hs actor hwaits with hfull | ⟨m, hm, hdrains⟩
  · exact .inl hfull
  · exact .inr ⟨m, List.mem_append_left _ hm, hdrains⟩

/-- Only in a turn of the battle is a gauge lowered, and such a turn is a drain. -/
theorem turn (hs : Charged turns s) (input : InputState) (hrouted : Routed s)
    (hopen : s.result = none) :
    Charged (turns ++ [(s, input)]) (s.processState input).2 := by
  have horderly := s.processState_orderly input hopen
  -- Outside the battle gauges at the windows are heeded, so there the turn itself is never the
  -- drain.
  by_cases hbattle : s.state = .battle
  · intro actor hwaits
    rw [dropGoneActor_of_closed (by rw [hbattle]; rfl)] at horderly
    have hwaited := horderly.waiting hrouted hbattle hwaits
    rcases hs.append [(s, input)] actor hwaited with hfull | hdrained
    · cases hafter : (s.processState input).2.isFull (.actor actor) with
      | true => exact .inl rfl
      | false =>
        refine .inr ⟨(s, input), List.mem_append_right _ (List.mem_singleton_self _), ?_⟩
        simp [drains, hbattle, hwaited, hfull, hafter]
    · exact .inr hdrained
  · refine Charged.append ?_ _
    rcases s.dropGoneActor_cases with ⟨hstays, -⟩ | hleft
    · rw [hstays] at horderly
      exact hs.of_keepsWaitingFull (horderly.keepsWaitingFull hrouted hbattle)
    · rw [hleft] at horderly
      have hrouted' : Routed (({ s with activeActor := none } : Scene σ).setState .selectActor) :=
        setState_plain _ (by simp) (by simp) (by simp)
      have hnone : (({ s with activeActor := none } : Scene σ).setState .selectActor).waiting? =
          none :=
        waiting?_of_closed rfl (by simp [setState])
      exact (of_none hnone).of_keepsWaitingFull
        (horderly.keepsWaitingFull hrouted' (by simp [setState]))

end Charged

theorem requestBackdrop_started (s : Scene σ) : s.requestBackdrop.started = true := by
  unfold requestBackdrop
  split
  · assumption
  · rfl

/-- No frame goes on before everyone is placed. -/
theorem enter_isPlaced {s t : Scene σ} (h : s.enter = (true, t)) : t.isPlaced = true := by
  unfold enter at h
  dsimp only at h
  split at h
  · simp at h
  · have hstarted :=
      requestBackdrop_started { s with steps := [], inputConsumed := false, frame := s.frame + 1 }
    generalize requestBackdrop (σ := σ) _ = u at h hstarted
    have hawaited := u.awaitAsset_concludes.interludes
    rw [h] at hawaited
    -- A scene that is not placed waits for its backdrop: it comes now, or the frame ends here.
    by_cases hplaced : u.isPlaced = true
    · exact hawaited.isPlaced hplaced
    · unfold awaitAsset at h
      split at h
      · rename_i hnone
        simp [isPlaced, hstarted, hnone] at hplaced
      · rename_i p hpending
        have hbackdrop : p.continuation = .finishStart := by
          simpa [isPlaced, hstarted, hpending] using hplaced
        dsimp only at h
        split at h
        · obtain rfl := (Prod.mk.inj h).2
          rw [hbackdrop]
          exact (finishStart_isPlaced _).trans (by simp [isPlaced, mark, hstarted])
        · simp at h

theorem prelude_isPlaced (s : Scene σ) (input : InputState) (h : (s.prelude input).1 = true) :
    (s.prelude input).2.isPlaced = true := by
  unfold prelude at h ⊢
  rcases hentered : s.enter with ⟨_ | _, t⟩
  · rw [hentered] at h
    contradiction
  · have hupdated := (t.updateBattle_interludes input).isPlaced (enter_isPlaced hentered)
    dsimp only
    generalize t.updateBattle input = updated at hupdated ⊢
    obtain ⟨_ | _, u⟩ := updated <;> exact hupdated

/-- In all turns so far, and now, the actor whose windows waited had a full gauge or was drained. -/
structure Watched (turns : List (Moment σ)) (s : Scene σ) : Prop where
  routed : Routed s
  placed : s.isPlaced = true ∨ s.waiting? = none
  charged : Charged turns s
  past : ∀ m ∈ turns, Charged turns m.1

namespace Watched

variable {turns : List (Moment σ)} {s t : Scene σ}

theorem interludes (hs : Watched turns s) (h : Interludes s t) : Watched turns t := by
  have hrouted := h.path.routed (fun _ _ => Step.routed) hs.routed
  rcases hs.placed with hplaced | hnone
  · exact ⟨hrouted, .inl (h.isPlaced hplaced),
      hs.charged.of_keepsWaitingFull (h.keepsWaitingFull hplaced), hs.past⟩
  · have hclosed : t.waiting? = none := by
      cases hwaits : t.waiting? with
      | none => rfl
      | some actor =>
        rw [h.waiting hwaits] at hnone
        contradiction
    exact ⟨hrouted, .inr hclosed, .of_none hclosed, hs.past⟩

theorem wait (hs : Watched turns s) (input : InputState) : Watched turns (s.checkWait input).2 := by
  have hcore := s.checkWait_core input
  generalize (s.checkWait input).2 = t at hcore ⊢
  have hcourse : t.course = s.course := congrArg Core.toCourse hcore
  have hwaiting := waiting?_of_course hcourse
  refine ⟨hs.routed.of_course (congrArg Course.state hcourse)
    (congrArg Course.previousState hcourse), ?_,
    hs.charged.of_keepsWaitingFull (.of_keepsGaugesFull (fun _ hwaits => hwaiting ▸ hwaits) ?_),
      hs.past⟩
  · rw [hwaiting, isPlaced_of_core hcore rfl rfl]
    exact hs.placed
  · exact .of_roster (congrArg Course.config hcourse) (congrArg Core.roster hcore)

theorem turn (hs : Watched turns s) (hplaced : s.isPlaced = true) (input : InputState)
    (hopen : s.result = none) :
    Watched (turns ++ [(s, input)]) (s.processState input).2 := by
  have hturned := s.processState_turned input hopen
  refine ⟨hturned.path.routed (fun _ _ => Step.routed) hs.routed,
    .inl (hturned.isPlaced_eq.trans hplaced), hs.charged.turn input hs.routed hopen, fun m hm => ?_⟩
  rcases List.mem_append.mp hm with hm | hm
  · exact (hs.past m hm).append _
  · rw [List.mem_singleton.mp hm]
    exact hs.charged.append _

theorem update (hs : Watched turns s) (input : InputState) :
    Watched (turns ++ s.turnsBy input) (s.update input) := by
  have hbegun := hs.interludes (s.prelude_interludes input)
  have hplaced := s.prelude_isPlaced input
  rw [update_eq]
  unfold turnsBy
  generalize s.prelude input = begun at hbegun hplaced ⊢
  obtain ⟨_ | _, t⟩ := begun
  · simpa using hbegun
  · refine (@dispatchFrom_history σ _
      (fun _ turns t => t.isPlaced = true ∧ Watched turns t) input ?_ ?_
      maxActionsPerFrame [] turns t ⟨hplaced rfl, hbegun⟩).2
    · rintro - turns u ⟨hplaced, hu⟩
      exact ⟨(isPlaced_of_core (u.checkWait_core input) rfl rfl).trans hplaced, hu.wait input⟩
    · rintro - turns u ⟨hplaced, hu⟩ hopen
      exact ⟨(u.processState_turned input hopen).isPlaced_eq.trans hplaced,
        hu.turn hplaced input hopen⟩

theorem after (hs : Watched turns s) (inputs : List InputState) :
    Watched (turns ++ s.turnsIn inputs) (s.after inputs) := by
  induction inputs generalizing turns s with
  | nil => simpa [turnsIn, Scene.after] using hs
  | cons input rest ih => simpa [turnsIn, Scene.after] using ih (hs.update input)

end Watched

end Gauge

section Run

theorem update_queuings {s : Scene σ} (hs : Routed s) (input : InputState) :
    (s.update input).queuings = s.queuings ++ (s.admissionsBy input).map (·.2) := by
  have hbegun := s.prelude_queuings input
  have hrouted := (s.prelude_interludes input).path.routed (fun _ _ => Step.routed) hs
  rw [update_eq]
  unfold admissionsBy turnsBy
  rw [List.map_append, ← List.append_assoc, ← hbegun]
  generalize s.prelude input = begun at hrouted ⊢
  obtain ⟨_ | _, t⟩ := begun
  · exact (List.append_nil _).symm
  · refine (@dispatchFrom_history σ _ (fun _ turns u =>
      Routed u ∧ u.queuings = t.queuings ++ (turns.flatMap ordersAt).map (·.2)) input ?_ ?_
      maxActionsPerFrame [] [] t ⟨hrouted, (List.append_nil _).symm⟩).2
    · rintro - turns u ⟨hu, hqueued⟩
      have hwaited := u.checkWait_effects input
      exact ⟨hu.of_course hwaited.state_eq (congrArg Course.previousState hwaited.course_eq),
        hwaited.logs.queuings_of_plain.trans hqueued⟩
    · rintro - turns u ⟨hu, hqueued⟩ hopen
      refine ⟨(u.processState_turned input hopen).path.routed (fun _ _ => Step.routed) hu, ?_⟩
      rw [(mem_ordersAt (m := (u, input)) hu hopen).1, hqueued, List.flatMap_append,
        List.flatMap_singleton, List.map_append, List.append_assoc]

theorem after_queuings {s : Scene σ} (hs : Routed s) (inputs : List InputState) :
    (s.after inputs).queuings = s.queuings ++ (s.admissionsIn inputs).map (·.2) := by
  induction inputs generalizing s with
  | nil => exact (List.append_nil _).symm
  | cons input rest ih =>
    have hrouted := (s.update_path input).routed (fun _ _ => Step.routed) hs
    unfold admissionsIn
    rw [List.map_append, ← List.append_assoc, ← update_queuings hs]
    exact ih hrouted

theorem admissionsIn_append (s : Scene σ) (inputs more : List InputState) :
    s.admissionsIn (inputs ++ more) =
      s.admissionsIn inputs ++ (s.after inputs).admissionsIn more := by
  induction inputs generalizing s with
  | nil => rfl
  | cons input rest ih =>
    rw [List.cons_append, admissionsIn, admissionsIn, ih, List.append_assoc]
    rfl

theorem mem_admissionsIn {s : Scene σ} {inputs : List InputState} {a : Admission σ} :
    a ∈ s.admissionsIn inputs ↔
      (∃ m ∈ s.framesIn inputs, a ∈ choicesAt m) ∨ ∃ m ∈ s.turnsIn inputs, a ∈ ordersAt m := by
  induction inputs generalizing s with
  | nil => simp [admissionsIn, framesIn, turnsIn]
  | cons input rest ih =>
    simp only [admissionsIn, admissionsBy, framesIn, turnsIn, List.mem_append, List.mem_flatMap, ih,
      List.mem_cons, or_and_right, exists_or, exists_eq_left]
    exact or_or_or_comm

/-- Whoever is asked to choose is there, has a full gauge and no action under way. -/
theorem mem_choicesAt {s : Scene σ} (hs : Admitted [] s) {inputs : List InputState} {m : Moment σ}
    (hm : m ∈ s.framesIn inputs) {a : Admission σ} (ha : a ∈ choicesAt m) :
    a.1.roster.isPresent a.2 = true ∧ a.1.isFull a.2 = true ∧ a.1.roster.isMarked a.2 = false ∧
      a.2 ∉ a.1.sources := by
  obtain ⟨u, hu, ha⟩ := List.mem_flatMap.mp ha
  obtain ⟨hasked, hopen⟩ := asking?_interludes (Option.mem_toList.mp hu)
  obtain ⟨lost, hpath⟩ := (s.reaches_history inputs).1 m hm
  obtain ⟨hready, hadmitted⟩ := choices_admitted ((hpath.trans hasked.path).admitted hs hopen) a ha
  have hfree := isMarked_of_isIdleAndFull hready
  obtain ⟨b, hb, hidle⟩ := (Option.any_eq_true _ _).mp hready
  simp only [Bool.and_eq_true] at hidle
  exact ⟨by simp [Roster.isPresent, hb, hidle.1.1], by simp [isFull, hb, hidle.1.2], hfree,
    hadmitted.not_mem_sources hfree⟩

/-- Windows wait for the battle in active mode only. -/
theorem drains_active {s : Scene σ} (hrouted : Routed s) (hs : Interrupted s)
    {inputs : List InputState} {m : Moment σ} (hm : m ∈ s.turnsIn inputs) {actor : Int}
    (hdrains : drains m actor = true) :
    s.config.atbMode = .active := by
  obtain ⟨⟨lost, hpath⟩, -⟩ := (s.reaches_history inputs).2.1 m hm
  simp only [drains, Bool.and_eq_true, decide_eq_true_eq] at hdrains
  obtain ⟨⟨⟨hbattle, hwaits⟩, -⟩, -⟩ := hdrains
  have hprevious : m.1.previousState.isActorMenu = true := by
    simpa [showsMenu, hbattle, SceneState.isActorMenu] using (waiting?_eq_some.mp hwaits).1
  have hmode := (hpath.interrupted hrouted hs).1 hbattle hprevious
  rwa [hpath.setting.config] at hmode

/-- Whoever gets an action is there and has none under way. Its gauge is full if it chooses for
itself. It is full if the player chooses too, unless the windows waited in active mode for a turn of
the battle that drained it, as one does in which the actor falls and is raised again. -/
theorem queued_when_charged {config : BattleConfig} {database : Database} {setup : BattleSetup}
    {assets : σ} {s : Scene σ} (h : create config database setup assets = .ok s)
    (inputs : List InputState) :
    (s.after inputs).queuings = (s.admissionsIn inputs).map (·.2) ∧
      (∀ a ∈ s.admissionsIn inputs, a.1.roster.isPresent a.2 = true ∧
        a.1.roster.isMarked a.2 = false ∧
        a.2 ∉ a.1.sources) ∧
      (∀ m ∈ s.framesIn inputs, ∀ a ∈ choicesAt m, a.1.isFull a.2 = true) ∧
      ∀ m ∈ s.turnsIn inputs, ∀ a ∈ ordersAt m, a.1.isFull a.2 = true ∨
        config.atbMode = .active ∧ ∃ actor, a.2 = .actor actor ∧ a.1.activeActor = some actor ∧
          ∃ d ∈ s.turnsIn inputs, drains d actor = true := by
  obtain ⟨-, rfl⟩ := create_eq_ok h
  have hrouted := ofSetup_routed config database setup assets
  have hadmitted := ofSetup_admitted config database setup assets
  have hclosed : (ofSetup config database setup assets).waiting? = none :=
    waiting?_of_closed rfl (by simp [ofSetup])
  have hinterrupted : Interrupted (ofSetup config database setup assets) :=
    .of_ne (by simp [ofSetup])
  have hbefore : Watched [] (ofSetup config database setup assets) :=
    ⟨hrouted, .inr hclosed, .of_none hclosed, fun _ hm => absurd hm List.not_mem_nil⟩
  have hwatched := hbefore.after inputs
  rw [List.nil_append] at hwatched
  -- An order is given at the windows of the scene in which its turn begins.
  have ordered {m : Moment σ} (hm : m ∈ (ofSetup config database setup assets).turnsIn inputs)
    {a : Admission σ}
      (ha : a ∈ ordersAt m) : a.1 = m.1 ∧
        ∃ actor, a.2 = .actor actor ∧ m.1.activeActor = some actor ∧
        m.1.showsMenu = true ∧ m.1.roster.isPresent (.actor actor) = true ∧
          ∃ lost, Admitted lost m.1 := by
    obtain ⟨⟨lost, hpath⟩, hopen⟩ :=
      ((ofSetup config database setup assets).reaches_history inputs).2.1 m hm
    have hkept := hpath.admitted hadmitted hopen
    obtain ⟨hscene, actor, hsource, hmenu, hactor, hpresent⟩ :=
      (mem_ordersAt hkept.routed hopen).2 a ha
    exact ⟨hscene, actor, hsource, hactor, by simp [showsMenu, hmenu], hpresent, lost, hkept⟩
  refine ⟨after_queuings hrouted inputs, fun a ha => ?_,
    fun m hm a ha => (mem_choicesAt hadmitted hm ha).2.1, fun m hm a ha => ?_⟩
  · rcases mem_admissionsIn.mp ha with ⟨m, hm, ha⟩ | ⟨m, hm, ha⟩
    · obtain ⟨hpresent, -, hidle⟩ := mem_choicesAt hadmitted hm ha
      exact ⟨hpresent, hidle⟩
    · obtain ⟨hscene, actor, hsource, hactor, hshows, hpresent, lost, hkept⟩ := ordered hm ha
      have hfree := hkept.window actor hactor hshows
      rw [hscene, hsource]
      exact ⟨hpresent, hfree, hkept.not_mem_sources hfree⟩
  · obtain ⟨hscene, actor, hsource, hactor, hshows, -⟩ := ordered hm ha
    rw [hscene, hsource]
    rcases hwatched.past m hm actor (waiting?_eq_some.mpr ⟨hshows, hactor⟩)
      with hfull | ⟨d, hd, hdrains⟩
    · exact .inl hfull
    · exact .inr ⟨drains_active hrouted hinterrupted hd hdrains, actor, rfl, hactor, d, hd, hdrains⟩

end Run

/-! ### An actor that falls and is raised while its windows wait -/

namespace Revival

def config : BattleConfig where
  battleType := .traditional
  maxAtbGauge := 2
  atbFillFrames := 2
  terms := { battleStart := "", specialCombat := "" }

/-- The enemy's only skill kills its target and raises it again. -/
def database : Database where
  actors := [{ id := 1, name := "A", preemptive := true, commands := [1] }]
  enemies := [{ id := 1, name := "E", actions := [⟨.skill 1, 1⟩] }]
  skills := [{ id := 1, name := "", power := 999, removeStates := [1] }]
  commands := [{ id := 1, name := "", kind := .defense }]

def setup : BattleSetup where
  party := [1]
  troop := { members := [{ enemyId := 1 }] }

def scene : Scene InstantAssets := ofSetup config database setup {}

def order : InputState where
  triggered := [.decision]

end Revival

theorem queued_when_charged_second_frame :
    create Revival.config Revival.database Revival.setup {} = .ok Revival.scene ∧
      (Revival.scene.after [{}, {}]).queuings = [.enemy 0] ∧
      (Revival.scene.after [{}, {}]).queuings = (Revival.scene.admissionsIn [{}, {}]).map (·.2) ∧
      ∀ m ∈ Revival.scene.framesIn [{}, {}], ∀ a ∈ choicesAt m, a.1.isFull a.2 = true :=
  have hcreated : create Revival.config Revival.database Revival.setup {} = .ok Revival.scene := rfl
  have h := queued_when_charged hcreated [{}, {}]
  ⟨hcreated, by decide +kernel, h.1, h.2.2.1⟩

-- The command window of the actor comes back after the enemy's turn, and nothing asks whether its
-- gauge is still full.
set_option maxRecDepth 100000 in
theorem not_full_of_revival :
    create Revival.config Revival.database Revival.setup {} = .ok Revival.scene ∧
      ∃ a ∈ Revival.scene.admissionsIn (List.replicate 72 ({} : InputState) ++ [Revival.order]),
        a.1.isFull a.2 = false := by
  have hlow : ∃ a ∈ (Revival.scene.after (List.replicate 72 {})).admissionsIn [Revival.order],
      a.1.isFull a.2 = false := by decide +kernel
  obtain ⟨a, ha, hlow⟩ := hlow
  refine ⟨rfl, a, ?_, hlow⟩
  rw [admissionsIn_append]
  exact List.mem_append_right _ ha

end Scene

end ActiveBattle
