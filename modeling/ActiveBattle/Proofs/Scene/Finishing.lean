import ActiveBattle.Proofs.Scene.Relapse

/-!
# Battles that are over

A battle can end in the middle of a frame, at the hands of a script, of a countdown or of an outer
state. Whatever ends it is the last thing that its frame does (`prelude_finishes`,
`processState_finishes`), so nothing fills again what the end has emptied, and no frame follows.
-/

namespace ActiveBattle

set_option autoImplicit false

/-- The result that the log announces. -/
def SceneEvent.ending? : SceneEvent → Option BattleResult
  | .battleEnded result => some result
  | _ => none

namespace Interpreter

/-- Nothing runs and nothing suspends. -/
structure AtRest (i : Interpreter) : Prop where
  stack : i.stack = []
  asyncOp : i.asyncOp = .none
  waitFrames : i.waitFrames = 0
  yieldRequested : i.yieldRequested = false

theorem clear_atRest (i : Interpreter) : i.clear.AtRest := ⟨rfl, rfl, rfl, rfl⟩

end Interpreter

/-- No action of anybody waits, in or out of the party. -/
def Roster.Unmarked (r : Roster) : Prop := ∀ b ∈ r.actors ++ r.enemies, b.actionQueued = false

namespace Scene

variable {σ : Type}

/-- The results that the log announces, one after the other. -/
def endings (s : Scene σ) : List BattleResult := s.events.filterMap (·.ending?)

/-- Nothing of a battle is left to be done. -/
structure Cleared (s : Scene σ) : Prop where
  queue : s.queue = []
  pending : s.pending = none
  director : s.director.interp.AtRest
  roster : s.roster.Unmarked

theorem Cleared.of_core {s t : Scene σ} (hs : s.Cleared) (h : t.core = s.core) : t.Cleared := by
  have hqueue : t.queue = s.queue := congrArg (fun c : Core => c.queue) h
  have hpending : t.pending = s.pending := congrArg (fun c : Core => c.pending) h
  have hdirector : t.director = s.director := congrArg Core.director h
  have hroster : t.roster = s.roster := congrArg Core.roster h
  exact ⟨hqueue ▸ hs.queue, hpending ▸ hs.pending, hdirector ▸ hs.director, hroster ▸ hs.roster⟩

theorem endBattle_cleared {s : Scene σ} (hopen : s.result = none) (result : BattleResult) :
    (s.endBattle result).Cleared := by
  unfold endBattle
  rw [if_neg (by simp [hopen])]
  refine ⟨rfl, rfl, Interpreter.clear_atRest _, ?_⟩
  intro b hb
  rcases List.mem_append.mp hb with hb | hb <;>
    · obtain ⟨b, -, rfl⟩ := List.mem_map.mp hb
      rfl

section Announcing

/-- The log announces the result and no other. -/
def Announced (s : Scene σ) : Prop := s.endings = s.result.toList

/-- The log has grown, but not by the end of the battle. -/
abbrev Unending (s t : Scene σ) : Prop := Logs (·.ending? = none) s t

theorem Logs.endings_eq {s t : Scene σ} (h : Unending s t) : t.endings = s.endings := by
  obtain ⟨es, hes, hkind⟩ := h
  unfold endings
  rw [hes, List.filterMap_append, List.filterMap_eq_nil_iff.mpr hkind, List.append_nil]

theorem setState_unending (s : Scene σ) (next : SceneState) : Unending s (s.setState next) :=
  .of_events rfl (s.setState_events next)

theorem enqueue_unending (s : Scene σ) (a : Action) : Unending s (s.enqueue a) := by
  have henlisted : Unending s (s.enlist a) := .of_events rfl (note_events _ _)
  rcases s.enqueue_cases a with ⟨-, h⟩ | ⟨b, -, ⟨-, h⟩ | ⟨-, h⟩⟩
  · rw [h]
    exact .refl s
  · rw [h]
    exact henlisted.trans (setState_unending _ _)
  · rw [h]
    exact henlisted

theorem Effect.unending {s t : Scene σ} (h : Effect s t) : Unending s t :=
  h.logs_of (fun _ _ => rfl) fun _ _ => rfl

theorem Background.unending {s t : Scene σ} (h : Background s t) : Unending s t :=
  h.logs_of fun _ => rfl

theorem Deed.unending {s t : Scene σ} (h : Deed s t) : Unending s t := by
  cases h with
  | effect h => exact h.unending
  | go _ => exact s.setState_unending _
  | command id _ _ => exact .of_events rfl (setState_events _ _)
  | leave _ => exact .of_events rfl (setState_events _ _)
  | order a _ _ _ _ => exact s.enqueue_unending a
  | discard a rest _ _ _ _ =>
    exact .trans (discard_logs_of (fun _ _ => rfl) (fun _ => rfl) s a.source) (.of_log rfl)
  | pass _ _ h => cases h <;> exact .of_log rfl
  | release a _ h =>
    rw [releasePending_eq h]
    exact .of_log rfl
  | _ => exact .of_log rfl

namespace Announced

variable {s t : Scene σ}

theorem of_unending (hs : s.Announced) (h : Unending s t) (hresult : t.result = s.result) :
    t.Announced := by
  unfold Announced
  rw [h.endings_eq, hresult]
  exact hs

theorem endBattle (hs : s.Announced) (result : BattleResult) : (s.endBattle result).Announced := by
  unfold Scene.endBattle
  split
  · exact hs
  · rename_i hopen
    have hnone : s.endings = [] := by
      rw [show s.endings = s.result.toList from hs, Option.not_isSome_iff_eq_none.mp hopen]
      rfl
    unfold Announced endings
    rw [note_events, List.filterMap_append]
    exact congrArg (· ++ [result]) hnone

end Announced

theorem Verdict.announced {s t : Scene σ} (h : Verdict s t) (hs : s.Announced) : t.Announced := by
  cases h <;> exact hs.of_unending (setState_unending _ _) rfl

theorem Outcome.announced {s t : Scene σ} (h : Outcome s t) (hs : s.Announced) : t.Announced := by
  cases h with
  | done => exact hs
  | decided h => exact h.announced hs
  | launched a a' _ _ _ _ _ => exact hs.of_unending (.of_events rfl (s.launch_events a')) rfl
  | ended _ => exact hs.endBattle _

theorem Interlude.announced {s t : Scene σ} (h : Interlude s t) (hs : s.Announced) :
    t.Announced := by
  cases h with
  | background h => exact hs.of_unending h.unending (congrArg Course.result h.course_eq)
  | flee _ _ => exact hs.of_unending (s.setState_unending _) rfl
  | decided h => exact h.announced hs
  | overturn _ _ => exact hs.of_unending (s.setState_unending _) rfl
  | choose a _ _ _ => exact hs.of_unending (s.enqueue_unending a) (s.enqueue_result a)
  | finish result _ => exact hs.endBattle result

theorem Path.announced {s t : Scene σ} {lost : List BattlerId} (h : Path Step s lost t)
    (hs : s.Announced) :
    t.Announced := by
  induction h with
  | refl => exact hs
  | step _ hstep ih =>
    cases hstep with
    | deed h => exact ih.of_unending h.unending h.result_eq
    | close h => exact h.announced ih
    | interlude h => exact h.announced ih
  | take _ htake ih =>
    cases htake
    exact ih.of_unending (.of_log rfl) rfl

end Announcing

/-- The battle goes on, or ended with the very last thing that was done. -/
def Finishes (s : Scene σ) : Prop := s.result = none ∨
  ∃ (t : Scene σ) (result : BattleResult), t.result = none ∧ s = t.endBattle result

namespace Finishes

variable {s t : Scene σ}

theorem endBattle (hopen : s.result = none) (result : BattleResult) :
    (s.endBattle result).Finishes :=
  .inr ⟨s, result, hopen, rfl⟩

theorem of_concludes (hopen : s.result = none) (h : Concludes s t) : t.Finishes := by
  obtain ⟨u, hu, rfl | ⟨result, -, rfl⟩⟩ := h
  · exact .inl ((congrArg Course.result hu.course_eq).trans hopen)
  · exact endBattle ((congrArg Course.result hu.course_eq).trans hopen) result

theorem cleared (h : s.Finishes) (hover : s.result ≠ none) : s.Cleared := by
  rcases h with hopen | ⟨t, result, hopen, rfl⟩
  · exact absurd hopen hover
  · exact endBattle_cleared hopen result

end Finishes

theorem enqueueChoice_result (s : Scene σ) (chooser : Chooser) (id : BattlerId) :
    (s.enqueueChoice chooser id).result = s.result :=
  enqueue_result _ _

theorem createEnemyActions_result (s : Scene σ) : s.createEnemyActions.result = s.result := by
  unfold createEnemyActions
  apply List.foldlRecOn (motive := fun t : Scene σ => t.result = s.result)
  · rfl
  · intro t ht id _
    split
    · exact (t.enqueueChoice_result _ id).trans ht
    · exact ht

theorem createAutoActions_result (s : Scene σ) : s.createAutoActions.result = s.result := by
  unfold createAutoActions
  apply List.foldlRecOn (motive := fun t : Scene σ => t.result = s.result)
  · rfl
  · intro t ht id _
    split
    · exact (t.enqueueChoice_result _ id).trans ht
    · exact ht

theorem Path.result_eq {s t : Scene σ} {lost : List BattlerId} (h : Path Deed s lost t) :
    t.result = s.result := by
  induction h with
  | refl => rfl
  | step _ hstep ih => exact hstep.result_eq.trans ih
  | take _ htake ih =>
    cases htake
    exact ih

theorem Turned.finishes {s t : Scene σ} {lost : List BattlerId} (h : Turned s lost t)
    (hopen : s.result = none) :
    t.Finishes := by
  obtain ⟨u, hdeeds, houtcome⟩ := h
  have hresult : u.result = none := hdeeds.result_eq.trans hopen
  cases houtcome with
  | done => exact .inl hresult
  | decided h => exact .inl (h.result_eq.trans hresult)
  | launched a a' _ _ _ _ _ => exact .inl hresult
  | ended _ => exact .endBattle hresult _

variable [AssetLoader σ]

/-- The bookkeeping of a frame ends no battle once it is past the questions that may. -/
theorem updateCourse_result (s : Scene σ) : s.updateCourse.result = s.result := by
  have hcharged (t : Scene σ) : t.updateAtb.result = t.result := by
    unfold updateAtb
    split
    · rfl
    · rw [createAutoActions_result, createEnemyActions_result]
      split
      · exact congrArg Course.result t.fillGauges_backgrounds.course_eq
      · rfl
  have hcourse : s.updateCourse.result = _ :=
    congrArg Course.result s.updateCourse_backgrounds.course_eq
  rw [hcourse]
  exact (hcharged _).trans (checkBattleEnd_result _)

/-- A frame that goes on to the outer states has not ended the battle. -/
theorem updateBattle_finishes {s : Scene σ} (hopen : s.result = none) (input : InputState) :
    (s.updateBattle input).2.Finishes ∧
      ((s.updateBattle input).1 = true → (s.updateBattle input).2.result = none) := by
  rw [updateBattle_eq]
  split
  · exact ⟨.inl hopen, fun _ => hopen⟩
  · have hran := ((s.updatePresentation_backgrounds input).trans (mark_backgrounds _ .events)).trans
      (runScripts_backgrounds _)
    have hscripted := (congrArg Course.result hran.course_eq).trans hopen
    generalize ((s.updatePresentation input).mark .events).runScripts = ran at hscripted ⊢
    obtain ⟨_ | _, t⟩ := ran
    · exact ⟨.inl hscripted, fun _ => hscripted⟩
    · have hfled : t.checkForceFlee.result = none := t.checkForceFlee_result.trans hscripted
      have hconcludes := t.checkForceFlee.checkEnds_concludes input
      dsimp only
      rcases hchecked : t.checkForceFlee.checkEnds input with ⟨_ | _, u⟩
      · rw [hchecked] at hconcludes
        exact ⟨.of_concludes hfled hconcludes, fun h => absurd h Bool.false_ne_true⟩
      · have hasked := congrArg Course.result (checkEnds_of_true hchecked).course_eq
        have hkept := u.updateCourse_result.trans (hasked.trans hfled)
        exact ⟨.inl hkept, fun _ => hkept⟩

theorem prelude_of_ended {s : Scene σ} (h : s.result ≠ none) (input : InputState) :
    s.prelude input = (false, { s with steps := [], inputConsumed := false }) := by
  unfold prelude enter
  simp only [Option.isSome_iff_ne_none.mpr h, if_true]

theorem prelude_finishes {s : Scene σ} (hopen : s.result = none) (input : InputState) :
    (s.prelude input).2.Finishes := by
  have hentered := s.enter_concludes
  unfold prelude
  rcases hentrance : s.enter with ⟨_ | _, t⟩
  · rw [hentrance] at hentered
    exact .of_concludes hopen hentered
  · have hupdated := updateBattle_finishes (enter_of_true hentrance) input
    dsimp only
    generalize t.updateBattle input = updated at hupdated ⊢
    obtain ⟨_ | _, u⟩ := updated
    · exact hupdated.1
    · exact .inl (hupdated.2 rfl)

theorem processState_finishes {s : Scene σ} (hopen : s.result = none) (input : InputState) :
    (s.processState input).2.Finishes :=
  (s.processState_turned input hopen).finishes hopen

/-- A battle that is over has nothing left to be done. -/
theorem after_cleared {s : Scene σ} (hopen : s.result = none) (inputs : List InputState)
    (hover : (s.after inputs).result ≠ none) : (s.after inputs).Cleared := by
  refine after_history (P := fun _ _ t => t.result ≠ none →
    t.Cleared) ?_ ?_ ?_ (absurd hopen) inputs hover
  · intro input _ _ t ht hover
    by_cases htopen : t.result = none
    · exact (prelude_finishes htopen input).cleared hover
    · rw [prelude_of_ended htopen]
      exact (ht htopen).of_core rfl
  · intro input _ _ t ht hover
    have hcore := t.checkWait_core input
    have hresult : (t.checkWait input).2.result = t.result :=
      congrArg (fun c : Core => c.result) hcore
    exact (ht (hresult ▸ hover)).of_core hcore
  · intro input _ _ t _ htopen
    exact (processState_finishes htopen input).cleared

/-- The same battle with others who choose and another loader. -/
def hosted {τ : Type} (s : Scene σ) (enemyChooser autoChooser : Chooser) (assets : τ) : Scene τ :=
  { s with
    enemyChooser := enemyChooser
    autoChooser := autoChooser
    world := { s.world with assets := assets } }

theorem update_of_ended {s : Scene σ} (h : s.result ≠ none) (input : InputState) :
    s.update input = { s with steps := [], inputConsumed := false } := by
  rw [update_eq, prelude_of_ended h]

/-- No frame follows the end. -/
theorem after_of_ended {s : Scene σ} (h : s.result ≠ none) (input : InputState)
    (rest : List InputState) :
    s.after (input :: rest) = { s with steps := [], inputConsumed := false } := by
  induction rest generalizing s input with
  | nil => exact update_of_ended h input
  | cons next rest ih =>
    have hstays : (s.update input).result ≠ none := by
      rw [update_of_ended h]
      exact h
    rw [show s.after (input :: next :: rest) = (s.update input).after (next :: rest) from
      rfl, ih hstays, update_of_ended h]

/-- A battle that is over has nothing left to be done, has announced its result once and no other,
and stays as it is in whatever frames follow, with whatever buttons, choosers and loader. -/
theorem after_finished {s : Scene σ} (hopen : s.result = none) (hsilent : s.endings = [])
    (inputs : List InputState) {result : BattleResult}
    (hover : (s.after inputs).result = some result) :
    (s.after inputs).Cleared ∧ (s.after inputs).endings = [result] ∧
      ∀ {τ : Type} [AssetLoader τ] (enemyChooser autoChooser : Chooser)
        (assets : τ) (input : InputState) (rest : List InputState),
        ((s.after inputs).hosted enemyChooser autoChooser assets).after (input :: rest) =
          { (s.after inputs).hosted enemyChooser autoChooser assets with
            steps := []
            inputConsumed := false } := by
  have hended : (s.after inputs).result ≠ none := by
    rw [hover]
    exact Option.some_ne_none _
  have hbegun : s.Announced := by
    rw [Announced, hsilent, hopen]
    rfl
  have hannounced := (s.after_path inputs).announced hbegun
  refine ⟨after_cleared hopen inputs hended, ?_,
    fun enemyChooser autoChooser assets input rest => ?_⟩
  · rw [hannounced, hover]
    rfl
  · have hhosted : ((s.after inputs).hosted enemyChooser autoChooser assets).result ≠ none := hended
    exact after_of_ended hhosted input rest

/-! ### A battle that a countdown ends -/

namespace Deadline

def config : BattleConfig := {}

def database : Database where
  actors := [{ id := 1, name := "A" }]
  enemies := [{ id := 1, name := "E" }]

def setup : BattleSetup where
  party := [1]
  troop := { members := [{ enemyId := 1 }] }
  timers := { first := .start 2 true }

def scene : Scene InstantAssets := ofSetup config database setup {}

end Deadline

set_option maxRecDepth 100000 in
theorem after_finished_of_deadline :
    create Deadline.config Deadline.database Deadline.setup {} = .ok Deadline.scene ∧
      (Deadline.scene.after [{}, {}]).result = some .abort ∧
        (Deadline.scene.after [{}, {}]).Cleared ∧
      (Deadline.scene.after [{}, {}]).endings = [.abort] := by
  have hover : (Deadline.scene.after [{}, {}]).result = some .abort := by decide +kernel
  have h := after_finished (s := Deadline.scene) rfl rfl [{}, {}] hover
  exact ⟨rfl, hover, h.1, h.2.1⟩

end Scene

end ActiveBattle
