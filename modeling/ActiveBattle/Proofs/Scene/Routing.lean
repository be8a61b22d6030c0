import ActiveBattle.Proofs.Scene.Alike
import ActiveBattle.Proofs.Scene.Course

/-!
# The ways between the outer states

A state that goes back to where it came from came from where it can go back to (`Routed`). So deeds
neither decide a battle nor lead out of one that is decided (`Deed.state_cases`).
-/

namespace ActiveBattle.Scene

set_option autoImplicit false

variable {σ : Type}

/-- The windows of an actor are open, or will be once the queue is done. -/
def showsMenu (s : Scene σ) : Bool :=
  s.state.isActorMenu || (decide (s.state = .battle) && s.previousState.isActorMenu)

/-- The ways into the target windows and into the battle. -/
structure Routed (s : Scene σ) : Prop where
  target : s.state = .selectEnemyTarget ∨ s.state = .selectAllyTarget →
    s.previousState.isActorMenu = true
  battle : s.state = .battle →
    s.previousState = .selectActor ∨ s.previousState = .autoBattle ∨
      s.previousState = .selectCommand

theorem Routed.of_course {s t : Scene σ} (h : Routed s) (hstate : t.state = s.state)
    (hprevious : t.previousState = s.previousState) : Routed t := by
  constructor
  · rw [hstate, hprevious]
    exact h.target
  · rw [hstate, hprevious]
    exact h.battle

theorem Routed.of_plain {s : Scene σ} (henemy : s.state ≠ .selectEnemyTarget)
    (hally : s.state ≠ .selectAllyTarget) (hbattle : s.state ≠ .battle) : Routed s :=
  ⟨fun h => (h.elim henemy hally).elim, fun h => (hbattle h).elim⟩

theorem setState_plain (s : Scene σ) {next : SceneState} (henemy : next ≠ .selectEnemyTarget)
    (hally : next ≠ .selectAllyTarget) (hbattle : next ≠ .battle) : Routed (s.setState next) :=
  .of_plain henemy hally hbattle

/-- Going to another state keeps the ways, and opens the windows of an actor only from where they
were open. -/
theorem Leads.routed {s : Scene σ} {next : SceneState} (h : Leads s next) (hs : Routed s) :
    Routed (s.setState next) ∧ ((s.setState next).showsMenu = true → s.showsMenu = true) := by
  have plain {next : SceneState} (henemy : next ≠ .selectEnemyTarget)
    (hally : next ≠ .selectAllyTarget)
      (hbattle : next ≠ .battle) (hmenu : next.isActorMenu = false) :
      Routed (s.setState next) ∧ ((s.setState next).showsMenu = true → s.showsMenu = true) := by
    refine ⟨s.setState_plain henemy hally hbattle, ?_⟩
    intro h
    simp [showsMenu, setState, hmenu, hbattle] at h
  have menu (h : s.state.isActorMenu = true) : s.showsMenu = true := by simp [showsMenu, h]
  cases h with
  | battle h _ =>
    refine ⟨⟨fun h' => by simp [setState] at h', fun _ => h.imp_right (Or.imp_right And.left)⟩, ?_⟩
    intro hshows
    exact menu (by simpa [showsMenu, setState, SceneState.isActorMenu] using hshows)
  | window h hnext _ =>
    refine ⟨⟨fun _ => h, ?_⟩, fun _ => menu h⟩
    intro hbattle
    rw [show next = .battle from hbattle] at hnext
    contradiction
  | cancel h =>
    have hprevious := hs.target h
    have hmenu : s.state.isActorMenu = true := by
      rcases h with h | h <;> rw [h] <;> rfl
    refine ⟨⟨fun _ => hmenu, ?_⟩, fun _ => menu hmenu⟩
    intro hbattle
    rw [show s.previousState = .battle from hbattle] at hprevious
    contradiction
  | resume h _ =>
    have hafter : s.stateAfterBattle = .selectActor ∨ s.stateAfterBattle = .autoBattle ∨
        (s.stateAfterBattle = .selectCommand ∧ s.previousState = .selectCommand) := by
      have hway := hs.battle h
      unfold stateAfterBattle
      split
      · rcases hway with hway | hway | hway <;> simp [hway]
      · split <;> simp
    rcases hafter with hafter | hafter | ⟨hafter, hprevious⟩
    · rw [hafter]
      exact plain (by simp) (by simp) (by simp) rfl
    · rw [hafter]
      exact plain (by simp) (by simp) (by simp) rfl
    · rw [hafter]
      refine ⟨s.setState_plain (by simp) (by simp) (by simp), ?_⟩
      intro _
      simp [showsMenu, h, hprevious, SceneState.isActorMenu]
  | _ => exact plain (by simp) (by simp) (by simp) rfl

theorem enqueue_routed {s : Scene σ} (hs : Routed s) (a : Action) : Routed (s.enqueue a) := by
  rcases s.enqueue_cases a with ⟨-, h⟩ | ⟨b, -, ⟨-, h⟩ | ⟨-, h⟩⟩
  · rw [h]
    exact hs
  · rw [h]
    exact setState_plain _ (by simp) (by simp) (by simp)
  · rw [h]
    exact hs.of_course rfl rfl

theorem Passes.routed {s t : Scene σ} (h : Passes s t) (hs : Routed s) : Routed t := by
  have hcourse := h.course_eq
  exact hs.of_course (congrArg Course.state hcourse) (congrArg Course.previousState hcourse)

theorem Deed.routed {s t : Scene σ} (h : Deed s t) (hs : Routed s) : Routed t := by
  cases h with
  | effect h =>
    exact hs.of_course (congrArg Course.state h.course_eq)
      (congrArg Course.previousState h.course_eq)
  | go h => exact (h.routed hs).1
  | advance _ => exact hs.of_course rfl rfl
  | command id _ _ => exact setState_plain _ (by simp) (by simp) (by simp)
  | leave _ => exact setState_plain _ (by simp) (by simp) (by simp)
  | order a _ _ _ _ => exact enqueue_routed hs a
  | discard a rest _ _ _ _ =>
    have hcourse := s.discard_course a.source
    exact hs.of_course (congrArg Course.state hcourse) (congrArg Course.previousState hcourse)
  | pass _ _ h => exact h.routed hs
  | rework a a' _ _ => exact hs.of_course rfl rfl
  | away _ _ => exact hs.of_course rfl rfl
  | release a _ h =>
    rw [releasePending_eq h]
    exact hs.of_course rfl rfl

theorem endBattle_routed {s : Scene σ} (result : BattleResult) (hs : Routed s) :
    Routed (s.endBattle result) := by
  unfold endBattle
  split
  · exact hs
  · exact hs.of_course rfl rfl

theorem Verdict.routed {s t : Scene σ} (h : Verdict s t) : Routed t := by
  cases h <;> exact setState_plain _ (by simp) (by simp) (by simp)

theorem Outcome.routed {s t : Scene σ} (h : Outcome s t) (hs : Routed s) : Routed t := by
  cases h with
  | done => exact hs
  | decided h => exact h.routed
  | launched a a' _ _ _ _ _ => exact hs.of_course rfl rfl
  | ended _ => exact endBattle_routed _ hs

theorem Interlude.routed {s t : Scene σ} (h : Interlude s t) (hs : Routed s) : Routed t := by
  cases h with
  | background h =>
    exact hs.of_course (congrArg Course.state h.course_eq)
      (congrArg Course.previousState h.course_eq)
  | flee _ _ => exact setState_plain _ (by simp) (by simp) (by simp)
  | decided h => exact h.routed
  | overturn _ _ => exact setState_plain _ (by simp) (by simp) (by simp)
  | choose a _ _ _ => exact enqueue_routed hs a
  | finish result _ => exact endBattle_routed result hs

theorem Step.routed {s t : Scene σ} (h : Step s t) (hs : Routed s) : Routed t := by
  cases h with
  | deed h => exact h.routed hs
  | close h => exact h.routed hs
  | interlude h => exact h.routed hs

theorem Take.routed {s t : Scene σ} (h : Take s t) (hs : Routed s) : Routed t := by
  cases h with
  | mk a a' rest _ _ _ _ _ => exact hs.of_course rfl rfl

theorem Path.routed {R : Scene σ → Scene σ → Prop} (hR : ∀ s t, R s t → Routed s → Routed t)
    {s t : Scene σ} {lost : List BattlerId} (h : Path R s lost t) (hs : Routed s) : Routed t := by
  induction h with
  | refl => exact hs
  | step _ hstep ih => exact hR _ _ hstep ih
  | take _ htake ih => exact htake.routed ih

/-- Only an open battle goes on, and only to where it is open. -/
theorem Leads.isDecided {s : Scene σ} {next : SceneState} (h : Leads s next) (hs : Routed s) :
    s.state.isDecided = false ∧ next.isDecided = false := by
  have menu {state : SceneState} (h : state.isActorMenu = true) : state.isDecided = false := by
    cases state <;> first | rfl | contradiction
  cases h with
  | opened h => exact ⟨by rw [h]; rfl, rfl⟩
  | fight h => exact ⟨by rw [h]; rfl, rfl⟩
  | auto h => exact ⟨by rw [h]; rfl, rfl⟩
  | options h => exact ⟨by rcases h with h | h <;> rw [h] <;> rfl, rfl⟩
  | battle h _ => exact ⟨by rcases h with h | h | ⟨h, -⟩ <;> rw [h] <;> rfl, rfl⟩
  | window h hnext _ => exact ⟨menu h, menu hnext⟩
  | cancel h => exact ⟨by rcases h with h | h <;> rw [h] <;> rfl, menu (hs.target h)⟩
  | noActor h _ => exact ⟨menu h, rfl⟩
  | escape h => exact ⟨by rcases h with h | h <;> rw [h] <;> rfl, rfl⟩
  | failed h _ => exact ⟨by rw [h]; rfl, rfl⟩
  | resume h _ =>
    refine ⟨by rw [h]; rfl, ?_⟩
    unfold stateAfterBattle
    split
    · rcases hs.battle h with h | h | h <;> rw [h] <;> rfl
    · split <;> rfl

/-- Deeds neither decide a battle nor go on from one that is decided. -/
theorem Deed.state_cases {s t : Scene σ} (h : Deed s t) (hs : Routed s) :
    t.state = s.state ∨ s.state.isDecided = false ∧ t.state.isDecided = false := by
  have menu {state : SceneState} (h : state.isActorMenu = true) : state.isDecided = false := by
    cases state <;> first | rfl | contradiction
  cases h with
  | effect h => exact .inl (congrArg Course.state h.course_eq)
  | go h => exact .inr (h.isDecided hs)
  | advance _ => exact .inl rfl
  | command id _ hstate => exact .inr ⟨by rcases hstate with h | h <;> rw [h] <;> rfl, rfl⟩
  | leave hstate => exact .inr ⟨menu hstate, rfl⟩
  | order a _ _ hstate _ =>
    rcases s.enqueue_cases a with ⟨-, h⟩ | ⟨b, -, ⟨-, h⟩ | ⟨-, h⟩⟩
    · exact .inl (by rw [h])
    · exact .inr ⟨menu hstate, by rw [h]; rfl⟩
    · exact .inl (by rw [h]; rfl)
  | discard a rest _ _ _ _ => exact .inl (congrArg Course.state (s.discard_course a.source))
  | pass _ _ h => exact .inl (congrArg Course.state h.course_eq)
  | rework a a' _ _ => exact .inl rfl
  | away _ _ => exact .inl rfl
  | release a _ h =>
    rw [releasePending_eq h]
    exact .inl rfl

theorem ofSetup_routed (config : BattleConfig) (database : Database) (setup : BattleSetup)
    (assets : σ) :
    Routed (ofSetup config database setup assets) :=
  .of_plain (fun h => by cases h) (fun h => by cases h) (fun h => by cases h)

end ActiveBattle.Scene
