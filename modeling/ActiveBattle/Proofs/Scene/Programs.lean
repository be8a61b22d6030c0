import ActiveBattle.Proofs.Scene.Routing

/-!
# The programs of a battle

The programs under way in a battle are those it was set up with. So whatever the instructions of a
repertoire cannot do, no script does in the whole run: `Path.within`, and for the flight of the
party `Path.steadfast`.
-/

namespace ActiveBattle

set_option autoImplicit false

namespace Scene

variable {σ : Type} {P : Repertoire}

namespace Within

variable {s t : Scene σ}

theorem of_eq (hs : s.Within P) (hstore : t.store = s.store) (hdirector : t.director = s.director)
    (hrunners : t.runners = s.runners) : t.Within P := by
  refine ⟨?_, ?_, ?_, ?_⟩
  · rw [hstore]
    exact hs.events
  · rw [hstore]
    exact hs.pages
  · rw [hdirector]
    exact hs.director
  · rw [hrunners]
    exact hs.runners

theorem of_director (hs : s.Within P) (hstore : t.store = s.store) (hdirector : t.director.Within P)
    (hrunners : t.runners = s.runners) : t.Within P := by
  refine ⟨?_, ?_, hdirector, ?_⟩
  · rw [hstore]
    exact hs.events
  · rw [hstore]
    exact hs.pages
  · rw [hrunners]
    exact hs.runners

end Within

theorem healStates_director (s : Scene σ) (ids : List BattlerId) :
    (s.healStates ids).store = s.store ∧
    (s.healStates ids).director = s.director ∧ (s.healStates ids).runners = s.runners := by
  induction ids generalizing s with
  | nil => exact ⟨rfl, rfl, rfl⟩
  | cons id rest ih => exact ih _

theorem schedulePage_within {s : Scene σ} (hs : s.Within P) (trigger : EventTrigger)
    (source : Option BattlerId) : (s.schedulePage trigger source).Within P := by
  have hscheduled := Director.schedule_within hs.pages hs.director s.game trigger.flags source
  unfold schedulePage
  dsimp only
  split <;> exact hs.of_director rfl hscheduled rfl

theorem Effect.within {s t : Scene σ} (h : Effect s t) (hs : s.Within P) : t.Within P := by
  have hstore : t.store = s.store := congrArg Course.store h.course_eq
  cases h with
  | quiet h => exact hs.of_eq hstore (congrArg Core.director h) (congrArg Core.runners h)
  | hook hran _ => exact (hran.within P hs).1
  | page trigger source _ => exact schedulePage_within hs trigger source
  | pose _ h => exact hs.of_eq hstore (congrArg Core.director h) (congrArg Core.runners h)
  | wear _ =>
    obtain ⟨-, hdirector, hrunners⟩ := s.healStates_director s.roster.presentIds
    exact hs.of_eq hstore hdirector hrunners
  | ache _ _ h => exact hs.of_eq hstore (congrArg Core.director h) (congrArg Core.runners h)
  | pay _ h => exact hs.of_eq hstore (congrArg Core.director h) (congrArg Core.runners h)
  | strike _ _ _ h => exact hs.of_eq hstore (congrArg Core.director h) (congrArg Core.runners h)
  | turn id => exact hs.of_director rfl ⟨hs.director.interp, hs.director.script.of_eq rfl rfl⟩ rfl
  | announce a _ =>
    exact hs.of_director rfl ⟨hs.director.interp, hs.director.script.of_eq rfl rfl⟩ rfl
  | _ => exact hs.of_eq rfl rfl rfl

theorem Background.within {s t : Scene σ} (h : Background s t) (hs : s.Within P) : t.Within P := by
  have hstore : t.store = s.store := congrArg Course.store h.course_eq
  cases h with
  | quiet h => exact hs.of_eq hstore (congrArg Core.director h) (congrArg Core.runners h)
  | script hran _ => exact (hran.within P hs).1
  | pose _ h => exact hs.of_eq hstore (congrArg Core.director h) (congrArg Core.runners h)
  | _ => exact hs.of_eq rfl rfl rfl

theorem enqueue_director (s : Scene σ) (a : Action) : (s.enqueue a).store = s.store ∧
    (s.enqueue a).director = s.director ∧ (s.enqueue a).runners = s.runners := by
  obtain ⟨-, h⟩ | ⟨b, -, ⟨-, h⟩ | ⟨-, h⟩⟩ := s.enqueue_cases a <;> rw [h] <;> exact ⟨rfl, rfl, rfl⟩

theorem enqueue_within {s : Scene σ} (hs : s.Within P) (a : Action) : (s.enqueue a).Within P :=
  have h := s.enqueue_director a
  hs.of_eq h.1 h.2.1 h.2.2

theorem discard_within {s : Scene σ} (hs : s.Within P) (source : BattlerId) :
    (s.discard source).Within P := by
  have hturned : (s.nextTurn source).Within P := (Effect.turn source).within hs
  unfold discard
  dsimp only
  split
  · exact hturned.of_eq rfl rfl rfl
  · exact hs.of_eq rfl rfl rfl

theorem endBattle_within {s : Scene σ} (hs : s.Within P) (result : BattleResult) :
    (s.endBattle result).Within P := by
  unfold endBattle
  split
  · exact hs
  · exact hs.of_director rfl ⟨Interpreter.Within.clear _, hs.director.script⟩ rfl

theorem Deed.within {s t : Scene σ} (h : Deed s t) (hs : s.Within P) : t.Within P := by
  cases h with
  | effect h => exact h.within hs
  | order a _ _ _ _ => exact enqueue_within hs a
  | discard a rest _ _ _ _ => exact (discard_within hs a.source).of_eq rfl rfl rfl
  | pass _ _ h => cases h <;> exact hs.of_eq rfl rfl rfl
  | away _ _ => exact hs.of_director rfl ⟨hs.director.interp, hs.director.script.of_eq rfl rfl⟩ rfl
  | release a _ h =>
    rw [releasePending_eq h]
    exact hs.of_eq rfl rfl rfl
  | _ => exact hs.of_eq rfl rfl rfl

theorem Verdict.within {s t : Scene σ} (h : Verdict s t) (hs : s.Within P) : t.Within P := by
  cases h <;> exact hs.of_eq rfl rfl rfl

theorem Outcome.within {s t : Scene σ} (h : Outcome s t) (hs : s.Within P) : t.Within P := by
  cases h with
  | done => exact hs
  | decided h => exact h.within hs
  | launched a a' _ _ _ _ _ => exact hs.of_eq rfl rfl rfl
  | ended _ => exact endBattle_within hs _

theorem Interlude.within {s t : Scene σ} (h : Interlude s t) (hs : s.Within P) : t.Within P := by
  cases h with
  | background h => exact h.within hs
  | flee _ _ => exact hs.of_eq rfl rfl rfl
  | decided h => exact h.within hs
  | overturn _ _ => exact hs.of_eq rfl rfl rfl
  | choose a _ _ _ => exact enqueue_within hs a
  | finish result _ => exact endBattle_within hs result

theorem Step.within {s t : Scene σ} (h : Step s t) (hs : s.Within P) : t.Within P := by
  cases h with
  | deed h => exact h.within hs
  | close h => exact h.within hs
  | interlude h => exact h.within hs

theorem Take.within {s t : Scene σ} (h : Take s t) (hs : s.Within P) : t.Within P := by
  cases h
  exact hs.of_eq rfl rfl rfl

theorem Path.within {s t : Scene σ} {lost : List BattlerId} (h : Path Step s lost t)
    (hs : s.Within P) :
    t.Within P := by
  induction h with
  | refl => exact hs
  | step _ hstep ih => exact hstep.within ih
  | take _ htake ih => exact htake.within ih

/-- Nothing but the programs that a battle is set up with is ever under way. -/
theorem ofSetup_within {config : BattleConfig} {database : Database} {setup : BattleSetup}
    {assets : σ} (hevents : (ofSetup config database setup assets).store.EventsWithin P.event)
    (hpages : (ofSetup config database setup assets).store.PagesWithin P.any)
    (hhooks : config.maniacPatch = true → P.hooks) :
    (ofSetup config database setup assets).Within P := by
  refine ⟨hevents, hpages, ⟨.of_idle rfl rfl, hhooks, .of_idle rfl rfl, fun _ => rfl⟩, ?_⟩
  intro r hr
  obtain ⟨e, he, rfl⟩ := List.mem_map.mp hr
  refine ⟨hevents e he, fun i hi => ?_⟩
  unfold EventRunner.ofEvent at hi
  dsimp only at hi
  split at hi
  · obtain rfl := Option.some.inj hi
    have hidle : ({} : Interpreter).Within P.event := .of_idle rfl rfl
    exact hidle.push _ _ (hevents e he)
  · contradiction

theorem ofSetup_withinStore (config : BattleConfig) (database : Database) (setup : BattleSetup)
    (assets : σ) :
    (ofSetup config database setup assets).Within
      (.ofStore (ofSetup config database setup assets).store) := by
  apply ofSetup_within
  · intro e he inst hinst
    exact .inl ⟨e, he, hinst⟩
  · intro page hpage inst hinst
    exact .inl ⟨page, hpage, hinst⟩
  · intro _
    trivial

end Scene

/-- Programs that never make the party flee. -/
def Repertoire.steadfast : Repertoire where
  any inst := inst.fleesParty = false
  event inst := inst.fleesParty = false
  hooks := True
  any_of_event _ h := h
  assign inst h := by simp [Instruction.fleesParty, h]

namespace Scene

variable {σ : Type}

/-- Scripts were left alone, but for a flight that was carried out. -/
structure Unscripted (s t : Scene σ) : Prop where
  runners : t.runners = s.runners
  hookRunner : t.director.script.hookRunner = s.director.script.hookRunner
  flight : t.director.script.forceFlee = s.director.script.forceFlee ∨
    t.director.script.forceFlee = false

namespace Unscripted

variable {s t : Scene σ}

theorem of_script_eq (hrunners : t.runners = s.runners)
    (hscript : t.director.script = s.director.script) :
    Unscripted s t :=
  ⟨hrunners, by rw [hscript], .inl (by rw [hscript])⟩

theorem of_core_eq {c : Core} (h : t.core = c) (hrunners : c.runners = s.runners)
    (hdirector : c.director = s.director) : Unscripted s t :=
  .of_script_eq ((congrArg Core.runners h).trans hrunners)
    (congrArg Director.script ((congrArg Core.director h).trans hdirector))

end Unscripted

theorem schedulePage_unscripted (s : Scene σ) (trigger : EventTrigger) (source : Option BattlerId) :
    Unscripted s (s.schedulePage trigger source) := by
  have hscript : (s.director.schedule s.store s.game trigger.flags source).2.script =
      s.director.script := by
    unfold Director.schedule
    split
    · rfl
    · dsimp only
      split <;> rfl
  unfold schedulePage
  dsimp only
  split <;> exact .of_script_eq rfl hscript

theorem Effect.ran_or_unscripted {s t : Scene σ} (h : Effect s t) : Ran s t ∨ Unscripted s t := by
  cases h with
  | hook hran _ => exact .inl hran
  | page trigger source _ => exact .inr (s.schedulePage_unscripted trigger source)
  | quiet h => exact .inr (.of_core_eq h rfl rfl)
  | pose _ h => exact .inr (.of_core_eq h rfl rfl)
  | wear _ =>
    obtain ⟨-, hdirector, hrunners⟩ := s.healStates_director s.roster.presentIds
    exact .inr (.of_script_eq hrunners (congrArg Director.script hdirector))
  | ache _ _ h => exact .inr (.of_core_eq h rfl rfl)
  | pay _ h => exact .inr (.of_core_eq h rfl rfl)
  | strike _ _ _ h => exact .inr (.of_core_eq h rfl rfl)
  | announce a _ => exact .inr ⟨rfl, rfl, .inl rfl⟩
  | _ => exact .inr (.of_script_eq rfl rfl)

theorem Background.ran_or_unscripted {s t : Scene σ} (h : Background s t) :
    Ran s t ∨ Unscripted s t := by
  cases h with
  | script hran _ => exact .inl hran
  | quiet h => exact .inr (.of_core_eq h rfl rfl)
  | pose _ h => exact .inr (.of_core_eq h rfl rfl)
  | _ => exact .inr (.of_script_eq rfl rfl)

theorem enqueue_unscripted (s : Scene σ) (a : Action) : Unscripted s (s.enqueue a) :=
  have h := s.enqueue_director a
  .of_script_eq h.2.2 (congrArg Director.script h.2.1)

theorem endBattle_unscripted (s : Scene σ) (result : BattleResult) :
    Unscripted s (s.endBattle result) := by
  unfold endBattle
  split <;> exact .of_script_eq rfl rfl

theorem discard_unscripted (s : Scene σ) (source : BattlerId) :
    Unscripted s (s.discard source) := by
  unfold discard
  dsimp only
  split <;> exact .of_script_eq rfl rfl

theorem Deed.ran_or_unscripted {s t : Scene σ} (h : Deed s t) : Ran s t ∨ Unscripted s t := by
  cases h with
  | effect h => exact h.ran_or_unscripted
  | order a _ _ _ _ => exact .inr (s.enqueue_unscripted a)
  | discard a rest _ _ _ _ =>
    have h := s.discard_unscripted a.source
    exact .inr ⟨h.runners, h.hookRunner, h.flight⟩
  | pass _ _ h => cases h <;> exact .inr (.of_script_eq rfl rfl)
  | away _ _ => exact .inr ⟨rfl, rfl, .inr rfl⟩
  | release a _ h =>
    rw [releasePending_eq h]
    exact .inr (.of_script_eq rfl rfl)
  | _ => exact .inr (.of_script_eq rfl rfl)

theorem Verdict.unscripted {s t : Scene σ} (h : Verdict s t) : Unscripted s t := by
  cases h <;> exact .of_script_eq rfl rfl

theorem Step.ran_or_unscripted {s t : Scene σ} (h : Step s t) : Ran s t ∨ Unscripted s t := by
  cases h with
  | deed h => exact h.ran_or_unscripted
  | close h =>
    cases h with
    | done => exact .inr (.of_script_eq rfl rfl)
    | decided h => exact .inr h.unscripted
    | launched a a' _ _ _ _ _ => exact .inr (.of_script_eq rfl rfl)
    | ended _ => exact .inr (s.endBattle_unscripted _)
  | interlude h =>
    cases h with
    | background h => exact h.ran_or_unscripted
    | decided h => exact .inr h.unscripted
    | choose a _ _ _ => exact .inr (s.enqueue_unscripted a)
    | finish result _ => exact .inr (s.endBattle_unscripted result)
    | flee _ _ => exact .inr (.of_script_eq rfl rfl)
    | overturn _ _ => exact .inr (.of_script_eq rfl rfl)

/-- No script has the party flee. -/
structure Steadfast (s : Scene σ) : Prop where
  within : s.Within .steadfast
  unforced : s.director.script.forceFlee = false

theorem Step.steadfast {s t : Scene σ} (h : Step s t) (hs : s.Steadfast) : t.Steadfast := by
  refine ⟨h.within hs.within, ?_⟩
  rcases h.ran_or_unscripted with hran | hidle
  · exact ((hran.within .steadfast hs.within).2.flight fun _ hinst => hinst).trans hs.unforced
  · exact hidle.flight.elim (fun h => h.trans hs.unforced) id

/-- Where no program makes the party flee, nothing ever does. -/
theorem Path.steadfast {s t : Scene σ} {lost : List BattlerId} (h : Path Step s lost t)
    (hs : s.Steadfast) :
    t.Steadfast := by
  induction h with
  | refl => exact hs
  | step _ hstep ih => exact hstep.steadfast ih
  | take _ htake ih =>
    refine ⟨htake.within ih.within, ?_⟩
    cases htake
    exact ih.unforced

end Scene

end ActiveBattle
