import ActiveBattle.Proofs.Scene.Admission
import ActiveBattle.Proofs.Scene.History
import ActiveBattle.Proofs.Scene.Presence
import ActiveBattle.Proofs.Scene.Programs

/-!
# Battles that are decided and go on

A battle that is decided should only come to its end. Its outer states do keep to that, but two
things around them do not ask whether it is decided: the flight a script forces, and an actor that
acts on its own while its windows are open. Every change away from a decided state is one of these
two (`absorbing_iff`).
-/

namespace ActiveBattle

set_option autoImplicit false

namespace Scene

variable {σ : Type}

/-- No change of state led away from victory or defeat. -/
def Absorbing (s : Scene σ) : Prop :=
  ∀ entry ∈ s.log.toList, ∀ after, entry.event ≠ .stateChanged .victory after ∧
    entry.event ≠ .stateChanged .defeat after

theorem absorbing_iff_departures (s : Scene σ) : s.Absorbing ↔ s.departures = [] := by
  unfold departures events
  rw [List.filterMap_map, List.filterMap_eq_nil_iff]
  refine forall₂_congr fun entry _ => ⟨fun h => ?_, fun h after => ?_⟩
  · unfold SceneEvent.departure?
    dsimp only [Function.comp]
    split
    · rename_i before after hevent
      split
      · rename_i hdecided
        obtain ⟨hvictory, hdefeat⟩ := h after
        cases before <;>
          first | exact absurd hevent hvictory | exact absurd hevent hdefeat | contradiction
      · rfl
    · rfl
  · constructor <;>
    · intro hevent
      rw [Function.comp, hevent] at h
      exact absurd h (by simp [SceneEvent.departure?, SceneState.isDecided])

/-- A script has the party flee from a battle that is decided. -/
def flight (s : Scene σ) : List (SceneState × SceneState) :=
  if s.state.isDecided && s.director.script.forceFlee then [(s.state, .escape)] else []

/-- Ready, and not the player's to command. -/
def isImpulsive (s : Scene σ) (actor : Int) : Bool :=
  s.isIdleAndFull (.actor actor) && !s.isControllable (.actor actor)

/-- An actor of a list, whose windows are open, acts on its own in a battle that is decided. -/
def impulseAmong (s : Scene σ) (actors : List Int) : List (SceneState × SceneState) :=
  if s.state.isDecided && s.activeActor.any fun actor =>
    actors.contains actor && s.isImpulsive actor
  then [(s.state, .selectActor)] else []

def impulse (s : Scene σ) : List (SceneState × SceneState) := s.impulseAmong s.roster.party

theorem flight_of_undecided {s : Scene σ} (h : s.state.isDecided = false) : s.flight = [] := by
  simp [flight, h]

theorem impulseAmong_of_undecided {s : Scene σ} (h : s.state.isDecided = false)
    (actors : List Int) :
    s.impulseAmong actors = [] := by
  simp [impulseAmong, h]

theorem setState_departures (s : Scene σ) (hdecided : s.state.isDecided = true)
    (next : SceneState) :
    (s.setState next).departures = s.departures ++ [(s.state, next)] := by
  unfold departures
  rw [setState_events, List.filterMap_append]
  simp [SceneEvent.departure?, hdecided]

theorem checkForceFlee_departures (s : Scene σ) :
    s.checkForceFlee.departures = s.departures ++ s.flight := by
  unfold checkForceFlee
  split
  · rename_i h
    cases hdecided : s.state.isDecided with
    | true =>
      rw [s.setState_departures hdecided]
      simp [flight, hdecided, h.1]
    | false =>
      rw [flight_of_undecided hdecided, List.append_nil]
      exact (s.setState_uneventful hdecided _).departures_eq
  · rename_i h
    have hnone : s.flight = [] := by
      unfold flight
      rw [if_neg]
      intro hflight
      obtain ⟨hdecided, hforced⟩ := Bool.and_eq_true_iff.mp hflight
      refine h ⟨hforced, fun hescape => ?_⟩
      rw [hescape] at hdecided
      contradiction
    rw [hnone, List.append_nil]

/-- Interludes that neither leave a decided state nor put an action into the queue. -/
structure QuietInterludes (s t : Scene σ) : Prop where
  interludes : Interludes s t
  logs : Logs SceneEvent.Plain s t

namespace QuietInterludes

variable {s t u : Scene σ}

theorem of_backgrounds (h : Backgrounds s t) : QuietInterludes s t := ⟨h.interludes, h.logs⟩

theorem trans (h : QuietInterludes s t) (h' : QuietInterludes t u) : QuietInterludes s u :=
  ⟨h.interludes.trans h'.interludes, h.logs.trans h'.logs⟩

theorem departures_eq (h : QuietInterludes s t) : t.departures = s.departures :=
  h.logs.uneventful.departures_eq

end QuietInterludes

theorem Concludes.quietInterludes {s t : Scene σ} (h : Concludes s t) : QuietInterludes s t := by
  refine ⟨h.interludes, ?_⟩
  obtain ⟨u, hu, rfl | ⟨result, -, rfl⟩⟩ := h
  · exact hu.logs
  · exact hu.logs.trans (u.endBattle_logs result)

theorem checkBattleEnd_departures {s : Scene σ} (hs : Settled s) :
    s.checkBattleEnd.2.departures = s.departures := by
  cases hopen : s.state.isDecided with
  | false =>
    rcases s.checkBattleEnd_cases hopen with h | h
    · rw [h]
    · exact h.uneventful.departures_eq
  | true =>
    unfold checkBattleEnd
    by_cases hdefeat : s.state = .defeat
    · simp [hdefeat]
    · have hvictory : s.state = .victory := by
        cases hstate : s.state <;> simp_all [SceneState.isDecided]
      simp [hvictory, hs.victory hvictory]

theorem checkForceFlee_result (s : Scene σ) : s.checkForceFlee.result = s.result := by
  unfold checkForceFlee
  split <;> rfl

theorem checkBattleEnd_result (s : Scene σ) : s.checkBattleEnd.2.result = s.result := by
  unfold checkBattleEnd
  repeat' split
  all_goals rfl

theorem mem_flight {s : Scene σ} {d : SceneState × SceneState} (h : d ∈ s.flight) :
    s.state.isDecided = true ∧ s.director.script.forceFlee = true ∧ d = (s.state, .escape) := by
  unfold flight at h
  split at h
  · rename_i hgoes
    obtain ⟨hdecided, hforced⟩ := Bool.and_eq_true_iff.mp hgoes
    exact ⟨hdecided, hforced, List.mem_singleton.mp h⟩
  · contradiction

theorem mem_impulse {s : Scene σ} {d : SceneState × SceneState} (h : d ∈ s.impulse) :
    s.state.isDecided = true ∧ d = (s.state, .selectActor) ∧
      ∃ actor ∈ s.roster.party, s.activeActor = some actor ∧ s.isImpulsive actor = true := by
  unfold impulse impulseAmong at h
  split at h
  · rename_i hgoes
    obtain ⟨hdecided, hany⟩ := Bool.and_eq_true_iff.mp hgoes
    obtain ⟨actor, hactor, hgoes⟩ := Option.any_eq_true _ _ |>.mp hany
    obtain ⟨hparty, himpulsive⟩ := Bool.and_eq_true_iff.mp hgoes
    exact ⟨hdecided, List.mem_singleton.mp h, actor, List.contains_iff_mem.mp hparty,
      hactor, himpulsive⟩
  · contradiction

theorem isImpulsive_of_defeated {s : Scene σ} (h : s.roster.isPartyDefeated = true) {actor : Int}
    (hactor : actor ∈ s.roster.party) : s.isImpulsive actor = false := by
  unfold isImpulsive isIdleAndFull
  cases hb : s.roster.battler? (.actor actor) with
  | none => rfl
  | some b =>
    have hmember : b ∈ s.roster.partyMembers := List.mem_filterMap.mpr ⟨actor, hactor, hb⟩
    have habsent : b.isPresent = false := by
      simp only [Roster.isPartyDefeated, Bool.not_eq_true', List.any_eq_false] at h
      exact Bool.eq_false_iff.mpr (h b hmember)
    simp [habsent]

/-- The player commands every actor whose windows are open, unless a state restricts it. -/
theorem isImpulsive_of_held {s : Scene σ} (hs : Held s)
    (hfree : ∀ d ∈ s.database.states, d.restriction = .normal) {actor : Int}
    (hactor : s.activeActor = some actor) : s.isImpulsive actor = false := by
  unfold isImpulsive isIdleAndFull isControllable
  cases hb : s.roster.battler? (.actor actor) with
  | none => rfl
  | some b => simp [hs.commanded actor b hactor hb, restriction_of_unrestricted hfree b]

theorem Path.held {s t : Scene σ} {lost : List BattlerId} (h : Path Step s lost t) (hs : Held s)
    (hfree : ∀ d ∈ s.database.states, d.restriction = .normal) :
    Held t ∧ ∀ d ∈ t.database.states, d.restriction = .normal := by
  rw [h.setting.database]
  exact ⟨(h.eq_nil_of_unrestricted hfree hs).2, hfree⟩

section Impulse

/-- The choice of the actor whose windows are open leaves the state; any other is put down. -/
theorem enqueueChoice_cases (s : Scene σ) (chooser : Chooser) (actor : Int)
    (hready : s.isIdleAndFull (.actor actor) = true) :
    (s.activeActor = some actor ∧ ∃ t, Uneventful s t ∧ t.state = s.state ∧
      s.enqueueChoice chooser (.actor actor) = t.setState .selectActor) ∨
    (s.activeActor ≠ some actor ∧ Uneventful s (s.enqueueChoice chooser (.actor actor)) ∧
      (s.enqueueChoice chooser (.actor actor)).state = s.state ∧
      (s.enqueueChoice chooser (.actor actor)).activeActor = s.activeActor ∧
      ∀ other, other ≠ actor →
        (s.enqueueChoice chooser (.actor actor)).isImpulsive other = s.isImpulsive other) := by
  obtain ⟨a, dice, hfresh, hqueued⟩ := enqueueChoice_of_ready chooser hready
  have hrolled : Uneventful s (s.modifyGame ({ · with dice := dice })) := .of_log rfl
  rw [s.isFromMenu_eq hfresh.source] at hqueued
  rcases hqueued with ⟨hactive, h⟩ | ⟨hactive, h⟩
  · rw [h]
    exact .inl ⟨of_decide_eq_true hactive, _, hrolled.trans (enlist_uneventful _ a), rfl, rfl⟩
  · rw [h]
    refine .inr ⟨of_decide_eq_false hactive, hrolled.trans (enlist_uneventful _ a), rfl, rfl, ?_⟩
    intro other hother
    -- The action marks the actor it is chosen for and nobody else.
    have hbattler : ((s.modifyGame ({ · with dice := dice })).enlist a).roster.battler?
      (.actor other) = s.roster.battler? (.actor other) := by
      have hmodified := s.roster.battler?_modify a.source (.actor other)
        ((s.modifyGame ({ · with dice := dice })).marking a) fun _ => rfl
      rw [hfresh.source, if_neg fun h =>
        hother (BattlerId.actor.inj h), ← hfresh.source] at hmodified
      exact hmodified
    unfold isImpulsive isIdleAndFull isControllable
    rw [hbattler]
    rfl

theorem impulseAmong_congr {s t : Scene σ} {actors : List Int} (hstate : t.state = s.state)
    (hactor : t.activeActor = s.activeActor)
    (h : ∀ actor, s.activeActor = some actor → t.isImpulsive actor = s.isImpulsive actor) :
    t.impulseAmong actors = s.impulseAmong actors := by
  unfold impulseAmong
  rw [hstate, hactor]
  cases hactive : s.activeActor with
  | none => rfl
  | some actor => simp only [Option.any_some, h actor hactive]

theorem impulseAmong_cons {s : Scene σ} {actor : Int} {rest : List Int}
    (h : s.activeActor = some actor → s.isImpulsive actor = false) :
    s.impulseAmong (actor :: rest) = s.impulseAmong rest := by
  unfold impulseAmong
  cases hactive : s.activeActor with
  | none => rfl
  | some active =>
    simp only [Option.any_some, List.contains_cons]
    by_cases hid : active = actor
    · subst hid
      simp [h hactive]
    · simp [hid]

/-- Of all who act on their own, only the actor with open windows leaves a decided state. -/
theorem chooseActions_departures (s : Scene σ) (autoBattle : Bool) (actors : List Int)
    (hauto : autoBattle = true → s.state.isDecided = false) :
    ((actors.map BattlerId.actor).foldl
      (fun s id =>
        if s.isIdleAndFull id && !(s.isControllable id && !autoBattle) then
          s.enqueueChoice s.autoChooser id
        else s)
      s).departures = s.departures ++ s.impulseAmong actors := by
  induction actors generalizing s with
  | nil =>
    rw [show s.impulseAmong [] = [] by cases h : s.activeActor <;> simp [impulseAmong, h],
      List.append_nil]
    rfl
  | cons actor rest ih =>
    rw [List.map_cons, List.foldl_cons]
    by_cases hgoes : (s.isIdleAndFull (.actor actor) &&
      !(s.isControllable (.actor actor) && !autoBattle)) = true
    · rw [if_pos hgoes]
      obtain ⟨hready, hleft⟩ := Bool.and_eq_true_iff.mp hgoes
      rcases s.enqueueChoice_cases s.autoChooser actor hready with
        ⟨hactive, t, ht, hstate, hqueued⟩ | ⟨hactive, huneventful, hstate, hactor, hothers⟩
      · -- From here on the state is open, and those after this actor leave no decided state.
        have hopen : (t.setState .selectActor).state.isDecided = false := rfl
        rw [hqueued, ih _ fun _ => hopen, impulseAmong_of_undecided hopen, List.append_nil]
        cases hdecided : s.state.isDecided with
        | false =>
          rw [impulseAmong_of_undecided hdecided, List.append_nil,
            (t.setState_uneventful (by rw [hstate, hdecided]) _).departures_eq, ht.departures_eq]
        | true =>
          have hoff : autoBattle = false := by
            cases autoBattle
            · rfl
            · rw [hauto rfl] at hdecided
              contradiction
          have himpulsive : s.isImpulsive actor = true := by
            simpa [isImpulsive, hready, hoff] using hleft
          have hamong : s.impulseAmong (actor :: rest) = [(s.state, .selectActor)] := by
            simp [impulseAmong, hdecided, hactive, himpulsive]
          rw [t.setState_departures (by rw [hstate, hdecided]), ht.departures_eq, hstate, hamong]
      · rw [ih _ fun hon => by rw [hstate, hauto hon], huneventful.departures_eq,
          impulseAmong_cons fun h => absurd h hactive]
        refine congrArg (s.departures ++ ·)
          (impulseAmong_congr hstate hactor fun other hother => ?_)
        exact hothers other fun h => hactive (h ▸ hother)
    · rw [if_neg hgoes, ih s hauto]
      cases hdecided : s.state.isDecided with
      | false => rw [impulseAmong_of_undecided hdecided, impulseAmong_of_undecided hdecided]
      | true =>
        have hoff : autoBattle = false := by
          cases autoBattle
          · rfl
          · rw [hauto rfl] at hdecided
            contradiction
        rw [impulseAmong_cons]
        intro _
        simpa [isImpulsive, hoff] using hgoes

theorem createAutoActions_departures (s : Scene σ) :
    s.createAutoActions.departures = s.departures ++ s.impulse := by
  refine s.chooseActions_departures _ s.roster.party fun hauto => ?_
  rw [of_decide_eq_true hauto]
  rfl

theorem createEnemyActions_uneventful (s : Scene σ) : Uneventful s s.createEnemyActions := by
  unfold createEnemyActions Roster.enemyIds
  apply List.foldlRecOn (motive := Uneventful s)
  · exact .refl s
  · intro t ht id hid
    split
    · -- Enemies have no windows.
      obtain ⟨index, -, rfl⟩ := List.mem_map.mp hid
      rename_i hready
      obtain ⟨a, dice, hfresh, ⟨hmenu, -⟩ | ⟨-, h⟩⟩ := enqueueChoice_of_ready t.enemyChooser hready
      · simp [isFromMenu, hfresh.source] at hmenu
      · rw [h]
        exact ht.trans (.trans (.of_log rfl) (enlist_uneventful _ a))
    · exact ht

end Impulse

variable [AssetLoader σ]

/-- The scene in which a frame asks whether a script forces a flight, if it gets that far. -/
def scripted? (s : Scene σ) (input : InputState) : Option (Scene σ) :=
  match s.enter with
  | (false, _) => none
  | (true, s) =>
    if s.resumeFromDebug then none
    else
      match ((s.updatePresentation input).mark .events).runScripts with
      | (false, _) => none
      | (true, s) => some s

/-- The scene in which the bookkeeping asks who chooses for itself, unless a script or a message
keeps it from asking. -/
def ripe? (s : Scene σ) : Option (Scene σ) :=
  let s := (s.mark .endCheck).checkBattleEnd.2.mark .atb
  if s.director.isRunning || s.game.message.isActive then none
  else some (if s.isAccumulating then s.fillGauges else s)

/-- The scene in which a frame asks who chooses for itself, if it gets that far. -/
def asking? (s : Scene σ) (input : InputState) : Option (Scene σ) :=
  match s.scripted? input with
  | none => none
  | some s =>
    match s.checkForceFlee.checkEnds input with
    | (false, _) => none
    | (true, s) => s.ripe?

/-- The scene in which the bookkeeping asks who acts on its own, unless a script or a message keeps
it from asking. -/
def stirred? (s : Scene σ) : Option (Scene σ) :=
  let s := (s.mark .endCheck).checkBattleEnd.2.mark .atb
  if s.director.isRunning || s.game.message.isActive then none
  else some (if s.isAccumulating then s.fillGauges else s).createEnemyActions

/-- The scene in which a frame asks who acts on its own, if it gets that far. -/
def choosing? (s : Scene σ) (input : InputState) : Option (Scene σ) :=
  match s.scripted? input with
  | none => none
  | some s =>
    match s.checkForceFlee.checkEnds input with
    | (false, _) => none
    | (true, s) => s.stirred?

/-- The changes away from a decided state in one frame. -/
def relapses (m : Moment σ) : List (SceneState × SceneState) :=
  (m.1.scripted? m.2).toList.flatMap flight ++ (m.1.choosing? m.2).toList.flatMap impulse

/-- The changes away from a decided state in a run, as a script or an actor brings them about. -/
def relapsesIn (s : Scene σ) (inputs : List InputState) : List (SceneState × SceneState) :=
  (s.framesIn inputs).flatMap relapses

theorem stirred?_eq (s : Scene σ) : s.stirred? = s.ripe?.map createEnemyActions := by
  unfold stirred? ripe?
  dsimp only
  split <;> rfl

theorem choosing?_eq (s : Scene σ) (input : InputState) :
    s.choosing? input = (s.asking? input).map createEnemyActions := by
  unfold choosing? asking?
  cases s.scripted? input with
  | none => rfl
  | some t =>
    dsimp only
    generalize t.checkForceFlee.checkEnds input = checked
    obtain ⟨_ | _, u⟩ := checked
    · rfl
    · exact u.stirred?_eq

/-- How far a frame gets before the outer states take their turns. -/
theorem prelude_cases (s : Scene σ) (input : InputState) :
    (s.scripted? input = none ∧ s.asking? input = none ∧ QuietInterludes s (s.prelude input).2) ∨
      ∃ t, s.scripted? input = some t ∧ QuietInterludes s t ∧ t.result = none ∧
        ((s.asking? input = none ∧ QuietInterludes t.checkForceFlee (s.prelude input).2) ∨
          ∃ u, Backgrounds t.checkForceFlee u ∧ s.asking? input = u.ripe? ∧
            Backgrounds u.updateCourse (s.prelude input).2) := by
  have hentered := s.enter_concludes.quietInterludes
  unfold prelude asking? scripted?
  rcases hentrance : s.enter with ⟨_ | _, t⟩
  · rw [hentrance] at hentered
    exact .inl ⟨rfl, rfl, hentered⟩
  · rw [hentrance] at hentered
    dsimp only
    rw [updateBattle_eq]
    by_cases hdebug : t.resumeFromDebug = true
    · simp only [if_pos hdebug]
      exact .inl ⟨trivial, trivial, hentered.trans (.of_backgrounds (.quiet rfl))⟩
    · simp only [if_neg hdebug]
      have hran :=
        ((t.updatePresentation_backgrounds input).trans (mark_backgrounds _ .events)).trans
        (runScripts_backgrounds _)
      generalize ((t.updatePresentation input).mark .events).runScripts = ran at hran ⊢
      have hscripted := hentered.trans (.of_backgrounds hran)
      obtain ⟨_ | _, u⟩ := ran
      · exact .inl ⟨rfl, rfl, hscripted⟩
      · have hopen : u.result = none :=
          (congrArg Course.result hran.course_eq).trans (enter_of_true hentrance)
        refine .inr ⟨u, rfl, hscripted, hopen, ?_⟩
        have hconcludes := (u.checkForceFlee.checkEnds_concludes input).quietInterludes
        dsimp only
        rcases hchecked : u.checkForceFlee.checkEnds input with ⟨_ | _, v⟩
        · rw [hchecked] at hconcludes
          exact .inl ⟨rfl, hconcludes⟩
        · exact .inr ⟨v, checkEnds_of_true hchecked, rfl, mark_backgrounds _ .dispatch⟩

theorem scripted?_interludes {s u : Scene σ} {input : InputState} (h : s.scripted? input = some u) :
    Interludes s u := by
  rcases s.prelude_cases input with ⟨hnone, -, -⟩ | ⟨t, ht, hreached, -, -⟩
  · rw [hnone] at h
    contradiction
  · obtain rfl := Option.some.inj (ht.symm.trans h)
    exact hreached.interludes

/-- What is asked in a frame is asked in a battle that is not over. -/
theorem ripe?_interludes {s v : Scene σ} (h : s.ripe? = some v) :
    Interludes s v ∧ v.result = s.result := by
  have hended :=
    ((s.mark_backgrounds .endCheck).interludes.trans (checkBattleEnd_interludes _)).trans
    (mark_backgrounds _ .atb).interludes
  have hkept : ((s.mark .endCheck).checkBattleEnd.2.mark .atb).result = s.result :=
    (s.mark .endCheck).checkBattleEnd_result
  unfold ripe? at h
  generalize (s.mark .endCheck).checkBattleEnd.2.mark .atb = t at hended hkept h
  dsimp only at h
  split at h
  · contradiction
  · obtain rfl := Option.some.inj h
    have hfilled : Backgrounds t (if t.isAccumulating then t.fillGauges else t) := by
      split
      · exact t.fillGauges_backgrounds
      · exact .refl t
    exact ⟨hended.trans hfilled.interludes, (congrArg Course.result hfilled.course_eq).trans hkept⟩

theorem asking?_interludes {s v : Scene σ} {input : InputState} (h : s.asking? input = some v) :
    Interludes s v ∧ v.result = none := by
  rcases s.prelude_cases input with ⟨-, hnone, -⟩ | ⟨t, -, hreached, hopen,
    ⟨hnone, -⟩ | ⟨u, hu, hasking, -⟩⟩
  · rw [hnone] at h
    contradiction
  · rw [hnone] at h
    contradiction
  · obtain ⟨hripe, hkept⟩ := ripe?_interludes (hasking.symm.trans h)
    refine ⟨((hreached.interludes.trans t.checkForceFlee_interludes).trans hu.interludes).trans
      hripe, ?_⟩
    rw [hkept, show u.result = t.checkForceFlee.result from congrArg Course.result hu.course_eq,
      checkForceFlee_result, hopen]

theorem choosing?_interludes {s v : Scene σ} {input : InputState} (h : s.choosing? input = some v) :
    Interludes s v := by
  rw [choosing?_eq] at h
  obtain ⟨u, hu, rfl⟩ := Option.map_eq_some_iff.mp h
  exact (asking?_interludes hu).1.trans u.createEnemyActions_interludes

theorem updateCourse_departures {s : Scene σ} (hs : Settled s) :
    s.updateCourse.departures = s.departures ++ s.stirred?.toList.flatMap impulse := by
  have hended : ((s.mark .endCheck).checkBattleEnd.2.mark .atb).departures = s.departures :=
    checkBattleEnd_departures (s := s.mark .endCheck) ⟨hs.victory, hs.defeat⟩
  rw [s.updateCourse_backgrounds.logs.uneventful.departures_eq]
  unfold stirred?
  dsimp only
  generalize (s.mark .endCheck).checkBattleEnd.2.mark .atb = t at hended ⊢
  unfold updateAtb
  split
  · rw [hended]
    exact (List.append_nil _).symm
  · have hfilled : Uneventful t (if t.isAccumulating then t.fillGauges else t) := by
      split
      · exact t.fillGauges_backgrounds.logs.uneventful
      · exact .refl t
    have hchosen := hfilled.trans (createEnemyActions_uneventful _)
    rw [createAutoActions_departures, hchosen.departures_eq, hended]
    simp

/-- What a frame leaves a decided state by, it does before the outer states take their turns. -/
theorem prelude_departures {s : Scene σ} (input : InputState) (hrouted : Routed s)
    (hs : Settled s) :
    (s.prelude input).2.departures = s.departures ++ relapses (s, input) := by
  unfold relapses
  dsimp only
  rw [choosing?_eq]
  -- Wherever the frame stops, there is no scene left to relapse from.
  rcases s.prelude_cases input with ⟨hscripted, hasking, hstops⟩ | ⟨t, ht, hreached, -, hgoes⟩
  · rw [hscripted, hasking]
    exact hstops.departures_eq.trans (List.append_nil _).symm
  · have hfled := t.checkForceFlee_departures
    rw [hreached.departures_eq] at hfled
    rcases hgoes with ⟨hasking, hstops⟩ | ⟨u, hu, hasking, hended⟩
    · rw [ht, hasking, hstops.departures_eq, hfled]
      simp
    · have hsettled :=
        ((hreached.interludes.trans t.checkForceFlee_interludes).trans hu.interludes).settled
          hrouted hs
      have hchecked := (QuietInterludes.of_backgrounds hu).departures_eq
      rw [ht, hasking, ← stirred?_eq, (QuietInterludes.of_backgrounds hended).departures_eq,
        updateCourse_departures hsettled, hchecked, hfled]
      simp

/-- A decided state is left for flight, or by an actor of a party that has won. -/
theorem relapses_kinds {m : Moment σ} (hrouted : Routed m.1) (hs : Settled m.1)
    {d : SceneState × SceneState} (h : d ∈ relapses m) :
    d = (.victory, .escape) ∨ d = (.defeat, .escape) ∨ d = (.victory, .selectActor) := by
  have decided {state : SceneState} (h : state.isDecided = true) :
      state = .victory ∨ state = .defeat := by
    cases state <;> first | exact .inl rfl | exact .inr rfl | contradiction
  rcases List.mem_append.mp h with h | h
  · obtain ⟨u, -, hu⟩ := List.mem_flatMap.mp h
    obtain ⟨hdecided, -, rfl⟩ := mem_flight hu
    rcases decided hdecided with hstate | hstate <;> simp [hstate]
  · obtain ⟨v, hv, hd⟩ := List.mem_flatMap.mp h
    obtain ⟨hdecided, rfl, actor, hmember, -, himpulsive⟩ := mem_impulse hd
    have hsettled := (choosing?_interludes (Option.mem_toList.mp hv)).settled hrouted hs
    rcases decided hdecided with hstate | hstate
    · simp [hstate]
    · -- Nobody is left in a party that is defeated.
      rw [isImpulsive_of_defeated (hsettled.defeat hstate) hmember] at himpulsive
      contradiction

theorem relapses_of_steadfast {m : Moment σ} (hs : m.1.Steadfast) {d : SceneState × SceneState}
    (h : d ∈ relapses m) : d.2 ≠ .escape := by
  rcases List.mem_append.mp h with h | h
  · obtain ⟨u, hu, hd⟩ := List.mem_flatMap.mp h
    have hunforced := ((scripted?_interludes (Option.mem_toList.mp hu)).path.steadfast hs).unforced
    obtain ⟨-, hforced, -⟩ := mem_flight hd
    rw [hunforced] at hforced
    contradiction
  · obtain ⟨v, -, hd⟩ := List.mem_flatMap.mp h
    obtain ⟨-, rfl, -⟩ := mem_impulse hd
    simp

theorem relapses_of_held {m : Moment σ} (hs : Held m.1)
    (hfree : ∀ d ∈ m.1.database.states, d.restriction = .normal) {d : SceneState × SceneState}
    (h : d ∈ relapses m) : d.2 ≠ .selectActor := by
  rcases List.mem_append.mp h with h | h
  · obtain ⟨u, -, hd⟩ := List.mem_flatMap.mp h
    obtain ⟨-, -, rfl⟩ := mem_flight hd
    simp
  · obtain ⟨v, hv, hd⟩ := List.mem_flatMap.mp h
    obtain ⟨-, rfl, actor, -, hactor, himpulsive⟩ := mem_impulse hd
    obtain ⟨hheld, hfree'⟩ := (choosing?_interludes (Option.mem_toList.mp hv)).path.held hs hfree
    rw [isImpulsive_of_held hheld hfree' hactor] at himpulsive
    contradiction

/-- The changes away from a decided state are those that scripts and actors bring about, frame by
frame. -/
theorem after_departures {s : Scene σ} (hrouted : Routed s) (hs : Settled s)
    (hnone : s.departures = []) (inputs : List InputState) :
    (s.after inputs).departures = s.relapsesIn inputs := by
  refine (after_history (P := fun frames _ t => (Routed t ∧ Settled t) ∧
    t.departures = frames.flatMap relapses) ?_ ?_ ?_ ⟨⟨hrouted, hs⟩, hnone⟩ inputs).2
  · rintro input frames turns t ⟨⟨hrouted, hs⟩, ht⟩
    have hkept := (t.prelude_interludes input).path.settled hrouted hs
    refine ⟨⟨hkept.2, hkept.1⟩, ?_⟩
    rw [prelude_departures input hrouted hs, ht, List.flatMap_append, List.flatMap_singleton]
  · rintro input frames turns t ⟨⟨hrouted, hs⟩, ht⟩
    have hwaited := (t.checkWait_effects input).deeds.path
    have hpath : Path Step t [] (t.checkWait input).2 := hwaited.mono fun _ _ => .deed
    have hkept := hpath.settled hrouted hs
    exact ⟨⟨hkept.2, hkept.1⟩, (hwaited.uneventful hrouted).1.departures_eq.trans ht⟩
  · rintro input frames turns t ⟨⟨hrouted, hs⟩, ht⟩ hopen
    have hturned := t.processState_turned input hopen
    have hkept := hturned.path.settled hrouted hs
    exact ⟨⟨hkept.2, hkept.1⟩, (hturned.departures_eq hrouted).trans ht⟩

/-- A battle never leaves victory or defeat exactly when no script makes the party flee from them
and no actor acts on its own out of its open windows. The first takes a program that makes the party
flee, the second a state that restricts its bearer, and it leaves victory alone. -/
theorem absorbing_iff {config : BattleConfig} {database : Database} {setup : BattleSetup}
    {assets : σ} {s : Scene σ} (h : create config database setup assets = .ok s)
    (inputs : List InputState) :
    ((s.after inputs).Absorbing ↔ s.relapsesIn inputs = []) ∧
      (s.after inputs).departures = s.relapsesIn inputs ∧
      (∀ d ∈ s.relapsesIn inputs,
        d = (.victory, .escape) ∨ d = (.defeat, .escape) ∨ d = (.victory, .selectActor)) ∧
      (s.store.EventsWithin (·.fleesParty = false) → s.store.PagesWithin (·.fleesParty = false) →
        ∀ d ∈ s.relapsesIn inputs, d.2 ≠ .escape) ∧
      ((∀ d ∈ database.states, d.restriction = .normal) →
        ∀ d ∈ s.relapsesIn inputs, d.2 ≠ .selectActor) := by
  obtain ⟨-, rfl⟩ := create_eq_ok h
  have hrouted := ofSetup_routed config database setup assets
  have hsettled : Settled (ofSetup config database setup assets) := .of_undecided rfl
  have hreached := ((ofSetup config database setup assets).reaches_history inputs).1
  have hdepartures := after_departures hrouted hsettled rfl inputs
  have relapse {d : SceneState × SceneState}
    (hd : d ∈ (ofSetup config database setup assets).relapsesIn inputs) :
      ∃ m : Moment σ, Reaches (ofSetup config database setup assets) m.1 ∧ d ∈ relapses m := by
    obtain ⟨m, hm, hd⟩ := List.mem_flatMap.mp hd
    exact ⟨m, hreached m hm, hd⟩
  refine ⟨?_, hdepartures, ?_, ?_, ?_⟩
  · rw [absorbing_iff_departures, hdepartures]
  · intro d hd
    obtain ⟨m, ⟨lost, hpath⟩, hd⟩ := relapse hd
    have hkept := hpath.settled hrouted hsettled
    exact relapses_kinds hkept.2 hkept.1 hd
  · intro hevents hpages d hd
    obtain ⟨m, ⟨lost, hpath⟩, hd⟩ := relapse hd
    exact relapses_of_steadfast
      (hpath.steadfast ⟨ofSetup_within hevents hpages fun _ => trivial, rfl⟩) hd
  · intro hfree d hd
    obtain ⟨m, ⟨lost, hpath⟩, hd⟩ := relapse hd
    obtain ⟨hheld, hfree'⟩ := hpath.held (ofSetup_held config database setup assets) hfree
    exact relapses_of_held hheld hfree' hd

/-! ### A flight from victory -/

namespace Rout

def config : BattleConfig := {}

def database : Database where
  actors := [{ id := 1, name := "A" }]
  enemies := [{ id := 1, name := "E" }]

/-- An event that kills the enemy and has the party flee a frame later. -/
def event : CommonEvent where
  id := 1
  trigger := .parallel
  instructions :=
    [{ opcode := .changeMonsterHp, params := [0, 1, 0, 999, 1] }, { opcode := .wait },
      { opcode := .forceFlee, params := [0, 0, 1] }]

def setup : BattleSetup where
  party := [1]
  troop := { members := [{ enemyId := 1 }] }
  commonEvents := [event]

def scene : Scene InstantAssets := ofSetup config database setup {}

end Rout

theorem absorbing_iff_first_frame :
    create Rout.config Rout.database Rout.setup {} = .ok Rout.scene ∧
      (∀ d ∈ Rout.database.states, d.restriction = .normal) ∧
      ((Rout.scene.after [{}]).Absorbing ↔ Rout.scene.relapsesIn [{}] = []) ∧
      ∀ d ∈ Rout.scene.relapsesIn [{}], d.2 ≠ .selectActor :=
  have hcreated : create Rout.config Rout.database Rout.setup {} = .ok Rout.scene := rfl
  have hfree : ∀ d ∈ Rout.database.states, d.restriction = .normal := by decide
  have h := absorbing_iff hcreated [{}]
  ⟨hcreated, hfree, h.1, h.2.2.2.2 hfree⟩

-- The enemy dies and the battle is won; in the next frame the event goes on, and nothing asks
-- whether there still is anything to flee from.
set_option maxRecDepth 100000 in
theorem not_absorbing_of_rout :
    create Rout.config Rout.database Rout.setup {} = .ok Rout.scene ∧
      ¬(Rout.scene.after [{}, {}]).Absorbing := by
  refine ⟨rfl, ?_⟩
  rw [absorbing_iff_departures]
  decide +kernel

end Scene

end ActiveBattle
