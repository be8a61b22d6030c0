import ActiveBattle.Proofs.Scene.Routing

/-!
# The history of a battle

A run goes from the start of one frame to the next, and within a frame from turn to turn
(`after_history`). What it writes down is minor for the most part: leaving a state in which the
battle was decided is not, and neither is the start of an action.
-/

namespace ActiveBattle

set_option autoImplicit false

namespace SceneEvent

/-- A change away from a state in which the battle was decided. -/
def departure? : SceneEvent → Option (SceneState × SceneState)
  | .stateChanged before after => if before.isDecided then some (before, after) else none
  | _ => none

/-- Whose action starts a pass, and which round of a combo it is. -/
def starter? : SceneEvent → Option (BattlerId × Int)
  | .actionStarted source _ round => some (source, round)
  | _ => none

/-- Whose action is put into the queue. -/
def queued? : SceneEvent → Option BattlerId
  | .actionQueued source _ => some source
  | _ => none

structure Minor (e : SceneEvent) : Prop where
  departure : e.departure? = none
  starter : e.starter? = none

/-- Minor, and not about the queue. -/
structure Plain (e : SceneEvent) : Prop extends Minor e where
  queued : e.queued? = none

theorem Minor.stateChanged {before : SceneState} (h : before.isDecided = false)
    (after : SceneState) :
    (SceneEvent.stateChanged before after).Minor :=
  ⟨by simp [departure?, h], rfl⟩

end SceneEvent

namespace Scene

variable {σ : Type}

/-- What the log tells, without the frames. -/
def events (s : Scene σ) : List SceneEvent := s.log.toList.map (·.event)

def departures (s : Scene σ) : List (SceneState × SceneState) := s.events.filterMap (·.departure?)

/-- Whose actions were put into the queue, one after the other. -/
def queuings (s : Scene σ) : List BattlerId := s.events.filterMap (·.queued?)

theorem events_eq_of_log {s t : Scene σ} (h : t.log = s.log) : t.events = s.events := by
  unfold events
  rw [h]

theorem note_events (s : Scene σ) (e : SceneEvent) : (s.note e).events = s.events ++ [e] := by
  simp [events, note]

theorem launch_events (s : Scene σ) (a : Action) :
    (s.launch a).events = s.events ++ [.actionStarted a.source a.kind s.comboRepeat] :=
  s.note_events _

theorem setState_events (s : Scene σ) (next : SceneState) :
    (s.setState next).events = s.events ++ [.stateChanged s.state next] :=
  s.note_events _

/-- The log has grown by events of a kind. -/
def Logs (P : SceneEvent → Prop) (s t : Scene σ) : Prop :=
  ∃ es, t.events = s.events ++ es ∧ ∀ e ∈ es, P e

namespace Logs

variable {P Q : SceneEvent → Prop} {s t u : Scene σ}

theorem of_log (h : t.log = s.log) : Logs P s t := by
  refine ⟨[], ?_, fun _ he => absurd he List.not_mem_nil⟩
  rw [events_eq_of_log h, List.append_nil]

theorem refl (s : Scene σ) : Logs P s s := of_log rfl

theorem trans (h : Logs P s t) (h' : Logs P t u) : Logs P s u := by
  obtain ⟨es, hes, hkind⟩ := h
  obtain ⟨es', hes', hkind'⟩ := h'
  refine ⟨es ++ es', by rw [hes', hes, List.append_assoc], fun e he => ?_⟩
  exact (List.mem_append.mp he).elim (hkind e) (hkind' e)

theorem of_events {e : SceneEvent} (hkind : P e) (h : t.events = s.events ++ [e]) : Logs P s t :=
  ⟨[e], h, fun _ he => by rwa [List.mem_singleton.mp he]⟩

theorem note (s : Scene σ) {e : SceneEvent} (hkind : P e) : Logs P s (s.note e) :=
  of_events hkind (s.note_events e)

theorem mono (hPQ : ∀ e, P e → Q e) (h : Logs P s t) : Logs Q s t := by
  obtain ⟨es, hes, hkind⟩ := h
  exact ⟨es, hes, fun e he => hPQ e (hkind e he)⟩

theorem queuings_eq (h : Logs (·.queued? = none) s t) : t.queuings = s.queuings := by
  obtain ⟨es, hes, hkind⟩ := h
  unfold queuings
  rw [hes, List.filterMap_append, List.filterMap_eq_nil_iff.mpr hkind, List.append_nil]

end Logs

/-- The log has grown by minor events at most. -/
abbrev Uneventful (s t : Scene σ) : Prop := Logs SceneEvent.Minor s t

theorem Logs.uneventful {s t : Scene σ} (h : Logs SceneEvent.Plain s t) : Uneventful s t :=
  h.mono fun _ he => he.toMinor

theorem Logs.departures_eq {s t : Scene σ} (h : Uneventful s t) : t.departures = s.departures := by
  obtain ⟨es, hes, hminor⟩ := h
  unfold departures
  rw [hes, List.filterMap_append, List.filterMap_eq_nil_iff.mpr fun e he => (hminor e he).departure,
    List.append_nil]

theorem healStates_log (s : Scene σ) (ids : List BattlerId) : (s.healStates ids).log = s.log := by
  induction ids generalizing s with
  | nil => rfl
  | cons id rest ih => exact ih _

theorem schedulePage_logs {P : SceneEvent → Prop}
    (hpage : ∀ page trigger, P (.pageScheduled page trigger)) (s : Scene σ) (trigger : EventTrigger)
    (source : Option BattlerId) :
    Logs P s (s.schedulePage trigger source) := by
  unfold schedulePage
  dsimp only
  split
  · exact .of_events (hpage _ _) (note_events _ _)
  · exact .of_log rfl

theorem nextTurn_logs {P : SceneEvent → Prop} (hturn : ∀ id turn, P (.turnAdvanced id turn))
    (s : Scene σ) (id : BattlerId) : Logs P s (s.nextTurn id) :=
  .of_events (hturn _ _) (note_events _ _)

/-- Effects write down no more than pages and turns. -/
theorem Effect.logs_of {P : SceneEvent → Prop}
    (hpage : ∀ page trigger, P (.pageScheduled page trigger))
    (hturn : ∀ id turn, P (.turnAdvanced id turn)) {s t : Scene σ} (h : Effect s t) :
    Logs P s t := by
  cases h with
  | quiet h => exact .of_log (congrArg Core.log h)
  | hook _ h => exact .of_log (congrArg Core.log h)
  | page trigger source _ => exact schedulePage_logs hpage s trigger source
  | pose _ h => exact .of_log (congrArg Core.log h)
  | wear _ => exact .of_log (s.healStates_log _)
  | ache _ _ h => exact .of_log (congrArg Core.log h)
  | pay _ h => exact .of_log (congrArg Core.log h)
  | strike _ _ _ h => exact .of_log (congrArg Core.log h)
  | turn id => exact nextTurn_logs hturn s id
  | _ => exact .of_log rfl

theorem Effect.logs {s t : Scene σ} (h : Effect s t) : Logs SceneEvent.Plain s t :=
  h.logs_of (fun _ _ => ⟨⟨rfl, rfl⟩, rfl⟩) fun _ _ => ⟨⟨rfl, rfl⟩, rfl⟩

theorem Effects.logs {s t : Scene σ} (h : Effects s t) : Logs SceneEvent.Plain s t := by
  induction h with
  | refl => exact .refl s
  | tail _ hstep ih => exact ih.trans hstep.logs

/-- The background writes down no more than the beginning. -/
theorem Background.logs_of {P : SceneEvent → Prop}
    (hopened : ∀ backdrop, P (.battleStarted backdrop)) {s t : Scene σ} (h : Background s t) :
    Logs P s t := by
  cases h with
  | quiet h => exact .of_log (congrArg Core.log h)
  | opened backdrop => exact .note s (hopened backdrop)
  | script _ h => exact .of_log (congrArg Core.log h)
  | pose _ h => exact .of_log (congrArg Core.log h)
  | _ => exact .of_log rfl

theorem Background.logs {s t : Scene σ} (h : Background s t) : Logs SceneEvent.Plain s t :=
  h.logs_of fun _ => ⟨⟨rfl, rfl⟩, rfl⟩

theorem Backgrounds.logs {s t : Scene σ} (h : Backgrounds s t) : Logs SceneEvent.Plain s t := by
  induction h with
  | refl => exact .refl s
  | tail _ hstep ih => exact ih.trans hstep.logs

theorem setState_uneventful (s : Scene σ) (hopen : s.state.isDecided = false) (next : SceneState) :
    Uneventful s (s.setState next) :=
  .of_events (.stateChanged hopen next) (s.setState_events next)

theorem enlist_uneventful (s : Scene σ) (a : Action) : Uneventful s (s.enlist a) :=
  .of_events ⟨rfl, rfl⟩ (note_events _ _)

/-- An action from a window changes the state; any other is only put down. -/
theorem enqueue_uneventful (s : Scene σ) (a : Action)
    (hopen : s.isFromMenu a = true → s.state.isDecided = false) : Uneventful s (s.enqueue a) := by
  rcases s.enqueue_cases a with ⟨-, h⟩ | ⟨b, -, ⟨hmenu, h⟩ | ⟨-, h⟩⟩
  · rw [h]
    exact .refl s
  · rw [h]
    exact (s.enlist_uneventful a).trans ((s.enlist a).setState_uneventful (hopen hmenu) _)
  · rw [h]
    exact s.enlist_uneventful a

theorem endBattle_logs (s : Scene σ) (result : BattleResult) :
    Logs SceneEvent.Plain s (s.endBattle result) := by
  unfold endBattle
  split
  · exact .refl s
  · exact .of_events ⟨⟨rfl, rfl⟩, rfl⟩ (note_events _ _)

theorem discard_logs_of {P : SceneEvent → Prop} (hturn : ∀ id turn, P (.turnAdvanced id turn))
    (hdiscarded : ∀ id, P (.actionDiscarded id)) (s : Scene σ) (source : BattlerId) :
    Logs P s (s.discard source) := by
  unfold discard
  dsimp only
  split
  · exact (nextTurn_logs hturn s source).trans (.of_events (hdiscarded _) (note_events _ _))
  · exact .of_events (hdiscarded _) (note_events _ _)

theorem discard_logs (s : Scene σ) (source : BattlerId) :
    Logs SceneEvent.Plain s (s.discard source) :=
  discard_logs_of (fun _ _ => ⟨⟨rfl, rfl⟩, rfl⟩) (fun _ => ⟨⟨rfl, rfl⟩, rfl⟩) s source

theorem isDecided_of_isActorMenu {state : SceneState} (h : state.isActorMenu = true) :
    state.isDecided = false := by
  cases state <;> first | rfl | contradiction

theorem Deed.uneventful {s t : Scene σ} (h : Deed s t) (hs : Routed s) : Uneventful s t := by
  cases h with
  | effect h => exact h.logs.uneventful
  | go h => exact s.setState_uneventful (h.isDecided hs).1 _
  | command id _ hstate =>
    have hopen : s.state.isDecided = false := by rcases hstate with h | h <;> rw [h] <;> rfl
    exact .of_events (.stateChanged hopen _) (setState_events _ _)
  | leave hstate =>
    exact .of_events (.stateChanged (isDecided_of_isActorMenu hstate) _) (setState_events _ _)
  | order a _ _ hstate _ => exact s.enqueue_uneventful a fun _ => isDecided_of_isActorMenu hstate
  | discard a rest _ _ _ _ => exact (s.discard_logs a.source).uneventful.trans (.of_log rfl)
  | pass _ _ h => cases h <;> exact .of_log rfl
  | release a _ h =>
    rw [releasePending_eq h]
    exact .of_log rfl
  | _ => exact .of_log rfl

theorem Verdict.uneventful {s t : Scene σ} (h : Verdict s t) : Uneventful s t := by
  cases h with
  | lose hopen _ => exact s.setState_uneventful hopen _
  | win hopen _ _ => exact s.setState_uneventful hopen _

/-- Turns leave no state in which the battle is decided. -/
theorem Outcome.departures_eq {s t : Scene σ} (h : Outcome s t) : t.departures = s.departures := by
  cases h with
  | done => rfl
  | decided h => exact h.uneventful.departures_eq
  | launched a a' _ _ _ _ _ =>
    unfold departures
    rw [launch_events, List.filterMap_append]
    exact List.append_nil _
  | ended _ => exact (s.endBattle_logs _).uneventful.departures_eq

theorem Path.uneventful {s t : Scene σ} {lost : List BattlerId} (h : Path Deed s lost t)
    (hs : Routed s) :
    Uneventful s t ∧ Routed t := by
  induction h with
  | refl => exact ⟨.refl _, hs⟩
  | step _ hstep ih => exact ⟨ih.1.trans (hstep.uneventful ih.2), hstep.routed ih.2⟩
  | take _ htake ih =>
    refine ⟨?_, htake.routed ih.2⟩
    cases htake
    exact ih.1.trans (.of_log rfl)

theorem Turned.departures_eq {s t : Scene σ} {lost : List BattlerId} (h : Turned s lost t)
    (hs : Routed s) :
    t.departures = s.departures := by
  obtain ⟨u, hdeeds, houtcome⟩ := h
  exact houtcome.departures_eq.trans (hdeeds.uneventful hs).1.departures_eq

/-- A scene with the input of its frame. -/
abbrev Moment (σ : Type) : Type := Scene σ × InputState

/-- There is a chain of steps from one scene to the other. -/
def Reaches (s t : Scene σ) : Prop := ∃ lost, Path Step s lost t

namespace Reaches

variable {s t u : Scene σ}

theorem trans (h : Reaches s t) {lost : List BattlerId} (h' : Path Step t lost u) : Reaches s u :=
  h.elim fun _ hpath => ⟨_, hpath.trans h'⟩

end Reaches

variable [AssetLoader σ]

/-- The scenes in which the outer states of a frame take their turns. -/
def turnsFrom (input : InputState) : Nat → Scene σ → List (Moment σ)
  | 0, _ => []
  | left + 1, s =>
    if s.isBlocked then []
    else
      match s.checkWait input with
      | (false, _) => []
      | (true, s) =>
        (s, input) ::
          match s.processState input with
          | (.nextFrame, _) => []
          | (.sameFrame, s) => turnsFrom input left s

def turnsBy (s : Scene σ) (input : InputState) : List (Moment σ) :=
  match s.prelude input with
  | (true, s) => turnsFrom input maxActionsPerFrame s
  | (false, _) => []

/-- The scenes of a run in which an outer state takes its turn. -/
def turnsIn (s : Scene σ) : List InputState → List (Moment σ)
  | [] => []
  | input :: rest => s.turnsBy input ++ (s.update input).turnsIn rest

/-- The scenes of a run in which a frame begins. -/
def framesIn (s : Scene σ) : List InputState → List (Moment σ)
  | [] => []
  | input :: rest => (s, input) :: (s.update input).framesIn rest

section Induction

variable {P : List (Moment σ) → List (Moment σ) → Scene σ → Prop}

theorem dispatchFrom_history (input : InputState)
    (hwait : ∀ frames turns s, P frames turns s → P frames turns (s.checkWait input).2)
    (hturn : ∀ frames turns s, P frames turns s → s.result = none →
      P frames (turns ++ [(s, input)]) (s.processState input).2)
    (left : Nat) {frames turns : List (Moment σ)} {s : Scene σ} (h : P frames turns s) :
    P frames (turns ++ turnsFrom input left s) (dispatchFrom input left s) := by
  induction left generalizing turns s with
  | zero => simpa [turnsFrom, dispatchFrom] using h
  | succ left ih =>
    unfold turnsFrom dispatchFrom
    split
    · simpa using h
    · rename_i hblocked
      have hwaited := hwait frames turns s h
      have hopen := (s.checkWait_effects input).result_eq.trans (result_of_isBlocked hblocked)
      generalize s.checkWait input = waited at hwaited hopen ⊢
      obtain ⟨_ | _, t⟩ := waited
      · simpa using hwaited
      · have hturned := hturn frames turns t hwaited hopen
        dsimp only
        generalize t.processState input = processed at hturned ⊢
        obtain ⟨_ | _, u⟩ := processed
        · simpa using ih hturned
        · exact hturned

theorem update_history (input : InputState)
    (hprelude : ∀ frames turns s, P frames turns s →
      P (frames ++ [(s, input)]) turns (s.prelude input).2)
    (hwait : ∀ frames turns s, P frames turns s → P frames turns (s.checkWait input).2)
    (hturn : ∀ frames turns s, P frames turns s → s.result = none →
      P frames (turns ++ [(s, input)]) (s.processState input).2)
    {frames turns : List (Moment σ)} {s : Scene σ} (h : P frames turns s) :
    P (frames ++ [(s, input)]) (turns ++ s.turnsBy input) (s.update input) := by
  have hbegun := hprelude frames turns s h
  rw [update_eq]
  unfold turnsBy
  generalize s.prelude input = begun at hbegun ⊢
  obtain ⟨_ | _, t⟩ := begun
  · simpa using hbegun
  · exact dispatchFrom_history input hwait hturn maxActionsPerFrame hbegun

/-- What the frames, the waits and the turns of a run keep up, told along with them. -/
theorem after_history
    (hprelude : ∀ input frames turns s, P frames turns s →
      P (frames ++ [(s, input)]) turns (s.prelude input).2)
    (hwait : ∀ input frames turns s, P frames turns s → P frames turns (s.checkWait input).2)
    (hturn : ∀ input frames turns s, P frames turns s → s.result = none →
      P frames (turns ++ [(s, input)]) (s.processState input).2)
    {s : Scene σ} (h : P [] [] s) (inputs : List InputState) :
    P (s.framesIn inputs) (s.turnsIn inputs) (s.after inputs) := by
  have run (inputs : List InputState) :
      ∀ {frames turns : List (Moment σ)} {s : Scene σ}, P frames turns s →
      P (frames ++ s.framesIn inputs) (turns ++ s.turnsIn inputs) (s.after inputs) := by
    induction inputs with
    | nil =>
      intro frames turns s h
      simpa [framesIn, turnsIn, after] using h
    | cons input rest ih =>
      intro frames turns s h
      have hupdated := update_history input (hprelude input) (hwait input) (hturn input) h
      simpa [framesIn, turnsIn, after] using ih hupdated
  exact run inputs h

end Induction

/-- Frames begin, and outer states take their turns, in scenes that steps reach. -/
theorem reaches_history (s : Scene σ) (inputs : List InputState) :
    (∀ m ∈ s.framesIn inputs, Reaches s m.1) ∧
      (∀ m ∈ s.turnsIn inputs, Reaches s m.1 ∧ m.1.result = none) ∧ Reaches s (s.after inputs) := by
  have added {Q : Moment σ → Prop} {l : List (Moment σ)} {m : Moment σ} (hl : ∀ m ∈ l,
    Q m) (hm : Q m) :
      ∀ m' ∈ l ++ [m], Q m' := by
    intro m' hm'
    rcases List.mem_append.mp hm' with hm' | hm'
    · exact hl m' hm'
    · rwa [List.mem_singleton.mp hm']
  refine after_history (P := fun frames turns t => (∀ m ∈ frames, Reaches s m.1) ∧
    (∀ m ∈ turns, Reaches s m.1 ∧ m.1.result = none) ∧ Reaches s t) ?_ ?_ ?_ ?_ inputs
  · rintro input frames turns t ⟨hframes, hturns, ht⟩
    exact ⟨added hframes ht, hturns, ht.trans (t.prelude_interludes input).path⟩
  · rintro input frames turns t ⟨hframes, hturns, ht⟩
    exact ⟨hframes, hturns, ht.trans ((t.checkWait_effects input).deeds.path.mono fun _ _ => .deed)⟩
  · rintro input frames turns t ⟨hframes, hturns, ht⟩ hopen
    exact ⟨hframes, added hturns ⟨ht, hopen⟩, ht.trans (t.processState_turned input hopen).path⟩
  · exact ⟨fun _ h => absurd h List.not_mem_nil, fun _ h => absurd h List.not_mem_nil, [], .refl s⟩

end Scene

end ActiveBattle
