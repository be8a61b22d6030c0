import ActiveBattle.Proofs.Action.Source
import ActiveBattle.Proofs.Script.Repertoire
import ActiveBattle.Scene.Frame

/-!
# The steps of a battle

A frame of the scene is a chain of small steps. The outer states do `Deed`s, of which an `Effect`
leaves the course of the battle alone, and end each of their turns in an `Outcome`. Around them
scripts run, gauges fill and things move: that is `Background`. It makes an `Interlude` together
with the few ways in which a frame changes the course from outside: a flight that a script forces,
an action that is chosen for a battler, the end. A `Step` is any of these. `Take` is the one step
that fills the place of the pending action, and a `Path` notes whose pending action each of them
found there.
-/

namespace ActiveBattle

set_option autoImplicit false

/-- The rosters differ only in battlers, which `R` relates. -/
structure Roster.Differs (R : Battler → Battler → Prop) (r r' : Roster) : Prop where
  battlers : r.Pointwise R r'
  rest : r' = { r with actors := r'.actors, enemies := r'.enemies }

namespace Roster.Differs

variable {R : Battler → Battler → Prop} {r r' r'' : Roster}

theorem refl (hR : ∀ b, R b b) (r : Roster) : Differs R r r := ⟨.refl hR r, rfl⟩

theorem trans (hR : ∀ a b c, R a b → R b c → R a c) (h : Differs R r r') (h' : Differs R r' r'') :
    Differs R r r'' := by
  refine ⟨h.battlers.trans hR h'.battlers, ?_⟩
  rw [h'.rest, h.rest]

theorem modify (hrefl : ∀ b, R b b) (r : Roster) (id : BattlerId) (f : Battler → Battler)
    (h : ∀ b, r.battler? id = some b → R b (f b)) : Differs R r (r.modify id f) := by
  refine ⟨.modify hrefl r id f h, ?_⟩
  cases id <;> rfl

theorem modifyActor (hrefl : ∀ b, R b b) (r : Roster) (id : Int) (f : Battler → Battler)
    (h : ∀ b, r.actor? id = some b → R b (f b)) : Differs R r (r.modifyActor id f) :=
  ⟨.modifyActor hrefl r id f h, rfl⟩

theorem foldl {α : Type} (hrefl : ∀ b, R b b) (htrans : ∀ a b c, R a b → R b c → R a c)
    (f : Roster → α → Roster) (hf : ∀ r a, Differs R r (f r a)) (l : List α) (r : Roster) :
    Differs R r (l.foldl f r) := by
  apply List.foldlRecOn (motive := Differs R r)
  · exact refl hrefl r
  · intro r' h a _
    exact h.trans htrans (hf r' a)

end Roster.Differs

/-- The battle is won or lost. -/
def SceneState.isDecided : SceneState → Bool
  | victory | defeat => true
  | _ => false

namespace Scene

variable {σ : Type}

/-- What decides which step comes next, and who has an action under way. -/
structure Course where
  config : BattleConfig
  store : ProgramStore
  database : Database
  state : SceneState
  previousState : SceneState
  substate : Nat
  actionState : ActionState
  comboRepeat : Int
  queue : List Action
  pending : Option Action
  activeActor : Option Int
  result : Option BattleResult

/-- The course together with everything else the rules of a battle read. -/
structure Core extends Course where
  pendingAsset : Option PendingAsset
  started : Bool
  resumeFromDebug : Bool
  timers : Timers
  roster : Roster
  director : Director
  runners : List EventRunner
  firstStrike : Bool
  slots : List Point
  log : Array LogEntry

def pendingSource (s : Scene σ) : Option BattlerId := s.pending.map (·.source)

def course (s : Scene σ) : Course where
  config := s.config
  store := s.store
  database := s.database
  state := s.state
  previousState := s.previousState
  substate := s.substate
  actionState := s.actionState
  comboRepeat := s.comboRepeat
  queue := s.queue
  pending := s.pending
  activeActor := s.activeActor
  result := s.result

def core (s : Scene σ) : Core where
  toCourse := s.course
  pendingAsset := s.pendingAsset
  started := s.started
  resumeFromDebug := s.resumeFromDebug
  timers := s.game.timers
  roster := s.roster
  director := s.director
  runners := s.runners
  firstStrike := s.firstStrike
  slots := s.slots
  log := s.log

/-- Everyone has been placed for the battle, for which the backdrop had to be there. -/
def isPlaced (s : Scene σ) : Bool :=
  s.started && !s.pendingAsset.any (·.continuation = .finishStart)

/-- Schedules a troop page and notes it. -/
def schedulePage (s : Scene σ) (trigger : EventTrigger) (source : Option BattlerId) : Scene σ :=
  let (page, director) := s.director.schedule s.store s.game trigger.flags source
  let s := { s with director := director }
  if page > 0 then s.note (.pageScheduled page trigger) else s

/-- The programs under way on the interpreters of a scene are of a repertoire. -/
structure Within (P : Repertoire) (s : Scene σ) : Prop where
  events : s.store.EventsWithin P.event
  pages : s.store.PagesWithin P.any
  director : s.director.Within P
  runners : ∀ r ∈ s.runners, r.Within P.event

/-- Scripts ran, within what scripts can do and within the repertoire of their programs. The ledger
of pages is not theirs. -/
structure Ran (s t : Scene σ) : Prop where
  game : GameState.Scripted s.game t.game
  kept : BattleScript.Kept s.director.script t.director.script
  ledger : t.director.executed = s.director.executed
  runners : List.Forall₂ EventRunner.Kept s.runners t.runners
  within : ∀ P : Repertoire, s.Within P → t.Within P ∧
    BattleScript.Bound P s.game s.director.script t.game t.director.script

namespace Ran

/-- Scripts ran other than those of the parallel events. -/
theorem of_runners_eq {s t : Scene σ} (hgame : GameState.Scripted s.game t.game)
    (hkept : BattleScript.Kept s.director.script t.director.script)
    (hledger : t.director.executed = s.director.executed) (hrunners : t.runners = s.runners)
    (hwithin : ∀ P : Repertoire, s.Within P → t.Within P ∧
      BattleScript.Bound P s.game s.director.script t.game t.director.script) : Ran s t := by
  refine ⟨hgame, hkept, hledger, ?_, hwithin⟩
  rw [hrunners]
  exact List.forall₂_same.mpr fun r _ => .refl r

theorem refl (s : Scene σ) : Ran s s :=
  .of_runners_eq (.refl _) (.refl _) rfl rfl fun _ hs => ⟨hs, .refl hs.director.script⟩

end Ran

/-- What the outer states do while the course of the battle stands still. -/
inductive Effect (s : Scene σ) : Scene σ → Prop
  /-- Only what is shown, played, polled or counted changes. -/
  | quiet {t : Scene σ} (h : t.core = s.core) : Effect s t
  /-- A hook is called. -/
  | hook {t : Scene σ} (hran : Ran s t)
      (h : t.core = { s.core with
        database := t.database
        timers := t.game.timers
        roster := t.roster
        director := { s.director with script := t.director.script } }) : Effect s t
  | page (trigger : EventTrigger) (source : Option BattlerId) (h : s.director.isRunning = false) :
      Effect s (s.schedulePage trigger source)
  | pose {t : Scene σ} (hroster : s.roster.Differs Battler.Posed t.roster)
      (h : t.core = { s.core with roster := t.roster }) : Effect s t
  /-- States wear off when an action begins, and take their toll. -/
  | wear (hstate : s.state = .battle) : Effect s (s.healStates s.roster.presentIds)
  | ache {t : Scene σ} (hstate : s.state = .battle)
    (hroster : s.roster.Differs Battler.HurtByStates t.roster)
      (h : t.core = { s.core with roster := t.roster }) : Effect s t
  | pay {t : Scene σ} (hroster : s.roster.Differs Battler.Paid t.roster)
      (h : t.core = { s.core with roster := t.roster }) : Effect s t
  | strike {t : Scene σ} (hstate : s.state = .battle) (hstage : s.actionState = .apply)
      (hroster : s.roster.Differs (Battler.Struck s.database) t.roster)
      (h : t.core = { s.core with roster := t.roster }) : Effect s t
  | consume (item : Int) : Effect s (s.modifyRoster (·.addItem item (-1)))
  | reward (hstate : s.state = .victory) (hsub : s.substate = 1) : Effect s s.grantRewards
  | turn (id : BattlerId) : Effect s (s.nextTurn id)
  | announce (a : Action) (h : s.pending = some a) : Effect s (s.announceActor a)
  | swapRow (actor : Int) (index : Nat) (a : Battler) (ha : s.roster.actor? actor = some a)
      (hfront : ¬(a.row = .front ∧ (s.roster.partyMembers.filter (·.row = .front)).length < 2)) :
      Effect s (s.modifyRoster (·.modifyActor actor fun a =>
        { a with
          row := a.row.swapped
          position := Formation.actorPosition index a.row.swapped s.condition }))
  | forget (actor : Int) :
      Effect s (s.modifyRoster (·.modifyActor actor ({ · with lastBattleAction := -1 })))
  /-- An actor that has the party flee gives its turn for it. -/
  | spend (actor : Int) (hstate : s.state = .escape) :
      Effect s (s.modifyRoster (·.modifyActor actor ({ · with gauge := 0 })))

/-- What happens around the outer states. -/
inductive Background (s : Scene σ) : Scene σ → Prop
  /-- Only what is shown changes, and what the next frame waits for. -/
  | quiet {t : Scene σ}
      (h : t.core = { s.core with
        pendingAsset := t.pendingAsset
        started := t.started
        resumeFromDebug := t.resumeFromDebug })
      (hplaced : s.isPlaced = true → t.isPlaced = true) : Background s t
  | opened (backdrop : String) : Background s (s.note (.battleStarted backdrop))
  | script {t : Scene σ} (hran : Ran s t)
      (h : t.core = { s.core with
        database := t.database
        timers := t.game.timers
        roster := t.roster
        director := t.director
        runners := t.runners }) : Background s t
  | pose {t : Scene σ} (hroster : s.roster.Differs Battler.Posed t.roster)
      (h : t.core = { s.core with roster := t.roster }) : Background s t
  | placed (hplaced : s.isPlaced = false) : Background s s.finishStart
  | fill : Background s (s.modifyRoster fun r =>
      (r.updateGauges s.database s.config.maxAtbGauge s.config.atbFillFrames).2)
  | tick : Background s s.updateTimers.2

/-- The states an outer state can go to. -/
inductive Leads (s : Scene σ) : SceneState → Prop
  | opened (h : s.state = .start) : Leads s .selectOption
  | fight (h : s.state = .selectOption) : Leads s .selectActor
  | auto (h : s.state = .selectOption) : Leads s .autoBattle
  | options (h : s.state = .selectActor ∨ s.state = .autoBattle) : Leads s .selectOption
  | battle (h : s.state = .selectActor ∨ s.state = .autoBattle ∨
        s.state = .selectCommand ∧ s.config.atbMode = .active)
          (hqueue : s.queue ≠ []) : Leads s .battle
  | window {next : SceneState} (h : s.state.isActorMenu = true) (hnext : next.isActorMenu = true)
      (htarget : next = .selectEnemyTarget ∨ next = .selectAllyTarget → s.state = .selectCommand ∨
        s.state = .selectItem ∨ s.state = .selectSkill) : Leads s next
  | cancel (h : s.state = .selectEnemyTarget ∨ s.state = .selectAllyTarget) : Leads s
    s.previousState
  | noActor (h : s.state.isActorMenu = true) (hactor : s.activeActor = none) : Leads s .selectActor
  | escape (h : s.state = .selectOption ∨ s.state = .selectCommand)
    (hallowed : s.config.escapeAllowed = true) :
      Leads s .escape
  | failed (h : s.state = .escape) (hsub : s.substate = 1) : Leads s .selectActor
  | resume (h : s.state = .battle) (hsub : s.substate = afterBattle) : Leads s s.stateAfterBattle

/-- The steps a state can go to within itself. -/
inductive Advances (s : Scene σ) : Nat → Prop
  | opening (n : Nat) (h : s.state = .start) : Advances s n
  | window (n : Nat) (h : s.state = .selectOption ∨ s.state = .selectActor ∨ s.state = .autoBattle ∨
      s.state.isActorMenu = true) : Advances s n
  | ending (n : Nat) (h : s.state = .victory ∨ s.state = .defeat) : Advances s n
  | prepared (h : s.state = .battle) (hsub : s.substate = preEvents) : Advances s battleAction
  | resolved (h : s.state = .battle) (hsub : s.substate = battleAction) : Advances s postEvents
  | released (h : s.state = .battle) (hpending : s.pending = none) : Advances s preAction
  | exhausted (h : s.state = .battle) (hsub : s.substate ≤ 1) (hqueue : s.queue = []) :
      Advances s afterBattle
  | caught (h : s.state = .escape) (hsub : s.substate = 0)
      (hforced : s.director.script.forceFlee = false) : Advances s 1

/-- What the pending action goes through between its beginning and its end. -/
inductive Passes (s : Scene σ) : Scene σ → Prop
  | begun (h : s.actionState = .begin) : Passes s (s.setActionState .startAlgo)
  | shown {next : ActionState} (h : s.actionState = .animation ∨ s.actionState = .animationReflect)
      (hnext : next = .animationReflect ∨ next = .apply) : Passes s (s.setActionState next)
  /-- The targets are gone through once more. -/
  | again (a : Action) (hpending : s.pending = some a) (h : s.actionState = .apply)
      (hleft : a.repeatsDone + 1 < a.repeats) : Passes s (s.setActionState .startAlgo)
  | combo (a : Action) (hpending : s.pending = some a) (h : s.actionState = .apply)
      (hcombo : s.comboGoesOn a.source = true) :
      Passes s ({ s with comboRepeat := s.comboRepeat + 1 }.setActionState .startAlgo)
  | passed (h : s.actionState = .apply) : Passes s (s.setActionState .finished)
  | finished (h : s.actionState = .finished) : Passes s { s with comboRepeat := 1 }

/-- One step of the outer states that takes no action from the queue. -/
inductive Deed (s : Scene σ) : Scene σ → Prop
  | effect {t : Scene σ} (h : Effect s t) : Deed s t
  | go {next : SceneState} (h : Leads s next) : Deed s (s.setState next)
  | advance {n : Nat} (h : Advances s n) : Deed s (s.setSubstate n)
  | command (id : Int) (hid : s.isReady id = true)
      (hstate : s.state = .selectActor ∨ s.state = .autoBattle) : Deed s (s.openCommands id)
  | leave (hstate : s.state.isActorMenu = true) :
      Deed s ({ s with activeActor := none }.setState .selectActor)
  /-- The player has put the action together in the windows of an actor. -/
  | order (a : Action) (actor : Int) (hactor : s.activeActor = some actor)
      (hstate : s.state.isActorMenu = true) (hfresh : a.Fresh (.actor actor)) : Deed s (s.enqueue a)
  | discard (a : Action) (rest : List Action) (hstate : s.state = .battle) (hsub : s.substate ≤ 1)
      (hqueue : s.queue = a :: rest) (hgone : s.canStillAct a.source = false) :
      Deed s { s.discard a.source with queue := rest }
  | pass {t : Scene σ} (hstate : s.state = .battle) (hsub : s.substate = battleAction)
    (h : Passes s t) :
      Deed s t
  | rework (a a' : Action) (h : s.pending = some a) (hcontinues : a.Continues a') :
      Deed s { s with pending := some a' }
  | away (hstate : s.state = .escape) (hsub : s.substate = 0) :
      Deed s ((s.modifyDirector (·.resetForceFlee)).setSubstate 2)
  | release (a : Action) (hstate : s.state = .battle) (h : s.pending = some a) : Deed s
    s.releasePending

/-- A deed that stays within its outer state. -/
structure Chore (s t : Scene σ) : Prop where
  deed : Deed s t
  state : t.state = s.state
  previousState : t.previousState = s.previousState

/-- The battle is decided. -/
inductive Verdict (s : Scene σ) : Scene σ → Prop
  | lose (hopen : s.state.isDecided = false) (h : s.roster.isPartyDefeated = true) :
      Verdict s (s.setState .defeat)
  | win (hopen : s.state.isDecided = false) (hparty : s.roster.isPartyDefeated = false)
      (h : s.roster.areEnemiesDefeated = true) : Verdict s (s.setState .victory)

/-- The end that belongs to a state. -/
inductive Ends (s : Scene σ) : BattleResult → Prop
  | victory (h : s.state = .victory) (hsub : 2 ≤ s.substate) : Ends s .victory
  | defeat (h : s.state = .defeat) : Ends s .defeat
  | escape (h : s.state = .escape) : Ends s .escape

/-- A pass of the action starts, as the log tells. -/
def launch (s : Scene σ) (a : Action) : Scene σ :=
  { (s.note (.actionStarted a.source a.kind s.comboRepeat)).setActionState .animation with
    pending := some a }

/-- How an outer state can end its turn, after its deeds. -/
inductive Outcome (s : Scene σ) : Scene σ → Prop
  | done : Outcome s s
  | decided {t : Scene σ} (h : Verdict s t) : Outcome s t
  /-- The pending action starts a pass. -/
  | launched (a a' : Action) (hstate : s.state = .battle) (hsub : s.substate = battleAction)
      (hstage : s.actionState = .startAlgo) (hpending : s.pending = some a)
        (hsame : a.SamePass a') :
      Outcome s (s.launch a')
  | ended {result : BattleResult} (h : Ends s result) : Outcome s (s.endBattle result)

/-- A countdown or the main script ends the battle. -/
def Halts (s : Scene σ) (result : BattleResult) : Prop :=
  result = .abort ∨ s.director.interp.asyncOp = .terminateBattle result

/-- What happens between the turns of the outer states: background, and the ways to change the
course from outside. -/
inductive Interlude (s : Scene σ) : Scene σ → Prop
  | background {t : Scene σ} (h : Background s t) : Interlude s t
  /-- A flight that a script forces takes over at once. -/
  | flee (h : s.director.script.forceFlee = true) (hstate : s.state ≠ .escape) :
      Interlude s (s.setState .escape)
  | decided {t : Scene σ} (h : Verdict s t) : Interlude s t
  /-- A battle that was won is lost. -/
  | overturn (hstate : s.state = .victory) (h : s.roster.isPartyDefeated = true) :
      Interlude s (s.setState .defeat)
  /-- A battler that is left to itself, or made to, acts on its own. -/
  | choose (a : Action) (hready : s.isIdleAndFull a.source = true)
      (hleft : a.source.isAlly = true →
        s.isControllable a.source = false ∨ s.state = .autoBattle ∨ s.state = .selectActor)
      (hfresh : a.Fresh a.source) : Interlude s (s.enqueue a)
  | finish (result : BattleResult) (h : s.Halts result) : Interlude s (s.endBattle result)

/-- One step of a battle that takes no action from the queue. -/
inductive Step (s : Scene σ) : Scene σ → Prop
  | deed {t : Scene σ} (h : Deed s t) : Step s t
  | close {t : Scene σ} (h : Outcome s t) : Step s t
  | interlude {t : Scene σ} (h : Interlude s t) : Step s t

/-- The next action is taken from the queue. -/
inductive Take (s : Scene σ) : Scene σ → Prop
  | mk (a a' : Action) (rest : List Action) (hstate : s.state = .battle) (hsub : s.substate ≤ 1)
      (hqueue : s.queue = a :: rest) (hact : s.canStillAct a.source = true)
      (hsame : a' = a ∨ a'.Fresh a.source) :
      Take s ({ s with queue := rest, pending := some a', actionState := .begin }.setSubstate
        preEvents)

/-- A chain of steps of a kind, with the battlers whose pending actions were still there when others
were taken. -/
inductive Path (R : Scene σ → Scene σ → Prop) : Scene σ → List BattlerId → Scene σ → Prop
  | refl (s : Scene σ) : Path R s [] s
  | step {s t u : Scene σ} {lost : List BattlerId} (h : Path R s lost t)
    (hstep : R t u) : Path R s lost u
  | take {s t u : Scene σ} {lost : List BattlerId} (h : Path R s lost t) (htake : Take t u) :
      Path R s (lost ++ t.pendingSource.toList) u

theorem healStates_course (s : Scene σ) (ids : List BattlerId) :
    (s.healStates ids).course = s.course := by
  induction ids generalizing s with
  | nil => rfl
  | cons id rest ih => exact ih _

theorem Effect.course_eq {s t : Scene σ} (h : Effect s t) : t.course = s.course := by
  cases h with
  | quiet h => exact congrArg Core.toCourse h
  | hook hran h =>
    have hcourse : t.course = { s.course with database := t.database } := congrArg Core.toCourse h
    rw [hcourse, show t.database = s.database from hran.game.database]
    rfl
  | page trigger source _ =>
    unfold schedulePage
    dsimp only
    split <;> rfl
  | pose _ h => exact congrArg Core.toCourse h
  | wear _ => exact healStates_course s _
  | ache _ _ h => exact congrArg Core.toCourse h
  | pay _ h => exact congrArg Core.toCourse h
  | strike _ _ _ h => exact congrArg Core.toCourse h
  | _ => rfl

theorem Background.course_eq {s t : Scene σ} (h : Background s t) : t.course = s.course := by
  cases h with
  | quiet h => exact congrArg Core.toCourse h
  | script hran h =>
    have hcourse : t.course = { s.course with database := t.database } := congrArg Core.toCourse h
    rw [hcourse, show t.database = s.database from hran.game.database]
    rfl
  | pose _ h => exact congrArg Core.toCourse h
  | _ => rfl

def Effects : Scene σ → Scene σ → Prop := Relation.ReflTransGen Effect

def Deeds : Scene σ → Scene σ → Prop := Relation.ReflTransGen Deed

def Chores : Scene σ → Scene σ → Prop := Relation.ReflTransGen Chore

/-- A deed at most, which may lead out of the state, and effects where it leads unless that is the
battle. -/
inductive Parting (s : Scene σ) : Scene σ → Prop
  | stay : Parting s s
  | go {t : Scene σ} (h : Deed s t) : Parting s t
  | land {t u : Scene σ} (h : Deed s t) (hstate : t.state ≠ .battle)
    (h' : Effects t u) : Parting s u

/-- Chores, and then perhaps a parting. -/
def Moves (s t : Scene σ) : Prop := ∃ u, Chores s u ∧ Parting u t

/-- A turn of the outer states: deeds, at most one action taken among them, and an outcome. -/
def Turned (s : Scene σ) (lost : List BattlerId) (t : Scene σ) : Prop :=
  ∃ u, Path Deed s lost u ∧ Outcome u t

/-- A turn that keeps to one outer state until it is left. -/
def Orderly (s : Scene σ) (lost : List BattlerId) (t : Scene σ) : Prop :=
  ∃ u v, Path Chore s lost u ∧ Parting u v ∧ Outcome v t

namespace Effects

theorem refl (s : Scene σ) : Effects s s := Relation.ReflTransGen.refl

theorem single {s t : Scene σ} (h : Effect s t) : Effects s t := Relation.ReflTransGen.single h

theorem quiet {s t : Scene σ} (h : t.core = s.core) : Effects s t := single (.quiet h)

theorem trans {s t u : Scene σ} (h : Effects s t) (h' : Effects t u) : Effects s u :=
  Relation.ReflTransGen.trans h h'

theorem deeds {s t : Scene σ} (h : Effects s t) : Deeds s t := h.lift id fun _ _ => .effect

theorem course_eq {s t : Scene σ} (h : Effects s t) : t.course = s.course := by
  induction h with
  | refl => rfl
  | tail _ hstep ih => exact hstep.course_eq.trans ih

theorem state_eq {s t : Scene σ} (h : Effects s t) : t.state = s.state :=
  congrArg Course.state h.course_eq

theorem substate_eq {s t : Scene σ} (h : Effects s t) : t.substate = s.substate :=
  congrArg Course.substate h.course_eq

theorem actionState_eq {s t : Scene σ} (h : Effects s t) : t.actionState = s.actionState :=
  congrArg Course.actionState h.course_eq

theorem pending_eq {s t : Scene σ} (h : Effects s t) : t.pending = s.pending :=
  congrArg Course.pending h.course_eq

theorem result_eq {s t : Scene σ} (h : Effects s t) : t.result = s.result :=
  congrArg Course.result h.course_eq

/-- Effects one after the other, each of which may rely on the course. -/
theorem foldl_of_course {α : Type} (f : Scene σ → α → Scene σ) (l : List α) (s : Scene σ)
    (hf : ∀ t a, t.course = s.course → Effects t (f t a)) : Effects s (l.foldl f s) := by
  apply List.foldlRecOn (motive := Effects s)
  · exact refl s
  · intro t h a _
    exact h.trans (hf t a h.course_eq)

theorem foldl {α : Type} (f : Scene σ → α → Scene σ) (hf : ∀ s a, Effects s (f s a)) (l : List α)
    (s : Scene σ) : Effects s (l.foldl f s) :=
  foldl_of_course f l s fun t a _ => hf t a

end Effects

theorem Effect.chore {s t : Scene σ} (h : Effect s t) : Chore s t :=
  ⟨.effect h, congrArg Course.state h.course_eq, congrArg Course.previousState h.course_eq⟩

namespace Chores

variable {s t u : Scene σ}

theorem refl (s : Scene σ) : Chores s s := Relation.ReflTransGen.refl

theorem single (h : Deed s t) (hstate : t.state = s.state)
    (hprevious : t.previousState = s.previousState) :
    Chores s t :=
  Relation.ReflTransGen.single ⟨h, hstate, hprevious⟩

theorem trans (h : Chores s t) (h' : Chores t u) : Chores s u := Relation.ReflTransGen.trans h h'

theorem advance {n : Nat} (h : Advances s n) : Chores s (s.setSubstate n) :=
  single (.advance h) rfl rfl

/-- Chores take no action. -/
theorem path (h : Chores s t) : Path Chore s [] t := by
  induction h with
  | refl => exact .refl s
  | tail _ hstep ih => exact .step ih hstep

end Chores

theorem Effects.chores {s t : Scene σ} (h : Effects s t) : Chores s t :=
  h.lift id fun _ _ => Effect.chore

theorem Chores.quiet {s t : Scene σ} (h : t.core = s.core) : Chores s t := (Effects.quiet h).chores

namespace Deeds

theorem refl (s : Scene σ) : Deeds s s := Relation.ReflTransGen.refl

theorem single {s t : Scene σ} (h : Deed s t) : Deeds s t := Relation.ReflTransGen.single h

theorem trans {s t u : Scene σ} (h : Deeds s t) (h' : Deeds t u) : Deeds s u :=
  Relation.ReflTransGen.trans h h'

/-- Deeds take no action. -/
theorem path {s t : Scene σ} (h : Deeds s t) : Path Deed s [] t := by
  induction h with
  | refl => exact .refl s
  | tail _ hstep ih => exact .step ih hstep

end Deeds

/-- What happens between two turns, one thing after the other. -/
def Interludes : Scene σ → Scene σ → Prop := Relation.ReflTransGen Interlude

namespace Interludes

theorem refl (s : Scene σ) : Interludes s s := Relation.ReflTransGen.refl

theorem single {s t : Scene σ} (h : Interlude s t) : Interludes s t :=
  Relation.ReflTransGen.single h

theorem trans {s t u : Scene σ} (h : Interludes s t) (h' : Interludes t u) : Interludes s u :=
  Relation.ReflTransGen.trans h h'

theorem path {s t : Scene σ} (h : Interludes s t) : Path Step s [] t := by
  induction h with
  | refl => exact .refl s
  | tail _ hstep ih => exact .step ih (.interlude hstep)

end Interludes

/-- What happens around the outer states, one thing after the other. -/
def Backgrounds : Scene σ → Scene σ → Prop := Relation.ReflTransGen Background

namespace Backgrounds

theorem refl (s : Scene σ) : Backgrounds s s := Relation.ReflTransGen.refl

theorem single {s t : Scene σ} (h : Background s t) : Backgrounds s t :=
  Relation.ReflTransGen.single h

/-- The next frame waits for something else. -/
theorem await {s t : Scene σ}
    (h : t.core = { s.core with
      pendingAsset := t.pendingAsset
      started := t.started
      resumeFromDebug := t.resumeFromDebug })
    (hplaced : s.isPlaced = true → t.isPlaced = true) : Backgrounds s t :=
  single (.quiet h hplaced)

theorem quiet {s t : Scene σ} (h : t.core = { s.core with resumeFromDebug := t.resumeFromDebug }) :
    Backgrounds s t := by
  have hasset : t.pendingAsset = s.pendingAsset := congrArg Core.pendingAsset h
  have hstarted : t.started = s.started := congrArg Core.started h
  refine await ?_ fun hplaced => ?_
  · rw [hasset, hstarted]
    exact h
  · rwa [isPlaced, hasset, hstarted]

theorem trans {s t u : Scene σ} (h : Backgrounds s t) (h' : Backgrounds t u) : Backgrounds s u :=
  Relation.ReflTransGen.trans h h'

theorem interludes {s t : Scene σ} (h : Backgrounds s t) : Interludes s t :=
  h.lift id fun _ _ => .background

theorem course_eq {s t : Scene σ} (h : Backgrounds s t) : t.course = s.course := by
  induction h with
  | refl => rfl
  | tail _ hstep ih => exact hstep.course_eq.trans ih

theorem foldl {α : Type} (f : Scene σ → α → Scene σ) (hf : ∀ s a, Backgrounds s (f s a))
    (l : List α) (s : Scene σ) : Backgrounds s (l.foldl f s) := by
  apply List.foldlRecOn (motive := Backgrounds s)
  · exact refl s
  · intro t h a _
    exact h.trans (hf t a)

end Backgrounds

namespace Path

variable {R S : Scene σ → Scene σ → Prop} {s t u : Scene σ} {lost lost' : List BattlerId}

theorem trans (h : Path R s lost t) (h' : Path R t lost' u) : Path R s (lost ++ lost') u := by
  induction h' with
  | refl => simpa using h
  | step _ hstep ih => exact .step ih hstep
  | take _ htake ih => simpa using Path.take ih htake

theorem mono (hRS : ∀ a b, R a b → S a b) (h : Path R s lost t) : Path S s lost t := by
  induction h with
  | refl => exact .refl _
  | step _ hstep ih => exact .step ih (hRS _ _ hstep)
  | take _ htake ih => exact .take ih htake

theorem append_deeds (h : Path Deed s lost t) (h' : Deeds t u) : Path Deed s lost u := by
  simpa using h.trans h'.path

theorem append_chores (h : Path Chore s lost t) (h' : Chores t u) : Path Chore s lost u := by
  simpa using h.trans h'.path

end Path

theorem Parting.deeds {s t : Scene σ} (h : Parting s t) : Deeds s t := by
  cases h with
  | stay => exact .refl s
  | go h => exact .single h
  | land h _ h' => exact (Deeds.single h).trans h'.deeds

namespace Moves

variable {s t u : Scene σ}

theorem of_chores (h : Chores s t) : Moves s t := ⟨t, h, .stay⟩

theorem after (h : Chores s t) (h' : Deed t u) : Moves s u := ⟨t, h, .go h'⟩

theorem single (h : Deed s t) : Moves s t := after (.refl s) h

theorem trans_chores (h : Chores s t) (h' : Moves t u) : Moves s u := by
  obtain ⟨v, hv, hparting⟩ := h'
  exact ⟨v, h.trans hv, hparting⟩

end Moves

namespace Orderly

variable {s t u : Scene σ} {lost lost' : List BattlerId}

theorem of_moves (h : Moves s t) : Orderly s [] t := by
  obtain ⟨u, hu, hparting⟩ := h
  exact ⟨u, t, hu.path, hparting, .done⟩

theorem of_chores (h : Chores s t) : Orderly s [] t := of_moves (.of_chores h)

theorem outcome (h : Chores s t) (h' : Outcome t u) : Orderly s [] u := ⟨t, t, h.path, .stay, h'⟩

theorem after (h : Path Chore s lost t) (h' : Orderly t lost' u) : Orderly s (lost ++ lost') u := by
  obtain ⟨v, w, hv, hparting⟩ := h'
  exact ⟨v, w, h.trans hv, hparting⟩

theorem after_chores (h : Chores s t) (h' : Orderly t [] u) : Orderly s [] u := h'.after h.path

theorem turned (h : Orderly s lost t) : Turned s lost t := by
  obtain ⟨u, v, hu, hparting, houtcome⟩ := h
  exact ⟨v, (hu.mono fun _ _ hstep => hstep.deed).append_deeds hparting.deeds, houtcome⟩

end Orderly

/-- A turn is a chain of steps. -/
theorem Turned.path {s t : Scene σ} {lost : List BattlerId} (h : Turned s lost t) :
    Path Step s lost t := by
  obtain ⟨u, hdeeds, houtcome⟩ := h
  exact .step (hdeeds.mono fun _ _ => .deed) (.close houtcome)

/-- A turn goes on after deeds. -/
theorem Turned.after {s t u : Scene σ} {lost lost' : List BattlerId} (h : Path Deed s lost t)
    (h' : Turned t lost' u) : Turned s (lost ++ lost') u := by
  obtain ⟨v, hdeeds, houtcome⟩ := h'
  exact ⟨v, h.trans hdeeds, houtcome⟩

end Scene

end ActiveBattle
