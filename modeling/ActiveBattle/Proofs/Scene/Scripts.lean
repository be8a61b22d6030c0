import ActiveBattle.Proofs.Scene.Prelude
import ActiveBattle.Proofs.Scene.Suspension
import ActiveBattle.Proofs.Script.Flight

/-!
# The scripts of a scene

A scene owns interpreters: the main one, those of the parallel events, and that of the hooks.
Whatever a frame does to them is a chain of `Beat`s, most of which update one of them (a `Pump`). So
what a beat keeps, every frame keeps. A plot unfolds by such a chain if the updates in it are also
all that can force the party's flight (`Plot.Unfolds`).
-/

namespace ActiveBattle

set_option autoImplicit false

namespace Scene

/-- The interpreters of a scene, with the programs they run and whether the battle is over. -/
structure Scripts where
  store : ProgramStore
  main : Interpreter
  hooks : Interpreter
  runners : List EventRunner
  ended : Bool

def scripts {σ : Type} (s : Scene σ) : Scripts where
  store := s.store
  main := s.director.interp
  hooks := s.director.script.hookRunner
  runners := s.runners
  ended := s.result.isSome

/-- The scripts of a scene, and the flight that they can force. -/
structure Plot where
  scripts : Scripts
  flight : Flight

def plot {σ : Type} (s : Scene σ) : Plot := ⟨s.scripts, s.director.script.flight⟩

/-- Whose interpreter it is. -/
inductive Seat where
  | main
  | event (index : Nat)
  | hooks
deriving DecidableEq

/-- Why an interpreter is updated: once in every frame, when the asset is there that it waited for,
or as a hook that is called. -/
inductive Occasion where
  | round
  | asset
  | call
deriving DecidableEq

/-- What has been waited for holds an interpreter no more. -/
def Occasion.allowsSuspend : Occasion → Bool
  | asset => false
  | round | call => true

/-- An update of an interpreter, with the instructions it performs. -/
structure Pump where
  seat : Seat
  occasion : Occasion
  lines : List Instruction
deriving DecidableEq

namespace Pump

variable {σ : Type}

/-- The update of an interpreter as its log tells it, without those of the hooks it calls. -/
def ofLog (seat : Seat) (occasion : Occasion) (log : List (Line σ)) : Pump :=
  ⟨seat, occasion, log.map Line.inst⟩

def ofCalls (logs : List (List (Line σ))) : List Pump := logs.map (ofLog .hooks .call)

theorem ofCalls_append (logs logs' : List (List (Line σ))) :
    ofCalls (logs ++ logs') = ofCalls logs ++ ofCalls logs' :=
  List.map_append

/-- The update of an interpreter, and those of the hooks it calls. -/
def withCalls (seat : Seat) (occasion : Occasion) (log : List (Line σ)) : List Pump :=
  ofLog seat occasion log :: ofCalls (log.filterMap Line.pumped)

end Pump

/-- Some of these updates have the party flee. -/
def Fleeing (pumps : List Pump) : Prop := ∃ p ∈ pumps, ∃ inst ∈ p.lines, inst.fleesParty = true

namespace Fleeing

variable {σ : Type} {pumps pumps' : List Pump} {log : List (Line σ)}

theorem mono (hsub : pumps ⊆ pumps') (h : Fleeing pumps) : Fleeing pumps' :=
  h.imp fun _ hp => ⟨hsub hp.1, hp.2⟩

theorem of_log (h : Flees log) (seat : Seat) (occasion : Occasion) :
    Fleeing (Pump.withCalls seat occasion log) := by
  obtain ⟨line, hline, inst, hinst, hflees⟩ := h
  rcases List.mem_cons.mp hinst with rfl | hinst
  · exact ⟨_, List.mem_cons_self, _, List.mem_map_of_mem hline, hflees⟩
  · cases hpumped : line.pumped with
    | none => simp [hpumped] at hinst
    | some lines =>
      rw [hpumped] at hinst
      exact ⟨_, List.mem_cons_of_mem _
        (List.mem_map_of_mem (List.mem_filterMap.mpr ⟨line, hline, hpumped⟩)), inst, hinst, hflees⟩

theorem of_hook (h : Flees log) (hhook : ∀ line ∈ log, line.pumped = none) (occasion : Occasion) :
    Fleeing [.ofLog .hooks occasion log] := by
  obtain ⟨p, hp, hlines⟩ := of_log h .hooks occasion
  have hnone : log.filterMap Line.pumped = [] := List.filterMap_eq_nil_iff.mpr hhook
  rw [Pump.withCalls, hnone] at hp
  exact ⟨p, hp, hlines⟩

end Fleeing

/-- Some of these updates have the main interpreter end the battle. -/
def Ending (pumps : List Pump) : Prop :=
  ∃ p ∈ pumps, p.seat = .main ∧ ∃ inst ∈ p.lines, inst.opcode = .terminateBattle

theorem Ending.mono {pumps pumps' : List Pump} (hsub : pumps ⊆ pumps') (h : Ending pumps) :
    Ending pumps' :=
  h.imp fun _ hp => ⟨hsub hp.1, hp.2⟩

def Seat.commands : Seat → CommandSet
  | hooks => .hook
  | main | event _ => .battle

/-- The interpreter of a seat as it is made: parallel events know nothing of the configuration. -/
def Seat.made (config : BattleConfig) : Seat → Interpreter
  | event _ => {}
  | main | hooks => .ofConfig config

namespace Scripts

def interp? (a : Scripts) : Seat → Option Interpreter
  | .main => some a.main
  | .event index => (a.runners[index]?).bind (·.interp)
  | .hooks => some a.hooks

def put (a : Scripts) (i : Interpreter) : Seat → Scripts
  | .main => { a with main := i }
  | .event index => { a with runners := a.runners.modify index ({ · with interp := some i }) }
  | .hooks => { a with hooks := i }

theorem interp?_put_self {a : Scripts} {seat : Seat} {i : Interpreter} (h : a.interp? seat = some i)
    (j : Interpreter) : (a.put j seat).interp? seat = some j := by
  cases seat with
  | main => rfl
  | hooks => rfl
  | event index =>
    obtain ⟨runner, hrunner, -⟩ := Option.bind_eq_some_iff.mp h
    simp [put, interp?, hrunner]

theorem interp?_put_of_ne {a : Scripts} {seat other : Seat} (h : other ≠ seat) (j : Interpreter) :
    (a.put j seat).interp? other = a.interp? other := by
  cases seat with
  | main => cases other <;> first | rfl | contradiction
  | hooks => cases other <;> first | rfl | contradiction
  | event index =>
    cases other with
    | main => rfl
    | hooks => rfl
    | event index' =>
      have hindex : index ≠ index' := fun heq => h (by rw [heq])
      simp [put, interp?, hindex]

/-- How an update of a seat finds its interpreter: a parallel event that has finished starts over,
and a hook that is called is put on top. -/
inductive Entered (a : Scripts) (i : Interpreter) : Seat → Interpreter → Prop
  | main : Entered a i .main i
  | event {index : Nat} {runner : EventRunner} (hrunner : a.runners[index]? = some runner) :
      Entered a i (.event index) (EventRunner.started runner.event i)
  | hooks : Entered a i .hooks i
  | call {id : Int} {event : CommonEvent} (hevent : a.store.event? id = some event)
    (program : Program) :
      Entered a i .hooks ((i.pushEvent event).push program .synthetic)

/-- What happens to the scripts of a battle that is not over: the main interpreter is given
something to run, or stopped for good, or one of them is updated. -/
inductive Beat (σ : Type) [AssetLoader σ] (a : Scripts) : Option Pump → Scripts → Prop
  | page {index : Nat} {page : TroopPage} (hopen : a.ended = false) (hidle : a.main.stack = [])
      (hpage : a.store.troop.pages[index]? = some page) :
      Beat σ a none { a with main := a.main.clear.push page.instructions (.ofPage (index + 1)) }
  | starts {id : Int} {event : CommonEvent} (hopen : a.ended = false) (hidle : a.main.stack = [])
      (hevent : a.store.event? id = some event) : Beat σ a none
        { a with main := a.main.pushEvent event }
  | ends (hopen : a.ended = false) : Beat σ a none { a with main := a.main.clear, ended := true }
  | pump {seat : Seat} {occasion : Occasion} {i : Interpreter} {x y : Execution BattleScript σ}
    {log : List (Line σ)}
      (hopen : a.ended = false) (hi : a.interp? seat = some i)
        (hentered : a.Entered i seat x.interp)
      (hasset : occasion = .asset → i.asyncOp.isLoad = true)
      (hruns : Runs a.store seat.commands (.update occasion.allowsSuspend) x log y) :
      Beat σ a (some (.ofLog seat occasion log)) (a.put y.interp seat)

/-- A chain of beats, with the updates among them. -/
inductive Beats (σ : Type) [AssetLoader σ] (a : Scripts) : List Pump → Scripts → Prop
  | refl : Beats σ a [] a
  | tail {pumps : List Pump} {b c : Scripts} {pump : Option Pump} (h : Beats σ a pumps b)
    (hbeat : Beat σ b pump c) :
      Beats σ a (pumps ++ pump.toList) c

namespace Beats

variable {σ : Type} [AssetLoader σ] {a b c : Scripts} {pumps pumps' : List Pump}

theorem trans (h : Beats σ a pumps b) (h' : Beats σ b pumps' c) :
    Beats σ a (pumps ++ pumps') c := by
  induction h' with
  | refl =>
    rw [List.append_nil]
    exact h
  | tail _ hbeat ih =>
    rw [← List.append_assoc]
    exact ih.tail hbeat

theorem single {pump : Option Pump} (h : Beat σ a pump b) : Beats σ a pump.toList b := .tail .refl h

/-- A hook that is called is put on the hook interpreter. -/
theorem of_primed {s : BattleScript} {kind : HookKind} {args : HookArgs} {runner : Interpreter}
    {x y : Execution BattleScript σ} {log : List (Line σ)} (hopen : a.ended = false)
    (hs : a.hooks = s.hookRunner) (hprimed : s.primed? a.store kind args = some runner)
    (hinterp : x.interp = runner) (hruns : Runs a.store .hook (.update true) x log y) :
    Beats σ a (Pump.ofCalls [log]) { a with hooks := y.interp } := by
  obtain ⟨id, event, hevent, rfl⟩ := BattleScript.primed?_eq_some hprimed
  have hentered : a.Entered a.hooks .hooks x.interp := by
    rw [hinterp, ← hs]
    exact .call hevent _
  have hbeat : Beat σ a (some (.ofLog .hooks .call log)) _ := .pump hopen rfl hentered nofun hruns
  exact .single hbeat

/-- The hooks that an update calls are called one after the other. -/
theorem of_pumped {logs : List (List (Line σ))} {i j : Interpreter} (h : Pumped a.store i logs j)
    (hopen : a.ended = false) (hi : a.hooks = i) :
    Beats σ a (Pump.ofCalls logs) { a with hooks := j } := by
  induction h with
  | rest =>
    subst hi
    exact .refl
  | hook _ hprimed hpump ih =>
    rw [Pump.ofCalls_append]
    exact ih.trans (.of_primed hopen rfl hprimed rfl hpump)

end Beats

/-- The parallel events, and whether they have an interpreter. -/
def holders (a : Scripts) : List (CommonEvent × Bool) :=
  a.runners.map fun r => (r.event, r.interp.isSome)

theorem events_eq_of_holders_eq {a b : Scripts} (h : b.holders = a.holders) :
    b.runners.map (·.event) = a.runners.map (·.event) := by
  have hevents := congrArg (List.map Prod.fst) h
  unfold holders at hevents
  rw [List.map_map, List.map_map] at hevents
  exact hevents

/-- What is true of the interpreters of all seats. -/
def All (I : Seat → Interpreter → Prop) (a : Scripts) : Prop :=
  ∀ seat i, a.interp? seat = some i → I seat i

/-- What stays true of interpreters whatever beats do to them, over the programs of a store and of
parallel events. -/
structure Kept (σ : Type) [AssetLoader σ] (store : ProgramStore) (events : List CommonEvent)
    (I : Seat → Interpreter → Prop) : Prop where
  page : ∀ i index page, I .main i → store.troop.pages[index]? = some page →
    I .main (i.clear.push page.instructions (.ofPage (index + 1)))
  starts : ∀ i id event, I .main i →
    i.stack = [] → store.event? id = some event → I .main (i.pushEvent event)
  ends : ∀ i, I .main i → I .main i.clear
  restarts : ∀ index i event, I (.event index) i → i.stack = [] → events[index]? = some event →
    I (.event index) (i.pushEvent event)
  calls : ∀ i id event program, I .hooks i → store.event? id = some event →
    I .hooks ((i.pushEvent event).push program .synthetic)
  updates : ∀ seat allowSuspend (x y : Execution BattleScript σ) log,
    Runs store seat.commands (.update allowSuspend) x log y → I seat x.interp → I seat y.interp

namespace Beat

variable {σ : Type} [AssetLoader σ] {a b : Scripts} {pump : Option Pump}

theorem store_eq (h : Beat σ a pump b) : b.store = a.store := by
  cases h with
  | @pump seat => cases seat <;> rfl
  | _ => rfl

theorem holders_eq (h : Beat σ a pump b) : b.holders = a.holders := by
  cases h with
  | @pump seat occasion i x y log _ hi _ _ _ =>
    cases seat with
    | event index =>
      obtain ⟨runner, hrunner, hinterp⟩ := Option.bind_eq_some_iff.mp hi
      apply List.ext_getElem?
      intro k
      simp only [holders, put, List.getElem?_map, List.getElem?_modify, Option.map_eq_map,
        Option.map_map]
      by_cases hk : index = k
      · subst hk
        simp [hrunner, hinterp]
      · simp only [if_neg hk]
        rfl
    | _ => rfl
  | _ => rfl

theorem all {store : ProgramStore} {events : List CommonEvent} {I : Seat → Interpreter → Prop}
    (hI : Kept σ store events I) (h : Beat σ a pump b) (hstore : a.store = store)
    (hevents : a.runners.map (·.event) = events) (ha : a.All I) : b.All I := by
  subst hstore
  have hmain (i : Interpreter) (hi : I .main i) (ended : Bool) :
      ({ a with main := i, ended := ended } : Scripts).All I := by
    intro seat j hj
    cases seat with
    | main =>
      obtain rfl := Option.some.inj hj
      exact hi
    | event index => exact ha (.event index) j hj
    | hooks => exact ha .hooks j hj
  cases h with
  | page _ _ hpage => exact hmain _ (hI.page _ _ _ (ha .main _ rfl) hpage) a.ended
  | starts _ hidle hevent => exact hmain _ (hI.starts _ _ _ (ha .main _ rfl) hidle hevent) a.ended
  | ends _ => exact hmain _ (hI.ends _ (ha .main _ rfl)) true
  | @pump seat occasion i x y log _ hi hentered _ hruns =>
    have hold := ha seat i hi
    have entered {j : Interpreter} (h : a.Entered i seat j) : I seat j := by
      cases h with
      | main => exact hold
      | hooks => exact hold
      | call hevent program => exact hI.calls _ _ _ program hold hevent
      | @event index runner hrunner =>
        unfold EventRunner.started
        split
        · exact hold
        · rename_i hidle
          refine hI.restarts _ _ _ hold (by simpa [Interpreter.isRunning] using hidle) ?_
          rw [← hevents, List.getElem?_map, hrunner]
          rfl
    intro other j hj
    by_cases hother : other = seat
    · subst hother
      rw [interp?_put_self hi] at hj
      obtain rfl := Option.some.inj hj
      exact hI.updates _ _ _ _ _ hruns (entered hentered)
    · rw [interp?_put_of_ne hother] at hj
      exact ha other j hj

theorem ended {result : BattleResult} (h : Beat σ a pump b)
    (hended : b.main.asyncOp = .terminateBattle result) :
    a.main.asyncOp = .terminateBattle result ∨ result = .abort ∧ Ending pump.toList := by
  cases h with
  | page _ _ _ => contradiction
  | starts _ _ _ => exact .inl hended
  | ends _ => contradiction
  | @pump seat occasion i x y log _ hi hentered _ hruns =>
    cases seat with
    | main =>
      have hmain : a.main = x.interp := by
        cases hentered
        exact Option.some.inj hi
      rw [hmain]
      refine (hruns.ended trivial hended).imp_right ?_
      rintro ⟨hresult, line, hline, hcode⟩
      exact ⟨hresult, _, List.mem_singleton_self _, rfl, line.inst,
        List.mem_map_of_mem hline, hcode⟩
    | event _ => exact .inl hended
    | hooks => exact .inl hended

end Beat

namespace Beats

variable {σ : Type} [AssetLoader σ] {a b : Scripts} {pumps : List Pump}

theorem store_eq (h : Beats σ a pumps b) : b.store = a.store := by
  induction h with
  | refl => rfl
  | tail _ hbeat ih => exact hbeat.store_eq.trans ih

theorem holders_eq (h : Beats σ a pumps b) : b.holders = a.holders := by
  induction h with
  | refl => rfl
  | tail _ hbeat ih => exact hbeat.holders_eq.trans ih

theorem all {store : ProgramStore} {events : List CommonEvent} {I : Seat → Interpreter → Prop}
    (hI : Kept σ store events I) (h : Beats σ a pumps b) (hstore : a.store = store)
    (hevents : a.runners.map (·.event) = events) (ha : a.All I) : b.All I := by
  induction h with
  | refl => exact ha
  | tail h hbeat ih =>
    exact hbeat.all hI (h.store_eq.trans hstore)
      ((events_eq_of_holders_eq h.holders_eq).trans hevents) ih

/-- What has stopped the main interpreter for good is an instruction that it performs. -/
theorem ended {result : BattleResult} (h : Beats σ a pumps b)
    (hended : b.main.asyncOp = .terminateBattle result) :
    a.main.asyncOp = .terminateBattle result ∨ result = .abort ∧ Ending pumps := by
  induction h with
  | refl => exact .inl hended
  | tail _ hbeat ih =>
    rcases hbeat.ended hended with hmain | ⟨hresult, hending⟩
    · exact (ih hmain).imp_right (And.imp_right (.mono (List.subset_append_left _ _)))
    · exact .inr ⟨hresult, hending.mono (List.subset_append_right _ _)⟩

end Beats

end Scripts

namespace Plot

/-- These updates are all that happens to the scripts, and nothing but they can force the party's
flight. -/
structure Unfolds (σ : Type) [AssetLoader σ] (a : Plot) (pumps : List Pump) (b : Plot) : Prop where
  beats : Scripts.Beats σ a.scripts pumps b.scripts
  flight : a.flight.Rises (Fleeing pumps) b.flight

namespace Unfolds

variable {σ : Type} [AssetLoader σ] {a b c : Plot} {pumps pumps' : List Pump}

theorem of_eq (h : b = a) : Unfolds σ a [] b := by
  subst h
  exact ⟨.refl, .refl _⟩

theorem refl : Unfolds σ a [] a := .of_eq rfl

theorem trans (h : Unfolds σ a pumps b) (h' : Unfolds σ b pumps' c) :
    Unfolds σ a (pumps ++ pumps') c :=
  ⟨h.beats.trans h'.beats,
    (h.flight.mono (.mono (List.subset_append_left _ _))).trans
      (h'.flight.mono (.mono (List.subset_append_right _ _)))⟩

theorem eq_trans (h : b = a) (h' : Unfolds σ b pumps c) : Unfolds σ a pumps c := h ▸ h'

end Unfolds

end Plot

variable {σ : Type}

/-! ### What leaves the plot alone -/

section Quiet

theorem foldl_plot {α : Type} (f : Scene σ → α → Scene σ) (hf : ∀ s a, (f s a).plot = s.plot)
    (l : List α) (s : Scene σ) : (l.foldl f s).plot = s.plot := by
  refine List.foldlRecOn (motive := fun t : Scene σ => t.plot = s.plot) l f rfl fun t ht a _ => ?_
  exact (hf t a).trans ht

theorem showNotification_plot (s : Scene σ) (text : String) :
    (s.showNotification text).plot = s.plot := by
  unfold showNotification
  split <;> rfl

theorem enqueue_plot (s : Scene σ) (a : Action) : (s.enqueue a).plot = s.plot := by
  unfold enqueue
  split
  · rfl
  · dsimp only
    split <;> rfl

theorem checkWait_plot (s : Scene σ) (input : InputState) :
    (s.checkWait input).2.plot = s.plot := by
  unfold checkWait
  split
  · rfl
  · split
    · rfl
    · dsimp only
      split <;> rfl

theorem checkBattleEnd_plot (s : Scene σ) : s.checkBattleEnd.2.plot = s.plot := by
  unfold checkBattleEnd
  split
  · dsimp only
    split <;> rfl
  · split
    · dsimp only
      split <;> rfl
    · rfl

theorem updatePresentation_plot (s : Scene σ) (input : InputState) :
    (s.updatePresentation input).plot = s.plot := by
  have hui (s : Scene σ) : (s.updateUi input).plot = s.plot := by
    dsimp only [updateUi, updateMessage, updateCursor]
    split
    · split <;> rfl
    · split
      · rfl
      · split
        · rfl
        · split <;> rfl
  have hflight (s : Scene σ) : s.updateRunningAway.plot = s.plot := by
    unfold updateRunningAway
    split <;> rfl
  exact (hui _).trans (hflight _)

theorem showNotices_plot (s : Scene σ) : s.showNotices.plot = s.plot := by
  unfold showNotices
  refine (foldl_plot _ (fun s n => ?_) _ _).trans ?_
  · rfl
  · rfl

theorem checkForceFlee_plot (s : Scene σ) : s.checkForceFlee.plot = s.plot := by
  unfold checkForceFlee
  split <;> rfl

theorem dropGoneActor_plot (s : Scene σ) : s.dropGoneActor.plot = s.plot := by
  unfold dropGoneActor
  split
  · rfl
  · dsimp only
    split <;> rfl

theorem createEnemyActions_plot (s : Scene σ) : s.createEnemyActions.plot = s.plot := by
  unfold createEnemyActions
  apply foldl_plot
  intro s id
  split
  · exact enqueue_plot _ _
  · rfl

theorem createAutoActions_plot (s : Scene σ) : s.createAutoActions.plot = s.plot := by
  unfold createAutoActions
  apply foldl_plot
  intro s id
  split
  · exact enqueue_plot _ _
  · rfl

theorem discardStale_plot (s : Scene σ) (queue : List Action) :
    (s.discardStale queue).plot = s.plot := by
  induction queue generalizing s with
  | nil => rfl
  | cons a rest ih =>
    unfold discardStale
    split
    · rfl
    · refine (ih _).trans ?_
      unfold discard
      dsimp only
      split <;> rfl

theorem takeAction_plot (s : Scene σ) : s.takeAction.plot = s.plot := by
  have hstale := s.discardStale_plot s.queue
  unfold takeAction
  dsimp only
  generalize s.discardStale s.queue = t at hstale ⊢
  rw [← hstale]
  split
  · rfl
  · rename_i a rest _
    have hprepared : (({ t with queue := rest } : Scene σ).prepare a).2.plot = t.plot := by
      unfold prepare
      split
      · rfl
      · split
        · rfl
        · split
          · split <;> rfl
          · split <;> rfl
          · rfl
    exact hprepared

end Quiet

section Windows

theorem processOption_plot (s : Scene σ) (input : InputState) :
    (s.processOption input).2.plot = s.plot := by
  unfold processOption
  split
  · split
    · rfl
    · dsimp only
      split <;> rfl
  · split
    · split
      · rfl
      · rfl
      · split <;> rfl
    · rfl

theorem readyAtCursor?_plot {s t : Scene σ} {id : Int} (h : s.readyAtCursor? = some (id, t)) :
    t.plot = s.plot := by
  unfold readyAtCursor? at h
  split at h
  · contradiction
  · split at h
    · split at h <;> (obtain ⟨-, rfl⟩ := Prod.mk.inj (Option.some.inj h); rfl)
    · obtain ⟨-, rfl⟩ := Prod.mk.inj (Option.some.inj h)
      rfl

theorem processActor_plot (s : Scene σ) (input : InputState) (autoBattle : Bool) :
    (s.processActor input autoBattle).2.plot = s.plot := by
  have hfirst (s : Scene σ) : s.takeFirstReady.plot = s.plot := by
    unfold takeFirstReady
    split <;> rfl
  have hopened : (if s.substate = 0 then s.setSubstate 1 else s).plot = s.plot := by
    split <;> rfl
  unfold processActor
  split
  · rfl
  · dsimp only
    generalize (if s.substate = 0 then s.setSubstate 1 else s) = t at hopened
    rw [← hopened]
    split
    · rfl
    · split
      · exact hfirst t
      · split
        · rfl
        · split
          · rfl
          · split
            · rfl
            · rename_i u hu
              have hpointed := readyAtCursor?_plot hu
              split <;> exact hpointed

theorem selectRow_plot (s : Scene σ) (actor : Int) : (s.selectRow actor).plot = s.plot := by
  unfold selectRow
  split
  · rfl
  · dsimp only
    split
    · rfl
    · exact enqueue_plot _ _

theorem selectCommand_plot (s : Scene σ) (actor id : Int) (kind : BattleCommandKind) :
    (s.selectCommand actor id kind).plot = s.plot := by
  unfold selectCommand
  cases kind with
  | defense => exact enqueue_plot _ _
  | special => exact enqueue_plot _ _
  | escape =>
    dsimp only
    split <;> rfl
  | _ => rfl

theorem processCommand_plot (s : Scene σ) (input : InputState) :
    (s.processCommand input).2.plot = s.plot := by
  unfold processCommand
  have hopened : (if s.substate = 0 then
      (if s.previousState = .selectActor ∨ s.previousState = .autoBattle then
        s.modifyUi ({ · with commandIndex := 0 })
        else s).setSubstate 1
      else s).plot = s.plot := by
    split
    · split <;> rfl
    · rfl
  dsimp only
  generalize (if s.substate = 0 then _ else s : Scene σ) = t at hopened ⊢
  rw [← hopened]
  split
  · rfl
  · split
    · rfl
    · split
      · split
        · exact selectCommand_plot _ _ _ _
        · exact selectRow_plot _ _
        · rfl
      · split <;> rfl

theorem chooseEffect_plot (s : Scene σ) (choice : Option (Selection × Scope)) (source : BattlerId) :
    (s.chooseEffect choice source).plot = s.plot := by
  unfold chooseEffect
  split
  · unfold chooseTargets
    split
    · rfl
    · rfl
    · split
      · exact enqueue_plot _ _
      · rfl
  · rfl

theorem processItem_plot (s : Scene σ) (input : InputState) :
    (s.processItem input).2.plot = s.plot := by
  have hopened : (if s.substate = 0 then
      (s.modifyUi fun m =>
        { m with itemIndex := min m.itemIndex ((Menus.itemList s.roster).length - 1) }).setSubstate
        1
      else s).plot = s.plot := by
    split <;> rfl
  unfold processItem
  dsimp only
  generalize (if s.substate = 0 then _ else s : Scene σ) = t at hopened ⊢
  rw [← hopened]
  split
  · rfl
  · split
    · exact chooseEffect_plot _ _ _
    · split <;> rfl

theorem processSkill_plot (s : Scene σ) (input : InputState) :
    (s.processSkill input).2.plot = s.plot := by
  unfold processSkill
  split
  · rfl
  · rename_i actor _
    have hopened : (if s.substate = 0 then
        let count := (Menus.skillList s.roster s.database actor s.ui.skillSubset).length
        (s.modifyUi fun m => { m with skillIndex := min m.skillIndex (count - 1) }).setSubstate 1
        else s).plot = s.plot := by
      split <;> rfl
    dsimp only
    generalize (if s.substate = 0 then _ else s : Scene σ) = t at hopened ⊢
    rw [← hopened]
    split
    · exact chooseEffect_plot _ _ _
    · split <;> rfl

theorem selectTarget_plot (s : Scene σ) (actor : Int) (target : BattlerId) (selection : Selection)
    (enemies : Bool) : (s.selectTarget actor target selection enemies).plot = s.plot := by
  unfold selectTarget
  dsimp only
  cases actionOf? selection (.actor actor) [target] with
  | none =>
    dsimp only
    split <;> rfl
  | some a =>
    refine (enqueue_plot _ a).trans ?_
    split <;> rfl

theorem processTarget_plot (s : Scene σ) (input : InputState) (enemies : Bool) :
    (s.processTarget input enemies).2.plot = s.plot := by
  have hsettled (count : Nat) : (s.settleTargetCursor count).plot = s.plot := by
    unfold settleTargetCursor
    dsimp only
    split <;> split <;> rfl
  unfold processTarget
  dsimp only
  generalize (if enemies then Menus.enemyTargets s.roster else Menus.allyTargets s.roster) = targets
  rw [← hsettled targets.length]
  split
  · rfl
  · split
    · split
      · exact selectTarget_plot _ _ _ _ _
      · rfl
    · split <;> rfl

end Windows

end Scene

end ActiveBattle
