import ActiveBattle.Script.Command

/-!
# Running common events

A parallel event has an interpreter of its own, which starts over whenever it has finished. An event
that starts by itself is only reported as ready; its owner pushes it.
-/

namespace ActiveBattle

set_option autoImplicit false

/-- A common event with the interpreter it runs on, if it has one. -/
structure EventRunner where
  event : CommonEvent
  interp : Option Interpreter := none
deriving DecidableEq

namespace EventRunner

/-- Only parallel events with something to do get an interpreter. -/
def ofEvent (e : CommonEvent) : EventRunner where
  event := e
  interp :=
    if e.trigger = .parallel ∧ e.instructions ≠ [] then some (({} : Interpreter).pushEvent e)
      else none

def id (r : EventRunner) : Int := r.event.id

/-- A parallel event that its guard, or `force`, lets run. -/
def isBackgroundReady (r : EventRunner) (switches : Switches) (force : Bool) : Bool :=
  r.event.trigger = .parallel && (force || r.event.guardAllows switches)

/-- An event that starts by itself and takes over the main interpreter. -/
def isForegroundReady (r : EventRunner) (switches : Switches) : Bool :=
  r.event.trigger = .autoStart && r.event.guardAllows switches && !r.event.instructions.isEmpty

/-- The interpreter, started over if it has finished. -/
def started (e : CommonEvent) (i : Interpreter) : Interpreter :=
  if i.isRunning then i else i.pushEvent e

/-- What an update leaves behind, with the operation the event is suspended on. -/
structure Update (δ σ : Type) where
  op : AsyncOp
  runner : EventRunner
  table : δ
  world : World σ

/-- One update of a parallel event. With `resume` an asset it asked for is ready: the event runs
whatever its guard says, and the old suspension does not hold it. -/
def update {δ σ : Type} [AssetLoader σ] (commands : CommandTable δ σ) (store : ProgramStore)
    (resume : Bool) (r : EventRunner) (table : δ) (world : World σ) : Update δ σ :=
  if r.isBackgroundReady world.game.switches resume then
    match r.interp with
    | none => ⟨.none, r, table, world⟩
    | some i =>
      let x := Execution.update commands store (!resume) ⟨started r.event i, table, world⟩
      ⟨x.interp.asyncOp, { r with interp := some x.interp }, x.table, x.world⟩
  else ⟨.none, r, table, world⟩

/-- The state as it is kept; an idle parallel event keeps one empty frame. -/
def saveState (r : EventRunner) : ExecutionSnapshot :=
  let state := match r.interp with
    | some i => i.saveState
    | none => {}
  if r.event.trigger = .parallel && state.stack.isEmpty then
    { state with stack := [FrameSnapshot.placeholder] }
  else state

/-- Takes over a kept state; an empty stack and the empty frame leave the event as it is. -/
def loadState (r : EventRunner) (s : ExecutionSnapshot) (store : ProgramStore) : EventRunner :=
  match s.stack with
  | [] => r
  | first :: _ =>
    if first.isPlaceholder then r
    else { r with interp := some ((r.interp.getD {}).setState s store) }

end EventRunner

end ActiveBattle
