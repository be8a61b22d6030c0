import ActiveBattle.Action.Basic

/-!
# Performing actions

An action carried out at a stretch, pass by pass and target by target, with what became of each
target. The scene goes through the same steps, but spreads them over frames.
-/

namespace ActiveBattle

set_option autoImplicit false

/-- What became of one target: the roll, the states that are new, and everyone afterwards. -/
structure Stroke where
  target : Option BattlerId
  outcome : Outcome
  added : List Int
  after : Roster
deriving DecidableEq

namespace Action

/-- Rolls and applies the action to its current target. -/
def strike (a : Action) (g : GameState) : Stroke × Action × GameState :=
  let (a, g) := a.execute g
  let (added, g) := a.apply g
  (⟨a.target?, a.outcome, added, g.roster⟩, a, g)

/-- Strikes the targets from the current one on, at most `count` of them. -/
def strikeTargets (a : Action) (g : GameState) : Nat → List Stroke × Action × GameState
  | 0 => ([], a, g)
  | count + 1 =>
    let (stroke, a, g) := a.strike g
    match a.nextTarget with
    | (false, a) => ([stroke], a, g)
    | (true, a) =>
      let (strokes, a, g) := strikeTargets a g count
      (stroke :: strokes, a, g)

/-- One pass over the targets; an action without targets strikes once at nobody. -/
def performPass (a : Action) (g : GameState) : List Stroke × Action × GameState :=
  let (a, g) := a.start g
  a.strikeTargets g (max a.targets.length 1)

/-- At most `count` passes. -/
def performPasses (a : Action) (g : GameState) : Nat → List Stroke × Action × GameState
  | 0 => ([], a, g)
  | count + 1 =>
    let (strokes, a, g) := a.performPass g
    match a.nextRepeat with
    | (false, a) => (strokes, a, g)
    | (true, a) =>
      let (more, a, g) := performPasses a g count
      (strokes ++ more, a, g)

/-- The whole action: every pass that is left, at least one, then its switch. -/
def perform (a : Action) (g : GameState) : List Stroke × Action × GameState :=
  let (strokes, a, g) := a.performPasses g (max (a.repeats - a.repeatsDone).toNat 1)
  (strokes, a, a.setSwitches g)

end Action

end ActiveBattle
