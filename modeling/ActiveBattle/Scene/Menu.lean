import ActiveBattle.Scene.State

/-!
# Menus

The cursors of the battle windows and the lists they browse.
-/

namespace ActiveBattle

set_option autoImplicit false

/-- What a target window chooses a target for. -/
inductive Selection where
  | attack
  | skill (id : Int)
  | item (id : Int)
deriving DecidableEq

/-- An entry of the command window; the last one changes the actor's row. -/
inductive CommandEntry where
  | command (id : Int) (kind : BattleCommandKind)
  | row
deriving DecidableEq

structure Menus where
  /-- Frames left of the windows' slide, during which there is no input. -/
  windowMove : Int := 0
  optionIndex : Nat := 0
  actorIndex : Nat := 0
  commandIndex : Nat := 0
  itemIndex : Nat := 0
  skillIndex : Nat := 0
  targetIndex : Nat := 0
  /-- The subset the skill window shows; 0 is every skill. -/
  skillSubset : Int := 0
  selection : Option Selection := none
  /-- Counts frames; the cursors blink by it. -/
  cursorCycle : UInt32 := 0
deriving DecidableEq

namespace Menus

def windowMoveFrames : Int := 8

def optionCount : Nat := 3

def moveWindows (m : Menus) : Menus := { m with windowMove := windowMoveFrames }

def updateWindows (m : Menus) : Menus :=
  if m.windowMove > 0 then { m with windowMove := m.windowMove - 1 } else m

/-- A cursor one entry on or back, around the ends. -/
def turned (cursor len : Nat) (down : Bool) : Nat :=
  if down then (cursor + 1) % len else (cursor + len - 1) % len

/-- Moves the cursor of a state's window over `len` entries. -/
def moveCursor (m : Menus) (state : SceneState) (len : Nat) (down : Bool) : Menus :=
  if len = 0 then m
  else
    match state with
    | .selectOption => { m with optionIndex := turned m.optionIndex len down }
    | .selectActor => { m with actorIndex := turned m.actorIndex len down }
    | .selectCommand => { m with commandIndex := turned m.commandIndex len down }
    | .selectItem => { m with itemIndex := turned m.itemIndex len down }
    | .selectSkill => { m with skillIndex := turned m.skillIndex len down }
    | .selectEnemyTarget | .selectAllyTarget =>
      { m with targetIndex := turned m.targetIndex len down }
    | _ => m

/-- The commands of an actor, those the database knows, with the row entry at the end. -/
def actorCommands (r : Roster) (db : Database) (actor : Int) : List CommandEntry :=
  match r.actor? actor with
  | none => []
  | some a =>
    a.commands.filterMap (fun id => (db.command? id).map fun c => .command c.id c.kind) ++ [.row]

def itemList (r : Roster) : List Int :=
  ((r.items.entries.filter (·.2 > 0)).map (·.1)).mergeSort (· ≤ ·)

/-- The skills an actor knows, of one subset or all. -/
def skillList (r : Roster) (db : Database) (actor subset : Int) : List Int :=
  match r.actor? actor with
  | none => []
  | some a => a.skills.filter fun id => subset = 0 || (db.skill? id).any (·.subset = subset)

def enemyTargets (r : Roster) : List BattlerId := (r.enemies.filter (·.isPresent)).map (·.id)

/-- The party members that can be aimed at; the dead among them, to be revived. -/
def allyTargets (r : Roster) : List BattlerId := (r.partyMembers.filter (!·.hidden)).map (·.id)

end Menus

end ActiveBattle
