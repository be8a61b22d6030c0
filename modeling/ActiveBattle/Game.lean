import ActiveBattle.Roster.Formation

/-!
# Game state

Everything a script can read or change: switches, variables, the roster, the message box, the
countdown timers and the transient status of the battle.
-/

namespace ActiveBattle

set_option autoImplicit false

/-- A queue of message pages; the front one is on screen until it is dismissed. -/
structure MessageBox where
  pages : List String := []
deriving DecidableEq

namespace MessageBox

def push (m : MessageBox) (text : String) : MessageBox := ⟨m.pages ++ [text]⟩

def isActive (m : MessageBox) : Bool := !m.pages.isEmpty

def current? (m : MessageBox) : Option String := m.pages.head?

def advance (m : MessageBox) : MessageBox := ⟨m.pages.tail⟩

end MessageBox

/-- Something a script did that the scene shows. -/
inductive Notice where
  | hpChanged (target : BattlerId) (change : Int)
deriving DecidableEq

structure ScreenFlash where
  red : Int
  green : Int
  blue : Int
  strength : Int
  frames : Int
deriving DecidableEq

structure ActiveAnimation where
  animationId : Int
  targets : List BattlerId
  framesLeft : Int
deriving DecidableEq

structure BattleStatus where
  condition : BattleCondition := .none
  background : String := ""
  animation : Option ActiveAnimation := none
  flash : Option ScreenFlash := none
  pictures : Table String := {}
  notices : List Notice := []
deriving DecidableEq

namespace BattleStatus

def showPicture (s : BattleStatus) (id : Int) (name : String) : BattleStatus :=
  { s with pictures := s.pictures.insert id name }

/-- An animation lasts at least a frame. -/
def showAnimation (s : BattleStatus) (animationId : Int) (targets : List BattlerId) (frames : Int) :
    BattleStatus :=
  { s with animation := some ⟨animationId, targets, max frames 1⟩ }

def isAnimationWaiting (s : BattleStatus) : Bool := s.animation.isSome

def flashOnce (s : BattleStatus) (flash : ScreenFlash) : BattleStatus :=
  { s with flash := some flash }

def pushNotice (s : BattleStatus) (n : Notice) : BattleStatus :=
  { s with notices := s.notices ++ [n] }

/-- The animation a frame later, if it is still on. -/
def laterAnimation (a : ActiveAnimation) : Option ActiveAnimation :=
  if a.framesLeft - 1 ≤ 0 then none else some { a with framesLeft := a.framesLeft - 1 }

def laterFlash (f : ScreenFlash) : Option ScreenFlash :=
  if f.frames - 1 ≤ 0 then none else some { f with frames := f.frames - 1 }

def update (s : BattleStatus) : BattleStatus :=
  { s with animation := s.animation.bind laterAnimation, flash := s.flash.bind laterFlash }

end BattleStatus

/-- A countdown that a map script started before the battle. -/
structure CountdownTimer where
  frames : Int := 0
  running : Bool := false
  /-- Reaching zero ends the battle. -/
  battleAbort : Bool := false
deriving DecidableEq

namespace CountdownTimer

def start (frames : Int) (battleAbort : Bool) : CountdownTimer := ⟨frames, true, battleAbort⟩

/-- One tick; tells whether it ended a timer that aborts the battle. -/
def update (t : CountdownTimer) : Bool × CountdownTimer :=
  if !t.running then (false, t)
  else
    let frames := if t.frames > 0 then t.frames - 1 else t.frames
    if frames = 0 then (t.battleAbort, { t with frames := frames, running := false })
    else (false, { t with frames := frames })

end CountdownTimer

structure Timers where
  first : CountdownTimer := {}
  second : CountdownTimer := {}
deriving DecidableEq

def Timers.update (t : Timers) : (Bool × Bool) × Timers :=
  let (a, first) := t.first.update
  let (b, second) := t.second.update
  ((a, b), ⟨first, second⟩)

structure GameState where
  switches : Switches := Switches.ofCount Switches.standardCount
  vars : Variables := Variables.ofCount Variables.standardCount
  roster : Roster := {}
  status : BattleStatus := {}
  message : MessageBox := {}
  timers : Timers := {}
  database : Database := {}
  dice : Dice := ⟨0, 0⟩
deriving DecidableEq

namespace GameState

def ofRoster (database : Database) (roster : Roster) (config : BattleConfig) : GameState where
  roster := roster
  database := database
  dice := ⟨config.rngSeed, 0⟩

def modifyRoster (g : GameState) (f : Roster → Roster) : GameState :=
  { g with roster := f g.roster }

def modifyBattler (g : GameState) (id : BattlerId) (f : Battler → Battler) : GameState :=
  { g with roster := g.roster.modify id f }

def modifyEnemy (g : GameState) (index : Int) (f : Battler → Battler) : GameState :=
  { g with roster := g.roster.modifyEnemy index f }

def modifyStatus (g : GameState) (f : BattleStatus → BattleStatus) : GameState :=
  { g with status := f g.status }

def setSwitch (g : GameState) (id : Int) (value : Bool) : GameState :=
  { g with switches := g.switches.set id value }

def setVariable (g : GameState) (id value : Int) : GameState :=
  { g with vars := g.vars.set id value }

def showMessage (g : GameState) (text : String) : GameState :=
  { g with message := g.message.push text }

/-- Picks a present battler of a side with the game's dice. -/
def randomPresent (g : GameState) (side : Side) : Option BattlerId × GameState :=
  let (pick, dice) := g.roster.randomPresent side g.dice
  (pick, { g with dice := dice })

end GameState

end ActiveBattle
