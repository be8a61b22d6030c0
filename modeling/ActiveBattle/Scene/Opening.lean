import ActiveBattle.Scene.Basic

/-!
# The opening

Placing everyone once the backdrop is there, and the announcements before the first choice.
-/

namespace ActiveBattle.Scene

set_option autoImplicit false

variable {σ : Type}

/-- Places all battlers and fills their gauges for the formation of the battle. -/
def finishStart (s : Scene σ) : Scene σ :=
  s.modifyGame fun g =>
    let condition := g.status.condition
    let r := Formation.placeEnemies g.roster s.slots condition
    let r := Formation.placeActors r g.database condition
    { g with
      roster := Formation.seedGauges r g.database condition s.firstStrike s.config.maxAtbGauge }

def announceBattle (s : Scene σ) : Scene σ :=
  let text := s.config.terms.battleStart
  if text.isEmpty then s else (s.showNotification text).setWait 10 80

/-- The formation favours the party. -/
def isFavourable (s : Scene σ) : Bool :=
  s.condition = .initiative || s.condition = .surround || (s.condition = .none && s.firstStrike)

/-- The announcement of a special formation; it shows only when it favours the party, but always
takes its time. -/
def announceFormation (s : Scene σ) : Scene σ :=
  let text := s.config.terms.specialCombat
  if !text.isEmpty && (s.condition ≠ .none || s.firstStrike) then
    (if s.isFavourable then s.showNotification text else s).setWait 30 70
  else s

def turnBattlers (s : Scene σ) : Scene σ :=
  s.modifyRoster fun r => Formation.turnActors (Formation.turnEnemies r s.condition) s.condition

/-- The opening: two announcements, facing, then the first events. -/
def processStart (s : Scene σ) : Pace × Scene σ :=
  match s.substate with
  | 0 => (s.announceBattle.setSubstate 1).goOn
  | 1 => (s.endNotification.announceFormation.setSubstate 2).goOn
  | 2 => (s.endNotification.turnBattlers.setSubstate 3).goOn
  | _ =>
    match s.checkEvents .all none with
    | (true, s) => (s.setState .selectOption).goOn
    | (false, s) => s.goOn

end ActiveBattle.Scene
