import ActiveBattle.Action.Basic

/-!
# Choosing actions

The actions of battlers nobody controls. Enemies pick from their list, weighted by rating; actors
left to themselves attack a random enemy. A state that restricts its bearer decides before either.
-/

namespace ActiveBattle

set_option autoImplicit false

namespace Action

/-- An attack on a random battler of a side, or nothing when nobody is there. -/
def attackOn (source : BattlerId) (side : Side) (g : GameState) : Action × GameState :=
  match g.randomPresent side with
  | (some target, g) => (attack source target, g)
  | (none, g) => (idle source, g)

/-- A random target a scope can reach from `source`. -/
def pickFor (source : BattlerId) (scope : Scope) (g : GameState) : Option BattlerId × GameState :=
  match scope with
  | .singleEnemy | .allEnemies => g.randomPresent source.side.opposite
  | .singleAlly | .allAllies => g.randomPresent source.side
  | .user => (some source, g)

/-- The action a restricted battler is forced to; none when nothing restricts it. -/
def restricted (source : BattlerId) (g : GameState) : Option (Action × GameState) :=
  match g.roster.battler? source with
  | none => none
  | some b =>
    match b.restriction g.database with
    | .normal => none
    | .doNothing => some (idle source, g)
    | .attackAlly => some (attackOn source source.side g)
    | .attackEnemy => some (attackOn source source.side.opposite g)

def ofEnemyAction (source : BattlerId) (kind : EnemyActionKind) (g : GameState) :
    Action × GameState :=
  match kind with
  | .attack => attackOn source .ally g
  | .defend => (defend source, g)
  | .skill id =>
    let scope := ((g.database.skill? id).map (·.scope)).getD .singleEnemy
    let (pick, g) := pickFor source scope g
    let targets := targetsFor g.roster source scope pick
    (if targets.isEmpty then idle source else skill source id targets, g)
  | .nothing => (idle source, g)

/-- An entry with a positive rating that is no skill, or a known skill its user can pay for. -/
def isUsable (db : Database) (sp : Int) (a : EnemyAction) : Bool :=
  decide (a.rating > 0) &&
    match a.kind with
    | .skill id => (db.skill? id).any (·.spCost ≤ sp)
    | _ => true

/-- The entry a roll falls on when the ratings are laid end to end. -/
def chosenBy : List EnemyAction → Int → EnemyActionKind
  | [], _ => .nothing
  | a :: rest, roll => if roll < a.rating then a.kind else chosenBy rest (roll - a.rating)

/-- An enemy's choice: a usable entry by weight, or an attack when there is none. -/
def chooseEnemy (source : BattlerId) (g : GameState) : Action × GameState :=
  match g.roster.battler? source with
  | none => (idle source, g)
  | some enemy =>
    match g.database.enemy? enemy.dbId with
    | none => (idle source, g)
    | some d =>
      let usable := d.actions.filter (isUsable g.database enemy.sp)
      let weight := wrapOperand ((usable.map (·.rating)).foldl (· + ·) 0)
      if weight ≤ 0 then ofEnemyAction source .attack g
      else
        let (roll, dice) := g.dice.between 0 (weight - 1)
        ofEnemyAction source (chosenBy usable roll) { g with dice := dice }

def chooseAuto (source : BattlerId) (g : GameState) : Action × GameState :=
  attackOn source source.side.opposite g

end Action

/-- Who chooses for battlers nobody controls. -/
inductive Chooser where
  | enemy
  | auto
deriving DecidableEq

def Chooser.choose (c : Chooser) (source : BattlerId) (g : GameState) : Action × GameState :=
  match c with
  | enemy => Action.chooseEnemy source g
  | auto => Action.chooseAuto source g

/-- The choice for a battler that is ready: forced by a restriction, else the chooser's. -/
def Chooser.chooseFor (c : Chooser) (source : BattlerId) (g : GameState) : Action × GameState :=
  (Action.restricted source g).getD (c.choose source g)

end ActiveBattle
