import ActiveBattle.Script.Instruction
import ActiveBattle.Script.Memory
import ActiveBattle.Script.PageCondition

/-!
# Programs and the program store

Common events, the encounter with its scripted pages, and the read-only table of every program a
battle can run. A frame names its program by an owner tag: negative for common events, positive for
one-based pages, and zero for programs built on the fly.
-/

namespace ActiveBattle

set_option autoImplicit false

/-- When a common event starts on its own. -/
inductive Trigger where
  | autoStart
  | parallel
  | callOnly
deriving DecidableEq

/-- A switch that must hold a given state for the event to run. -/
structure GuardSwitch where
  switchId : Int
  expected : Bool := true
deriving DecidableEq

structure CommonEvent where
  id : Int
  name : String := ""
  trigger : Trigger := .callOnly
  guardSwitch : Option GuardSwitch := none
  instructions : Program
deriving DecidableEq

/-- True when there is no guard or the guarding switch holds its expected state. -/
def CommonEvent.guardAllows (e : CommonEvent) (switches : Switches) : Bool :=
  match e.guardSwitch with
  | some guard => switches.get guard.switchId == guard.expected
  | none => true

structure TroopPage where
  condition : PageCondition := {}
  instructions : Program
deriving DecidableEq

structure TroopMember where
  enemyId : Int
  position : Point := {}
  hidden : Bool := false
deriving DecidableEq

structure Troop where
  id : Int := 0
  name : String := ""
  members : List TroopMember := []
  pages : List TroopPage := []
deriving DecidableEq

/-- Which program a frame executes. -/
structure OwnerTag where
  value : Int := 0
deriving DecidableEq

namespace OwnerTag

/-- The tag of programs built on the fly. -/
def synthetic : OwnerTag := ⟨0⟩

def ofCommonEvent (id : Int) : OwnerTag := ⟨-id⟩

/-- The tag of a one-based page, cut to operand width. -/
def ofPage (page : Nat) : OwnerTag := ⟨wrapOperand page⟩

def commonEventId? (tag : OwnerTag) : Option Int :=
  if tag.value < 0 then some (-tag.value) else none

def page? (tag : OwnerTag) : Option Nat :=
  if tag.value > 0 then some tag.value.toNat else none

end OwnerTag

/-- Every program of a battle; events are ordered by id and no id occurs twice. -/
structure ProgramStore where
  events : List CommonEvent := []
  troop : Troop := {}
deriving DecidableEq

namespace ProgramStore

/-- Puts an event at its place by id, over an event of the same id. -/
def place (e : CommonEvent) : List CommonEvent → List CommonEvent
  | [] => [e]
  | head :: rest =>
    if e.id < head.id then e :: head :: rest
    else if e.id = head.id then e :: rest
    else head :: place e rest

/-- The store of a list of events; of several with one id the last counts. -/
def ofEvents (events : List CommonEvent) (troop : Troop) : ProgramStore :=
  ⟨events.foldl (fun placed e => place e placed) [], troop⟩

def event? (s : ProgramStore) (id : Int) : Option CommonEvent := s.events.find? (·.id = id)

def page? (s : ProgramStore) (number : Nat) : Option TroopPage :=
  match number with
  | 0 => none
  | n + 1 => s.troop.pages[n]?

def pageCount (s : ProgramStore) : Nat := s.troop.pages.length

/-- The program an owner tag stands for. -/
def resolve (s : ProgramStore) (owner : OwnerTag) : Option Program :=
  match owner.commonEventId? with
  | some id => (s.event? id).map (·.instructions)
  | none => (owner.page?.bind s.page?).map (·.instructions)

end ProgramStore

end ActiveBattle
