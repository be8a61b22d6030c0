import ActiveBattle.Basic

/-!
# Instructions

The command set of event programs and the one line of a program. Missing parameters read as zero and
missing text as empty.
-/

namespace ActiveBattle

set_option autoImplicit false

/-- The commands a script can hold; a name outside the set reads as `unsupported`. -/
inductive Opcode where
  | comment
  | showMessage
  | controlSwitches
  | controlVariables
  | conditionalBranch
  | elseBranch
  | endBranch
  | loop
  | breakLoop
  | endLoop
  | label
  | jumpToLabel
  | wait
  | callEvent
  | playSound
  | showPicture
  | endEventProcessing
  | callCommonEvent
  | forceFlee
  | enableCombo
  | changeMonsterHp
  | changeMonsterMp
  | changeMonsterCondition
  | showHiddenMonster
  | changeBattleBackground
  | showBattleAnimation
  | terminateBattle
  | conditionalBranchBattle
  | elseBranchBattle
  | endBranchBattle
  | controlBattleHooks
  | unsupported
deriving DecidableEq

/-- Commands that mean something only during a battle. -/
def Opcode.isBattleOnly : Opcode → Bool
  | callCommonEvent | forceFlee | enableCombo | changeMonsterHp | changeMonsterMp
  | changeMonsterCondition | showHiddenMonster | changeBattleBackground | showBattleAnimation
  | terminateBattle | conditionalBranchBattle | elseBranchBattle | endBranchBattle
  | controlBattleHooks => true
  | _ => false

/-- One line of a program. Bodies of branches and loops are indented deeper than their heads. -/
structure Instruction where
  opcode : Opcode
  indent : Int := 0
  params : List Int := []
  text : Option String := none
deriving DecidableEq

namespace Instruction

/-- Parameter `i`, or zero past the end. -/
def param (inst : Instruction) (i : Nat) : Int := inst.params.getD i 0

/-- The text, empty when there is none. -/
def textOrEmpty (inst : Instruction) : String := inst.text.getD ""

end Instruction

abbrev Program := List Instruction

end ActiveBattle
