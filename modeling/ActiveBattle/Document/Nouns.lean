import ActiveBattle.Config
import ActiveBattle.Document.Basic
import ActiveBattle.Host
import ActiveBattle.Scene.State
import ActiveBattle.Script.Hook

/-!
# Names and references in documents

How the nouns of a battle that are chosen from a set are spelled, and how battlers and actions are
referred to.
-/

namespace ActiveBattle.Document

set_option autoImplicit false

def dialects : List (String × Dialect) := [("rpg2k", .rpg2k), ("rpg2k3", .rpg2k3)]

def battleTypes : List (String × BattleType) :=
  [("traditional", .traditional), ("alternative", .alternative), ("gauge", .gauge)]

def atbModes : List (String × AtbMode) := [("active", .active), ("wait", .wait)]

def placements : List (String × Placement) := [("automatic", .automatic), ("manual", .manual)]

def results : List (String × BattleResult) :=
  [("victory", .victory), ("escape", .escape), ("defeat", .defeat), ("abort", .abort)]

def restrictions : List (String × Restriction) :=
  [("normal", .normal), ("do_nothing", .doNothing), ("attack_enemy", .attackEnemy),
    ("attack_ally", .attackAlly)]

def scopes : List (String × Scope) :=
  [("single_enemy", .singleEnemy), ("all_enemies", .allEnemies), ("single_ally", .singleAlly),
    ("all_allies", .allAllies), ("user", .user)]

def commandKinds : List (String × BattleCommandKind) :=
  [("attack", .attack), ("defense", .defense), ("escape", .escape), ("item", .item),
    ("skill", .skill), ("special", .special), ("subskill", .subskill)]

def rows : List (String × Row) := [("front", .front), ("back", .back)]

def triggers : List (String × Trigger) :=
  [("auto_start", .autoStart), ("parallel", .parallel), ("call_only", .callOnly)]

def conditionKinds : List (String × ConditionKind) :=
  [("switch_a", .switchA), ("switch_b", .switchB), ("variable", .variableAtLeast), ("turn", .turn),
    ("turn_enemy", .turnEnemy), ("turn_actor", .turnActor), ("fatigue", .fatigue),
    ("enemy_hp", .enemyHp), ("actor_hp", .actorHp), ("command_actor", .commandActor)]

def opcodes : List (String × Opcode) :=
  [("comment", .comment), ("show_message", .showMessage), ("control_switches", .controlSwitches),
    ("control_variables", .controlVariables), ("conditional_branch", .conditionalBranch),
    ("else_branch", .elseBranch), ("end_branch", .endBranch), ("loop", .loop),
    ("break_loop", .breakLoop), ("end_loop", .endLoop), ("label", .label),
    ("jump_to_label", .jumpToLabel), ("wait", .wait), ("call_event", .callEvent),
    ("play_sound", .playSound), ("show_picture", .showPicture),
    ("end_event_processing", .endEventProcessing), ("call_common_event", .callCommonEvent),
    ("force_flee", .forceFlee), ("enable_combo", .enableCombo),
    ("change_monster_hp", .changeMonsterHp), ("change_monster_mp", .changeMonsterMp),
    ("change_monster_condition", .changeMonsterCondition),
    ("show_hidden_monster", .showHiddenMonster),
    ("change_battle_background", .changeBattleBackground),
    ("show_battle_animation", .showBattleAnimation), ("terminate_battle", .terminateBattle),
    ("conditional_branch_battle", .conditionalBranchBattle),
    ("else_branch_battle", .elseBranchBattle), ("end_branch_battle", .endBranchBattle),
    ("control_battle_hooks", .controlBattleHooks), ("unsupported", .unsupported)]

def battleConditions : List (String × BattleCondition) :=
  [("none", .none), ("initiative", .initiative), ("back", .back), ("surround", .surround),
    ("pincers", .pincers)]

def hookKinds : List (String × HookKind) :=
  [("atb_increment", .atbIncrement), ("damage_pop", .damagePop), ("targeting", .targeting),
    ("set_state", .setState), ("stat_change", .statChange)]

def assetKinds : List (String × AssetKind) :=
  [("picture", .picture), ("battler", .battler), ("backdrop", .backdrop), ("system", .system)]

def sides : List (String × Side) := [("Ally", .ally), ("Enemy", .enemy)]

def poses : List (String × Pose) :=
  [("Idle", .idle), ("AttackLeft", .attackLeft), ("AttackRight", .attackRight), ("Skill", .skill),
    ("Item", .item), ("Defend", .defend), ("Damage", .damage), ("Dead", .dead),
    ("Victory", .victory), ("WalkLeft", .walkLeft), ("WalkRight", .walkRight)]

def buttons : List (String × Button) :=
  [("Decision", .decision), ("Cancel", .cancel), ("Shift", .shift), ("Up", .up), ("Down", .down),
    ("Left", .left), ("Right", .right), ("DebugMenu", .debugMenu)]

def sceneStates : List (String × SceneState) :=
  [("Start", .start), ("SelectOption", .selectOption), ("SelectActor", .selectActor),
    ("AutoBattle", .autoBattle), ("SelectCommand", .selectCommand), ("SelectItem", .selectItem),
    ("SelectSkill", .selectSkill), ("SelectEnemyTarget", .selectEnemyTarget),
    ("SelectAllyTarget", .selectAllyTarget), ("Battle", .battle), ("Victory", .victory),
    ("Defeat", .defeat), ("Escape", .escape)]

def actionStates : List (String × ActionState) :=
  [("Begin", .begin), ("StartAlgo", .startAlgo), ("Animation", .animation),
    ("AnimationReflect", .animationReflect), ("Apply", .apply), ("Finished", .finished)]

def frameSteps : List (String × FrameStep) :=
  [("AssetContinuation", .assetContinuation), ("DebugResume", .debugResume), ("Screen", .screen),
    ("Battlers", .battlers), ("FloatText", .floatText), ("RunningAway", .runningAway), ("Ui", .ui),
    ("Events", .events), ("Timers", .timers), ("DebugMenu", .debugMenu), ("EndCheck", .endCheck),
    ("Atb", .atb), ("Cursors", .cursors), ("Dispatch", .dispatch)]

instance : Decodable Dialect := ⟨readName dialects⟩

instance : Encodable Dialect := ⟨writeName dialects⟩

instance : Decodable BattleType := ⟨readName battleTypes⟩

instance : Encodable BattleType := ⟨writeName battleTypes⟩

instance : Decodable AtbMode := ⟨readName atbModes⟩

instance : Encodable AtbMode := ⟨writeName atbModes⟩

instance : Decodable Placement := ⟨readName placements⟩

instance : Encodable Placement := ⟨writeName placements⟩

instance : Decodable BattleResult := ⟨readName results⟩

instance : Encodable BattleResult := ⟨writeName results⟩

instance : Decodable Restriction := ⟨readName restrictions⟩

instance : Encodable Restriction := ⟨writeName restrictions⟩

instance : Decodable Scope := ⟨readName scopes⟩

instance : Encodable Scope := ⟨writeName scopes⟩

instance : Decodable BattleCommandKind := ⟨readName commandKinds⟩

instance : Encodable BattleCommandKind := ⟨writeName commandKinds⟩

instance : Decodable Row := ⟨readName rows⟩

instance : Encodable Row := ⟨writeName rows⟩

instance : Decodable Trigger := ⟨readName triggers⟩

instance : Encodable Trigger := ⟨writeName triggers⟩

instance : Decodable ConditionKind := ⟨readName conditionKinds⟩

instance : Encodable ConditionKind := ⟨writeName conditionKinds⟩

/-- Any other name is that of a command nobody supports. -/
def readOpcode (f : Format) (d : Document) : Option Opcode :=
  (f.loneName d).map fun _ => (readName opcodes f d).getD .unsupported

instance : Decodable Opcode := ⟨readOpcode⟩

instance : Encodable Opcode := ⟨writeName opcodes⟩

instance : Decodable BattleCondition := ⟨readName battleConditions⟩

instance : Encodable BattleCondition := ⟨writeName battleConditions⟩

instance : Decodable HookKind := ⟨readName hookKinds⟩

instance : Encodable HookKind := ⟨writeName hookKinds⟩

instance : Decodable AssetKind := ⟨readName assetKinds⟩

instance : Encodable AssetKind := ⟨writeName assetKinds⟩

instance : Decodable Side := ⟨readName sides⟩

instance : Encodable Side := ⟨writeName sides⟩

instance : Decodable Pose := ⟨readName poses⟩

instance : Encodable Pose := ⟨writeName poses⟩

instance : Decodable Button := ⟨readName buttons⟩

instance : Encodable Button := ⟨writeName buttons⟩

instance : Decodable SceneState := ⟨readName sceneStates⟩

instance : Encodable SceneState := ⟨writeName sceneStates⟩

instance : Encodable ActionState := ⟨writeName actionStates⟩

instance : Encodable FrameStep := ⟨writeName frameSteps⟩

/-- A value under a tag. -/
def tagged (tag : String) (d : Document) : Document := table [(tag, d)]

instance : Decodable BattlerId where
  decode
    | f, table [("Actor", d)] => (decode f d).map .actor
    | f, table [("Enemy", d)] => (decode f d).map .enemy
    | _, _ => none

instance : Encodable BattlerId where
  encode
    | .actor id => tagged "Actor" (encode id)
    | .enemy index => tagged "Enemy" (encode index)

instance : Decodable EnemyActionKind where
  decode
    | f, table [("skill", d)] => (decode f d).map .skill
    | f, d => readName [("attack", .attack), ("defend", .defend), ("nothing", .nothing)] f d

instance : Encodable EnemyActionKind where
  encode
    | .attack => text "attack"
    | .defend => text "defend"
    | .skill id => tagged "skill" (encode id)
    | .nothing => text "nothing"

instance : Decodable ActionKind where
  decode
    | f, table [("Skill", d)] => (decode f d).map .skill
    | f, table [("Item", d)] => (decode f d).map .item
    | f, d => readName [("Normal", .normal), ("Defend", .defend), ("None", .none)] f d

instance : Encodable ActionKind where
  encode
    | .normal => text "Normal"
    | .skill id => tagged "Skill" (encode id)
    | .item id => tagged "Item" (encode id)
    | .defend => text "Defend"
    | .none => text "None"

/-- Handles of loads take 32 bits. -/
instance : Decodable AssetRequest := ⟨fun _ d => (natBelow 4294967296 d).map (⟨·⟩)⟩

instance : Encodable AssetRequest := ⟨fun r => encode r.number⟩

instance : Decodable Point :=
  ⟨readRecord do return { x := ← Fields.need "x", y := ← Fields.need "y" }⟩

instance : Encodable Point := ⟨fun p => table [field "x" p.x, field "y" p.y]⟩

end ActiveBattle.Document
