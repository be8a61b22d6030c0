import ActiveBattle.Document.Json
import ActiveBattle.Document.Nouns
import ActiveBattle.Script.Interpreter

/-!
# Script documents

Instructions, events, pages and troops, and the snapshots an interpreter is kept by. A snapshot is
written without blanks, so that equal snapshots have equal texts.
-/

namespace ActiveBattle.Document

set_option autoImplicit false

open Fields

instance : Decodable Instruction where
  decode := readRecord do
    return {
      opcode := ← need "opcode"
      indent := ← orElse "indent" 0
      params := ← orElse "params" []
      text := ← orElse "text" none }

/-- The text is left out when there is none. -/
instance : Encodable Instruction where
  encode i := table ([
    field "opcode" i.opcode,
    field "indent" i.indent,
    field "params" i.params] ++
    match i.text with
    | some s => [field "text" s]
    | none => [])

instance : Decodable ConditionFlags := ⟨fun f d => (decode f d).map ConditionFlags.ofList⟩

instance : Encodable ConditionFlags := ⟨fun f => encode f.toList⟩

instance : Decodable PageCondition where
  decode := readRecord do
    return {
      flags := ← orElse "flags" {}
      switchAId := ← orElse "switch_a_id" 0
      switchBId := ← orElse "switch_b_id" 0
      variableId := ← orElse "variable_id" 0
      variableValue := ← orElse "variable_value" 0
      turnA := ← orElse "turn_a" 0
      turnB := ← orElse "turn_b" 0
      turnEnemyId := ← orElse "turn_enemy_id" 0
      turnEnemyA := ← orElse "turn_enemy_a" 0
      turnEnemyB := ← orElse "turn_enemy_b" 0
      turnActorId := ← orElse "turn_actor_id" 0
      turnActorA := ← orElse "turn_actor_a" 0
      turnActorB := ← orElse "turn_actor_b" 0
      fatigueMin := ← orElse "fatigue_min" 0
      fatigueMax := ← orElse "fatigue_max" 0
      enemyId := ← orElse "enemy_id" 0
      enemyHpMin := ← orElse "enemy_hp_min" 0
      enemyHpMax := ← orElse "enemy_hp_max" 0
      actorId := ← orElse "actor_id" 0
      actorHpMin := ← orElse "actor_hp_min" 0
      actorHpMax := ← orElse "actor_hp_max" 0
      commandActorId := ← orElse "command_actor_id" 0
      commandId := ← orElse "command_id" 0 }

instance : Encodable PageCondition where
  encode c := table [
    field "flags" c.flags,
    field "switch_a_id" c.switchAId,
    field "switch_b_id" c.switchBId,
    field "variable_id" c.variableId,
    field "variable_value" c.variableValue,
    field "turn_a" c.turnA,
    field "turn_b" c.turnB,
    field "turn_enemy_id" c.turnEnemyId,
    field "turn_enemy_a" c.turnEnemyA,
    field "turn_enemy_b" c.turnEnemyB,
    field "turn_actor_id" c.turnActorId,
    field "turn_actor_a" c.turnActorA,
    field "turn_actor_b" c.turnActorB,
    field "fatigue_min" c.fatigueMin,
    field "fatigue_max" c.fatigueMax,
    field "enemy_id" c.enemyId,
    field "enemy_hp_min" c.enemyHpMin,
    field "enemy_hp_max" c.enemyHpMax,
    field "actor_id" c.actorId,
    field "actor_hp_min" c.actorHpMin,
    field "actor_hp_max" c.actorHpMax,
    field "command_actor_id" c.commandActorId,
    field "command_id" c.commandId]

instance : Decodable GuardSwitch where
  decode := readRecord do
    return { switchId := ← need "switch_id", expected := ← orElse "expected" true }

instance : Encodable GuardSwitch where
  encode g := table [field "switch_id" g.switchId, field "expected" g.expected]

instance : Decodable CommonEvent where
  decode := readRecord do
    return {
      id := ← need "id"
      name := ← orElse "name" ""
      trigger := ← orElse "trigger" .callOnly
      guardSwitch := ← orElse "guard_switch" none
      instructions := ← need "instructions" }

instance : Encodable CommonEvent where
  encode e := table [
    field "id" e.id,
    field "name" e.name,
    field "trigger" e.trigger,
    field "guard_switch" e.guardSwitch,
    field "instructions" e.instructions]

instance : Decodable TroopPage where
  decode := readRecord do
    return { condition := ← orElse "condition" {}, instructions := ← need "instructions" }

instance : Encodable TroopPage where
  encode p := table [field "condition" p.condition, field "instructions" p.instructions]

instance : Decodable TroopMember where
  decode := readRecord do
    return {
      enemyId := ← need "enemy_id"
      position := ← orElse "position" {}
      hidden := ← orElse "hidden" false }

instance : Encodable TroopMember where
  encode m := table [
    field "enemy_id" m.enemyId,
    field "position" m.position,
    field "hidden" m.hidden]

instance : Decodable Troop where
  decode := readRecord do
    return {
      id := ← orElse "id" 0
      name := ← orElse "name" ""
      members := ← orElse "members" []
      pages := ← orElse "pages" [] }

instance : Encodable Troop where
  encode t := table [
    field "id" t.id,
    field "name" t.name,
    field "members" t.members,
    field "pages" t.pages]

/-- A tag is its number. -/
instance : Decodable OwnerTag := ⟨fun f d => (decode f d).map (⟨·⟩)⟩

instance : Encodable OwnerTag := ⟨fun t => encode t.value⟩

instance : Decodable FrameSnapshot where
  decode := readRecord do
    return {
      ownerTag := ← need "owner_tag"
      cursor := ← need "cursor"
      branchChoices := ← orElse "branch_choices" [] }

instance : Encodable FrameSnapshot where
  encode s := table [
    field "owner_tag" s.ownerTag,
    field "cursor" s.cursor,
    field "branch_choices" s.branchChoices]

instance : Decodable ExecutionSnapshot where
  decode := readRecord do
    return { stack := ← orElse "stack" [], waitFrames := ← orElse "wait_frames" 0 }

instance : Encodable ExecutionSnapshot where
  encode s := table [field "stack" s.stack, field "wait_frames" s.waitFrames]

instance : Encodable HookBinding where
  encode b := table [
    field "common_event_id" b.commonEventId,
    field "variable_start" b.variableStart]

instance : Encodable HookTable := ⟨fun t => table [field "slots" t.slots.toList]⟩

end ActiveBattle.Document

namespace ActiveBattle.ExecutionSnapshot

/-- The text a snapshot is kept as. -/
def toText (s : ExecutionSnapshot) : String := Document.Json.write (encode s)

/-- The snapshot of a text. -/
def ofText? (text : String) : Option ExecutionSnapshot :=
  (Document.Json.parse text).bind (decode Document.Json.format)

end ActiveBattle.ExecutionSnapshot
