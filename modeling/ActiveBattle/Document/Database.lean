import ActiveBattle.Document.Nouns

/-!
# Database documents

Definitions need an id and a name; most of their other fields have defaults.
-/

namespace ActiveBattle.Document

set_option autoImplicit false

open Fields

instance : Decodable SoundEffect where
  decode := readRecord do
    return { name := ← need "name", volume := ← orElse "volume" 100, tempo := ← orElse "tempo" 100 }

instance : Encodable SoundEffect where
  encode s := table [field "name" s.name, field "volume" s.volume, field "tempo" s.tempo]

instance : Decodable SystemSounds where
  decode := readRecord do
    let d : SystemSounds := {}
    return {
      decision := ← orElse "decision" d.decision
      cancel := ← orElse "cancel" d.cancel
      buzzer := ← orElse "buzzer" d.buzzer
      escape := ← orElse "escape" d.escape
      enemyKill := ← orElse "enemy_kill" d.enemyKill
      allyDamage := ← orElse "ally_damage" d.allyDamage
      enemyDamage := ← orElse "enemy_damage" d.enemyDamage
      evasion := ← orElse "evasion" d.evasion }

instance : Encodable SystemSounds where
  encode s := table [
    field "decision" s.decision,
    field "cancel" s.cancel,
    field "buzzer" s.buzzer,
    field "escape" s.escape,
    field "enemy_kill" s.enemyKill,
    field "ally_damage" s.allyDamage,
    field "enemy_damage" s.enemyDamage,
    field "evasion" s.evasion]

instance : Decodable StateDef where
  decode := readRecord do
    return {
      id := ← need "id"
      name := ← need "name"
      restriction := ← orElse "restriction" .normal
      hpChange := ← orElse "hp_change" 0
      autoReleaseTurns := ← orElse "auto_release_turns" 0
      reflect := ← orElse "reflect" false
      priority := ← orElse "priority" 0 }

instance : Encodable StateDef where
  encode s := table [
    field "id" s.id,
    field "name" s.name,
    field "restriction" s.restriction,
    field "hp_change" s.hpChange,
    field "auto_release_turns" s.autoReleaseTurns,
    field "reflect" s.reflect,
    field "priority" s.priority]

instance : Decodable SkillDef where
  decode := readRecord do
    return {
      id := ← need "id"
      name := ← need "name"
      spCost := ← orElse "sp_cost" 0
      power := ← orElse "power" 0
      scope := ← orElse "scope" .singleEnemy
      heals := ← orElse "heals" false
      animationId := ← orElse "animation_id" 0
      hitRate := ← orElse "hit_rate" 100
      addStates := ← orElse "add_states" []
      removeStates := ← orElse "remove_states" []
      reflectable := ← orElse "reflectable" false
      switchOn := ← orElse "switch_on" none
      subset := ← orElse "subset" 0 }

instance : Encodable SkillDef where
  encode s := table [
    field "id" s.id,
    field "name" s.name,
    field "sp_cost" s.spCost,
    field "power" s.power,
    field "scope" s.scope,
    field "heals" s.heals,
    field "animation_id" s.animationId,
    field "hit_rate" s.hitRate,
    field "add_states" s.addStates,
    field "remove_states" s.removeStates,
    field "reflectable" s.reflectable,
    field "switch_on" s.switchOn,
    field "subset" s.subset]

instance : Decodable ItemDef where
  decode := readRecord do
    return {
      id := ← need "id"
      name := ← need "name"
      hpRecovery := ← orElse "hp_recovery" 0
      scope := ← orElse "scope" .singleAlly
      animationId := ← orElse "animation_id" 0 }

instance : Encodable ItemDef where
  encode i := table [
    field "id" i.id,
    field "name" i.name,
    field "hp_recovery" i.hpRecovery,
    field "scope" i.scope,
    field "animation_id" i.animationId]

instance : Decodable AnimationDef where
  decode := readRecord do
    return {
      id := ← need "id"
      name := ← orElse "name" ""
      frames := ← need "frames"
      se := ← orElse "se" none }

instance : Encodable AnimationDef where
  encode a := table [field "id" a.id, field "name" a.name, field "frames" a.frames, field "se" a.se]

instance : Decodable BattleCommandDef where
  decode := readRecord do
    return { id := ← need "id", name := ← need "name", kind := ← need "kind" }

instance : Encodable BattleCommandDef where
  encode c := table [field "id" c.id, field "name" c.name, field "kind" c.kind]

instance : Decodable EnemyAction where
  decode := readRecord do
    return { kind := ← need "kind", rating := ← need "rating" }

instance : Encodable EnemyAction where
  encode a := table [field "kind" a.kind, field "rating" a.rating]

instance : Decodable Stats where
  decode := readRecord do
    let d : Stats := {}
    return {
      maxHp := ← orElse "max_hp" d.maxHp
      maxSp := ← orElse "max_sp" d.maxSp
      attack := ← orElse "attack" d.attack
      defense := ← orElse "defense" d.defense
      spirit := ← orElse "spirit" d.spirit
      agility := ← orElse "agility" d.agility
      hitRate := ← orElse "hit_rate" d.hitRate
      critRate := ← orElse "crit_rate" d.critRate }

instance : Encodable Stats where
  encode s := table [
    field "max_hp" s.maxHp,
    field "max_sp" s.maxSp,
    field "attack" s.attack,
    field "defense" s.defense,
    field "spirit" s.spirit,
    field "agility" s.agility,
    field "hit_rate" s.hitRate,
    field "crit_rate" s.critRate]

instance : Decodable ActorDef where
  decode := readRecord do
    return {
      id := ← need "id"
      name := ← need "name"
      stats := ← orElse "stats" {}
      skills := ← orElse "skills" []
      commands := ← orElse "commands" []
      row := ← orElse "row" .front
      controllable := ← orElse "controllable" true
      preemptive := ← orElse "preemptive" false }

instance : Encodable ActorDef where
  encode a := table [
    field "id" a.id,
    field "name" a.name,
    field "stats" a.stats,
    field "skills" a.skills,
    field "commands" a.commands,
    field "row" a.row,
    field "controllable" a.controllable,
    field "preemptive" a.preemptive]

instance : Decodable EnemyDef where
  decode := readRecord do
    return {
      id := ← need "id"
      name := ← need "name"
      stats := ← orElse "stats" {}
      exp := ← orElse "exp" 0
      gold := ← orElse "gold" 0
      dropItem := ← orElse "drop_item" none
      actions := ← orElse "actions" []
      preemptive := ← orElse "preemptive" false }

instance : Encodable EnemyDef where
  encode e := table [
    field "id" e.id,
    field "name" e.name,
    field "stats" e.stats,
    field "exp" e.exp,
    field "gold" e.gold,
    field "drop_item" e.dropItem,
    field "actions" e.actions,
    field "preemptive" e.preemptive]

instance : Decodable Database where
  decode := readRecord do
    return {
      actors := ← orElse "actors" []
      enemies := ← orElse "enemies" []
      skills := ← orElse "skills" []
      items := ← orElse "items" []
      states := ← orElse "states" []
      animations := ← orElse "animations" []
      commands := ← orElse "commands" []
      systemSounds := ← orElse "system_sounds" {} }

instance : Encodable Database where
  encode db := table [
    field "actors" db.actors,
    field "enemies" db.enemies,
    field "skills" db.skills,
    field "items" db.items,
    field "states" db.states,
    field "animations" db.animations,
    field "commands" db.commands,
    field "system_sounds" db.systemSounds]

end ActiveBattle.Document
