import ActiveBattle.Document.Database
import ActiveBattle.Document.Script
import ActiveBattle.Scene.Basic

/-!
# Game documents

Battlers, the roster, actions, the storage and status of a battle and what a battle starts from.
-/

namespace ActiveBattle.Document

set_option autoImplicit false

open Fields

instance : Decodable ActiveState where
  decode := readRecord do
    return { id := ← need "id", turns := ← need "turns" }

instance : Encodable ActiveState where
  encode s := table [field "id" s.id, field "turns" s.turns]

instance : Decodable Combo where
  decode := readRecord do
    return { commandId := ← need "command_id", times := ← need "times" }

instance : Encodable Combo where
  encode c := table [field "command_id" c.commandId, field "times" c.times]

instance : Decodable Battler where
  decode := readRecord do
    return {
      id := ← need "id"
      dbId := ← need "db_id"
      name := ← need "name"
      stats := ← need "stats"
      hp := ← need "hp"
      sp := ← need "sp"
      states := ← need "states"
      hidden := ← need "hidden"
      position := ← need "position"
      flip := ← need "flip"
      gauge := ← need "gauge"
      battleTurn := ← need "battle_turn"
      lastBattleAction := ← need "last_battle_action"
      combo := ← optional "combo"
      row := ← need "row"
      controllable := ← need "controllable"
      preemptive := ← need "preemptive"
      defending := ← need "defending"
      actionQueued := ← need "action_queued"
      skills := ← need "skills"
      commands := ← need "commands"
      deathTimer := ← need "death_timer"
      blinkTimer := ← need "blink_timer"
      pose := ← need "pose"
      poseFrames := ← need "pose_frames" }

instance : Encodable Battler where
  encode b := table [
    field "id" b.id,
    field "db_id" b.dbId,
    field "name" b.name,
    field "stats" b.stats,
    field "hp" b.hp,
    field "sp" b.sp,
    field "states" b.states,
    field "hidden" b.hidden,
    field "position" b.position,
    field "flip" b.flip,
    field "gauge" b.gauge,
    field "battle_turn" b.battleTurn,
    field "last_battle_action" b.lastBattleAction,
    field "combo" b.combo,
    field "row" b.row,
    field "controllable" b.controllable,
    field "preemptive" b.preemptive,
    field "defending" b.defending,
    field "action_queued" b.actionQueued,
    field "skills" b.skills,
    field "commands" b.commands,
    field "death_timer" b.deathTimer,
    field "blink_timer" b.blinkTimer,
    field "pose" b.pose,
    field "pose_frames" b.poseFrames]

/-- Keys of a table are written as decimal text. -/
instance {α : Type} [Encodable α] : Encodable (Table α) where
  encode t := table (t.entries.map fun (key, value) => field (toString key) value)

instance : Encodable Roster where
  encode r := table [
    field "actors" r.actors,
    field "party" r.party,
    field "enemies" r.enemies,
    field "items" r.items,
    field "gold" r.gold,
    field "exp" r.exp,
    field "turns" r.turns]

instance : Decodable Notice where
  decode
    | f, table [("HpChanged", table entries)] =>
      readRecord (do return .hpChanged (← need "target") (← need "change")) f (table entries)
    | _, _ => none

instance : Encodable Notice where
  encode
    | .hpChanged target change =>
      tagged "HpChanged" (table [field "target" target, field "change" change])

instance : Decodable ScreenFlash where
  decode := readRecord do
    return {
      red := ← need "red"
      green := ← need "green"
      blue := ← need "blue"
      strength := ← need "strength"
      frames := ← need "frames" }

instance : Encodable ScreenFlash where
  encode f := table [
    field "red" f.red,
    field "green" f.green,
    field "blue" f.blue,
    field "strength" f.strength,
    field "frames" f.frames]

instance : Encodable ActiveAnimation where
  encode a := table [
    field "animation_id" a.animationId,
    field "targets" a.targets,
    field "frames_left" a.framesLeft]

instance : Encodable BattleStatus where
  encode s := table [
    field "condition" s.condition,
    field "background" s.background,
    field "animation" s.animation,
    field "flash" s.flash,
    field "pictures" s.pictures,
    field "notices" s.notices]

instance : Encodable Switches := ⟨fun s => table [field "data" s.data]⟩

instance : Encodable Variables := ⟨fun v => table [field "data" v.data]⟩

instance : Encodable MessageBox := ⟨fun m => table [field "pages" m.pages]⟩

instance : Decodable CountdownTimer where
  decode := readRecord do
    return {
      frames := ← orElse "frames" 0
      running := ← orElse "running" false
      battleAbort := ← orElse "battle_abort" false }

instance : Encodable CountdownTimer where
  encode t := table [
    field "frames" t.frames,
    field "running" t.running,
    field "battle_abort" t.battleAbort]

/-- Two countdowns are a list of two. -/
instance : Decodable Timers :=
  ⟨fun f d => (decode f d).map fun (first, second) => { first := first, second := second }⟩

instance : Encodable Timers := ⟨fun t => encode (t.first, t.second)⟩

instance : Decodable Outcome where
  decode := readRecord do
    return { success := ← need "success", critical := ← need "critical", hp := ← optional "hp" }

instance : Encodable Outcome where
  encode o := table [field "success" o.success, field "critical" o.critical, field "hp" o.hp]

instance : Decodable Action where
  decode := readRecord do
    return {
      kind := ← need "kind"
      source := ← need "source"
      targets := ← need "targets"
      current := ← need "current"
      repeats := ← need "repeat"
      repeatsDone := ← need "repeats_done"
      reflectTarget := ← optional "reflect_target"
      outcome := ← need "outcome" }

instance : Encodable Action where
  encode a := table [
    field "kind" a.kind,
    field "source" a.source,
    field "targets" a.targets,
    field "current" a.current,
    field "repeat" a.repeats,
    field "repeats_done" a.repeatsDone,
    field "reflect_target" a.reflectTarget,
    field "outcome" a.outcome]

instance : Decodable BattleSetup where
  decode := readRecord do
    return {
      party := ← orElse "party" []
      troop := ← orElse "troop" {}
      commonEvents := ← orElse "common_events" []
      condition := ← orElse "condition" .none
      firstStrike := ← orElse "first_strike" false
      background := ← orElse "background" ""
      timers := ← orElse "timers" {} }

instance : Encodable BattleSetup where
  encode s := table [
    field "party" s.party,
    field "troop" s.troop,
    field "common_events" s.commonEvents,
    field "condition" s.condition,
    field "first_strike" s.firstStrike,
    field "background" s.background,
    field "timers" s.timers]

/-- The kind of an event with what identifies it. -/
instance : Encodable SceneEvent where
  encode
    | .battleStarted _ => text "BattleStarted"
    | .stateChanged before after =>
      tagged "StateChanged" (table [field "from" before, field "to" after])
    | .actionQueued source _ => tagged "ActionQueued" (table [field "source" source])
    | .actionDiscarded source => tagged "ActionDiscarded" (table [field "source" source])
    | .actionStarted source _ _ => tagged "ActionStarted" (table [field "source" source])
    | .turnAdvanced battler _ => tagged "TurnAdvanced" (table [field "battler" battler])
    | .pageScheduled page _ => tagged "PageScheduled" (table [field "page" page])
    | .battleEnded result => tagged "BattleEnded" (table [field "result" result])

end ActiveBattle.Document
