import ActiveBattle.Document.Nouns
import ActiveBattle.Document.Toml

/-!
# Configuration documents

Every key of a configuration may be missing and keeps its default then. A configuration of its own
is kept as TOML.
-/

namespace ActiveBattle.Document

set_option autoImplicit false

open Fields in
instance : Decodable Terms where
  decode := readRecord do
    let d : Terms := {}
    return {
      battleStart := ← orElse "battle_start" d.battleStart
      specialCombat := ← orElse "special_combat" d.specialCombat
      escapeFailure := ← orElse "escape_failure" d.escapeFailure
      miss := ← orElse "miss" d.miss
      victory := ← orElse "victory" d.victory
      defeat := ← orElse "defeat" d.defeat
      expReceived := ← orElse "exp_received" d.expReceived
      goldReceived := ← orElse "gold_received" d.goldReceived
      itemReceived := ← orElse "item_received" d.itemReceived }

instance : Encodable Terms where
  encode t := table [
    field "battle_start" t.battleStart,
    field "special_combat" t.specialCombat,
    field "escape_failure" t.escapeFailure,
    field "miss" t.miss,
    field "victory" t.victory,
    field "defeat" t.defeat,
    field "exp_received" t.expReceived,
    field "gold_received" t.goldReceived,
    field "item_received" t.itemReceived]

open Fields in
instance : Decodable BattleConfig where
  decode := readRecord do
    let d : BattleConfig := {}
    return {
      dialect := ← orElse "dialect" d.dialect
      maniacPatch := ← orElse "maniac_patch" d.maniacPatch
      interpreterLoopLimit := ←
        orElseBy (natBelow 4294967296) "interpreter_loop_limit" d.interpreterLoopLimit
      battleType := ← orElse "battle_type" d.battleType
      atbMode := ← orElse "atb_mode" d.atbMode
      placement := ← orElse "placement" d.placement
      invertAnimations := ← orElse "invert_animations" d.invertAnimations
      escapeAllowed := ← orElse "escape_allowed" d.escapeAllowed
      debugMenuEnabled := ← orElse "debug_menu_enabled" d.debugMenuEnabled
      maxAtbGauge := ← orElse "max_atb_gauge" d.maxAtbGauge
      atbFillFrames := ← orElse "atb_fill_frames" d.atbFillFrames
      framesPerSecond := ← orElse "frames_per_second" d.framesPerSecond
      floatTextFrames := ← orElse "float_text_frames" d.floatTextFrames
      rngSeed := ← orElse "rng_seed" d.rngSeed
      terms := ← orElse "terms" d.terms }

instance : Encodable BattleConfig where
  encode c := table [
    field "dialect" c.dialect,
    field "maniac_patch" c.maniacPatch,
    field "interpreter_loop_limit" c.interpreterLoopLimit,
    field "battle_type" c.battleType,
    field "atb_mode" c.atbMode,
    field "placement" c.placement,
    field "invert_animations" c.invertAnimations,
    field "escape_allowed" c.escapeAllowed,
    field "debug_menu_enabled" c.debugMenuEnabled,
    field "max_atb_gauge" c.maxAtbGauge,
    field "atb_fill_frames" c.atbFillFrames,
    field "frames_per_second" c.framesPerSecond,
    field "float_text_frames" c.floatTextFrames,
    field "rng_seed" c.rngSeed,
    field "terms" c.terms]

end ActiveBattle.Document

namespace ActiveBattle

/-- Why the text of a configuration is refused. -/
inductive ConfigTextError where
  /-- It cannot be read, or does not fit. -/
  | malformed
  | invalid (e : ConfigError)
deriving DecidableEq

/-- The sound configuration of a TOML text. -/
def BattleConfig.ofToml (text : String) : Except ConfigTextError BattleConfig :=
  let read : Option BattleConfig := (Document.Toml.parse text).bind (decode Document.Toml.format)
  match read with
  | none => .error .malformed
  | some config =>
    match config.fault? with
    | some e => .error (.invalid e)
    | none => .ok config

end ActiveBattle
