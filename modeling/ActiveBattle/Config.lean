/-!
# Battle configuration

The tunables of the battle scene and of the script interpreter, and the test every scene makes of
them before it starts.
-/

namespace ActiveBattle

set_option autoImplicit false

/-- The command dialect a script is written against; some commands and page conditions exist in the
newer one only. -/
inductive Dialect where
  | rpg2k
  | rpg2k3
deriving DecidableEq

inductive BattleType where
  | traditional
  | alternative
  | gauge
deriving DecidableEq

/-- Whether gauges keep filling while a menu is open. -/
inductive AtbMode where
  | active
  | wait
deriving DecidableEq

/-- How battlers are placed on screen. -/
inductive Placement where
  | automatic
  | manual
deriving DecidableEq

structure Terms where
  battleStart : String := "Monsters appeared!"
  specialCombat : String := "Special combat!"
  escapeFailure : String := "Escape failed"
  miss : String := "Miss"
  victory : String := "Victory!"
  defeat : String := "The party was defeated..."
  expReceived : String := "EXP received"
  goldReceived : String := "Gold found:"
  itemReceived : String := "obtained"
deriving DecidableEq

structure BattleConfig where
  dialect : Dialect := .rpg2k3
  /-- Enables the hooks a script can bind to moments of the battle. -/
  maniacPatch : Bool := false
  /-- Instructions an interpreter may execute in one update before it yields. -/
  interpreterLoopLimit : Nat := 10000
  battleType : BattleType := .alternative
  atbMode : AtbMode := .active
  placement : Placement := .automatic
  /-- Flip the battle animations of flipped battlers. -/
  invertAnimations : Bool := false
  escapeAllowed : Bool := true
  debugMenuEnabled : Bool := false
  /-- The value at which a gauge is full. -/
  maxAtbGauge : Int := 300000
  /-- Frames a battler of average agility needs to fill an empty gauge. -/
  atbFillFrames : Int := 120
  /-- Script waits come in tenths of a second and are converted with this rate. -/
  framesPerSecond : Int := 60
  floatTextFrames : Int := 30
  rngSeed : UInt64 := 0
  terms : Terms := {}
deriving DecidableEq

inductive ConfigError where
  | gaugeNotPositive (max : Int)
  | fillFramesOutOfRange (frames max : Int)
  | frameRateNotPositive
  | floatTextNotPositive
  | loopLimitZero
deriving DecidableEq

def ConfigError.message : ConfigError → String
  | gaugeNotPositive max => s!"max_atb_gauge ({max}) must be positive"
  | fillFramesOutOfRange frames max => s!"atb_fill_frames ({frames}) must be in 1..={max}"
  | frameRateNotPositive => "frames_per_second must be positive"
  | floatTextNotPositive => "float_text_frames must be positive"
  | loopLimitZero => "interpreter_loop_limit must be at least 1"

/-- The message as shown to whoever asked for a battle. -/
def ConfigError.display (e : ConfigError) : String := "Invalid config: " ++ e.message

namespace BattleConfig

def isRpg2k3 (c : BattleConfig) : Bool := c.dialect = .rpg2k3

/-- The first fault of a configuration, checked in a fixed order. -/
def fault? (c : BattleConfig) : Option ConfigError :=
  if c.maxAtbGauge ≤ 0 then some (.gaugeNotPositive c.maxAtbGauge)
  else if c.atbFillFrames ≤ 0 ∨ c.atbFillFrames > c.maxAtbGauge then
    some (.fillFramesOutOfRange c.atbFillFrames c.maxAtbGauge)
  else if c.framesPerSecond ≤ 0 then some .frameRateNotPositive
  else if c.floatTextFrames ≤ 0 then some .floatTextNotPositive
  else if c.interpreterLoopLimit = 0 then some .loopLimitZero
  else none

/-- What a battle relies on. -/
structure Valid (c : BattleConfig) : Prop where
  gauge_pos : 0 < c.maxAtbGauge
  fill_pos : 0 < c.atbFillFrames
  fill_le_gauge : c.atbFillFrames ≤ c.maxAtbGauge
  rate_pos : 0 < c.framesPerSecond
  text_pos : 0 < c.floatTextFrames
  limit_pos : 0 < c.interpreterLoopLimit

theorem fault?_eq_none_iff (c : BattleConfig) : c.fault? = none ↔ c.Valid := by
  constructor
  · intro h
    simp only [fault?] at h
    split at h
    · simp at h
    split at h
    · simp at h
    split at h
    · simp at h
    split at h
    · simp at h
    split at h
    · simp at h
    constructor <;> omega
  · intro h
    obtain ⟨h1, h2, h3, h4, h5, h6⟩ := h
    simp only [fault?]
    rw [if_neg (by omega), if_neg (by omega), if_neg (by omega), if_neg (by omega),
      if_neg (by omega)]

end BattleConfig

end ActiveBattle
