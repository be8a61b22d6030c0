import ActiveBattle.Document.Config
import ActiveBattle.Document.Game
import ActiveBattle.Scenario.Basic

/-!
# Scenario documents

Scenarios are read from JSON or TOML. What came of a battle is written as JSON or as lines of text.
-/

namespace ActiveBattle.Document

set_option autoImplicit false

open Fields in
instance : Decodable Scenario where
  decode := readRecord do
    return {
      config := ← orElse "config" none
      database := ← orElse "database" {}
      setup := ← orElse "setup" {} }

instance : Encodable MemberSummary where
  encode m := table [
    field "id" m.id,
    field "name" m.name,
    field "hp" m.hp,
    field "max_hp" m.maxHp]

instance : Encodable RunSummary where
  encode s := table [
    field "result" (s.result.map (·.describe)),
    field "frames" s.frames,
    field "turns" s.turns,
    field "party" s.party,
    field "enemies_alive" s.enemiesAlive,
    field "gold" s.gold,
    field "sounds_played" s.soundsPlayed,
    field "events_logged" s.eventsLogged,
    field "seed" s.seed]

end ActiveBattle.Document

namespace ActiveBattle

/-- The formats a scenario is kept in. -/
inductive ScenarioFormat where
  | json
  | toml
deriving DecidableEq

/-- The last part of a path; blank parts do not count. -/
def fileName (path : String) : List Char :=
  (path.toList.reverse.dropWhile (· = '/')).takeWhile (· ≠ '/') |>.reverse

/-- Files that end in `.json` after a name hold JSON, all others TOML. -/
def ScenarioFormat.ofPath (path : String) : ScenarioFormat :=
  match (fileName path).reverse with
  | 'n' :: 'o' :: 's' :: 'j' :: '.' :: _ :: _ => .json
  | _ => .toml

def Scenario.ofText? (format : ScenarioFormat) (text : String) : Option Scenario :=
  match format with
  | .json => (Document.Json.parse text).bind (decode Document.Json.format)
  | .toml => (Document.Toml.parse text).bind (decode Document.Toml.format)

namespace RunSummary

/-- The summary as laid-out JSON. -/
def toJson (s : RunSummary) : String := Document.Json.layOut (encode s) ++ "\n"

/-- A member's line. -/
def memberLine (m : MemberSummary) : String := s!"  {m.name} HP {m.hp}/{m.maxHp}"

def resultName (result : Option BattleResult) : String :=
  match result with
  | some r => r.describe
  | none => "unfinished"

def textLines (s : RunSummary) : List String :=
  ["Battle Result", "=============", "Result: " ++ resultName s.result, s!"Frames: {s.frames}",
    s!"Turns: {s.turns}"] ++
  s.party.map memberLine ++
  [s!"Enemies alive: {s.enemiesAlive}", s!"Gold: {s.gold}", s!"Seed: {s.seed}"]

/-- The summary as lines of text. -/
def toText (s : RunSummary) : String := String.join (s.textLines.map (· ++ "\n"))

/-- The summary in the format of a name; any name but that of the lines gives JSON. -/
def render (format : String) (s : RunSummary) : String :=
  if format = "text" then s.toText else s.toJson

end RunSummary

end ActiveBattle
