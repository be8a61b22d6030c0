import ActiveBattle.Document.Scenario

/-!
# The command line

`SCENARIO [--config FILE] [--max-frames N] [--decision-every N] [--seed N]` and then
`[--format NAME] [-v] [-h]`, in any order. An option takes its value from the next argument or after
an equals sign, and none may be given twice. After two dashes alone no argument is an option. Help
is given as soon as it is asked for, if nothing before it is wrong.
-/

namespace ActiveBattle

set_option autoImplicit false

structure CommandLine where
  scenario : Option String := none
  /-- A configuration to take in place of the scenario's own. -/
  config : Option String := none
  maxFrames : Option Nat := none
  decisionEvery : Option Nat := none
  seed : Option Nat := none
  format : Option String := none
  verbose : Bool := false
deriving DecidableEq

namespace CommandLine

/-- A number of up to 64 bits; a plus sign may stand in front. -/
def readNumber (s : String) : Option Nat :=
  let digits := match s.toList with
    | '+' :: rest => rest
    | all => all
  if digits.isEmpty || !digits.all Char.isDigit then none
  else
    let n := Document.Json.digitsValue digits
    if n < 18446744073709551616 then some n else none

/-- Sets an option that is not set. -/
def once {α : Type} (old : Option α) (new : Option α) : Option (Option α) :=
  match old, new with
  | none, some a => some (some a)
  | _, _ => none

/-- The path of a file has at least one character. -/
def readPath (s : String) : Option String := if s.isEmpty then none else some s

def withOption (c : CommandLine) (name value : String) : Option CommandLine :=
  match name with
  | "--config" => (once c.config (readPath value)).map ({ c with config := · })
  | "--max-frames" => (once c.maxFrames (readNumber value)).map ({ c with maxFrames := · })
  | "--decision-every" =>
    (once c.decisionEvery (readNumber value)).map ({ c with decisionEvery := · })
  | "--seed" => (once c.seed (readNumber value)).map ({ c with seed := · })
  | "--format" => (once c.format (some value)).map ({ c with format := · })
  | _ => none

/-- An argument that is no value of an option. -/
def isFlag (arg : String) : Bool := arg.startsWith "-" && arg ≠ "-"

/-- The name and the value of an option with an equals sign. -/
def splitOption (arg : String) : String × Option String :=
  match arg.toList.dropWhile (· ≠ '=') with
  | [] => (arg, none)
  | _ :: value => (String.ofList (arg.toList.takeWhile (· ≠ '=')), some (String.ofList value))

def withScenario (c : CommandLine) (arg : String) : Option CommandLine :=
  (once c.scenario (readPath arg)).map ({ c with scenario := · })

def withVerbose (c : CommandLine) : Option CommandLine :=
  if c.verbose then none else some { c with verbose := true }

inductive Wish where
  | help
  | battle (c : CommandLine)
deriving DecidableEq

/-- Takes the letters after a single dash. -/
def takeLetters : List Char → CommandLine → Option Wish
  | [], c => some (.battle c)
  | 'v' :: rest, c => c.withVerbose.bind (takeLetters rest)
  | 'h' :: _, _ => some .help
  | _ :: _, _ => none

/-- Takes arguments none of which is an option. -/
def takeFiles (args : List String) (c : CommandLine) : Option CommandLine :=
  args.foldlM withScenario c

def take : List String → CommandLine → Option Wish
  | [], c => some (.battle c)
  | arg :: rest, c =>
    if !isFlag arg then (c.withScenario arg).bind (take rest)
    else
      match arg.toList with
      | ['-', '-'] => (takeFiles rest c).map .battle
      | '-' :: '-' :: _ =>
        if arg = "--help" then some .help
        else if arg = "--verbose" then c.withVerbose.bind (take rest)
        else
          match splitOption arg, rest with
          | (name, some value), rest => (c.withOption name value).bind (take rest)
          | (name, none), value :: rest =>
            if isFlag value then none else (c.withOption name value).bind (take rest)
          | (_, none), [] => none
      | letters =>
        match takeLetters (letters.drop 1) c with
        | some (.battle c) => take rest c
        | wish => wish

/-- What arguments ask for, if they make sense. A battle needs a scenario. -/
def parse (args : List String) : Option Wish :=
  match take args {} with
  | some (.battle c) => if c.scenario.isSome then some (.battle c) else none
  | wish => wish

def help : String := String.join ([
  "Run a battle scenario headless and print a summary",
  "",
  "Usage: battle_runner [OPTIONS] <SCENARIO>",
  "",
  "Arguments:",
  "  <SCENARIO>  Scenario file (.toml or .json) with `database` and `setup` tables",
  "",
  "Options:",
  "      --config <CONFIG>                  Battle config TOML; " ++
    "overrides the scenario's own config",
  "      --max-frames <MAX_FRAMES>          Maximum frames before giving up [default: 36000]",
  "      --decision-every <DECISION_EVERY>  Press Decision every N frames (0 = never) [default: 4]",
  "      --seed <SEED>                      Override the config's random seed",
  "      --format <FORMAT>                  Output format: json or text [default: json]",
  "  -v, --verbose                          Print the scene event log to stderr",
  "  -h, --help                             Print help"].map (· ++ "\n"))

def pacing (c : CommandLine) : Pacing where
  maxFrames := c.maxFrames.getD 36000
  decisionEvery := c.decisionEvery.getD 4

inductive Report where
  /-- The battle was played; what is printed, and the log. -/
  | played (output : String) (log : List LogEntry)
  /-- The scenario or a configuration is refused. -/
  | refused (reason : String)
  /-- A battler's value was to be held in a range that has no members. -/
  | stopped

/-- What the program tells whoever called it. -/
def Report.exitCode : Report → UInt32
  | played _ _ => 0
  | refused _ => 1
  | stopped => 101

def report (c : CommandLine) (s : Scenario) (given : Option BattleConfig) : Report :=
  match s.scene given (c.seed.map (·.toUInt64)) with
  | .error e => .refused e.display
  | .ok scene =>
    let scene := c.pacing.play scene
    if scene.roster.hasEmptyRange then .stopped
    else .played ((RunSummary.ofScene scene).render (c.format.getD "json")) scene.log.toList

/-- A run; `read` gives the texts of the files that can be read. -/
def run (c : CommandLine) (read : String → Option String) : Report :=
  let path := c.scenario.getD ""
  match (read path).bind (Scenario.ofText? (.ofPath path)) with
  | none => .refused "the scenario cannot be read"
  | some s =>
    match c.config.map fun path => (read path).map BattleConfig.ofToml with
    | none => c.report s none
    | some (some (.ok given)) => c.report s (some given)
    | some (some (.error (.invalid e))) => .refused e.display
    | some _ => .refused "the configuration cannot be read"

end CommandLine

end ActiveBattle
