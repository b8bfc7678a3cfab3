import CallAtlas.MethodId
import CallAtlas.Table
import CallAtlas.Text.Blank
import CallAtlas.Text.Quoted
import CallAtlas.Text.Uppercase

/-!
The settings of a run: from the environment, with named options over them.
-/

namespace CallAtlas.Run

structure Settings where
  classesDir : String
  outputDir : String := "./output"
  extractBodies : Bool := true
  filterMethods : Bool := true
  excludedPrefixes : List String := MethodId.platformPrefixes
  logLevel : String := "WARNING"
  deriving DecidableEq, Repr

abbrev Environment := Table String String

def variableName (setting : String) : String := "API_CALL_GRAPH_" ++ setting

def environmentSettings : List String :=
  ["OUTPUT_DIR", "EXTRACT_BODIES", "FILTER_METHODS", "EXCLUDED_PREFIXES", "LOG_LEVEL"]

def Environment.setting? (env : Environment) (setting : String) : Option String :=
  env.get? (variableName setting)

/-- Texts that switch a flag on, in either case and with blanks around them; any other text switches
it off. -/
def isOn (s : String) : Bool :=
  String.ofList ((Text.strip s.toList).map Char.toLower) ∈ ["1", "true", "yes", "on"]

def commaParts (s : String) : List String :=
  ((Text.splitAtEach ',' s.toList).map fun part => String.ofList (Text.strip part)).filter
    (!·.isEmpty)

def Settings.ofEnvironment (env : Environment) (classesDir : String) : Settings :=
  { classesDir
    outputDir := (env.setting? "OUTPUT_DIR").getD "./output"
    extractBodies := ((env.setting? "EXTRACT_BODIES").map isOn).getD true
    filterMethods := ((env.setting? "FILTER_METHODS").map isOn).getD true
    excludedPrefixes :=
      ((env.setting? "EXCLUDED_PREFIXES").map commaParts).getD MethodId.platformPrefixes
    logLevel := Text.upper ((env.setting? "LOG_LEVEL").getD "WARNING") }

inductive OptionValue where
  | text (value : String)
  | flag (value : Bool)
  | texts (values : List String)
  deriving DecidableEq, Repr

structure UnknownOption where
  name : String
  deriving DecidableEq, Repr

def UnknownOption.message (e : UnknownOption) : String :=
  s!"unknown config option {Text.quoted e.name}"

/-- Sets an option by name. An option without a value changes nothing, but its name has to be
known. -/
def Settings.set (settings : Settings) (name : String) (value : Option OptionValue) :
    Except UnknownOption Settings :=
  match name, value with
  | "output_dir", some (.text dir) => .ok { settings with outputDir := dir }
  | "extract_method_bodies", some (.flag on) => .ok { settings with extractBodies := on }
  | "filter_generated_methods", some (.flag on) => .ok { settings with filterMethods := on }
  | "excluded_prefixes", some (.texts prefixes) =>
    .ok { settings with excludedPrefixes := prefixes }
  | "log_level", some (.text level) => .ok { settings with logLevel := level }
  | name, _ =>
    if name ∈ ["output_dir", "extract_method_bodies", "filter_generated_methods",
      "excluded_prefixes", "log_level"]
    then .ok settings
    else .error ⟨name⟩

def Settings.setAll (settings : Settings) (options : List (String × Option OptionValue)) :
    Except UnknownOption Settings :=
  options.foldlM (fun settings option => settings.set option.1 option.2) settings

/-- The least rank of the lines that a log of this level shows; a level of no known name is that of
warnings. -/
def levelRank (level : String) : Nat :=
  match Text.upper level with
  | "NOTSET" => 0
  | "DEBUG" => 10
  | "INFO" => 20
  | "ERROR" => 40
  | "CRITICAL" | "FATAL" => 50
  | _ => 30

end CallAtlas.Run
