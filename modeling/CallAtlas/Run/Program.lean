import CallAtlas.Run.CommandLine
import CallAtlas.Run.Summary

/-!
The program: from arguments, environment and files to an exit code, the two outputs and the files
afterwards.
-/

namespace CallAtlas.Run

open Files

def programName : String := "api-call-graph"

/-- The options of the command line win over the environment. -/
def Settings.ofOptions (env : Environment) (options : Options) : Settings :=
  let settings := Settings.ofEnvironment env options.classesDir
  { settings with
    outputDir := options.outputDir.getD settings.outputDir
    extractBodies := settings.extractBodies && !options.noBodies
    filterMethods := settings.filterMethods && !options.noFilter
    excludedPrefixes :=
      if options.prefixes.isEmpty then settings.excludedPrefixes else options.prefixes
    logLevel := if options.verbose then "INFO" else settings.logLevel }

inductive Ending where
  | stopped (stop : Stop)
  | exit (code : Nat)
  | broken (e : RunError)
  deriving DecidableEq, Repr

structure ProgramResult where
  ending : Ending
  output : List String := []
  errors : List String := []
  disk : Disk

def RunError.isExpected : RunError → Bool
  | noInput _ | noOutput _ => true
  | _ => false

def runSettings (parser : Java.Parser) (settings : Settings) (disk : Disk) : ProgramResult :=
  let intro : Log :=
    [infoLog s!"Reading classes from: {settings.classesDir}",
     infoLog s!"Output will be written to: {settings.outputDir}"]
  let (result, w) :=
    runStages.outcome { disk, analysis := { settings }, parser := .ok parser, log := intro }
  let lines := w.log.lines (levelRank settings.logLevel)
  match result with
  | .ok summary => { ending := .exit 0, output := summary.lines, errors := lines, disk := w.disk }
  | .error e =>
    if e.isExpected then
      { ending := .exit 1, errors := lines ++ [s!"Error: {e.message}"], disk := w.disk }
    else { ending := .broken e, errors := lines, disk := w.disk }

def runProgram (parser : Java.Parser) (args : List String) (env : Environment) (disk : Disk) :
    ProgramResult :=
  match parseCommandLine args with
  | .error stop => { ending := .stopped stop, disk }
  | .ok options => runSettings parser (.ofOptions env options) disk

end CallAtlas.Run
