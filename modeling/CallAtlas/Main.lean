import CallAtlas.Java.OutlineParser
import CallAtlas.Run.Program

/-!
The command line: it takes a picture of the files that a run may read, runs, and writes what the run
has written.
-/

namespace CallAtlas

open Files Project Run

partial def readTree (path : String) : IO FileTree := do
  let place ← IO.FS.realPath path
  if ← place.isDir then
    let entries ← place.readDir
    return .dir
      (← entries.toList.mapM fun entry =>
        do return (entry.fileName, ← readTree entry.path.toString))
  return .file (← IO.FS.readBinFile place).toList

def readTree? (path : String) : IO (Option FileTree) := do
  try return some (← readTree path) catch _ => return none

def readOutline? (path : String) : IO (Option FileTree) := do
  try
    let place ← IO.FS.realPath path
    if !(← place.isDir) then return some (.file [])
    let entries ← place.readDir
    return some (.dir (← entries.toList.mapM fun entry => do
      return (entry.fileName, if ← entry.path.isDir then .dir [] else .file [])))
  catch _ => return none

def putAt (tree : Option FileTree) (route : Route) (disk : Disk) : Disk :=
  match tree with
  | some tree => { disk with root := FileTree.put tree route.parts disk.root }
  | none => disk

/-- The files that a run may read: the class files, and for each directory above them the build
files and the sources. -/
def takePicture (settings : Settings) : IO Disk := do
  let cwd := (← IO.currentDir).toString
  let mut disk : Disk := { cwd }
  for route in (Route.ofPath (absolute cwd settings.outputDir)).upward.reverse do
    disk := putAt (← readOutline? route.toPath) route disk
  let classes := Route.ofPath (absolute cwd settings.classesDir)
  for dir in classes.upward.tail do
    let sources := dir.append "src"
    disk := putAt (← readOutline? sources.toPath) sources disk
    for name in buildFiles do
      let marker := dir.append name
      if let some found ← readOutline? marker.toPath then
        disk := putAt found marker (putAt (← readTree? sources.toPath) sources disk)
  return putAt (← readTree? classes.toPath) classes disk

def writeOutput (settings : Settings) (before after : Disk) : IO Unit := do
  let known := match before.find settings.outputDir with
    | .ok tree => tree.entries
    | .error _ => []
  let .ok (.dir entries) := after.find settings.outputDir | return
  IO.FS.createDirAll settings.outputDir
  for (name, entry) in entries do
    if let .file content := entry then
      let same := match Table.get? name known with
        | some (.file old) => old == content
        | _ => false
      if !same then IO.FS.writeBinFile (joinPath settings.outputDir name) ⟨content.toArray⟩

def readEnvironment : IO Environment :=
  environmentSettings.filterMapM fun setting => do
    return (← IO.getEnv (variableName setting)).map fun value => (variableName setting, value)

def usageLine : String :=
  s!"usage: {programName} [-h] [--no-bodies] [--no-filter] [--exclude-prefix PREFIX] [-v] classes_dir [output_dir]"

def runFiles (settings : Settings) : IO UInt32 := do
  let before ← takePicture settings
  let result := runSettings Java.outlineParser settings before
  writeOutput settings before result.disk
  for line in result.errors do IO.eprintln line
  for line in result.output do IO.println line
  match result.ending with
  | .exit code => return code.toUInt32
  | .broken e =>
    IO.eprintln s!"{programName}: {e.message}"
    return 1
  | .stopped _ => return 0

def runArguments (args : List String) : IO UInt32 := do
  match parseCommandLine args with
  | .error .help =>
    IO.println usageLine
    return 0
  | .error (.usage message) =>
    IO.eprintln usageLine
    IO.eprintln s!"{programName}: error: {message}"
    return 2
  | .ok options => runFiles (.ofOptions (← readEnvironment) options)

end CallAtlas

def main (args : List String) : IO UInt32 := CallAtlas.runArguments args
