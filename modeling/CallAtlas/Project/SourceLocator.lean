import CallAtlas.ClassFile.CompiledType
import CallAtlas.Files.Disk
import CallAtlas.Log

/-!
From a compiled type to the file it was compiled from: the nearest directory above that has a build
file, and below it the places where sources are kept.
-/

namespace CallAtlas.Project

open ClassFile Files

def buildFiles : List String := ["pom.xml", "build.gradle", "build.gradle.kts"]

def maxRootDepth : Nat := 10

def sourceRoots : List (List String) := [["src", "main", "java"], ["src"]]

section Asking

variable {ε α : Type}

/-- The first for which the answer is yes. A question that fails ends the search. -/
def firstOf (ask : α → Except ε Bool) : List α → Except ε (Option α)
  | [] => .ok none
  | x :: rest => do
    if ← ask x then return some x
    firstOf ask rest

def markerPath (dir : Route) (marker : String) : String := (dir.append marker).toPath

def holdsAny (there : String → Except ε Bool) (dir : Route) (markers : List String) :
    Except ε Bool :=
  return (← firstOf (fun marker => there (markerPath dir marker)) markers).isSome

/-- The nearest of at most `depth` directories, from `dir` upwards, that holds one of the
markers. -/
def rootAbove (there : String → Except ε Bool) (markers : List String) :
    (depth : Nat) → (dir : Route) → Except ε (Option Route)
  | 0, _ => .ok none
  | depth + 1, dir => do
    if ← holdsAny there dir markers then return some dir
    if dir.parent = dir then return none
    rootAbove there markers depth dir.parent

def projectRoot (there : String → Except ε Bool) (cwd : String) (markers : List String)
    (path : String) :
    Except ε (Option Route) :=
  rootAbove there markers maxRootDepth (Route.resolve cwd path).parent

end Asking

def sourceName (type : CompiledType) : String :=
  match type.sourceFile with
  | some name => if name.isEmpty then topName else name
  | none => topName
where
  topName : String := String.ofList (Text.beforeFirst '$' type.simpleName.toList) ++ ".java"

def packageParts (type : CompiledType) : List String :=
  if type.package.isEmpty then []
  else (Text.splitAtEach '.' type.package.toList).map String.ofList

def sourceCandidates (type : CompiledType) (root : Route) : List String :=
  sourceRoots.map fun dirs =>
    ((dirs ++ packageParts type ++ [sourceName type]).foldl Route.append root).toPath

def findSource (disk : Disk) (markers : List String) (type : CompiledType) :
    Except FileFault (Option String) := do
  match ← projectRoot disk.exists? disk.cwd markers type.path with
  | none => return none
  | some root => firstOf disk.isFile? (sourceCandidates type root)

structure SourceLocator where
  markers : List String := buildFiles
  located : Table String (Option String) := []
  texts : Table String (Option (List Char)) := []

namespace SourceLocator

/-- The source file of a type. The first answer for a name stands for that name from then on. -/
def locate (disk : Disk) (type : CompiledType) (locator : SourceLocator) :
    Except FileFault (Option String × SourceLocator × Log) := do
  match locator.located.get? type.name with
  | some found => return (found, locator, [])
  | none =>
    let found ← findSource disk locator.markers type
    let log := if found.isNone then [debugLog s!"No source file for {type.name}"] else []
    return (found, { locator with located := locator.located.put type.name found }, log)

def read (disk : Disk) (path : String) (locator : SourceLocator) :
    Option (List Char) × SourceLocator × Log :=
  match locator.texts.get? path with
  | some found => (found, locator, [])
  | none =>
    let (found, log) := match atPath path (disk.readText path) with
      | .ok text => (some text, [])
      | .error fault => (none, [warningLog s!"Could not read source file {path}: {fault.message}"])
    (found, { locator with texts := locator.texts.put path found }, log)

end SourceLocator

def guessSourceDir (disk : Disk) (classes : String) : Option String :=
  let dir := joinPath (parentDir (parentDir (absolute disk.cwd classes))) "src"
  if disk.isDir dir then some dir else none

end CallAtlas.Project
