import CallAtlas.ClassFile.CompiledType
import CallAtlas.Files.Disk
import CallAtlas.Log

/-!
The types below a directory of class files.
-/

namespace CallAtlas.Project

open ClassFile Files

/-- What was loaded from `root`. A name that several files declare has the last file's path. -/
structure LoadedTypes where
  root : String
  types : List CompiledType := []
  paths : Table String String := []
  skipped : List String := []

def readType (disk : Disk) (path : String) : Except String CompiledType :=
  match atPath path (disk.read path) with
  | .error fault => .error fault.message
  | .ok bytes =>
    match CompiledType.parse bytes path with
    | .error e => .error e.message
    | .ok type => .ok type

namespace LoadedTypes

/-- Adds a type; a name seen before is noted and the type is kept all the same. -/
def add (type : CompiledType) (path : String) (loaded : LoadedTypes) : LoadedTypes × Log :=
  let log := match loaded.paths.get? type.name with
    | some before =>
      [warningLog s!"Duplicate class {type.name} in {path} (already loaded from {before})"]
    | none => []
  ({ loaded with types := loaded.types ++ [type], paths := loaded.paths.put type.name path }, log)

def addFile (disk : Disk) (path : String) (loaded : LoadedTypes) : LoadedTypes × Log :=
  match readType disk path with
  | .error reason =>
    ({ loaded with skipped := loaded.skipped ++ [path] },
      [warningLog s!"Failed to load {path}: {reason}"])
  | .ok type => loaded.add type path

def addFiles (disk : Disk) : List String → LoadedTypes → LoadedTypes × Log
  | [], loaded => (loaded, [])
  | path :: rest, loaded =>
    let (loaded, log) := loaded.addFile disk path
    let (loaded, more) := addFiles disk rest loaded
    (loaded, log ++ more)

def ofDir (disk : Disk) (dir : String) : LoadedTypes × Log :=
  let (loaded, log) := addFiles disk (disk.classFiles dir) { root := absolute disk.cwd dir }
  (loaded, log ++
    [infoLog s!"Loaded {loaded.types.length} units from {dir} ({loaded.skipped.length} skipped)"])

end LoadedTypes

end CallAtlas.Project
