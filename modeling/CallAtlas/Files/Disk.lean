import CallAtlas.Files.Path
import CallAtlas.Table
import CallAtlas.Text.Order
import CallAtlas.Text.Quoted
import CallAtlas.Text.Utf8

/-!
A file system as a value: a tree of directories and files, and the directory that relative paths
start from.
-/

namespace CallAtlas.Files

inductive FileTree where
  | file (content : List UInt8)
  | dir (entries : List (String × FileTree))

inductive FileError where
  | missing
  | occupied
  | notDirectory
  | isDirectory
  | nameTooLong
  deriving DecidableEq, Repr

namespace FileError

def number : FileError → Nat
  | missing => 2
  | occupied => 17
  | notDirectory => 20
  | isDirectory => 21
  | nameTooLong => 36

def wording : FileError → String
  | missing => "No such file or directory"
  | occupied => "File exists"
  | notDirectory => "Not a directory"
  | isDirectory => "Is a directory"
  | nameTooLong => "File name too long"

end FileError

structure FileFault where
  error : FileError
  path : String
  deriving DecidableEq, Repr

def FileFault.message (fault : FileFault) : String :=
  s!"[Errno {fault.error.number}] {fault.error.wording}: {Text.quoted fault.path}"

def atPath {α : Type} (path : String) : Except FileError α → Except FileFault α
  | .ok value => .ok value
  | .error e => .error ⟨e, path⟩

namespace FileTree

def isDir : FileTree → Bool
  | dir _ => true
  | file _ => false

def entries : FileTree → List (String × FileTree)
  | dir entries => entries
  | file _ => []

def maxName : Nat := 255

def child (tree : FileTree) (name : String) : Except FileError FileTree :=
  match tree with
  | file _ => .error .notDirectory
  | dir entries =>
    if maxName < (Text.encodeUtf8 name.toList).length then .error .nameTooLong
    else match Table.get? name entries with
      | some tree => .ok tree
      | none => .error .missing

/-- Follows the parts of a path. `above` lists the directories above `tree`, the nearest first, each
with the name of the entry that leads down. -/
def follow (above : List (FileTree × String)) (tree : FileTree) :
    List String → Except FileError (List (FileTree × String) × FileTree)
  | [] => .ok (above, tree)
  | part :: rest =>
    if !tree.isDir then .error .notDirectory
    else if part = "" || part = "." then follow above tree rest
    else if part = ".." then
      match above with
      | [] => follow [] tree rest
      | (parent, _) :: above => follow above parent rest
    else match tree.child part with
      | .error e => .error e
      | .ok found => follow ((tree, part) :: above) found rest

def put (content : FileTree) : (way : List String) → FileTree → FileTree
  | [], _ => content
  | name :: rest, tree =>
    let old := (Table.get? name tree.entries).getD (dir [])
    dir (Table.put name (put content rest old) tree.entries)

end FileTree

structure Disk where
  root : FileTree := .dir []
  cwd : String := "/"

namespace Disk

def locate (disk : Disk) (path : String) : Except FileError (List String × FileTree) :=
  if path.isEmpty then .error .missing
  else do
    let (above, tree) ← disk.root.follow [] (components (joinPath disk.cwd path))
    return ((above.map Prod.snd).reverse, tree)

def find (disk : Disk) (path : String) : Except FileError FileTree := do
  return (← disk.locate path).2

def isDir (disk : Disk) (path : String) : Bool :=
  match disk.find path with
  | .ok tree => tree.isDir
  | .error _ => false

def maxPath : Nat := 4095

/-- Asks about what a path leads to. That nothing is there is an answer; that the path or a name on
it is too long is not. -/
def ask (disk : Disk) (test : FileTree → Bool) (path : String) : Except FileFault Bool :=
  if maxPath < (Text.encodeUtf8 path.toList).length then .error ⟨.nameTooLong, path⟩
  else match disk.find path with
    | .ok tree => .ok (test tree)
    | .error .nameTooLong => .error ⟨.nameTooLong, path⟩
    | .error _ => .ok false

def exists? (disk : Disk) : String → Except FileFault Bool := disk.ask fun _ => true

def isFile? (disk : Disk) : String → Except FileFault Bool := disk.ask fun tree => !tree.isDir

def read (disk : Disk) (path : String) : Except FileError (List UInt8) := do
  match ← disk.find path with
  | .file content => return content
  | .dir _ => throw .isDirectory

/-- The text of a file: line ends unified and broken bytes replaced. -/
def readText (disk : Disk) (path : String) : Except FileError (List Char) := do
  return Text.unifyLineEnds (Text.decodeLossy (← disk.read path))

def splitLast (path : String) : String × String :=
  (String.ofList (path.toList.reverse.dropWhile (· != '/')).reverse,
    String.ofList (Text.afterLast '/' path.toList))

def write (disk : Disk) (path : String) (content : List UInt8) : Except FileError Disk := do
  match disk.locate path with
  | .ok (way, .file _) => return { disk with root := FileTree.put (.file content) way disk.root }
  | .ok (_, .dir _) => throw .isDirectory
  | .error .missing =>
    let (dir, name) := splitLast path
    if name.isEmpty then throw .isDirectory
    let (way, tree) ← if dir.isEmpty then disk.locate disk.cwd else disk.locate dir
    if !tree.isDir then throw .notDirectory
    return { disk with root := FileTree.put (.file content) (way ++ [name]) disk.root }
  | .error e => throw e

/-- Makes the directories that the parts of a path lead through. Those that were made stay if a
later part fails. -/
def makeParts (root : FileTree) (way : List String) : List String → FileTree × Option FileError
  | [] => (root, none)
  | part :: rest =>
    if part = "" || part = "." then makeParts root way rest
    else if part = ".." then makeParts root way.dropLast rest
    else
      let here := match root.follow [] way with
        | .ok (_, tree) => tree
        | .error _ => .dir []
      match here.child part with
      | .ok (.dir _) => makeParts root (way ++ [part]) rest
      | .ok (.file _) => (root, some (if rest.isEmpty then .occupied else .notDirectory))
      | .error .missing =>
        makeParts (FileTree.put (.dir []) (way ++ [part]) root) (way ++ [part]) rest
      | .error e => (root, some e)

def makeDirs (disk : Disk) (path : String) : Disk × Option FileError :=
  if path.isEmpty then (disk, some .missing)
  else
    let (root, error) := makeParts disk.root [] (components (joinPath disk.cwd path))
    ({ disk with root }, error)

end Disk

def isClassFile (name : String) : Bool := ".class".toList.isSuffixOf name.toList

mutual

/-- The class files below a directory: those of a directory before those of the directories in it,
both in the order of their names. -/
def classFilesIn (path : String) : FileTree → List String
  | .file _ => []
  | .dir entries =>
    let here := entries.filterMap fun entry => match entry.2 with
      | .file _ => if isClassFile entry.1 then some entry.1 else none
      | .dir _ => none
    let below := (classFilesOf path entries).mergeSort fun a b => a.1 ≤ b.1
    (Text.sortTexts here).map (joinPath path) ++ below.flatMap Prod.snd

def classFilesOf (path : String) : List (String × FileTree) → List (String × List String)
  | [] => []
  | (name, tree) :: rest => (name, classFilesIn (joinPath path name) tree) :: classFilesOf path rest

end

def Disk.classFiles (disk : Disk) (dir : String) : List String :=
  match disk.find dir with
  | .ok tree => classFilesIn (absolute disk.cwd dir) tree
  | .error _ => []

end CallAtlas.Files
