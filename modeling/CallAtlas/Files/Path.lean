import CallAtlas.Text.Split

/-!
Paths as text: joining, normal forms and the directories above.
-/

namespace CallAtlas.Files

def components (path : String) : List String :=
  (Text.splitAtEach '/' path.toList).map String.ofList

def isAbsolute (path : String) : Bool := path.toList.head? = some '/'

def joinPath (dir path : String) : String :=
  if isAbsolute path then path
  else if dir.isEmpty || dir.toList.getLast? = some '/' then dir ++ path
  else dir ++ "/" ++ path

/-- The slashes that a normal form begins with: exactly two are kept, more than two count as one. -/
def rootSlashes (path : String) : String :=
  match path.toList.takeWhile (· == '/') with
  | [] => ""
  | [_, _] => "//"
  | _ => "/"

def pushPart (rooted : Bool) (parts : List String) (part : String) : List String :=
  if part = "" || part = "." then parts
  else if part ≠ ".." then part :: parts
  else match parts with
    | [] => if rooted then [] else [part]
    | last :: before => if last = ".." then part :: parts else before

def normalize (path : String) : String :=
  let root := rootSlashes path
  let parts := (components path).foldl (pushPart (!root.isEmpty)) []
  let text := root ++ "/".intercalate parts.reverse
  if text.isEmpty then "." else text

def absolute (cwd path : String) : String := normalize (joinPath cwd path)

def parentDir (path : String) : String :=
  let head := ((path.toList.reverse).dropWhile (· != '/')).reverse
  if head.all (· == '/') then String.ofList head
  else String.ofList ((head.reverse.dropWhile (· == '/')).reverse)

/-- A path by its parts, without empty ones and `.`. The root is empty for a relative path. -/
structure Route where
  root : String
  parts : List String
  deriving DecidableEq, Repr

namespace Route

def ofPath (path : String) : Route :=
  ⟨rootSlashes path, (components path).filter fun part => part ≠ "" && part ≠ "."⟩

def toPath (route : Route) : String :=
  let text := route.root ++ "/".intercalate route.parts
  if text.isEmpty then "." else text

def append (route : Route) (path : String) : Route :=
  let more := ofPath path
  if more.root.isEmpty then ⟨route.root, route.parts ++ more.parts⟩ else more

/-- Where a path leads that starts from `cwd` unless it is absolute: from the one root down, every
`..` being taken. -/
def resolve (cwd path : String) : Route := { ofPath (absolute cwd path) with root := "/" }

def parent (route : Route) : Route := ⟨route.root, route.parts.dropLast⟩

def upward (route : Route) : List Route :=
  (List.range (route.parts.length + 1)).reverse.map fun count =>
    ⟨route.root, route.parts.take count⟩

end Route

end CallAtlas.Files
