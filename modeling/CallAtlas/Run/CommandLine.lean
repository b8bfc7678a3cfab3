import CallAtlas.Text.DecimalDigit
import CallAtlas.Text.Quoted
import CallAtlas.Text.Split

/-!
The arguments of the command line. Long switches may be shortened as long as one switch alone is
meant, short ones may be joined, and after `--` every argument is a directory.
-/

namespace CallAtlas.Run

inductive Switch where
  | help
  | noBodies
  | noFilter
  | excludePrefix
  | verbose
  deriving DecidableEq, Repr

namespace Switch

def takesValue : Switch → Bool
  | excludePrefix => true
  | _ => false

def label : Switch → String
  | help => "-h/--help"
  | noBodies => "--no-bodies"
  | noFilter => "--no-filter"
  | excludePrefix => "--exclude-prefix"
  | verbose => "-v/--verbose"

def spellings : List (String × Switch) :=
  [("-h", help), ("--help", help), ("--no-bodies", noBodies), ("--no-filter", noFilter),
   ("--exclude-prefix", excludePrefix), ("-v", verbose), ("--verbose", verbose)]

def find? (spelling : List Char) : Option Switch :=
  (spellings.find? fun entry => entry.1.toList = spelling).map Prod.snd

def startingWith (start : List Char) : List (String × Switch) :=
  spellings.filter fun entry => start.isPrefixOf entry.1.toList

end Switch

inductive Stop where
  | help
  | usage (message : String)
  deriving DecidableEq, Repr

structure Attached where
  byEquals : Bool
  text : List Char
  deriving DecidableEq, Repr

inductive Argument where
  | plain (text : String)
  | terminator
  | short (switch : Switch) (attached : Option Attached)
  | long (switch : Switch) (attached : Option Attached)
  | unknown (text : String)
  deriving DecidableEq, Repr

/-- A number with a minus sign, which is no switch. A line end may follow. -/
def isNegativeNumber (s : List Char) : Bool :=
  match s with
  | '-' :: rest =>
    let rest := if rest.getLast? = some '\n' then rest.dropLast else rest
    let whole := rest.takeWhile Text.isDecimalDigit
    match rest.dropWhile Text.isDecimalDigit with
    | [] => !whole.isEmpty
    | '.' :: places => !places.isEmpty && places.all Text.isDecimalDigit
    | _ => false
  | _ => false

def splitAtEquals (s : List Char) : List Char × Option Attached :=
  match s.dropWhile (· != '=') with
  | [] => (s, none)
  | _ :: rest => (s.takeWhile (· != '='), some ⟨true, rest⟩)

def unmatched (s : List Char) : Argument :=
  if isNegativeNumber s || ' ' ∈ s then .plain (String.ofList s) else .unknown (String.ofList s)

def classifyLong (s : List Char) : Except Stop Argument :=
  let (name, attached) := splitAtEquals s
  match Switch.find? name with
  | some switch => .ok (.long switch attached)
  | none =>
    match Switch.startingWith name with
    | [] => .ok (unmatched s)
    | [(_, switch)] => .ok (.long switch attached)
    | several =>
      let names := ", ".intercalate (several.map Prod.fst)
      .error (.usage s!"ambiguous option: {String.ofList s} could match {names}")

def classifyShort (s : List Char) : Argument :=
  let (name, attached) := splitAtEquals s
  match if s.length = 2 || attached.isSome then Switch.find? name else none with
  | some switch => .short switch attached
  | none =>
    match Switch.find? (s.take 2) with
    | some switch => .short switch (some ⟨false, s.drop 2⟩)
    | none => unmatched s

def classifyOne (s : String) : Except Stop Argument :=
  match s.toList with
  | '-' :: '-' :: rest => classifyLong ('-' :: '-' :: rest)
  | '-' :: c :: rest => .ok (classifyShort ('-' :: c :: rest))
  | _ => .ok (.plain s)

def classify : List String → Except Stop (List Argument)
  | [] => .ok []
  | s :: rest =>
    if s = "--" then .ok (.terminator :: rest.map .plain)
    else do
      let argument ← classifyOne s
      return argument :: (← classify rest)

/-- Which directories the arguments so far have given. They stand side by side. -/
inductive Directories where
  | none
  | input
  | both
  | closed
  deriving DecidableEq, Repr

structure Options where
  classesDir : String := ""
  outputDir : Option String := none
  noBodies : Bool := false
  noFilter : Bool := false
  prefixes : List String := []
  verbose : Bool := false
  deriving DecidableEq, Repr

structure ParseState where
  options : Options := {}
  directories : Directories := .none
  unrecognized : List String := []
  deriving DecidableEq, Repr

namespace ParseState

def reject (text : String) (s : ParseState) : ParseState :=
  { s with unrecognized := s.unrecognized ++ [text] }

def closeDirectories (s : ParseState) : ParseState :=
  { s with directories := if s.directories = .none then .none else .closed }

def takePlain (text : String) (s : ParseState) : ParseState :=
  match s.directories with
  | .none => { s with directories := .input, options := { s.options with classesDir := text } }
  | .input =>
    let outputDir := if text = "--" then Option.none else some text
    { s with directories := .both, options := { s.options with outputDir } }
  | .both | .closed => { s with directories := .closed }.reject text

def takeTerminator (s : ParseState) : ParseState :=
  match s.directories with
  | .closed => s.reject "--"
  | _ => s

def apply (switch : Switch) (value : String) (s : ParseState) : Except Stop ParseState :=
  let o := s.options
  match switch with
  | .help => .error .help
  | .noBodies => .ok { s with options := { o with noBodies := true } }
  | .noFilter => .ok { s with options := { o with noFilter := true } }
  | .excludePrefix => .ok { s with options := { o with prefixes := o.prefixes ++ [value] } }
  | .verbose => .ok { s with options := { o with verbose := true } }

end ParseState

def ignoredText (switch : Switch) (text : List Char) : Stop :=
  .usage s!"argument {switch.label}: ignored explicit argument {Text.quoted (String.ofList text)}"

/-- The short switches that are joined in one argument: those before the last, the last one with its
value, and a rest that no switch is spelled like. -/
structure Joined where
  switches : List (Switch × String) := []
  rest : Option String := none

def splitJoined (switch : Switch) (byEquals : Bool) : List Char → Except Stop Joined
  | [] =>
    if switch.takesValue then .ok { switches := [(switch, "")] } else .error (ignoredText switch [])
  | c :: text =>
    if switch.takesValue then .ok { switches := [(switch, String.ofList (c :: text))] }
    else if byEquals || c = '-' then .error (ignoredText switch (c :: text))
    else
      match Switch.find? ['-', c] with
      | none => .ok { switches := [(switch, "")], rest := some (String.ofList ('-' :: c :: text)) }
      | some next =>
        match text with
        | [] => .ok { switches := [(switch, ""), (next, "")] }
        | '=' :: more => do
          let joined ← splitJoined next true more
          return { joined with switches := (switch, "") :: joined.switches }
        | d :: more => do
          let joined ← splitJoined next false (d :: more)
          return { joined with switches := (switch, "") :: joined.switches }

def ParseState.applyJoined (joined : Joined) (s : ParseState) : Except Stop ParseState := do
  let s := match joined.rest with
    | some text => s.reject text
    | none => s
  joined.switches.foldlM (fun s entry => s.apply entry.1 entry.2) s

def parseArguments (s : ParseState) : List Argument → Except Stop ParseState
  | [] => .ok s
  | .plain text :: rest => parseArguments (s.takePlain text) rest
  | .terminator :: rest => parseArguments s.takeTerminator rest
  | .unknown text :: rest => parseArguments (s.closeDirectories.reject text) rest
  | .short switch (some attached) :: rest => do
    let joined ← splitJoined switch attached.byEquals attached.text
    parseArguments (← s.closeDirectories.applyJoined joined) rest
  | .long switch (some attached) :: rest => do
    if !switch.takesValue then throw (ignoredText switch attached.text)
    parseArguments (← s.closeDirectories.apply switch (String.ofList attached.text)) rest
  | .short switch none :: rest => do
    parseArguments (← s.closeDirectories.apply switch "") rest
  | .long switch none :: rest =>
    if switch.takesValue then
      match rest with
      | .plain value :: rest => do parseArguments (← s.closeDirectories.apply switch value) rest
      | _ => .error (.usage s!"argument {switch.label}: expected one argument")
    else do
      parseArguments (← s.closeDirectories.apply switch "") rest

def parseCommandLine (args : List String) : Except Stop Options := do
  let s ← parseArguments {} (← classify args)
  if s.directories = .none then throw (.usage "the following arguments are required: classes_dir")
  if !s.unrecognized.isEmpty then
    throw (.usage ("unrecognized arguments: " ++ " ".intercalate s.unrecognized))
  return s.options

end CallAtlas.Run
