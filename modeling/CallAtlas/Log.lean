/-!
Log lines.
-/

namespace CallAtlas

inductive Level where
  | debug
  | info
  | warning
  | error
  | critical
  deriving DecidableEq, Repr

namespace Level

def rank : Level → Nat
  | debug => 10
  | info => 20
  | warning => 30
  | error => 40
  | critical => 50

def name : Level → String
  | debug => "DEBUG"
  | info => "INFO"
  | warning => "WARNING"
  | error => "ERROR"
  | critical => "CRITICAL"

end Level

structure LogEntry where
  level : Level
  text : String
  deriving DecidableEq, Repr

abbrev Log := List LogEntry

def LogEntry.line (entry : LogEntry) : String := entry.level.name ++ ": " ++ entry.text

def debugLog (text : String) : LogEntry := ⟨.debug, text⟩

def infoLog (text : String) : LogEntry := ⟨.info, text⟩

def warningLog (text : String) : LogEntry := ⟨.warning, text⟩

def Log.lines (threshold : Nat) (log : Log) : List String :=
  (log.filter fun entry => threshold ≤ entry.level.rank).map LogEntry.line

end CallAtlas
