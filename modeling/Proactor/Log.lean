import Proactor.Environment
/-! # Log lines

* **Levels** (`Log.Level`).  A line is written when its level is not above the level that is set.
* **Lines** (`Log.Entry.line`).  A label, the name of the thread, and the text.
* **Settings** (`Log.Settings`).  Level and flushing, taken from the environment on first use. -/

namespace Proactor.Log

/-- How important a line is. -/
inductive Level where
  | off | error | warn | info | debug | trace
deriving DecidableEq, Repr, Inhabited

namespace Level

/-- The number of a level. -/
def rank : Level → Nat
  | off => 0 | error => 1 | warn => 2 | info => 3 | debug => 4 | trace => 5

/-- The level of a number; everything above four is `trace`. -/
def ofRank : Nat → Level
  | 0 => off | 1 => error | 2 => warn | 3 => info | 4 => debug | _ => trace

/-- A level by its name, in any case, or by its number. -/
def parse? (s : String) : Option Level :=
  match Text.folded (Text.trim s) with
  | "off" | "0" => some off
  | "error" | "1" => some error
  | "warn" | "2" => some warn
  | "info" | "3" => some info
  | "debug" | "4" => some debug
  | "trace" | "5" => some trace
  | _ => none

def name : Level → String
  | off => "Off" | error => "Error" | warn => "Warn" | info => "Info" | debug => "Debug"
  | trace => "Trace"

/-- What a line of this level begins with. -/
def label : Level → String
  | off => "" | error => "[ERROR]" | warn => "[WARN] " | info => "[INFO] " | debug => "[DEBUG]"
  | trace => "[TRACE]"

/-- Whether lines of `level` are written when `threshold` is set. -/
def admits (threshold level : Level) : Bool := level != off && level.rank ≤ threshold.rank

theorem ofRank_rank (l : Level) : ofRank l.rank = l := by cases l <;> rfl

end Level

/-- A line to be written: its level and its text. -/
structure Entry where
  level : Level
  text : String
deriving DecidableEq, Repr, Inhabited

/-- The line as a thread writes it. -/
def Entry.line (entry : Entry) (thread : String) : String :=
  s!"{entry.level.label} [{thread}] {entry.text}"

def Entry.error (text : String) : Entry := ⟨.error, text⟩
def Entry.warn (text : String) : Entry := ⟨.warn, text⟩
def Entry.info (text : String) : Entry := ⟨.info, text⟩
def Entry.debug (text : String) : Entry := ⟨.debug, text⟩
def Entry.trace (text : String) : Entry := ⟨.trace, text⟩

/-! ### Settings -/

/-- The settings of a process.  They are read from the environment on first use, unless the
level was set before. -/
structure Settings where
  ready : Bool := false
  level : Level := .warn
  flush : Bool := false
deriving DecidableEq, Repr, Inhabited

namespace Settings

/-- Read the environment, once. -/
def start (s : Settings) (env : Environment) : Settings :=
  if s.ready then s
  else
    { ready := true
      level := ((env.get? "SOCKASYNC_LOG_LEVEL").bind Level.parse?).getD s.level
      flush := match env.get? "SOCKASYNC_FLUSH_LOG" with
        | some value => value == "1" || value == "true" || value == "yes" || value == "on"
        | none => s.flush }

/-- The level in force; this is a first use. -/
def currentLevel (s : Settings) (env : Environment) : Level × Settings :=
  ((s.start env).level, s.start env)

/-- Whether lines are flushed; this is a first use. -/
def currentFlush (s : Settings) (env : Environment) : Bool × Settings :=
  ((s.start env).flush, s.start env)

/-- Set the level; the environment is not read any more. -/
def setLevel (s : Settings) (level : Level) : Settings := { s with ready := true, level }

/-- Set flushing; the environment is still read on first use. -/
def setFlush (s : Settings) (flush : Bool) : Settings := { s with flush }

/-- Whether lines of `level` are written; this is a first use, except for `off`. -/
def enabled (s : Settings) (env : Environment) (level : Level) : Bool × Settings :=
  if level = .off then (false, s) else ((s.start env).level.admits level, s.start env)

/-- Write a line of `level`: whether it appears, and the settings afterwards. -/
def write (s : Settings) (env : Environment) (level : Level) : Bool × Settings :=
  match s.enabled env level with
  | (false, s) => (false, s)
  | (true, s) => (true, (s.currentFlush env).2)

/-- Write a line whatever the level; only flushing is looked up. -/
def print (s : Settings) (env : Environment) : Settings := (s.currentFlush env).2

end Settings
end Proactor.Log
