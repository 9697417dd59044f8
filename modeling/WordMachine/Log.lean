import WordMachine.Text.Decimal
import WordMachine.Text.Pad

/-!
Log records and where they go. A record needs a name for its level, so there is none of a level that
is too long to be written. A logger has a threshold of its own and handlers with theirs; setting it
up again replaces all handlers, so only the last setup counts.
-/
namespace WordMachine.Log

inductive Source where
  | program
  | machine
  | memory
  | console
  | tracer
  | debugger
  | commandLine
  deriving DecidableEq, Repr

def Source.name : Source → String
  | .program => "synvm"
  | .machine => "synvm.emu"
  | .memory => "synvm.mem.memory"
  | .console => "synvm.periph.console"
  | .tracer => "synvm.debug.tracer"
  | .debugger => "synvm.debug.commands"
  | .commandLine => "synvm.cli"

abbrev Level := Int

abbrev Level.notSet : Level := 0

abbrev Level.debug : Level := 10

abbrev Level.info : Level := 20

abbrev Level.warning : Level := 30

abbrev Level.error : Level := 40

abbrev Level.critical : Level := 50

theorem Level.debug_lt_error : debug < error := by decide

theorem Level.info_lt_error : info < error := by decide

theorem Level.warning_lt_error : warning < error := by decide

structure Note where
  level : Level
  source : Source
  activity : String
  lineNumber : Nat
  message : String
  deriving DecidableEq, Repr

/-- A note whose level can be named. -/
structure Record extends Note where
  nameable : Text.IsWritable level := by
    exact Text.isWritable_of_natAbs_lt (by dsimp only; decide)
  deriving DecidableEq, Repr

def Note.record? (n : Note) : Option Record :=
  if h : Text.IsWritable n.level then some ⟨n, h⟩ else none

/-- The name of a level; one without a name of its own is named by its number. -/
def Record.levelName (r : Record) : String :=
  if r.level = .notSet then "NOTSET"
  else if r.level = .debug then "DEBUG"
  else if r.level = .info then "INFO"
  else if r.level = .warning then "WARNING"
  else if r.level = .error then "ERROR"
  else if r.level = .critical then "CRITICAL"
  else s!"Level {r.level}"

def Record.line (time : String) (r : Record) : String :=
  " | ".intercalate
    [time, Text.padRight 7 r.levelName, r.source.name, s!"{r.activity}:{r.lineNumber}", r.message]
      ++ "\n"

inductive Target where
  | standardError
  | file (path : String)
  deriving DecidableEq, Repr

structure Handler where
  target : Target
  level : Level
  deriving DecidableEq, Repr

structure Logger where
  threshold : Level := .warning
  handlers : List Handler := []
  deriving DecidableEq, Repr

def Logger.remove (l : Logger) (h : Handler) : Logger := { l with handlers := l.handlers.erase h }

def Logger.add (l : Logger) (h : Handler) : Logger := { l with handlers := l.handlers ++ [h] }

/-- Takes all handlers away, lets records through from a threshold on, and sends those of a level to
standard error. -/
def Logger.reset (l : Logger) (threshold level : Level) : Logger :=
  let cleared := l.handlers.foldl Logger.remove l
  { cleared with threshold }.add ⟨.standardError, level⟩

/-- Records of a level go to standard error from now on and, if a file is named, everything goes to
the file. -/
def Logger.configure (l : Logger) (level : Level) : Option String → Logger
  | none => l.reset level level
  | some path => (l.reset .debug level).add ⟨.file path, .debug⟩

theorem Logger.cleared {l : Logger} {handlers : List Handler} (h : l.handlers = handlers) :
    (handlers.foldl Logger.remove l).handlers = [] := by
  induction handlers generalizing l with
  | nil => exact h
  | cons first rest ih => exact ih (by rw [remove, h, List.erase_cons_head])

/-- However a logger has been set up before, it is now as if it had never been. -/
theorem Logger.configure_eq (l : Logger) (level : Level) (file : Option String) :
    l.configure level file =
      { threshold := if file.isSome then .debug else level
        handlers := ⟨.standardError, level⟩ :: file.toList.map (⟨.file ·, .debug⟩) } := by
  cases file <;> simp [configure, reset, add, cleared (l := l) rfl]

/-- The targets that receive a record, once for each handler that lets it through. -/
def Logger.deliver (l : Logger) (r : Record) : List Target :=
  if l.threshold ≤ r.level then (l.handlers.filter (·.level ≤ r.level)).map (·.target) else []

end WordMachine.Log
