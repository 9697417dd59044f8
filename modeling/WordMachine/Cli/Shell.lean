import WordMachine.FileTree
import WordMachine.Session
import WordMachine.Text.Line

/-!
What the program finds and leaves around it: files, standard input, output and error, and the log.
-/
namespace WordMachine.Cli

structure Shell where
  files : FileTree := {}
  /-- The lines of standard input, and what reading gives after them. -/
  input : List String := []
  ending : NoInput := .exhausted
  output : String := ""
  /-- Messages about the command line. -/
  errors : String := ""
  /-- The records that standard error has received. -/
  reported : Array Log.Record := #[]
  logger : Log.Logger := {}
  /-- The time as trace stamps and as log lines show it. -/
  stampTime : String := ""
  logTime : String := ""

/-- What can end the program from inside. -/
inductive Escape where
  | file (e : FileError)
  | undecodable (d : Text.Utf8Defect)
  | unreported
  /-- A range that is asked for but not given. -/
  | noRange
  /-- A file to be written that is asked for but not named. -/
  | noOutput
  deriving DecidableEq, Repr

def Escape.message : Escape → String
  | file e => e.message
  | undecodable d => d.message
  | unreported => Text.tooLongToWrite
  | noRange => "not enough values to unpack (expected 2, got 0)"
  | noOutput => "expected str, bytes or os.PathLike object, not list"

inductive Ending where
  /-- With a status, after all its work. -/
  | status (code : Nat)
  /-- With a status, while reading its arguments. -/
  | exit (code : Nat)
  | escape (e : Escape)
  /-- Not within the steps that a run may take. -/
  | unfinished
  deriving DecidableEq, Repr

namespace Shell

def extend (sh : Shell) (path text : String) : Shell :=
  match sh.files.append (.ofText path) (Text.utf8Encode text) with
  | .ok files => { sh with files }
  | .error _ => sh

/-- Extends several files; what is for the same file goes there in the order of the list. -/
def extendAll (sh : Shell) : List (String × String) → Shell
  | [] => sh
  | (path, text) :: rest =>
    let place (path : String) := (sh.files.locate (.ofText path)).toOption
    let here := place path
    let same := rest.filter fun (path, _) => place path == here
    let others := rest.filter fun (path, _) => place path != here
    (sh.extend path (String.join (text :: same.map (·.2)))).extendAll others
  termination_by texts => texts.length
  decreasing_by
    simp only [List.unattach_filter, List.unattach_attach, List.length_cons]
    exact Nat.lt_succ_of_le (List.length_filter_le ..)

def hand (r : Log.Record) (sh : Shell) : Log.Target → Shell
  | .standardError => { sh with reported := sh.reported.push r }
  | .file path => sh.extend path (r.line sh.logTime)

def note (sh : Shell) (r : Log.Record) : Shell := (sh.logger.deliver r).foldl (hand r) sh

/-- Logs at any level. What passes the threshold is made a record, and so needs a level with a
name. -/
def log (sh : Shell) (n : Log.Note) : Shell × Option Escape :=
  if sh.logger.threshold ≤ n.level then
    match n.record? with
    | some r => (sh.note r, none)
    | none => (sh, some .unreported)
  else (sh, none)

def errorRecord (activity : String) (lineNumber : Nat) (message : String) : Log.Record :=
  .mk ⟨.error, .commandLine, activity, lineNumber, message⟩

def fail (sh : Shell) (activity : String) (lineNumber : Nat) (message : String) : Shell × Ending :=
  (sh.note (errorRecord activity lineNumber message), .status 1)

def readText (sh : Shell) (path : String) : Except Escape (List Char) :=
  match sh.files.read (.ofText path) with
  | .error e => .error (.file e)
  | .ok bytes =>
    match Text.utf8Decode bytes with
    | .error d => .error (.undecodable d)
    | .ok text => .ok (Text.unifyLineEnds text.toList)

/-- A file that cannot be opened is reported; anything else ends the program. -/
def refuse (sh : Shell) : Escape → Shell × Ending
  | .file (.refused failure path) => sh.fail "main" 187 (FileError.refused failure path).message
  | e => (sh, .escape e)

def failWith (sh : Shell) (c : Cause) : Shell × Ending :=
  match c.report? with
  | some f => sh.fail "main" 187 f.text
  | none => sh.refuse .unreported

def writeTrace (sh : Shell) (file : Option String) (lines : List TraceLine) : Shell :=
  if lines.isEmpty then sh
  else
    let text := TraceLine.textOf sh.stampTime lines
    match file with
    | some path => sh.extend path text
    | none => { sh with output := sh.output ++ text }

def textsOf (sh : Shell) (trace : Option String) : Entry → List (String × String)
  | .logged r => (sh.logger.deliver r).filterMap fun
    | .standardError => none
    | .file path => some (path, r.line sh.logTime)
  | .traced line => trace.toList.map fun path => (path, line.text sh.stampTime)

def reportedOf (sh : Shell) (journal : List Entry) : List Log.Record :=
  (journal.filterMap Entry.record?).flatMap fun r =>
    (sh.logger.deliver r).filterMap fun
      | .standardError => some r
      | .file _ => none

def publish (sh : Shell) (trace : Option String) (journal : List Entry) : Shell :=
  let sh := { sh with reported := sh.reported ++ (sh.reportedOf journal).toArray }
  sh.extendAll (journal.flatMap (sh.textsOf trace))

/-- Sets the log up. A log file is created with the directories above it, and since these exist then
it can be reached without steps back. If it cannot be opened there is no log but that on standard
error. -/
def setUpLog (sh : Shell) (level : Log.Level) (file : Option String) : Shell × Option Escape :=
  match file.filter (· ≠ "") with
  | none => ({ sh with logger := sh.logger.configure level none }, none)
  | some name =>
    let path := Path.ofText name
    match sh.files.ensureDirectories path.parent path.parts.length with
    | (files, some e) => ({ sh with files, logger := sh.logger.reset .debug level }, some (.file e))
    | (files, none) =>
      match files.append path.collapse [] with
      | .error e => ({ sh with files, logger := sh.logger.reset .debug level }, some (.file e))
      | .ok files =>
        let logger := sh.logger.configure level (some path.collapse.text)
        let sh := { sh with files, logger }
        (sh.note (.mk ⟨.debug, .program, "setup_logging", 52, s!"Log file: {path.text}"⟩), none)

end Shell

end WordMachine.Cli
