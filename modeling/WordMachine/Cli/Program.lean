import WordMachine.Cli.Arguments
import WordMachine.Cli.Shell
import WordMachine.Listing.Assembly
import WordMachine.Listing.Disassembly
import WordMachine.Memory.Image

/-!
The commands: running an image, listing one, and making one from a listing. Each takes the shell as
it finds it and gives it back with a status; a status of 1 comes with one error in the log.
-/
namespace WordMachine.Cli

def noteLoading (sh : Shell) (path : String) (image : List UInt8) : Shell :=
  sh.note (.mk ⟨.info, .memory, "load_file", 102, s!"Loading image {path} ({image.length} bytes)"⟩)

def noteLoaded (sh : Shell) (image : List UInt8) : Shell :=
  sh.note (.mk ⟨.debug, .memory, "load_image", 97,
    s!"Loaded {image.length} bytes ({Memory.imageCells image} words) at 0"⟩)

def openTrace (sh : Shell) (a : RunArguments) : Except FileError (Shell × Option Tracer) := do
  if !a.trace && a.direct then return (sh, none)
  let sh ← match a.traceFile with
    | none => pure sh
    | some file =>
      let path := Path.ofText file
      let files ← sh.files.append path []
      pure ({ sh with files }.note
        (.mk ⟨.info, .tracer, "__init__", 34, s!"Tracing to file '{path.text}'"⟩))
  let (tracer, stamp) := if a.trace then ({} : Tracer).start else ({}, none)
  return (sh.writeTrace a.traceFile stamp.toList, some tracer)

def queuedLines (sh : Shell) (a : RunArguments) : Except Escape (List String) :=
  match a.input.filter (· ≠ "") with
  | none => .ok []
  | some path => do return (Text.splitLines (← sh.readText path)).map String.ofList

def sessionOf (sh : Shell) (a : RunArguments) (memory : Memory) (tracer : Option Tracer) :
    Session where
  machine := { memory, console := { sink := some {} } }
  front := if a.direct then .direct else .debugger "> " true
  lines := sh.input
  ending := sh.ending
  observer := match tracer with
    | some t => .tracer t
    | none => .none
  traceTime := if a.traceFile.isNone then some sh.stampTime else none

def takeOver (sh : Shell) (a : RunArguments) (s : Session) : Shell :=
  let sh := sh.publish a.traceFile s.journal.toList
  { sh with
    input := s.lines
    output := sh.output ++ (s.machine.console.sink.map (·.text)).getD "" }

def closeTrace (sh : Shell) (a : RunArguments) (s : Session) : Shell :=
  match s.observer.tracer? with
  | some t => sh.writeTrace a.traceFile t.close.2.toList
  | none => sh

def concludeRun (sh : Shell) (a : RunArguments) (s : Session) : Session.Event → Shell × Ending
  | .failed f =>
    let sh := sh.note (Shell.errorRecord "cmd_run" 114 f.text)
    let sh := sh.note
      (.mk ⟨.debug, .commandLine, "cmd_run", 115, s!"Machine state: {s.machine.display}"⟩)
    (closeTrace sh a s, .status 1)
  | .unreported | .noInput .unreported => (closeTrace sh a s, .escape .unreported)
  | .noInput .interrupted =>
    let sh := sh.note
      (.mk ⟨.warning, .commandLine, "cmd_run", 121, s!"Interrupted at pc={s.machine.pc}"⟩)
    (closeTrace sh a s, .status 130)
  | .noInput _ =>
    let sh := sh.note (.mk ⟨.info, .commandLine, "cmd_run", 118,
      s!"Input closed after {s.machine.steps} instructions"⟩)
    (closeTrace sh a s, .status 0)
  | .stopped reason =>
    let sh := closeTrace sh a s
    (sh.note (.mk ⟨.info, .commandLine, "cmd_run", 128, s!"Stopped: {reason.name}"⟩), .status 0)
  | .running => (closeTrace sh a s, .unfinished)

def runSession (fuel : Nat) (sh : Shell) (a : RunArguments) (s : Session) : Shell × Ending :=
  match s.run fuel with
  | (s, some event) => concludeRun (takeOver sh a s) a s event
  | (s, none) => (closeTrace (takeOver sh a s) a s, .unfinished)

def run (fuel : Nat) (sh : Shell) (a : RunArguments) : Shell × Ending :=
  match sh.files.read (.ofText a.image) with
  | .error e => sh.refuse (.file e)
  | .ok image =>
    let sh := noteLoading sh a.image image
    match Memory.ofImage image with
    | .error c => sh.failWith c
    | .ok memory =>
      let sh := noteLoaded sh image
      match openTrace sh a with
      | .error e => sh.refuse (.file e)
      | .ok (sh, tracer) =>
        match queuedLines sh a with
        | .error e => sh.refuse e
        | .ok queued => runSession fuel sh a ((sessionOf sh a memory tracer).feedAll queued)

/-- The addresses a listing covers: those asked for, or all that the image touches. -/
def listedRange (a : DisasmArguments) (image : List UInt8) : Except Escape (Int × Int) :=
  match a.range with
  | .everything => .ok (0, min ((Memory.imageCells image : Int) - 1) 32767)
  | .between first last => .ok (first, last)
  | .unstated => .error .noRange

/-- The text of a listing, with a line end after the last line even if there is none. -/
def listingText (listed : List Listing.Line) : String :=
  "\n".intercalate (listed.map (·.text)) ++ "\n"

def writeListing (sh : Shell) (output : Option String) (listed : List Listing.Line) :
    Shell × Ending :=
  match output.filter (· ≠ "") with
  | none => ({ sh with output := sh.output ++ listingText listed }, .status 0)
  | some path =>
    match sh.files.write (.ofText path) (Text.utf8Encode (listingText listed)) with
    | .error e => sh.refuse (.file e)
    | .ok files =>
      let sh := { sh with files }
      (sh.note (.mk ⟨.info, .commandLine, "cmd_disasm", 144,
        s!"Wrote {listed.length} lines to {path}"⟩), .status 0)

def disasm (sh : Shell) (a : DisasmArguments) : Shell × Ending :=
  match sh.files.read (.ofText a.image) with
  | .error e => sh.refuse (.file e)
  | .ok image =>
    match Memory.ofImage image with
    | .error c => sh.failWith c
    | .ok memory =>
      let sh := noteLoaded sh image
      match listedRange a image with
      | .error e => sh.refuse e
      | .ok (first, last) =>
        match Listing.disassemble memory first last with
        | (_, some c) => sh.failWith c
        | (listed, none) => writeListing sh a.output listed

def asm (sh : Shell) (a : AsmArguments) : Shell × Ending :=
  match sh.readText a.input with
  | .error e => sh.refuse e
  | .ok source =>
    match Listing.assemble source, a.output with
    | .error e, _ => sh.fail "cmd_asm" 155 e.message
    | .ok _, none => sh.refuse .noOutput
    | .ok ws, some output =>
      match packImage ws with
      | .error c => sh.failWith c
      | .ok image =>
        match sh.files.write (.ofText output) image with
        | .error e => sh.refuse (.file e)
        | .ok files =>
          let sh := { sh with files }
          (sh.note (.mk ⟨.info, .commandLine, "cmd_asm", 158,
            s!"Assembled {ws.length} words to {output}"⟩), .status 0)

def perform (fuel : Nat) (sh : Shell) : Command → Shell × Ending
  | .run a => run fuel sh a
  | .disasm a => disasm sh a
  | .asm a => asm sh a

/-- The level from which on records go to standard error. -/
def logLevel (verbosity : Nat) : Log.Level :=
  match verbosity with
  | 0 => .warning
  | 1 => .info
  | _ => .debug

def invoke (fuel : Nat) (sh : Shell) (i : Invocation) : Shell × Ending :=
  match i.command with
  | none =>
    ({ sh with output := sh.output ++ mainGrammar.usage ++ "\n" ++ mainGrammar.details }, .status 2)
  | some command =>
    match sh.setUpLog (logLevel i.verbosity) i.logFile with
    | (sh, some e) => (sh, .escape e)
    | (sh, none) => perform fuel sh command

/-- The whole program; a run of the machine may take so many steps. -/
def program (fuel : Nat) (sh : Shell) (arguments : List String) : Shell × Ending :=
  match readArguments arguments with
  | .ok i => invoke fuel sh i
  | .error (.shown text) => ({ sh with output := sh.output ++ text }, .exit 0)
  | .error e => ({ sh with errors := sh.errors ++ e.text }, .exit 2)

end WordMachine.Cli
