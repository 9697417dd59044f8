import WordMachine.Cli.Options
import WordMachine.Cli.Range

/-!
The arguments of the program: options of its own, then a command with its options.
-/
namespace WordMachine.Cli

structure RunArguments where
  image : String := ""
  trace : Bool := false
  /-- Without a file the trace goes where the program writes. -/
  traceFile : Option String := some "synvm_trace.log"
  input : Option String := none
  /-- Input goes to the program as it is, without a debugger. -/
  direct : Bool := false
  deriving DecidableEq, Repr

inductive Selection where
  | everything
  | between (first last : Int)
  /-- A range is asked for, but none is given. -/
  | unstated
  deriving DecidableEq, Repr

structure DisasmArguments where
  image : String := ""
  range : Selection := .everything
  output : Option String := none
  deriving DecidableEq, Repr

structure AsmArguments where
  input : String := ""
  output : Option String := none
  deriving DecidableEq, Repr

inductive Command where
  | run (arguments : RunArguments)
  | disasm (arguments : DisasmArguments)
  | asm (arguments : AsmArguments)
  deriving DecidableEq, Repr

structure Invocation where
  verbosity : Nat := 0
  logFile : Option String := none
  command : Option Command := none
  deriving DecidableEq, Repr

def versionText : String := "synvm 0.1.0"

def helpRule (σ : Type) : OptionRule σ := { names := ["-h", "--help"], action := .help }

def keep {σ : Type} (set : Option String → σ → σ) : Action σ :=
  .value fun value s => .ok (set value s)

def keepFirst {σ : Type} (title : String) (set : String → σ → σ) : PositionalRule σ where
  title
  greedy := false
  required := true
  set values s := .ok (set (values.headD "") s)

def lines (texts : List String) : String := String.join (texts.map (· ++ "\n"))

def runGrammar : Grammar RunArguments where
  program := "synvm run"
  version := versionText
  usage := lines [
    "usage: synvm run [-h] [--trace] [--trace-file TRACE_FILE] [--input FILE]",
    "                 [--no-debug-console]",
    "                 image"]
  details := lines [
    "positional arguments:",
    "  image                 Program image (.bin)",
    "",
    "options:",
    "  -h, --help            show this help message and exit",
    "  --trace               Start with the execution tracer enabled",
    "  --trace-file TRACE_FILE",
    "                        Trace output file (default: synvm_trace.log)",
    "  --input FILE          Queue the lines of FILE as program input before",
    "                        starting",
    "  --no-debug-console    Read program input directly, without !commands"]
  positional := keepFirst "image" fun image a => { a with image }
  options := [
    helpRule _,
    { names := ["--trace"], action := .flag fun a => { a with trace := true } },
    { names := ["--trace-file"], action := keep fun traceFile a => { a with traceFile } },
    { names := ["--input"], action := keep fun input a => { a with input } },
    { names := ["--no-debug-console"], action := .flag fun a => { a with direct := true } }]

def disasmGrammar : Grammar DisasmArguments where
  program := "synvm disasm"
  version := versionText
  usage := lines ["usage: synvm disasm [-h] [--range RANGE] [-o OUTPUT] image"]
  details := lines [
    "positional arguments:",
    "  image                 Program image (.bin)",
    "",
    "options:",
    "  -h, --help            show this help message and exit",
    "  --range RANGE         Word address range START-END, e.g. 0-120",
    "  -o OUTPUT, --output OUTPUT",
    "                        Output file (default: stdout)"]
  positional := keepFirst "image" fun image a => { a with image }
  options := [
    helpRule _,
    { names := ["--range"]
      action := .value fun
        | none, a => .ok { a with range := .unstated }
        | some text, a => do
          let (first, last) ← (parseRange text).mapError RangeError.message
          return { a with range := .between first last } },
    { names := ["-o", "--output"], action := keep fun output a => { a with output } }]

def asmGrammar : Grammar AsmArguments where
  program := "synvm asm"
  version := versionText
  usage := lines ["usage: synvm asm [-h] -o OUTPUT input"]
  details := lines [
    "positional arguments:",
    "  input                 Listing, one instruction per line or ';' separated",
    "",
    "options:",
    "  -h, --help            show this help message and exit",
    "  -o OUTPUT, --output OUTPUT",
    "                        Output image (.bin)"]
  positional := keepFirst "input" fun input a => { a with input }
  options := [
    helpRule _,
    { names := ["-o", "--output"], action := keep fun output a => { a with output },
      required := true }]

structure MainArguments where
  verbosity : Nat := 0
  logFile : Option String := none
  command : Option (String × List String) := none

def commandNames : List String := ["run", "disasm", "asm"]

def mainGrammar : Grammar MainArguments where
  program := "synvm"
  version := versionText
  usage := lines ["usage: synvm [-h] [--version] [-v] [--log-file LOG_FILE] command ..."]
  details := lines [
    "Word-addressed 22-instruction virtual machine",
    "",
    "positional arguments:",
    "  command",
    "    run                Execute a program image",
    "    disasm             Disassemble a program image",
    "    asm                Assemble a listing to a program image",
    "",
    "options:",
    "  -h, --help           show this help message and exit",
    "  --version            show program's version number and exit",
    "  -v, --verbose        Increase log verbosity (-v, -vv)",
    "  --log-file LOG_FILE  Also write the full debug log to this file",
    "",
    "examples:",
    "    synvm run challenge.bin",
    "    synvm run challenge.bin --trace --trace-file trace.log",
    "    synvm run challenge.bin --input walkthrough.txt --no-debug-console",
    "    synvm disasm challenge.bin --range 0-120",
    "    synvm asm hello.lst -o hello.bin"]
  positional :=
    { title := "command"
      greedy := true
      required := false
      set := fun values a =>
        let name := values.headD ""
        if name ∈ commandNames then .ok { a with command := some (name, values.tail) }
        else
          let choices := ", ".intercalate (commandNames.map Text.quoted)
          .error s!"invalid choice: {Text.quoted name} (choose from {choices})" }
  options := [
    helpRule _,
    { names := ["--version"], action := .version },
    { names := ["-v", "--verbose"],
      action := .flag fun a => { a with verbosity := a.verbosity + 1 } },
    { names := ["--log-file"], action := keep fun logFile a => { a with logFile } }]

def readCommand (name : String) (arguments : List String) :
    Except EarlyEnd (Command × List String) := do
  if name = "run" then
    let (a, aside) ← runGrammar.read {} arguments
    return (.run a, aside)
  else if name = "disasm" then
    let (a, aside) ← disasmGrammar.read {} arguments
    return (.disasm a, aside)
  else
    let (a, aside) ← asmGrammar.read {} arguments
    return (.asm a, aside)

def readArguments (arguments : List String) : Except EarlyEnd Invocation := do
  let (main, aside) ← mainGrammar.read {} arguments
  let (command, more) ← match main.command with
    | none => pure (none, [])
    | some (name, rest) => do
      let (command, more) ← readCommand name rest
      pure (some command, more)
  match aside ++ more with
  | [] => return { verbosity := main.verbosity, logFile := main.logFile, command }
  | unknown => throw (mainGrammar.misuse ("unrecognized arguments: " ++ " ".intercalate unknown))

end WordMachine.Cli
