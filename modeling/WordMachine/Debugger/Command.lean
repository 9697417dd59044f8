import WordMachine.Debugger.RegisterTable
import WordMachine.Memory.HexDump
import WordMachine.Text.Control
import WordMachine.Text.LowerCase
import WordMachine.Text.Numeral
import WordMachine.Tracer

/-!
Commands of the debugger. A command looks at a machine and its tracer and answers with some lines;
only `reg` changes the machine, only `trace` the tracer, and a refused command changes neither.
-/
namespace WordMachine.Debugger

inductive Command where
  | help
  | regs
  | reg (index value : Int)
  | stack
  | mem (start count : Int)
  | trace (arguments : List String)
  | quit
  deriving DecidableEq, Repr

def helpText : String := "\n".intercalate [
  "  !help                 list commands",
  "  !regs                 registers, pc, stack depth",
  "  !reg N VALUE          set register N (0-7)",
  "  !stack                operand stack, top first",
  "  !mem ADDR [COUNT]     hex dump of memory",
  "  !trace on|off         toggle the execution tracer",
  "  !quit                 end the session"]

inductive Refusal where
  | unknown (name : String)
  | usage (form : String)
  | notANumber (text : String)
  | noTracer
  | cause (c : Cause)
  deriving DecidableEq, Repr

/-- What is said of a refused command; there is nothing to be said of a failure without report. -/
def Refusal.text? : Refusal → Option String
  | unknown name => some s!"Unknown command '{name}' (try !help)"
  | usage form => some s!"usage: !{form}"
  | notANumber text => some s!"Not a number: {Text.quoted text}"
  | noTracer => some "No tracer attached"
  | cause c => c.report?.map (·.text)

/-- A number of a command: hexadecimal if it begins with `0x`, decimal otherwise. -/
def number (text : List Char) : Except Refusal Int :=
  let radix := match text with
    | '0' :: 'x' :: _ | '0' :: 'X' :: _ => Text.Radix.sixteen
    | _ => .ten
  (Text.integer radix text).mapError fun _ => .notANumber (String.ofList text)

/-- Reads a command of at least one word; the case of its name does not matter. -/
def Command.ofWords (name : List Char) (arguments : List (List Char)) : Except Refusal Command :=
  let name := Text.lower (String.ofList name)
  if name = "help" then .ok help
  else if name = "regs" then .ok regs
  else if name = "reg" then
    match arguments with
    | [i, v] => do return reg (← number i) (← number v)
    | _ => .error (.usage "reg N VALUE")
  else if name = "stack" then .ok stack
  else if name = "mem" then
    match arguments with
    | [a] => do return mem (← number a) 64
    | [a, n] => do return mem (← number a) (← number n)
    | _ => .error (.usage "mem ADDR [COUNT]")
  else if name = "trace" then .ok (trace (arguments.map String.ofList))
  else if name = "quit" then .ok quit
  else .error (.unknown name)

/-- Reads a command line; a blank one asks for help. -/
def Command.ofLine (line : String) : Except Refusal Command :=
  match Text.words line.toList with
  | [] => .ok help
  | name :: arguments => ofWords name arguments

structure Answer where
  machine : Machine
  tracer : Option Tracer
  lines : List String
  /-- The line that a tracer has written on being started or stopped. -/
  stamp : Option TraceLine := none

def stackLines : List Int → List String
  | [] => ["(empty)"]
  | entries => entries.mapIdx fun depth v => Text.padLeft 3 (toString depth) ++ ": " ++ toString v

def Command.run (m : Machine) (tracer : Option Tracer) : Command → Except Refusal (Option Answer)
  | help => .ok (some { machine := m, tracer, lines := [helpText] })
  | regs => .ok (some { machine := m, tracer, lines := registerTable m })
  | reg index value =>
    match m.setRegister index value with
    | .ok m => .ok (some { machine := m, tracer, lines := [s!"R{index} = {value}"] })
    | .error c => .error (.cause c)
  | stack => .ok (some { machine := m, tracer, lines := stackLines m.stack })
  | mem start count =>
    match m.memory.hexDump start count with
    | .ok dump => .ok (some { machine := m, tracer, lines := [dump] })
    | .error c => .error (.cause c)
  | trace arguments =>
    match tracer with
    | none => .error .noTracer
    | some t =>
      let switched := match arguments with
        | [] => some (t, none)
        | ["on"] => some t.start
        | ["off"] => some t.stop
        | _ => none
      match switched with
      | some (t, stamp) =>
        let state := if t.running then "trace on" else "trace off"
        .ok (some { machine := m, tracer := some t, lines := [state], stamp })
      | none => .error (.usage "trace on|off")
  | quit => .ok none

end WordMachine.Debugger
