import WordMachine.Debugger.Command
import WordMachine.Log

/-!
A session: a machine together with whoever hands it lines of input and watches its instructions, and
a journal of what is logged and traced meanwhile. The source of lines is asked only when an input
instruction finds nothing waiting; a debugger in front of it keeps the lines that are commands for
itself.
-/
namespace WordMachine

inductive NoInput where
  | unattached
  | exhausted
  | quit
  | interrupted
  /-- A debugger has met a failure that has no report. -/
  | unreported
  deriving DecidableEq, Repr

def NoInput.message : NoInput → String
  | unattached => "No input provider attached and input queue is empty"
  | exhausted => "input exhausted"
  | quit => "Session ended by user"
  | interrupted => ""
  | unreported => Text.tooLongToWrite

/-- What stands between the machine and the lines. -/
inductive Front where
  /-- Nothing is attached, so there is no line. -/
  | absent
  /-- Every line goes to the program. -/
  | direct
  /-- A debugger takes the lines that begin with `!`. It writes, prompts included, where the program
  writes if `shared` is set, and apart from it and without prompts otherwise. -/
  | debugger (prompt : String) (shared : Bool)
  deriving DecidableEq, Repr

inductive Observer where
  | none
  | recorder (seen : Array TraceRecord)
  | tracer (t : Tracer)

/-- Shows an executed instruction; a running tracer writes a line for it. It has no reason to refuse
one, since all numbers of a well-formed machine are short. -/
def Observer.see (r : TraceRecord) : Observer → Observer × Option TraceLine
  | none => (none, .none)
  | recorder seen => (recorder (seen.push r), .none)
  | tracer t =>
    let (t, line) := t.record r
    (tracer t, line.toOption.join)

def Observer.tracer? : Observer → Option Tracer
  | tracer t => some t
  | _ => .none

def Observer.withTracer (o : Observer) : Option Tracer → Observer
  | some t => tracer t
  | .none => o

inductive Entry where
  | logged (record : Log.Record)
  | traced (line : TraceLine)
  deriving DecidableEq, Repr

def Entry.record? : Entry → Option Log.Record
  | logged r => some r
  | traced _ => none

def Entry.trace? : Entry → Option TraceLine
  | logged _ => none
  | traced l => some l

structure Session where
  machine : Machine
  front : Front := .absent
  /-- The lines that have not been asked for. -/
  lines : List String := []
  /-- What asking gives when there is no line left. -/
  ending : NoInput := .exhausted
  asked : Nat := 0
  observer : Observer := .none
  /-- If it is set, what is traced also goes where the program writes, with stamps of this time. -/
  traceTime : Option String := none
  /-- What a debugger has written apart from the program. -/
  printed : String := ""
  /-- What has been logged and traced, in order. -/
  journal : Array Entry := #[]

namespace Session

def note (s : Session) (r : Log.Record) : Session :=
  { s with journal := s.journal.push (.logged r) }

def share (m : Machine) (text : String) : Machine :=
  { m with console := { m.console with
      sink := m.console.sink.map fun sink => { sink with text := sink.text ++ text } } }

def trace (s : Session) : Option TraceLine → Session
  | none => s
  | some line =>
    let s := { s with journal := s.journal.push (.traced line) }
    match s.traceTime with
    | some time => { s with machine := share s.machine (line.text time) }
    | none => s

def print (s : Session) (lines : List String) : Session :=
  let text := String.join (lines.map fun line => Text.dropControls line ++ "\n")
  match s.front with
  | .debugger _ true => { s with machine := share s.machine text }
  | _ => { s with printed := s.printed ++ text }

def ask (s : Session) : Session :=
  let s := { s with asked := s.asked + 1 }
  match s.front with
  | .debugger prompt true => { s with machine := share s.machine prompt }
  | _ => s

def queuedRecord (line : String) : Log.Record :=
  .mk ⟨.debug, .console, "feed", 53, s!"Queued {(lineBytes line).length} input codes"⟩

def receivedRecord (line : String) : Log.Record :=
  .mk ⟨.debug, .machine, "_request_input", 367, s!"Input line received ({line.length} chars)"⟩

def feedAll (s : Session) (lines : List String) : Session :=
  { s with
    machine := { s.machine with console := s.machine.console.feedAll lines }
    journal := s.journal ++ lines.map fun line => Entry.logged (queuedRecord line) }

def feed (s : Session) (line : String) : Session := s.feedAll [line]

/-- A debugger says why it does not carry out a command, which ends the input if it cannot. -/
def refuse (s : Session) (command : String) (r : Debugger.Refusal) : Session × Option NoInput :=
  match r.text? with
  | none => (s, some .unreported)
  | some text =>
    let s := match r with
      | .unknown _ => s
      | _ =>
        s.note (.mk ⟨.debug, .debugger, "execute", 80,
          s!"Command {Text.quoted command} rejected: {text}"⟩)
    (s.print [text], none)

/-- Reads and carries out a debugger command, which may be the end of the input. -/
def execute (s : Session) (command : String) : Session × Option NoInput :=
  match Debugger.Command.ofLine command with
  | .error r => s.refuse command r
  | .ok c =>
    match c.run s.machine s.observer.tracer? with
    | .error r => s.refuse command r
    | .ok none => (s, some .quit)
    | .ok (some answer) =>
      let s := { s with machine := answer.machine, observer := s.observer.withTracer answer.tracer }
      ((s.trace answer.stamp).print answer.lines, none)

/-- Reads on until a line is for the program. -/
def readPast (s : Session) : List String → Session × Except NoInput String
  | [] => ({ s.ask with lines := [] }, .error s.ending)
  | line :: rest =>
    let s := { s.ask with lines := rest }
    match line.toList with
    | '!' :: command =>
      match s.execute (String.ofList command) with
      | (s, none) => s.readPast rest
      | (s, some why) => (s, .error why)
    | _ => (s, .ok line)

def readLine (s : Session) : Session × Except NoInput String :=
  match s.front with
  | .absent => (s, .error .unattached)
  | .direct =>
    match s.lines with
    | [] => (s.ask, .error s.ending)
    | line :: rest => ({ s.ask with lines := rest }, .ok line)
  | .debugger .. => s.readPast s.lines

inductive Event where
  | running
  | stopped (reason : StopReason)
  | failed (fault : Fault)
  | unreported
  | noInput (why : NoInput)
  deriving DecidableEq, Repr

/-- Lets the machine take a step. The session is taken apart so that nothing else holds on to its
memory meanwhile. -/
def advance : Session → Session × Machine.Outcome
  | { machine, front, lines, ending, asked, observer, traceTime, printed, journal } =>
    let (machine, outcome) := machine.step
    ({ machine, front, lines, ending, asked, observer, traceTime, printed, journal }, outcome)

theorem advance_eq (s : Session) :
    s.advance = ({ s with machine := s.machine.step.1 }, s.machine.step.2) := rfl

def watch (r : TraceRecord) : Session → Session
  | { machine, front, lines, ending, asked, observer, traceTime, printed, journal } =>
    let (observer, line) := observer.see r
    trace { machine, front, lines, ending, asked, observer, traceTime, printed, journal } line

def witness (s : Session) (r : TraceRecord) : Session × Event :=
  let s := s.watch r
  match s.machine.stop with
  | none => (s, .running)
  | some reason =>
    let s := s.note (.mk ⟨.info, .machine, "step", 174,
      s!"Halted ({reason.name}) at pc={s.machine.pc} after {s.machine.steps} instructions"⟩)
    (s, .stopped reason)

def supply (s : Session) : Session × Option NoInput :=
  match s.readLine with
  | (s, .error why) => (s, some why)
  | (s, .ok line) =>
    ((s.note (receivedRecord line)).feed line, none)

/-- One step of the machine, with a line asked for and queued if it waits for one. A machine that
has been given a line does not wait again. -/
def step (s : Session) : Session × Event :=
  match s.advance with
  | (s, .executed r) => s.witness r
  | (s, .failed f) => (s, .failed f)
  | (s, .unreported) => (s, .unreported)
  | (s, .starved) =>
    match s.supply with
    | (s, some why) => (s, .noInput why)
    | (s, none) =>
      match s.advance with
      | (s, .executed r) => s.witness r
      | (s, .failed f) => (s, .failed f)
      | (s, .unreported) => (s, .unreported)
      | (s, .starved) => (s, .noInput .unattached)

/-- Steps until the machine has stopped or a step goes wrong, at most so many times; there is no
event if that is not enough. -/
def run (fuel : Nat) (s : Session) : Session × Option Event :=
  match s.machine.stop with
  | some reason => (s, some (.stopped reason))
  | none =>
    match fuel with
    | 0 => (s, none)
    | fuel + 1 =>
      match s.step with
      | (s, .running) => run fuel s
      | (s, event) => (s, some event)

theorem run_succ (s : Session) (n : Nat) (hs : s.machine.stop = none) :
    s.run (n + 1) =
      match s.step with
      | (s, .running) => s.run n
      | (s, event) => (s, some event) := by
  rw [run]
  simp only [hs]

end Session

end WordMachine
