import WordMachine.Machine.Step
import WordMachine.Text.Pad
import WordMachine.Text.Styled

/-!
The tracer writes a line for each executed instruction while it is running, and a stamp whenever it
is started or stopped. Each operation gives the tracer back with the line it has written, if any. A
record with a number that is too long to be written is refused by a running tracer.
-/
namespace WordMachine

inductive TraceLine where
  | started
  | stopped
  | executed (record : TraceRecord)
  deriving DecidableEq, Repr

/-- No number that a line would show is too long to be written. -/
def TraceRecord.IsWritable (r : TraceRecord) : Prop :=
  ∀ v ∈ r.pc :: (r.operands ++ r.values), Text.IsWritable v

instance (r : TraceRecord) : Decidable r.IsWritable :=
  inferInstanceAs (Decidable (∀ v ∈ r.pc :: (r.operands ++ r.values), Text.IsWritable v))

/-- The pieces of the line of a writable record: the mnemonic in bold, the operands in yellow and
their values in bright blue. -/
def TraceRecord.pieces (r : TraceRecord) : List Text.Piece :=
  let values := match r.values with
    | [] => []
    | vs => [.ofText none " -- ", .ofText (some .brightBlue) (", ".intercalate (vs.map toString))]
  [.ofText none ("PC: " ++ Text.padLeft 5 (toString r.pc) ++ " -- "),
    .ofText (some .bold) (Text.padLeft 4 r.mnemonic ++ " "),
    .ofText (some .yellow) (", ".intercalate r.labels)] ++ values

def TraceRecord.width : Nat := 200

def TraceRecord.line (r : TraceRecord) : String := Text.display TraceRecord.width r.pieces

/-- The text of a line, its end included; stamps carry the time. -/
def TraceLine.text (time : String) : TraceLine → String
  | .started => time ++ " - Logging started\n"
  | .stopped => time ++ " - Logging stopped\n"
  | .executed r => r.line ++ "\n"

def TraceLine.textOf (time : String) (lines : List TraceLine) : String :=
  String.join (lines.map (·.text time))

structure Tracer where
  running : Bool := false
  records : Nat := 0
  deriving DecidableEq, Repr

namespace Tracer

def start (t : Tracer) : Tracer × Option TraceLine :=
  if t.running then (t, none) else ({ t with running := true }, some .started)

def stop (t : Tracer) : Tracer × Option TraceLine :=
  if t.running then ({ t with running := false }, some .stopped) else (t, none)

/-- What is refused is neither written nor counted. -/
def record (t : Tracer) (r : TraceRecord) : Tracer × Except String (Option TraceLine) :=
  if t.running then
    if r.IsWritable then ({ t with records := t.records + 1 }, .ok (some (.executed r)))
    else (t, .error Text.tooLongToWrite)
  else (t, .ok none)

def close (t : Tracer) : Tracer × Option TraceLine := t.stop

end Tracer

end WordMachine
