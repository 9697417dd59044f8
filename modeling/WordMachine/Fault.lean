import WordMachine.Text.Decimal

/-!
The failures of the machine. A cause says what went wrong and holds the offending number, a fault
is its report, and the place of execution is added to a report on its way out. There is no report
if the number is too long to be written.
-/
namespace WordMachine

theorem exists_of_bind_ok {ε α β : Type} {x : Except ε α} {k : α → Except ε β} {y : β}
    (h : x >>= k = .ok y) : ∃ v, x = .ok v ∧ k v = .ok y := by
  cases x with
  | error e => contradiction
  | ok v => exact ⟨v, rfl, h⟩

inductive FaultKind where
  | general
  | outOfRangeAddress
  | valueOverflow
  | invalidOperand
  | invalidNumber
  | invalidOpcode
  | invalidRegisterTarget
  | stackUnderflow
  | divisionByZero
  | oversizedImage
  deriving DecidableEq, Repr

structure Fault where
  kind : FaultKind
  message : String
  operand : Option Int := none
  pc : Option Int := none
  opcode : Option String := none
  deriving DecidableEq, Repr

def Fault.annotate (f : Fault) (pc : Option Int) (opcode : Option String) : Fault :=
  { f with pc := f.pc <|> pc, opcode := f.opcode <|> opcode }

def Fault.context (f : Fault) : List String :=
  (f.pc.map fun pc => "pc=" ++ toString pc).toList ++ (f.opcode.map ("op=" ++ ·)).toList

def Fault.text (f : Fault) : String :=
  match f.context with
  | [] => f.message
  | parts => f.message ++ " [" ++ " ".intercalate parts ++ "]"

inductive Cause where
  | noSuchCell (address : Int)
  | tooWide (value : Int)
  | unreadable (source : Int)
  | unwritable (target : Int)
  | noSuchRegister (index : Int)
  | notANumber (word : Int)
  | unknownOpcode (word : Int)
  | setTarget (target : Int)
  | emptyStack (target : Int)
  | zeroDivisor (dividend : Int)
  | imageTooLong (bytes : Nat) (base : Int)
  deriving DecidableEq, Repr

namespace Cause

def kind : Cause → FaultKind
  | noSuchCell _ => .outOfRangeAddress
  | tooWide _ => .valueOverflow
  | unreadable _ | unwritable _ | noSuchRegister _ => .invalidOperand
  | notANumber _ => .invalidNumber
  | unknownOpcode _ => .invalidOpcode
  | setTarget _ => .invalidRegisterTarget
  | emptyStack _ => .stackUnderflow
  | zeroDivisor _ => .divisionByZero
  | imageTooLong .. => .oversizedImage

def message : Cause → String
  | noSuchCell a => s!"Invalid memory address ({a})"
  | tooWide v => s!"Invalid value ({v}), must be unsigned 16-bit"
  | unreadable x => s!"Invalid reading address ({x})"
  | unwritable x => s!"Invalid writing address ({x})"
  | noSuchRegister i => s!"Invalid register index ({i})"
  | notANumber x => s!"Invalid number ({x})"
  | unknownOpcode x => s!"Invalid op code ({x})"
  | setTarget x => s!"Invalid register target in set ({x})"
  | emptyStack _ => "Pop from empty stack"
  | zeroDivisor a => s!"Modulo by zero ({a} mod 0)"
  | imageTooLong bytes base =>
    let room := 65536 - 2 * base
    s!"Image of {bytes} bytes does not fit at word {base} ({room} bytes available)"

/-- The number at fault, if there is one: a zero divisor is reported as itself. -/
def operand : Cause → Option Int
  | noSuchCell x | tooWide x | unreadable x | unwritable x | noSuchRegister x | notANumber x
  | unknownOpcode x | setTarget x | emptyStack x => some x
  | zeroDivisor _ => some 0
  | imageTooLong .. => none

/-- The numbers of unbounded size that the message shows. -/
def shown : Cause → List Int
  | noSuchCell x | tooWide x | unreadable x | unwritable x | noSuchRegister x | notANumber x
  | unknownOpcode x | setTarget x | zeroDivisor x => [x]
  | emptyStack _ | imageTooLong .. => []

def IsReportable (c : Cause) : Prop := ∀ x ∈ c.shown, Text.IsWritable x

instance (c : Cause) : Decidable c.IsReportable := by
  unfold IsReportable
  infer_instance

/-- The report of a failure, whatever the length of its number. -/
def fault (c : Cause) : Fault := { kind := c.kind, message := c.message, operand := c.operand }

/-- The report of a failure, if it can be written. -/
def report? (c : Cause) : Option Fault := if c.IsReportable then some c.fault else none

theorem report?_eq_some_iff {c : Cause} {f : Fault} :
    c.report? = some f ↔ c.IsReportable ∧ f = c.fault := by
  simp [report?, eq_comm]

end Cause

end WordMachine
