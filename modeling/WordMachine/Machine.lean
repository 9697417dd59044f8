import WordMachine.CharConsole
import WordMachine.Instruction
import WordMachine.Registers

/-!
The state of the machine and how it resolves operands. A number below 32768 is a value or names a
cell, the next eight name registers, and larger numbers are refused.
-/
namespace WordMachine

inductive StopReason where
  | halt
  | ret
  deriving DecidableEq, Repr

def StopReason.name : StopReason → String
  | .halt => "HALT"
  | .ret => "RETURN"

structure Machine where
  memory : Memory := .empty
  registers : Registers := .zero
  /-- The top entry comes first. -/
  stack : List Int := []
  console : CharConsole := {}
  pc : Int := 0
  /-- A machine has halted just if there is a reason, so that the two cannot disagree. -/
  stop : Option StopReason := none
  steps : Nat := 0

namespace Machine

def halted (m : Machine) : Bool := m.stop.isSome

def valueOf (m : Machine) (x : Int) : Except Cause Int :=
  match Place.ofNumber? x with
  | some (.cell _) => .ok x
  | some (.register i) => .ok (m.registers.get i)
  | none => .error (.notANumber x)

def load (m : Machine) (x : Int) : Except Cause Int :=
  match Place.ofNumber? x with
  | some (.cell a) => .ok (m.memory.get a).toNat
  | some (.register i) => .ok (m.registers.get i)
  | none => .error (.unreadable x)

/-- The place named by a number and the word to be put there; the place is checked first. -/
def destination (x v : Int) : Except Cause (Place × Word) :=
  match Place.ofNumber? x with
  | none => .error (.unwritable x)
  | some p => do return (p, ← checkWord v)

def put (m : Machine) : Place → Word → Machine
  | .cell a, w => { m with memory := m.memory.set a w }
  | .register i, w => { m with registers := m.registers.set i w.toNat }

def store (m : Machine) (x v : Int) : Except Cause Machine := do
  let (p, w) ← destination x v
  return m.put p w

def jumpTarget (m : Machine) (x : Int) : Except Cause Int := do
  let v ← m.valueOf x
  let _ ← checkAddress v
  return v

def setRegister (m : Machine) (index v : Int) : Except Cause Machine :=
  if 0 ≤ index ∧ index < 8 then m.store (32768 + index) v else .error (.noSuchRegister index)

def display (m : Machine) : String :=
  s!"PC={m.pc} {m.registers.display} SP={m.stack.length}"

/-- Everything starts anew except memory and what the sink has received. -/
def reset (m : Machine) : Machine :=
  { memory := m.memory, console := m.console.reset }

end Machine

end WordMachine
