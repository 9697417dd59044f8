import WordMachine.Proofs.InstructionTable

/-!
What can be said against an instruction. Each opcode has a list of checks in the order in which they
are made, and the first that objects decides the report. The target of a branch is checked only if
the branch is taken.
-/
namespace WordMachine

namespace Objection

def objectIf (p : Prop) [Decidable p] (f : Fault) : Option Fault := if p then some f else none

def noCell (x : Int) : Fault :=
  { kind := .outOfRangeAddress, message := s!"Invalid memory address ({x})", operand := some x }

def unknownOpcode (word : Int) : Fault :=
  { kind := .invalidOpcode, message := s!"Invalid op code ({word})", operand := some word }

def value (w : Int) : Option Fault :=
  objectIf (w > 32775)
    { kind := .invalidNumber, message := s!"Invalid number ({w})", operand := some w }

def source (x : Int) : Option Fault :=
  objectIf (x > 32775)
    { kind := .invalidOperand, message := s!"Invalid reading address ({x})", operand := some x }

def place (x : Int) : Option Fault :=
  objectIf (x > 32775)
    { kind := .invalidOperand, message := s!"Invalid writing address ({x})", operand := some x }

def target (x : Int) : Option Fault := objectIf (x > 32767) (noCell x)

def register (a : Int) : Option Fault :=
  objectIf (¬(32768 ≤ a ∧ a ≤ 32775))
    { kind := .invalidRegisterTarget, message := s!"Invalid register target in set ({a})"
      operand := some a }

def entry (stack : List Int) (a : Int) : Option Fault :=
  objectIf (stack = [])
    { kind := .stackUnderflow, message := "Pop from empty stack", operand := some a }

def divisor (x y : Int) : Option Fault :=
  objectIf (y = 0)
    { kind := .divisionByZero, message := s!"Modulo by zero ({x} mod 0)", operand := some 0 }

def first (checks : List (Option Fault)) : Option Fault := checks.findSome? id

@[simp] theorem first_nil : first [] = none := rfl

end Objection

namespace Machine

open Objection

/-- The checks of an instruction with these operands, in their order. -/
def checks (m : Machine) (a b c : Int) : Opcode → List (Option Fault)
  | .halt | .noop => []
  | .set => [register a, value b]
  | .push | .out => [value a]
  | .pop => [entry m.stack a, place a]
  | .eq | .gt | .add | .mult | .and | .or => [value b, value c, place a]
  | .mod => [value b, value c, divisor (m.val b) (m.val c), place a]
  | .jmp | .call => [value a, target (m.val a)]
  | .jt => value a :: if m.val a ≠ 0 then [value b, target (m.val b)] else []
  | .jf => value a :: if m.val a = 0 then [value b, target (m.val b)] else []
  | .not => [value b, place a]
  | .rmem => [value b, source (m.val b), place a]
  | .wmem => [value a, value b, place (m.val a)]
  | .ret => (m.stack.head?.map target).toList
  | .in => [place a]

/-- What is said against the instruction at the program counter, once it is known. -/
def objection (m : Machine) (op : Opcode) : Option Fault :=
  first (m.checks (m.wordAt 1) (m.wordAt 2) (m.wordAt 3) op)

/-- What stops a step: there is no cell at the program counter, no opcode in it, a missing operand,
or a check that objects. -/
inductive Fails (m : Machine) : Option Opcode → Fault → Prop where
  | outside : m.pc = 32768 → Fails m none (noCell m.pc)
  | noOpcode : m.pc ≤ 32767 → 21 < m.wordAt 0 → Fails m none (unknownOpcode (m.wordAt 0))
  | cutOff {op : Opcode} : m.pc ≤ 32767 → m.wordAt 0 = op.code → 32767 < m.pc + op.arity →
      Fails m (some op) (noCell 32768)
  | refused {op : Opcode} {f : Fault} : m.Fetches op → m.objection op = some f →
      Fails m (some op) f

end Machine

end WordMachine
