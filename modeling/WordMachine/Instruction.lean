import WordMachine.Alu
import WordMachine.Memory
import WordMachine.Opcode

/-!
Instructions with their raw operand words. What an operand means, a number, a place or a register,
is settled only when the instruction is carried out.
-/
namespace WordMachine

inductive Instruction where
  | halt
  | set (a b : Int)
  | push (a : Int)
  | pop (a : Int)
  | binary (op : BinaryOp) (a b c : Int)
  | jump (a : Int)
  /-- Jumps when the first operand is not zero, or when it is. -/
  | branch (onZero : Bool) (a b : Int)
  | not (a b : Int)
  | rmem (a b : Int)
  | wmem (a b : Int)
  | call (a : Int)
  | ret
  | out (a : Int)
  | input (a : Int)
  | noop
  deriving DecidableEq, Repr

def BinaryOp.opcode : BinaryOp → Opcode
  | .eq => .eq
  | .gt => .gt
  | .add => .add
  | .mult => .mult
  | .mod => .mod
  | .and => .and
  | .or => .or

namespace Instruction

def opcode : Instruction → Opcode
  | halt => .halt
  | set .. => .set
  | push _ => .push
  | pop _ => .pop
  | binary op .. => op.opcode
  | jump _ => .jmp
  | branch false .. => .jt
  | branch true .. => .jf
  | not .. => .not
  | rmem .. => .rmem
  | wmem .. => .wmem
  | call _ => .call
  | ret => .ret
  | out _ => .out
  | input _ => .in
  | noop => .noop

def operands : Instruction → List Int
  | halt | ret | noop => []
  | push a | pop a | jump a | call a | out a | input a => [a]
  | set a b | branch _ a b | not a b | rmem a b | wmem a b => [a, b]
  | binary _ a b c => [a, b, c]

def mnemonic (i : Instruction) : String := i.opcode.mnemonic

def size (i : Instruction) : Nat := i.opcode.size

theorem length_operands (i : Instruction) : i.operands.length = i.opcode.arity := by
  rcases i with _ | _ | _ | _ | ⟨op, _, _, _⟩ | _ | ⟨onZero, _, _⟩ | _ | _ | _ | _ | _ | _ | _ | _
  case binary => cases op <;> rfl
  case branch => cases onZero <;> rfl
  all_goals rfl

def ofOperands : (op : Opcode) → Vector Int op.arity → Instruction
  | .halt, _ => halt
  | .set, words => two set words
  | .push, words => one push words
  | .pop, words => one pop words
  | .eq, words => three .eq words
  | .gt, words => three .gt words
  | .jmp, words => one jump words
  | .jt, words => two (branch false) words
  | .jf, words => two (branch true) words
  | .add, words => three .add words
  | .mult, words => three .mult words
  | .mod, words => three .mod words
  | .and, words => three .and words
  | .or, words => three .or words
  | .not, words => two not words
  | .rmem, words => two rmem words
  | .wmem, words => two wmem words
  | .call, words => one call words
  | .ret, _ => ret
  | .out, words => one out words
  | .in, words => one input words
  | .noop, _ => noop
where
  one (make : Int → Instruction) (words : Vector Int 1) : Instruction := make words[0]
  two (make : Int → Int → Instruction) (words : Vector Int 2) : Instruction :=
    make words[0] words[1]
  three (op : BinaryOp) (words : Vector Int 3) : Instruction :=
    binary op words[0] words[1] words[2]

theorem opcode_ofOperands (op : Opcode) (words : Vector Int op.arity) :
    (ofOperands op words).opcode = op := by
  cases op <;> rfl

def readOperands (m : Memory) (pc : Int) (op : Opcode) : Except Cause Instruction := do
  return ofOperands op (← m.readRun (pc + 1) op.arity)

def decode (m : Memory) (pc : Int) : Except Cause Instruction := do
  readOperands m pc (← Opcode.ofWord (← m.read pc))

theorem opcode_of_readOperands {m : Memory} {pc : Int} {op : Opcode} {i : Instruction}
    (h : readOperands m pc op = .ok i) : i.opcode = op := by
  obtain ⟨words, -, h⟩ := exists_of_bind_ok h
  cases h
  exact opcode_ofOperands op words

end Instruction

end WordMachine
