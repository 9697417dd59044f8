import WordMachine.Fault

/-!
The instruction set: for each opcode its number, its mnemonic and how many operand words follow.
-/
namespace WordMachine

inductive Opcode where
  | halt | set | push | pop | eq | gt | jmp | jt | jf | add | mult | mod | and | or | not | rmem
  | wmem | call | ret | out | in | noop
  deriving DecidableEq, Repr

namespace Opcode

def all : List Opcode :=
  [halt, set, push, pop, eq, gt, jmp, jt, jf, add, mult, mod, and, or, not, rmem, wmem, call, ret,
    out, .in, noop]

def code : Opcode → Nat
  | halt => 0
  | set => 1
  | push => 2
  | pop => 3
  | eq => 4
  | gt => 5
  | jmp => 6
  | jt => 7
  | jf => 8
  | add => 9
  | mult => 10
  | mod => 11
  | and => 12
  | or => 13
  | not => 14
  | rmem => 15
  | wmem => 16
  | call => 17
  | ret => 18
  | out => 19
  | .in => 20
  | noop => 21

def mnemonic : Opcode → String
  | halt => "halt"
  | set => "set"
  | push => "push"
  | pop => "pop"
  | eq => "eq"
  | gt => "gt"
  | jmp => "jmp"
  | jt => "jt"
  | jf => "jf"
  | add => "add"
  | mult => "mult"
  | mod => "mod"
  | and => "and"
  | or => "or"
  | not => "not"
  | rmem => "rmem"
  | wmem => "wmem"
  | call => "call"
  | ret => "ret"
  | out => "out"
  | .in => "in"
  | noop => "noop"

/-- How many operand words follow the opcode. -/
def arity : Opcode → Nat
  | halt | ret | noop => 0
  | push | pop | jmp | call | out | .in => 1
  | set | jt | jf | not | rmem | wmem => 2
  | eq | gt | add | mult | mod | and | or => 3

def size (op : Opcode) : Nat := 1 + op.arity

def ofWord? (word : Int) : Option Opcode :=
  if 0 ≤ word then all[word.toNat]? else none

def ofMnemonic? (name : String) : Option Opcode :=
  all.find? fun op => op.mnemonic == name

def ofWord (word : Int) : Except Cause Opcode :=
  match ofWord? word with
  | some op => .ok op
  | none => .error (.unknownOpcode word)

theorem ofWord?_code (op : Opcode) : ofWord? op.code = some op := by
  cases op <;> rfl

theorem code_all : ∀ i : Fin all.length, all[i.val].code = i.val := by
  decide

theorem code_of_ofWord? {word : Int} {op : Opcode} (h : ofWord? word = some op) :
    (op.code : Int) = word := by
  unfold ofWord? at h
  split at h
  next hw =>
    obtain ⟨n, rfl⟩ := Int.eq_ofNat_of_zero_le hw
    simp only [Int.toNat_natCast] at h
    obtain ⟨hn, rfl⟩ := List.getElem?_eq_some_iff.mp h
    exact congrArg Int.ofNat (code_all ⟨n, hn⟩)
  next => contradiction

theorem ofMnemonic?_mnemonic (op : Opcode) : ofMnemonic? op.mnemonic = some op := by
  cases op <;> rfl

theorem arity_le (op : Opcode) : op.arity ≤ 3 := by
  cases op <;> decide

end Opcode

end WordMachine
