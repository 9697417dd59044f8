import WordMachine.Instruction
import WordMachine.Text.Blank
import WordMachine.Text.Pad
import WordMachine.Text.Quoted

/-!
Disassembly: a walk over memory that lists one instruction after the other. A word that is no
opcode, or whose operands would lie past the end of memory, is listed as data.
-/
namespace WordMachine.Listing

inductive Item where
  | instruction (i : Instruction)
  | data (word : Int)
  deriving DecidableEq, Repr

structure Line where
  address : Int
  item : Item
  deriving DecidableEq, Repr

namespace Item

def isData : Item → Bool
  | instruction _ => false
  | data _ => true

def mnemonic : Item → String
  | instruction i => i.mnemonic
  | data _ => ".word"

def operands : Item → List Int
  | instruction i => i.operands
  | data word => [word]

def words : Item → List Int
  | instruction i => i.opcode.code :: i.operands
  | data word => [word]

def length (item : Item) : Nat := item.words.length

theorem length_pos (item : Item) : 0 < item.length := by
  cases item <;> simp [length, words]

/-- Operands by name, except that an output of a visible character or a line feed shows it. -/
def operandText : Item → String
  | instruction (.out a) =>
    if 0x20 ≤ a ∧ a < 0x7F then Text.quoted (Char.ofNat a.toNat).toString
    else if a = 0x0A then "'\\n'"
    else registerName a
  | item => " ".intercalate (item.operands.map registerName)

end Item

def Line.text (line : Line) : String :=
  let full := Text.padLeft 5 (toString line.address) ++ ": " ++ Text.padRight 5 line.item.mnemonic
    ++ " " ++ line.item.operandText
  String.ofList (Text.trimRight full.toList)

/-- What stands at an address. -/
def itemAt (m : Memory) (address : Int) : Except Cause Item := do
  let word ← m.read address
  match Opcode.ofWord? word with
  | none => return .data word
  | some op =>
    if address + op.arity > 32767 then return .data word
    else return .instruction (← Instruction.readOperands m address op)

/-- The lines that begin between two addresses, both included, and what ended the listing early. -/
def disassemble (m : Memory) (address last : Int) : List Line × Option Cause :=
  if last < address then ([], none)
  else match itemAt m address with
    | .error c => ([], some c)
    | .ok item =>
      let (rest, failure) := disassemble m (address + item.length) last
      (⟨address, item⟩ :: rest, failure)
  termination_by (last + 1 - address).toNat
  decreasing_by
    have := item.length_pos
    omega

end WordMachine.Listing
