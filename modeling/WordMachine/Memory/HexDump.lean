import WordMachine.Memory
import WordMachine.Text.Hex
import WordMachine.Text.Pad

/-!
Hex dumps: eight words to a line, each line with its address, the words and the characters they
stand for. The cells end where memory ends, however many are asked for.
-/
namespace WordMachine.Memory

open Text

/-- The character a word stands for, or a point when it is not a printable ASCII code. -/
def charOf (w : Word) : Char :=
  if 0x20 ≤ w ∧ w < 0x7F then Char.ofNat w.toNat else '.'

def dumpLine (address : Nat) (ws : List Word) : String :=
  padLeft 5 (toString address) ++ "  "
    ++ padRight 39 (" ".intercalate (ws.map fun w => hex4 w.toNat))
    ++ "  " ++ String.ofList (ws.map charOf)

def dumpLines (address : Nat) : List Word → List String
  | [] => []
  | w :: ws => dumpLine address ((w :: ws).take 8) :: dumpLines (address + 8) ((w :: ws).drop 8)
  termination_by ws => ws.length
  decreasing_by simp only [List.length_drop, List.length_cons]; omega

def hexDump (m : Memory) (start count : Int) : Except Cause String := do
  let i ← checkAddress start
  let last := min (start + count) 32768
  return "\n".intercalate (dumpLines i (m.window i last.toNat))

end WordMachine.Memory
