import WordMachine.Bits
import WordMachine.Fault
import WordMachine.Word

/-!
Arithmetic on resolved operands. Sums and products are reduced to fifteen bits; the other
operations let wider values through, since a register may hold any sixteen-bit word.
-/
namespace WordMachine

inductive BinaryOp where
  | eq
  | gt
  | add
  | mult
  | mod
  | and
  | or
  deriving DecidableEq, Repr

/-- The remainder has the sign of the divisor. -/
def BinaryOp.apply : BinaryOp → Int → Int → Except Cause Int
  | .eq, a, b => .ok (if a = b then 1 else 0)
  | .gt, a, b => .ok (if a > b then 1 else 0)
  | .add, a, b => .ok ((a + b) % modulus)
  | .mult, a, b => .ok ((a * b) % modulus)
  | .mod, a, b => if b = 0 then .error (.zeroDivisor a) else .ok (a.fmod b)
  | .and, a, b => .ok (Bits.meet a b)
  | .or, a, b => .ok (Bits.join a b)

/-- Inverts the low fifteen bits and keeps the others. -/
def complement (a : Int) : Int := Bits.differ a 0x7FFF

end WordMachine
