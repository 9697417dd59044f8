/-!
The bound on decimal numbers. A number of more than 4300 digits is too long to be written in decimal
or to be read from it; other bases have no such bound.
-/
namespace WordMachine.Text

def digitLimit : Nat := 4300

/-- The least number that is too long to be written. -/
def unwritable : Nat := Nat.pow 10 digitLimit

abbrev IsWritable (v : Int) : Prop := v.natAbs < unwritable

theorem lt_tenPow {n k : Nat} (h : n < 0x10000000000000000) (hk : 20 ≤ k) : n < Nat.pow 10 k :=
  Nat.lt_of_lt_of_le (Nat.lt_trans h (by decide))
    (Nat.pow_le_pow_right (show 0 < 10 by decide) hk)

theorem lt_unwritable {n : Nat} (h : n < 0x10000000000000000) : n < unwritable := by
  unfold unwritable
  exact lt_tenPow h (by decide)

theorem isWritable_of_natAbs_lt {v : Int} (h : v.natAbs < 0x10000000000000000) : IsWritable v :=
  lt_unwritable h

theorem not_isWritable_unwritable : ¬IsWritable unwritable := by
  rw [IsWritable, Int.natAbs_natCast]
  exact Nat.lt_irrefl _

/-- What is said instead of a text with a number that is too long to be written. -/
def tooLongToWrite : String :=
  "Exceeds the limit (4300 digits) for integer string conversion; "
    ++ "use sys.set_int_max_str_digits() to increase the limit"

def tooLongToRead (digits : Nat) : String :=
  s!"Exceeds the limit (4300 digits) for integer string conversion: value has {digits} digits; "
    ++ "use sys.set_int_max_str_digits() to increase the limit"

end WordMachine.Text
