/-!
Hexadecimal numbers in capitals, filled up with zeros behind the sign.
-/
namespace WordMachine.Text

def hexDigits (n : Nat) : List Char := (Nat.toDigits 16 n).map Char.toUpper

/-- At least four characters wide, the sign counted. -/
def hex4 (v : Int) : String :=
  let digits := hexDigits v.natAbs
  if v < 0 then String.ofList ('-' :: (List.replicate (3 - digits.length) '0' ++ digits))
  else String.ofList (List.replicate (4 - digits.length) '0' ++ digits)

end WordMachine.Text
