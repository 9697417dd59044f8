import WordMachine.Text.Printable

/-!
Quoted texts for messages. Quotes are single unless that would need an escape and double ones would
not; what cannot be shown is written by its number.
-/
namespace WordMachine.Text

def hexEscape (width n : Nat) : String :=
  let digits := Nat.toDigits 16 n
  String.ofList (List.replicate (width - digits.length) '0' ++ digits)

def escapeChar (quote : Char) (c : Char) : String :=
  if c = quote ∨ c = '\\' then String.ofList ['\\', c]
  else if c = '\n' then "\\n"
  else if c = '\r' then "\\r"
  else if c = '\t' then "\\t"
  else if isPrintable c then c.toString
  else if c.toNat < 0x100 then "\\x" ++ hexEscape 2 c.toNat
  else if c.toNat < 0x10000 then "\\u" ++ hexEscape 4 c.toNat
  else "\\U" ++ hexEscape 8 c.toNat

def quoteFor (cs : List Char) : Char := if '\'' ∈ cs ∧ '"' ∉ cs then '"' else '\''

def quoted (text : String) : String :=
  let quote := quoteFor text.toList
  quote.toString ++ String.join (text.toList.map (escapeChar quote)) ++ quote.toString

end WordMachine.Text
