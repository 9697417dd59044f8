import WordMachine.Text.Blank
import WordMachine.Text.Decimal
import WordMachine.Text.Digit
import WordMachine.Text.Quoted

/-!
Integer numerals: an optional sign, an optional sign of the base, and digits of any script with
single underscores between them, all possibly surrounded by white space. Decimal digits are counted
before anything else is found wrong with what follows them.
-/
namespace WordMachine.Text

inductive NumeralFault where
  | malformed
  | tooLong (digits : Nat)
  deriving DecidableEq, Repr

inductive Radix where
  /-- Decimal, leading zeros allowed. -/
  | ten
  /-- Hexadecimal, `0x` allowed. -/
  | sixteen
  /-- By `0x`, `0o` or `0b`, else decimal without leading zeros. -/
  | marked
  deriving DecidableEq, Repr

def Radix.number : Radix → Nat
  | .ten => 10
  | .sixteen => 16
  | .marked => 0

/-- Digits of any script become plain ones and wide blanks become spaces; what then is not plain
cannot be part of a numeral. -/
def plainChar (c : Char) : Char :=
  if c.toNat < 0x7F then c
  else match decimalValue? c with
    | some d => Char.ofNat (48 + d)
    | none => if isBlank c then ' ' else '?'

def isPlainBlank (c : Char) : Bool := c = ' ' || (0x09 ≤ c.toNat && c.toNat ≤ 0x0D)

def digitValue? (base : Nat) (c : Char) : Option Nat :=
  let n := c.toNat
  let value :=
    if 48 ≤ n ∧ n ≤ 57 then n - 48
    else if 97 ≤ n ∧ n ≤ 122 then n - 87
    else if 65 ≤ n ∧ n ≤ 90 then n - 55
    else 36
  if value < base then some value else none

def moreDigits (base value : Nat) : List Char → Option Nat
  | [] => some value
  | '_' :: c :: rest => do
    let d ← digitValue? base c
    moreDigits base (value * base + d) rest
  | c :: rest => do
    let d ← digitValue? base c
    moreDigits base (value * base + d) rest

def digits? (base : Nat) : List Char → Option Nat
  | [] => none
  | c :: rest => do
    let d ← digitValue? base c
    moreDigits base d rest

def markedBase? (letter : Char) : Option Nat :=
  if letter = 'x' ∨ letter = 'X' then some 16
  else if letter = 'o' ∨ letter = 'O' then some 8
  else if letter = 'b' ∨ letter = 'B' then some 2
  else none

/-- One underscore may follow the sign of the base. -/
def afterMark : List Char → List Char
  | '_' :: rest => rest
  | cs => cs

def digitRun (cs : List Char) : List Char :=
  cs.takeWhile fun c => c = '_' || (digitValue? 10 c).isSome

/-- Whether each underscore of a run stands between two digits. -/
def isSpaced : List Char → Bool
  | [] => false
  | [c] => c ≠ '_'
  | '_' :: _ => false
  | _ :: '_' :: rest => isSpaced rest
  | _ :: c :: rest => isSpaced (c :: rest)

def orMalformed : Option Nat → Except NumeralFault Nat
  | some n => .ok n
  | none => .error .malformed

def decimal (cs : List Char) : Except NumeralFault Nat :=
  let run := digitRun cs
  let count := run.countP (· ≠ '_')
  if digitLimit < count ∧ isSpaced run then .error (.tooLong count) else orMalformed (digits? 10 cs)

def unsigned (radix : Radix) (cs : List Char) : Except NumeralFault Nat :=
  match radix, cs with
  | .ten, _ => decimal cs
  | .sixteen, '0' :: letter :: rest =>
    orMalformed
      (if markedBase? letter = some 16 then digits? 16 (afterMark rest) else digits? 16 cs)
  | .sixteen, _ => orMalformed (digits? 16 cs)
  | .marked, '0' :: rest =>
    match rest.head?.bind markedBase? with
    | some base => orMalformed (digits? base (afterMark rest.tail))
    | none => do
      match ← decimal cs with
      | 0 => return 0
      | _ => throw .malformed
  | .marked, _ => decimal cs

def signed (radix : Radix) (cs : List Char) : Except NumeralFault Int :=
  match cs with
  | '-' :: rest => (unsigned radix rest).map fun n => -(n : Int)
  | '+' :: rest => (unsigned radix rest).map fun n => (n : Int)
  | _ => (unsigned radix cs).map fun n => (n : Int)

def trimPlain (cs : List Char) : List Char :=
  ((cs.dropWhile isPlainBlank).reverse.dropWhile isPlainBlank).reverse

def integer (radix : Radix) (text : List Char) : Except NumeralFault Int :=
  signed radix (trimPlain (text.map plainChar))

/-- What is said of a text that is no numeral; a very long text is cut. -/
def NumeralFault.message (radix : Radix) (text : List Char) : NumeralFault → String
  | malformed =>
    s!"invalid literal for int() with base {radix.number}: "
      ++ String.ofList ((quoted (String.ofList text)).toList.take 200)
  | tooLong digits => tooLongToRead digits

end WordMachine.Text
