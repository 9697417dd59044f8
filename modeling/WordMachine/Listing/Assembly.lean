import WordMachine.Opcode
import WordMachine.Text.Numeral
import WordMachine.Word

/-!
Assembly: statements separated by semicolons or line ends, each a mnemonic with its operands.
Operands are numbers in any common base or registers `R0` to `R7`.
-/
namespace WordMachine.Listing

inductive AssemblyError where
  | unknownMnemonic (name : String)
  | operandCount (op : Opcode) (given : Nat)
  | unknownRegister (name : String)
  | numeral (radix : Text.Radix) (text : String) (fault : Text.NumeralFault)
  deriving DecidableEq, Repr

def AssemblyError.message : AssemblyError → String
  | .unknownMnemonic name => s!"Unknown mnemonic: {name}"
  | .operandCount op given => s!"{op.mnemonic} takes {op.arity} operand(s), got {given}"
  | .unknownRegister name => s!"Unknown register: {name}"
  | .numeral radix text fault => fault.message radix text.toList

def isSeparator (c : Char) : Bool := c = ';' || c = '\n'

/-- Cuts a source at its separators. The first argument is the statement read so far, in reverse. -/
def statementsFrom (before : List Char) : List Char → List (List Char)
  | [] => [before.reverse]
  | c :: rest =>
    if isSeparator c then before.reverse :: statementsFrom [] rest
    else statementsFrom (c :: before) rest

def statements (source : List Char) : List (List Char) := statementsFrom [] source

def lowerAscii (name : List Char) : List Char := name.map Char.toLower

def numeral (radix : Text.Radix) (text : List Char) : Except AssemblyError Int :=
  (Text.integer radix text).mapError (.numeral radix (String.ofList text))

/-- A register counts from 0 to 7; any other operand is a number of any size. -/
def operand (text : List Char) : Except AssemblyError Int :=
  match text with
  | 'R' :: digits | 'r' :: digits => do
    let index ← numeral .ten digits
    if 0 ≤ index ∧ index < 8 then return 32768 + index
    else throw (.unknownRegister (String.ofList text))
  | _ => numeral .marked text

def statementWords (statement : List Char) : Except AssemblyError (List Int) :=
  match Text.words statement with
  | [] => .ok []
  | name :: operands =>
    match Opcode.ofMnemonic? (String.ofList (lowerAscii name)) with
    | none => .error (.unknownMnemonic (String.ofList name))
    | some op => do
      unless operands.length = op.arity do throw (.operandCount op operands.length)
      return op.code :: (← operands.mapM operand)

/-- The words of a source; the first statement that is wrong is reported. -/
def assemble (source : List Char) : Except AssemblyError (List Int) := do
  return (← (statements source).mapM statementWords).flatten

end WordMachine.Listing
