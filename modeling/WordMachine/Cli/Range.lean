import WordMachine.Text.Numeral

/-!
Ranges of addresses, written as two numbers with a hyphen between them. The first hyphen separates,
so a range cannot begin below zero.
-/
namespace WordMachine.Cli

inductive RangeError where
  | noHyphen (text : String)
  | badNumber (text : String)
  deriving DecidableEq, Repr

def RangeError.message : RangeError → String
  | noHyphen text => "expected START-END, got " ++ Text.quoted text
  | badNumber text => "bad range " ++ Text.quoted text

def parseRange (text : String) : Except RangeError (Int × Int) :=
  match text.toList.span (· != '-') with
  | (_, []) => .error (.noHyphen text)
  | (first, _ :: last) =>
    match Text.integer .marked first, Text.integer .marked last with
    | .ok a, .ok b => .ok (a, b)
    | _, _ => .error (.badNumber text)

end WordMachine.Cli
