/-!
Control codes that a display would act on: bell, backspace, the vertical ones and carriage return
are left out of displayed text.
-/
namespace WordMachine.Text

def isDisplayControl (c : Char) : Bool :=
  c.toNat == 7 || c.toNat == 8 || c.toNat == 11 || c.toNat == 12 || c.toNat == 13

def dropControls (text : String) : String :=
  String.ofList (text.toList.filter (!isDisplayControl ·))

end WordMachine.Text
