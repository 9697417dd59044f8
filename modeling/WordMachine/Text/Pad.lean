/-!
Columns of fixed width. A text that is already wide enough is left as it is.
-/
namespace WordMachine.Text

def blanks (n : Nat) : String := String.ofList (List.replicate n ' ')

def padLeft (width : Nat) (text : String) : String := blanks (width - text.length) ++ text

def padRight (width : Nat) (text : String) : String := text ++ blanks (width - text.length)

theorem length_blanks (n : Nat) : (blanks n).length = n := by
  simp [blanks]

theorem length_padLeft (width : Nat) (text : String) :
    (padLeft width text).length = max width text.length := by
  simp only [padLeft, String.length_append, length_blanks]
  omega

theorem length_padRight (width : Nat) (text : String) :
    (padRight width text).length = max width text.length := by
  simp only [padRight, String.length_append, length_blanks]
  omega

end WordMachine.Text
